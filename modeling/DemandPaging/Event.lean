import DemandPaging.Memory.FrameTable
import DemandPaging.Page.Basic
import DemandPaging.PageFault

/-!
# The journal

What the machine and the workloads report while they run. An event names what happened; its
severity, the component that reports it and its wording are decided here and nowhere else.
-/

namespace DemandPaging

/-- How much an event matters, the most serious first. -/
inductive Severity where
  | error | warn | info | debug | trace
deriving DecidableEq

namespace Severity

/-- The severities in order. -/
def all : List Severity := [error, warn, info, debug, trace]

/-- Position in the order, the most serious first. -/
def rank : Severity → Nat
  | error => 0
  | warn => 1
  | info => 2
  | debug => 3
  | trace => 4

/-- The name of a severity in a journal line. -/
def name : Severity → String
  | error => "ERROR"
  | warn => "WARN"
  | info => "INFO"
  | debug => "DEBUG"
  | trace => "TRACE"

/-- The severity with this name, in capitals or not. -/
def ofName? (text : String) : Option Severity := all.find? fun s => s.name == text.toUpper

end Severity

/-- The part of the program that reports an event. -/
inductive Component where
  | machine | space | fault | mapping | frameTable | swap | workload
deriving DecidableEq

/-- The name of a component in a journal line. -/
def Component.name : Component → String
  | machine => "vm"
  | space => "space"
  | fault => "fault"
  | mapping => "mmap"
  | frameTable => "frame_table"
  | swap => "swap"
  | workload => "workload"

/-- Something that happened. -/
inductive Event where
  /-- A machine was started over so many frames and swap slots. -/
  | started (frames slots : Nat)
  /-- A space was created. -/
  | created (id : SpaceId)
  /-- A page was registered at an address. -/
  | registered (id : SpaceId) (type : PageType) (va : Address)
  /-- A registration that is only answered by yes or no was refused. -/
  | registrationFailed (id : SpaceId) (va : Address) (cause : Refusal)
  /-- A victim was chosen. -/
  | victim (ppn : FrameNum)
  /-- A page was written to a swap slot. -/
  | slotWritten (slot : Nat)
  /-- A page was read from a swap slot. -/
  | slotRead (slot : Nat)
  /-- A frame was taken away from its owners. -/
  | evicted (ppn : FrameNum) (owners : Nat) (slot : Option Nat)
  /-- An eviction group came back into one frame, with so many sharers. -/
  | restored (sharers : Nat) (ppn : FrameNum)
  /-- A page was made resident. -/
  | claimed (owner : Owner) (ppn : FrameNum)
  /-- A claim that is only answered by yes or no was refused. -/
  | claimFailed (id : SpaceId) (va : Address) (cause : Refusal)
  /-- A shared frame was copied for one of its owners. -/
  | unshared (owner : Owner) (source target : FrameNum)
  /-- A page was unregistered. -/
  | removed (owner : Owner)
  /-- A page of a space that is torn down could not be released. -/
  | releaseFailed (owner : Owner) (cause : Refusal)
  /-- A space was torn down. -/
  | destroyed (id : SpaceId)
  /-- Every page of one space was copied into another. -/
  | copied (source target : SpaceId)
  /-- A copy that is only answered by yes or no was refused. -/
  | copyFailed (source : SpaceId) (cause : Refusal)
  /-- A stack grew down to a page. -/
  | stackGrew (id : SpaceId) (vpn : PageNum)
  /-- A fault makes a page resident. -/
  | faultClaims (owner : Owner)
  /-- A fault could not be resolved. -/
  | faultFailed (id : SpaceId) (fault : PageFault) (cause : Refusal)
  /-- A file was mapped from one address up to another. -/
  | mapped (id : SpaceId) (inode : Nat) (start stop : Address) (mapping : Nat)
  /-- An unmapping named an address inside a mapping. -/
  | insideMapping (va : Address) (mapping : Nat)
  /-- A mapping was taken away. -/
  | unmapped (id : SpaceId) (mapping pages : Nat) (va : Address)
  /-- An unmapping was refused. -/
  | unmapFailed (id : SpaceId) (va : Address) (cause : Refusal)
  /-- A workload found every page as expected in one round. -/
  | roundVerified (round pages : Nat)
  /-- A workload has forced so many evictions. -/
  | churned (evictions : Nat)

namespace Event

/-- How much an event matters. A fault the process was not allowed to cause is a warning, any other
one that fails an error. -/
def severity : Event → Severity
  | started .. | created .. | destroyed .. | copied .. | mapped .. | unmapped .. => .info
  | roundVerified .. | churned .. => .info
  | evicted .. | restored .. | unshared .. | stackGrew .. | faultClaims .. => .debug
  | registered .. | claimed .. | removed .. | victim .. | slotWritten .. | slotRead .. => .trace
  | registrationFailed .. | claimFailed .. | releaseFailed .. | copyFailed .. => .warn
  | unmapFailed .. | insideMapping .. => .warn
  | faultFailed _ _ cause => if cause.isProtection then .warn else .error

/-- The component that reports an event. -/
def component : Event → Component
  | registrationFailed .. | claimFailed .. | unmapFailed .. => .space
  | faultClaims .. | faultFailed .. => .fault
  | mapped .. | insideMapping .. | unmapped .. => .mapping
  | victim .. => .frameTable
  | slotWritten .. | slotRead .. => .swap
  | roundVerified .. | churned .. => .workload
  | _ => .machine

/-- The wording of an event. -/
def text : Event → String
  | started frames slots =>
    "vm: " ++ toString frames ++ " user frames, " ++ toString slots ++ " swap slots"
  | created id => "vm: created " ++ id.describe
  | registered id type va =>
    "vm: " ++ id.describe ++ " registered " ++ type.describe ++ " page at " ++ va.describe
  | registrationFailed id va cause =>
    "vm: " ++ id.describe ++ " allocation at " ++ va.describe ++ " failed: " ++ cause.message
  | victim ppn => "clock: victim " ++ ppn.describe
  | slotWritten slot => "swap: wrote slot " ++ toString slot
  | slotRead slot => "swap: read slot " ++ toString slot
  | evicted ppn owners slot =>
    "vm: evicted " ++ ppn.describe ++ " from " ++ toString owners ++ " owner(s), slot "
      ++ optionText (slot.map toString)
  | restored sharers ppn =>
    "vm: restored " ++ toString sharers ++ " sharer(s) of " ++ ppn.describe
  | claimed owner ppn =>
    "vm: " ++ owner.space.describe ++ " claimed " ++ owner.vpn.describe ++ " into " ++ ppn.describe
  | claimFailed id va cause =>
    "vm: " ++ id.describe ++ " claim of " ++ va.describe ++ " failed: " ++ cause.message
  | unshared owner source target =>
    "vm: " ++ owner.space.describe ++ " copied " ++ source.describe ++ " to " ++ target.describe
      ++ " for " ++ owner.vpn.describe
  | removed owner => "vm: " ++ owner.space.describe ++ " removed page " ++ owner.vpn.describe
  | releaseFailed owner cause =>
    "vm: " ++ owner.space.describe ++ " failed to release " ++ owner.vpn.describe ++ ": "
      ++ cause.message
  | destroyed id => "vm: destroyed " ++ id.describe
  | copied source target => "vm: copied " ++ source.describe ++ " into " ++ target.describe
  | copyFailed source cause =>
    "vm: copy of " ++ source.describe ++ " failed: " ++ cause.message
  | stackGrew id vpn => "vm: " ++ id.describe ++ " stack grew to " ++ vpn.describe
  | faultClaims owner =>
    "fault: " ++ owner.space.describe ++ " claims " ++ owner.vpn.describe
  | faultFailed id fault cause =>
    "fault: " ++ id.describe ++ " " ++ fault.describe
      ++ (if cause.isProtection then " rejected: " else " failed: ") ++ cause.message
  | mapped id inode start stop mapping =>
    "mmap: " ++ id.describe ++ " mapped inode " ++ toString inode ++ " at " ++ start.describe
      ++ ".." ++ stop.describe ++ " as #" ++ toString mapping
  | insideMapping va mapping =>
    "munmap: " ++ va.describe ++ " is inside mapping #" ++ toString mapping ++ ", not its start"
  | unmapped id mapping pages va =>
    "munmap: " ++ id.describe ++ " unmapped #" ++ toString mapping ++ ", " ++ toString pages
      ++ " page(s) at " ++ va.describe
  | unmapFailed id va cause =>
    "vm: " ++ id.describe ++ " munmap of " ++ va.describe ++ " failed: " ++ cause.message
  | roundVerified round pages =>
    "anon: round " ++ toString round ++ " verified " ++ toString pages ++ " page(s)"
  | churned evictions => "mmap: " ++ toString evictions ++ " eviction(s) after churn"

/-- The journal line of an event. -/
def line (event : Event) : String :=
  event.severity.name ++ " " ++ event.component.name ++ ": " ++ event.text

end Event

end DemandPaging
