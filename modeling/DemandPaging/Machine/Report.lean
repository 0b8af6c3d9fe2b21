import DemandPaging.Machine.Basic

/-!
# What can be asked of a machine

Questions that change nothing: usage and counters, and what a space knows about an address.
-/

namespace DemandPaging

/-- Frame and swap usage, with the counters. -/
structure Stats where
  framesTotal : Nat
  framesFree : Nat
  framesResident : Nat
  swapSlots : Nat
  swapUsed : Nat
  counters : Counters
deriving DecidableEq

/-- What is told about a registered page. -/
structure PageInfo where
  vpn : PageNum
  type : PageType
  writable : Bool
  state : PageState
  /-- The mapping the page belongs to, zero if none. -/
  mapping : Nat
deriving DecidableEq

/-- The description of a page. -/
def Page.info (page : Page) : PageInfo :=
  { vpn := page.vpn, type := page.type, writable := page.writable, state := page.state,
    mapping := page.mapping }

namespace Machine

/-- Current usage and counters. -/
def stats (m : Machine) : Stats :=
  { framesTotal := m.frames.total
    framesFree := m.frames.free
    framesResident := m.resident.size
    swapSlots := m.backing.swap.capacity
    swapUsed := m.backing.swap.used
    counters := m.counters }

/-- The page of a space that an address lies in. -/
def pageAt? (m : Machine) (id : SpaceId) (va : Address) : Option Page := m.page? ⟨id, va.page⟩

/-- The frame that holds the page at an address. -/
def frameAt? (m : Machine) (id : SpaceId) (va : Address) : Option FrameNum :=
  (m.pageAt? id va).bind Page.frame

/-- Whether the page at an address is mapped with its dirty bit set. -/
def isDirtyAt (m : Machine) (id : SpaceId) (va : Address) : Bool :=
  m.hasFlag ⟨id, va.page⟩ .dirty

/-- Number of pages a space has registered, none if there is no such space. -/
def pageCount (m : Machine) (id : SpaceId) : Nat :=
  (m.spaces[id]?.map (·.registry.size)).getD 0

/-- Number of pages that share a frame. -/
def shareCount (m : Machine) (ppn : FrameNum) : Nat := m.resident.shareCount ppn

/-- The journal, and the machine with an empty one. -/
def takeJournal (m : Machine) : Array Event × Machine := (m.journal, { m with journal := #[] })

end Machine

/-- The lines of the events that matter at least as much as `least`. -/
def journalLines (least : Severity) (events : Array Event) : List String :=
  (events.toList.filter fun event => decide (event.severity.rank ≤ least.rank)).map Event.line

end DemandPaging
