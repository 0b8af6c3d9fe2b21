import DemandPaging.Machine.Access
import DemandPaging.Machine.Mapping
import DemandPaging.Machine.Report
import DemandPaging.Machine.Spaces

/-!
# Operations

Everything a process or a kernel can ask of a machine, as data. `perform` gives the reply or is
refused; `succeeds` only tells whether it went through, and reports a refusal in the journal where
such a request is reported.
-/

namespace DemandPaging

/-- A request to a machine. -/
inductive Operation where
  /-- Create an empty space. -/
  | create
  /-- Create a space that shares every page of `parent`. -/
  | fork (parent : SpaceId)
  /-- Tear a space down. -/
  | drop (id : SpaceId)
  /-- Copy every page of a space into `target`. -/
  | copy (target : SpaceId) (source : Machine.CopySource)
  /-- Register a page at the page of `va`. -/
  | register (id : SpaceId) (type : PageType) (va : Address) (writable : Bool) (setup : Setup)
  /-- Make the page of `va` resident. -/
  | claim (id : SpaceId) (va : Address)
  /-- Resolve a page fault. -/
  | resolve (id : SpaceId) (fault : PageFault)
  /-- Unregister the page of `va`. -/
  | remove (id : SpaceId) (va : Address)
  /-- Map a part of a file. -/
  | map (id : SpaceId) (va : Address) (length : Nat) (writable : Bool) (handle : HandleNum)
    (offset : Nat)
  /-- Take the mapping that starts at `va` away. -/
  | unmap (id : SpaceId) (va : Address)
  /-- Register and load the first stack page. -/
  | setupStack (id : SpaceId)
  /-- Read user memory. -/
  | read (id : SpaceId) (va : Address) (length : Nat)
  /-- Write user memory. -/
  | write (id : SpaceId) (va : Address) (bytes : Bytes)

/-- The answer to a request that was not refused. -/
inductive Reply where
  | done
  | space (id : SpaceId)
  | frame (ppn : FrameNum)
  | address (va : Address)
  | bytes (result : Machine.ReadResult)
deriving DecidableEq

namespace Operation

/-- Carry a request out. -/
def perform : Operation → MachineM Reply
  | create => return .space (← Machine.createSpace)
  | fork parent => return .space (← Machine.fork parent)
  | drop id => do
    Machine.destroySpace id
    return .done
  | copy target source => do
    Machine.copySpace target source
    return .done
  | register id type va writable setup => do
    Machine.register id type va writable (← Machine.prepare setup)
    return .done
  | claim id va => return .frame (← Machine.claim ⟨id, va.page⟩)
  | resolve id fault => do
    Machine.resolveFault id fault
    return .done
  | remove id va => do
    Machine.removePage ⟨id, va.page⟩ false
    return .done
  | map id va length writable handle offset =>
    return .address (← Machine.mapFile id va length writable handle offset)
  | unmap id va => do
    Machine.unmap id va
    return .done
  | setupStack id => return .address (← Machine.setupStack id)
  | read id va length => return .bytes (← Machine.read id va length)
  | write id va bytes => do
    Machine.write id va bytes
    return .done

/-- What is reported when a request that is only answered by yes or no is refused. -/
def refusalEvent? (cause : Refusal) : Operation → Option Event
  | register id _ va _ _ => some (.registrationFailed id va cause)
  | claim id va => some (.claimFailed id va cause)
  | copy _ source => some (.copyFailed source.id cause)
  | _ => none

/-- Carry a request out and tell whether it went through. -/
def succeeds (op : Operation) : MachineM Bool := do
  match ← Action.attempt op.perform with
  | .ok _ => return true
  | .error cause =>
    if let some event := op.refusalEvent? cause then
      Machine.note event
    return false

end Operation

end DemandPaging
