import DemandPaging.Address

/-!
# Page faults

What is known about a page fault when it is raised.
-/

namespace DemandPaging

/-- An access that the page table refused. -/
structure PageFault where
  va : Address
  /-- Raised by user code, not by the kernel. -/
  user : Bool := true
  /-- The access was a write. -/
  write : Bool
  /-- There was no valid mapping; otherwise a present page refused the access. -/
  notPresent : Bool
deriving DecidableEq

namespace PageFault

/-- A user access to an address that is not mapped. -/
def missing (va : Address) (write : Bool) : PageFault := { va, write, notPresent := true }

/-- A user write to a page that is mapped read-only. -/
def readOnly (va : Address) : PageFault := { va, write := true, notPresent := false }

/-- The same fault raised by the kernel. -/
def inKernel (fault : PageFault) : PageFault := { fault with user := false }

/-- A fault is written with all its fields. -/
def describe (fault : PageFault) : String :=
  recordText "PageFault" [
    ("addr", fault.va.describe),
    ("user", boolText fault.user),
    ("write", boolText fault.write),
    ("not_present", boolText fault.notPresent)]

end PageFault

end DemandPaging
