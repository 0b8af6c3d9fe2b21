import DemandPaging.Machine.Fault

/-!
# User accesses

An access looks the page up in the page table as the hardware would, and faults until the page table
grants it. A copy from or to user memory is split at page boundaries and accesses one page after the
other; what was copied before a refusal stays copied.
-/

namespace DemandPaging.Machine

/-- A run of bytes inside one page. -/
structure Span where
  va : Address
  length : Nat
deriving DecidableEq

/-- Split `length` bytes from `va` on at page boundaries, into at most as many runs as the first
argument admits. -/
def spansWithin : Nat → Address → Nat → List Span
  | 0, _, _ => []
  | runs + 1, va, length =>
    if length = 0 then []
    else
      let n := min (pageSize - va.offset) length
      ⟨va, n⟩ :: spansWithin runs (va.advance n) (length - n)

/-- Split `length` bytes from `va` on at page boundaries. No run is empty, so `length` of them are
enough. -/
def spans (va : Address) (length : Nat) : List Span := spansWithin length va length

/-- How often one access may fault. -/
def maxFaults : Nat := 4

/-- Whether an entry grants an access. -/
def grants (entry : Entry) (write : Bool) : Bool := !write || entry.has .writable

/-- Note in the page table that a page was used. -/
def markUsed (owner : Owner) (write : Bool) : MachineM Unit :=
  modify (·.modifyTable owner.space fun table =>
    let table := table.put owner.vpn .accessed true
    if write then table.put owner.vpn .dirty true else table)

/-- The frame a user access goes to. The first argument bounds how often it may fault. -/
def accessWithin (id : SpaceId) (va : Address) (write : Bool) : Nat → MachineM FrameNum
  | 0 => Action.refuse (.inconsistent "fault did not make the page accessible")
  | faults + 1 => do
    match (← space id).table.lookup? va.page with
    | some entry =>
      if grants entry write then
        markUsed ⟨id, va.page⟩ write
        return entry.frame
      else
        resolveFault id (.readOnly va)
        accessWithin id va write faults
    | none =>
      resolveFault id (.missing va write)
      accessWithin id va write faults

/-- The frame a user access goes to, taking faults as needed. -/
def access (id : SpaceId) (va : Address) (write : Bool) : MachineM FrameNum :=
  accessWithin id va write maxFaults

/-- What a read of user memory gave: the bytes up to the first page that was refused. -/
structure ReadResult where
  bytes : Bytes
  stopped : Option Refusal := none
deriving DecidableEq

/-- Read spans in turn, after what was read before. -/
def readSpans (id : SpaceId) : List Span → Bytes → MachineM ReadResult
  | [], done => return { bytes := done }
  | span :: rest, done => do
    match ← Action.attempt (access id span.va false) with
    | .ok ppn =>
      let page ← frameBytes ppn
      readSpans id rest (done ++ page.slice span.va.offset span.length)
    | .error cause => return { bytes := done, stopped := some cause }

/-- Read user memory. -/
def read (id : SpaceId) (va : Address) (length : Nat) : MachineM ReadResult :=
  readSpans id (spans va length) #[]

/-- Write spans in turn, each with the next bytes after the first `done`. -/
def writeSpans (id : SpaceId) (bytes : Bytes) : List Span → (done : Nat) → MachineM Unit
  | [], _ => pure ()
  | span :: rest, done => do
    let ppn ← access id span.va true
    let frames ← Action.assert
      ((← get).frames.write ppn span.va.offset (bytes.extract done (done + span.length)))
    modify fun m => { m with frames }
    writeSpans id bytes rest (done + span.length)

/-- Write user memory. -/
def write (id : SpaceId) (va : Address) (bytes : Bytes) : MachineM Unit :=
  writeSpans id bytes (spans va bytes.size) 0

end DemandPaging.Machine
