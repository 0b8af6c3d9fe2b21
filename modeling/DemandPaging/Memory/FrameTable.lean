import DemandPaging.Failure
import DemandPaging.Table

/-!
# The frame table

Which pages occupy each resident frame, and which frame to evict next. A frame may be shared by
pages of several spaces; each is one of its owners.

The victim is picked by a second-chance clock. It scans the frames that are not pinned, upward and
downward in turn, and takes the first none of whose owners was touched since the last scan; looking
at a frame clears its touched marks, so a second scan takes the first frame of all.
-/

namespace DemandPaging

/-- A page that occupies a frame. -/
structure Owner where
  space : SpaceId
  vpn : PageNum
deriving DecidableEq

/-- A resident frame: its owners, the first of which brought it in, and whether eviction has to
pass it over. -/
structure Frame where
  owners : List Owner
  pinned : Bool := false

/-- The resident frames, and the direction of the next scan. -/
structure FrameTable where
  frames : Table Frame := ∅
  upward : Bool := true

namespace FrameTable

/-- The frame with this number. -/
def get? (table : FrameTable) (ppn : FrameNum) : Option Frame := table.frames[ppn]?

/-- Record a frame that was just filled for `owners`. -/
def insert (table : FrameTable) (ppn : FrameNum) (owners : List Owner) :
    Except Violation FrameTable :=
  if ppn ∈ table.frames then .error (.frameInUse ppn)
  else .ok { table with frames := table.frames.insert ppn ⟨owners, false⟩ }

/-- Forget a frame. -/
def erase (table : FrameTable) (ppn : FrameNum) : FrameTable :=
  { table with frames := table.frames.erase ppn }

/-- Change a frame, if it is resident. -/
def modify (table : FrameTable) (ppn : FrameNum) (f : Frame → Frame) : FrameTable :=
  { table with frames := table.frames.modify ppn f }

/-- The pages that share a frame, none if it is not resident. -/
def owners (table : FrameTable) (ppn : FrameNum) : List Owner :=
  match table.get? ppn with
  | some frame => frame.owners
  | none => []

/-- Add a sharer of a resident frame. -/
def addOwner (table : FrameTable) (ppn : FrameNum) (owner : Owner) : FrameTable :=
  table.modify ppn fun frame => { frame with owners := frame.owners ++ [owner] }

/-- Drop a sharer. The frame stays recorded even when nobody is left. -/
def removeOwner (table : FrameTable) (ppn : FrameNum) (owner : Owner) : FrameTable :=
  table.modify ppn fun frame => { frame with owners := frame.owners.filter (· ≠ owner) }

/-- Number of pages that share a frame. -/
def shareCount (table : FrameTable) (ppn : FrameNum) : Nat := (table.owners ppn).length

/-- Keep a frame from being chosen as a victim. -/
def pin (table : FrameTable) (ppn : FrameNum) : FrameTable :=
  table.modify ppn fun frame => { frame with pinned := true }

/-- Let a frame be chosen as a victim again. -/
def unpin (table : FrameTable) (ppn : FrameNum) : FrameTable :=
  table.modify ppn fun frame => { frame with pinned := false }

/-- Number of resident frames. -/
def size (table : FrameTable) : Nat := table.frames.size

/-- The resident frames in increasing order of number. -/
def toList (table : FrameTable) : List (FrameNum × Frame) := table.frames.toList

/-- The frames a scan looks at, in order. -/
def scanOrder (table : FrameTable) : List (FrameNum × Frame) :=
  let candidates := table.toList.filter fun entry => !entry.2.pinned
  if table.upward then candidates else candidates.reverse

/-- The first frame whose owners `touched` answers false for, asking in order. -/
def firstUntouched {σ : Type} (touched : List Owner → σ → Bool × σ) :
    List (FrameNum × Frame) → σ → Option FrameNum × σ
  | [], s => (none, s)
  | (ppn, frame) :: rest, s =>
    match touched frame.owners s with
    | (true, s) => firstUntouched touched rest s
    | (false, s) => (some ppn, s)

/-- Pick a frame to evict. `touched` tells whether an owner touched the frame since it was last
asked, and forgets it. There is a victim unless every frame is pinned. -/
def selectVictim {σ : Type} (table : FrameTable) (touched : List Owner → σ → Bool × σ) (s : σ) :
    Option FrameNum × FrameTable × σ :=
  let order := table.scanOrder
  let turned := { table with upward := !table.upward }
  match firstUntouched touched order s with
  | (some ppn, s) => (some ppn, turned, s)
  | (none, s) =>
    match firstUntouched touched order s with
    | (some ppn, s) => (some ppn, turned, s)
    | (none, s) => (order.head?.map Prod.fst, turned, s)

end FrameTable

end DemandPaging
