import DemandPaging.Failure
import DemandPaging.Memory.PageBytes
import DemandPaging.Table

/-!
# The frame pool

The content of every frame, and which frames are handed out. A frame given back is handed out again
before one that was never used, the latest first; a frame is zeroed when it is handed out.
-/

namespace DemandPaging

/-- Frames below `fresh` have been handed out; those in `recycled` were given back since. A frame
that is not in `contents` is zeros. -/
structure FramePool where
  /-- Total number of frames. -/
  total : Nat
  contents : Table PageBytes := ∅
  fresh : Nat := 0
  recycled : List FrameNum := []

namespace FramePool

/-- A pool of zeroed frames, all free. -/
def ofSize (total : Nat) : FramePool := { total }

/-- The bytes a frame takes in the list of frames. -/
def entryBytes : Nat := 8

/-- A pool of zeroed frames, if there can be a list of so many. -/
def make (total : Nat) : Except Violation FramePool :=
  (checkLength entryBytes total).map fun _ => ofSize total

/-- Number of frames not handed out. -/
def free (pool : FramePool) : Nat := pool.total - pool.fresh + pool.recycled.length

/-- The content of a frame. -/
def bytes? (pool : FramePool) (ppn : FrameNum) : Option PageBytes :=
  if ppn < pool.total then some (pool.contents[ppn]?.getD .zero) else none

/-- The pool with another content in one frame. -/
def setBytes (pool : FramePool) (ppn : FrameNum) (bytes : PageBytes) : FramePool :=
  if ppn < pool.total then { pool with contents := pool.contents.insert ppn bytes } else pool

/-- Take a zeroed frame. -/
def alloc? (pool : FramePool) : Option (FrameNum × FramePool) :=
  match pool.recycled with
  | ppn :: rest => some (ppn, { pool with recycled := rest }.setBytes ppn .zero)
  | [] =>
    if pool.fresh = pool.total then none
    else some (pool.fresh, { pool with fresh := pool.fresh + 1 }.setBytes pool.fresh .zero)

/-- Give a frame back. -/
def release (pool : FramePool) (ppn : FrameNum) : Except Violation FramePool :=
  if pool.fresh ≤ ppn ∨ pool.recycled.contains ppn then .error (.frameNotAllocated ppn)
  else .ok { pool with recycled := ppn :: pool.recycled }

/-- Write `bytes` into a frame from `start` on. They have to fit. -/
def write (pool : FramePool) (ppn : FrameNum) (start : Nat) (bytes : Bytes) :
    Except Violation FramePool :=
  match pool.bytes? ppn with
  | some page =>
    if start + bytes.size ≤ pageSize then .ok (pool.setBytes ppn (page.blit start bytes))
    else .error .outOfBounds
  | none => .error .outOfBounds

/-- Copy the content of `source` into `target`. Copying a frame onto itself looks at neither. -/
def copy (pool : FramePool) (source target : FrameNum) : Except Violation FramePool :=
  if source = target then .ok pool
  else match pool.bytes? source, pool.bytes? target with
    | some page, some _ => .ok (pool.setBytes target page)
    | _, _ => .error .outOfBounds

end FramePool

end DemandPaging
