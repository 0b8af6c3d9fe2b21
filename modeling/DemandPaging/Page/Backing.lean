import DemandPaging.Page.Anonymous
import DemandPaging.Storage.FileWindow

/-!
# Where pages are kept outside frames

The `Backing` is the swap space, the files, and the initializers that callers supplied. A `Transfer`
is a frame that is being filled from it: from a window on a file, from a swap slot, or by an
initializer.
-/

namespace DemandPaging

/-- A supplied initializer: it writes `content` at the start of the zeroed frame, and reports
failure for as long as it has refusals left. -/
structure Initializer where
  content : Bytes := #[]
  refusals : Nat := 0

/-- Where pages are kept outside frames. -/
structure Backing where
  swap : Swap
  files : FileStore := {}
  initializers : Array Initializer := #[]

/-- A frame that is being filled, and what it is filled from. -/
structure Transfer where
  frame : PageBytes
  backing : Backing

namespace Backing

/-- Run a computation on the files. -/
def onFiles {α : Type} (x : Action FileStore α) : Action Backing α :=
  Action.within (·.files) (fun files backing => { backing with files }) x

end Backing

namespace Transfer

/-- Load a file window into the frame. -/
def loadWindow (w : FileWindow) : Action Transfer Unit :=
  Action.within (fun t => { frame := t.frame, files := t.backing.files })
    (fun f t => { frame := f.frame, backing := { t.backing with files := f.files } }) w.load

/-- Run a supplied initializer on the frame. One that writes past the page is out of bounds. -/
def runInitializer (number : Nat) : Action Transfer Unit := do
  let i := (← get).backing.initializers[number]?.getD {}
  if pageSize < i.content.size then
    Action.abort .outOfBounds
  modify fun t => { t with frame := t.frame.blit 0 i.content }
  if i.refusals ≠ 0 then
    modify fun t => { t with backing := { t.backing with
      initializers := t.backing.initializers.modify number fun i =>
        { i with refusals := i.refusals - 1 } } }
    Action.refuse (.invalidArgument "page initializer failed")

/-- Bring an anonymous page into the frame. -/
def loadAnon (page : AnonPage) : Action Transfer AnonPage := do
  let t ← get
  let (page, swap, frame) ← Action.assert (page.load t.backing.swap t.frame)
  set { t with frame, backing := { t.backing with swap } }
  return page

end Transfer

end DemandPaging
