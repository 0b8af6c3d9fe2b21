import DemandPaging.Storage.FileStore

/-!
# Windows on a file

A `FileWindow` is the part of a file that backs one page: so many bytes at an offset, and zeros in
the rest of the page. `load` brings it into a frame and is refused when the file gives fewer bytes;
`writeBack` puts the same bytes of a frame back and breaks off when the file takes fewer.
-/

namespace DemandPaging

/-- A page-sized window on a file. -/
structure FileWindow where
  handle : HandleNum
  /-- Where the window starts in the file. -/
  offset : Nat
  /-- Bytes that come from the file. -/
  readBytes : Nat
  /-- Bytes of zeros after them. -/
  zeroBytes : Nat
  /-- The mapping the window belongs to, zero if none. -/
  mapping : Nat := 0
deriving DecidableEq

/-- A frame that is being filled and the files it is filled from. -/
structure FileTransfer where
  frame : PageBytes
  files : FileStore

namespace FileWindow

/-- The same window through a new handle. -/
def reopen (w : FileWindow) (files : FileStore) : FileWindow × FileStore :=
  let (handle, files) := files.reopen w.handle
  ({ w with handle }, files)

/-- Read the window into the frame and zero the rest. After a short read the frame holds the bytes
that came. A window larger than a page is out of bounds. -/
def load (w : FileWindow) : Action FileTransfer Unit := do
  if pageSize < w.readBytes then
    Action.abort .outOfBounds
  let given ← modifyGet fun t =>
    let (bytes, files) := t.files.readAt w.handle w.offset w.readBytes
    ((t.files.fileOf w.handle).readable w.offset w.readBytes,
      { frame := t.frame.blit 0 bytes, files })
  if given = w.readBytes then
    modify fun t => { t with frame := t.frame.clearFrom w.readBytes }
  else
    Action.refuse (.shortRead w.readBytes given)

/-- Write the bytes of a frame that came from the file back to it. -/
def writeBack (w : FileWindow) (frame : PageBytes) : Action FileStore Unit := do
  if pageSize < w.readBytes then
    Action.abort .outOfBounds
  let taken ← modifyGet fun files =>
    ((files.fileOf w.handle).room w.offset w.readBytes,
      (files.writeAt w.handle w.offset (frame.slice 0 w.readBytes)).2)
  if taken ≠ w.readBytes then
    Action.abort (.shortWriteBack ((← get).fileOf w.handle).inode w.offset)

/-- Move a frame out to the file: a dirty one is written back, a clean one is dropped. Tells whether
it was written. -/
def pageOut (w : FileWindow) (frame : PageBytes) (dirty : Bool) : Action FileStore Bool := do
  if dirty then
    w.writeBack frame
  return dirty

/-- A window is written with the identity of its file, not the handle. -/
def describe (w : FileWindow) (files : FileStore) : String :=
  recordText "FileSlice" [
    ("inode", toString (files.fileOf w.handle).inode),
    ("offset", toString w.offset),
    ("read_bytes", toString w.readBytes),
    ("zero_bytes", toString w.zeroBytes),
    ("mmap_id", toString w.mapping)]

/-- A page whose content is a window is written with that window. -/
def describePage (w : FileWindow) (files : FileStore) : String :=
  recordText "FilePage" [("slice", w.describe files)]

end FileWindow

end DemandPaging
