import DemandPaging.Failure
import DemandPaging.Storage.SparseBytes

/-!
# Files and handles

A `File` is a run of bytes with an identity and a limit on how much one transfer moves. A handle is
an open file with its own offset; a transfer starts at the offset and moves it on by the number of
bytes transferred. Handles on one file share its bytes. A file either never grows, so that a write
stops at its end, or is extended by a write, with zeros in a gap.
-/

namespace DemandPaging

/-- The number of a handle. -/
abbrev HandleNum := Nat

/-- A file. -/
structure File where
  data : SparseBytes := {}
  /-- The identity shared by all handles on the file. -/
  inode : Nat := 0
  /-- The most bytes one read returns. -/
  readCap : Nat := UInt64.size - 1
  /-- The most bytes one write takes. -/
  writeCap : Nat := UInt64.size - 1
  /-- Whether a write past the end extends the file. -/
  grows : Bool := false

namespace File

/-- Length of the file in bytes. -/
def size (file : File) : Nat := file.data.size

/-- How many bytes a read of `n` bytes at `offset` returns. -/
def readable (file : File) (offset n : Nat) : Nat :=
  min n (min (file.size - min offset file.size) file.readCap)

/-- The bytes a read of `n` bytes at `offset` returns. -/
def readAt (file : File) (offset n : Nat) : Bytes :=
  file.data.slice (min offset file.size) (file.readable offset n)

/-- How many of `n` bytes a write at `offset` takes. -/
def room (file : File) (offset n : Nat) : Nat :=
  if file.grows then n else min n (min (file.size - min offset file.size) file.writeCap)

/-- Write at `offset`: how many bytes were taken, and the file afterwards. -/
def writeAt (file : File) (offset : Nat) (bytes : Bytes) : Nat × File :=
  if file.grows then
    if bytes.isEmpty then (0, file)
    else (bytes.size, { file with data := file.data.overwrite offset bytes })
  else
    let taken := file.room offset bytes.size
    let data := file.data.overwrite (min offset file.size) (bytes.extract 0 taken)
    (taken, { file with data := { data with size := file.size } })

/-- The file with other bytes at `offset`, all of which have to lie inside it. This is a change from
outside and no transfer, so no limit on one applies and the file keeps its length. -/
def replaceAt (file : File) (offset : Nat) (bytes : Bytes) : Except Violation File :=
  if offset + bytes.size ≤ file.size then
    .ok { file with data := file.data.overwrite offset bytes }
  else .error .outOfBounds

/-- The file cut to a size, or extended to it with zeros. -/
def resize (file : File) (size : Nat) : File := { file with data := file.data.resize size }

end File

/-- An open file and the offset of its next transfer. -/
structure Handle where
  file : Nat
  offset : Nat := 0

/-- The files and the handles on them. -/
structure FileStore where
  files : Array File := #[]
  handles : Array Handle := #[]

namespace FileStore

/-- A store of the given files, with handle `i` open on file `i`. -/
def ofFiles (files : Array File) : FileStore :=
  ⟨files, (Array.range files.size).map fun i => { file := i }⟩

/-- The file with this index; an empty file if there is none. -/
def file (store : FileStore) (i : Nat) : File := store.files[i]?.getD {}

/-- The file with this index, which has to exist. -/
def lookup (store : FileStore) (i : Nat) : Except Violation File :=
  match store.files[i]? with
  | some file => .ok file
  | none => .error .outOfBounds

/-- The store with a file changed. -/
def modifyFile (store : FileStore) (i : Nat) (f : File → File) : FileStore :=
  { store with files := store.files.modify i f }

/-- The handle with this number; one on no file if there is none. -/
def handle (store : FileStore) (h : HandleNum) : Handle :=
  store.handles[h]?.getD { file := store.files.size }

/-- The file behind a handle. -/
def fileOf (store : FileStore) (h : HandleNum) : File := store.file (store.handle h).file

/-- Where the next transfer through a handle starts. -/
def offset (store : FileStore) (h : HandleNum) : Nat := (store.handle h).offset

/-- The store with the offset of one handle moved. -/
def seek (store : FileStore) (h : HandleNum) (offset : Nat) : FileStore :=
  { store with handles := store.handles.modify h fun handle => { handle with offset } }

/-- Open another handle on the same file, at offset zero. -/
def reopen (store : FileStore) (h : HandleNum) : HandleNum × FileStore :=
  (store.handles.size,
    { store with handles := store.handles.push { file := (store.handle h).file } })

/-- Read up to `n` bytes at the handle's offset, which moves on by as many. -/
def read (store : FileStore) (h : HandleNum) (n : Nat) : Bytes × FileStore :=
  let bytes := (store.fileOf h).readAt (store.offset h) n
  (bytes, store.seek h (store.offset h + bytes.size))

/-- Write at the handle's offset, which moves on by the number of bytes taken. -/
def write (store : FileStore) (h : HandleNum) (bytes : Bytes) : Nat × FileStore :=
  let (taken, file) := (store.fileOf h).writeAt (store.offset h) bytes
  (taken, (store.modifyFile (store.handle h).file fun _ => file).seek h (store.offset h + taken))

/-- Move the handle to `offset` and read. -/
def readAt (store : FileStore) (h : HandleNum) (offset n : Nat) : Bytes × FileStore :=
  (store.seek h offset).read h n

/-- Move the handle to `offset` and write. -/
def writeAt (store : FileStore) (h : HandleNum) (offset : Nat) (bytes : Bytes) :
    Nat × FileStore :=
  (store.seek h offset).write h bytes

/-- Move a handle; nothing is transferred. -/
def moveTo (h : HandleNum) (offset : Nat) : Action FileStore Unit :=
  modify (·.seek h offset)

/-- A transfer at the handle's offset that writes so many bytes, none if it reads. On a file that
grows it has to stay within the most bytes a file can hold. -/
def checkTransfer (h : HandleNum) (written : Nat) : Action FileStore Unit := do
  let store ← get
  if (store.fileOf h).grows &&
      decide (SparseBytes.maxFileSize < store.offset h + written) then
    Action.abort .outOfBounds

/-- Read up to `n` bytes at the handle's offset, which has to be one a file can reach. -/
def receive (h : HandleNum) (n : Nat) : Action FileStore Bytes := do
  checkTransfer h 0
  modifyGet fun store => store.read h n

/-- Write at the handle's offset. A file that grows has to be able to hold the bytes. -/
def send (h : HandleNum) (bytes : Bytes) : Action FileStore Nat := do
  checkTransfer h bytes.size
  modifyGet fun store => store.write h bytes

end FileStore

end DemandPaging
