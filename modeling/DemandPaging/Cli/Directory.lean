import DemandPaging.Storage.SparseBytes

/-!
# Files around a command line

`FileSystem` is what a command line needs of the files around it. `FileTree` is a file system that
is a value: a working directory in a tree of which only the directories above it are known. A path
is the names that lead to a file; each but the last has to lead to a directory, and the last has to
be a name that a file can have.
-/

namespace DemandPaging.Cli

/-- What a command line needs of the files around it. -/
structure FileSystem (m : Type → Type) where
  /-- Make a file of so many zeros, in place of any file there is. It is made empty and then
  extended; tells whether both were possible. -/
  create : String → Nat → m Bool
  /-- The content of a file that exists. -/
  read : String → m (Option SparseBytes)
  /-- Give a file a content. -/
  save : String → SparseBytes → m Unit

/-- A place in the tree: the names that lead to it from the root, the last one first. -/
abbrev Place := List String

namespace Place

/-- The root of the tree. -/
def root : Place := []

/-- The working directory. -/
def working : Place := ["work", "tmp"]

/-- The directories there are: the working directory and those above it. -/
def isDirectory (place : Place) : Bool := place.isSuffixOf working

/-- The names that stay where they are or go up; no file has such a name. -/
def reserved : List String := ["", ".", ".."]

/-- Where a name leads from a directory. -/
def step (place : Place) (name : String) : Place :=
  if name = ".." then place.tail else if name ∈ reserved then place else name :: place

/-- The directory that names lead to, if each of them leads to one. -/
def walk (start : Place) (names : List String) : Option Place :=
  names.foldlM (fun place name =>
    if (place.step name).isDirectory then some (place.step name) else none) start

/-- The most bytes a name has. -/
def maxName : Nat := 255

/-- The most bytes a path has. -/
def maxPath : Nat := 4095

/-- The place of the file that a path leads to, if there can be a file. -/
def ofPath? (path : String) : Option Place := do
  let names := path.splitOn "/"
  let last := names.getLast?.getD ""
  guard (path.utf8ByteSize ≤ maxPath ∧ last.utf8ByteSize ≤ maxName ∧ last ∉ reserved)
  let directory ← walk (if path.startsWith "/" then root else working) names.dropLast
  let place : Place := last :: directory
  if place.isDirectory then none else some place

end Place

/-- The files of a tree, by place. -/
abbrev FileTree := List (Place × SparseBytes)

namespace FileTree

/-- The file a path leads to. -/
def file? (tree : FileTree) (path : String) : Option SparseBytes :=
  (Place.ofPath? path).bind fun place => tree.lookup place

/-- The tree with a content in the file a path leads to. -/
def put (tree : FileTree) (path : String) (content : SparseBytes) : FileTree :=
  match Place.ofPath? path with
  | some place => (place, content) :: tree.filter (·.1 ≠ place)
  | none => tree

/-- Whether a file of this size can be where a path leads. -/
def admits (path : String) (size : Nat) : Bool :=
  (Place.ofPath? path).isSome && decide (size ≤ SparseBytes.maxFileSize)

/-- A tree as a file system. -/
def fileSystem : FileSystem (StateM FileTree) where
  create path size := do
    modify (·.put path (.zeros (if admits path size then size else 0)))
    return admits path size
  read path := return (← get).file? path
  save path content := modify (·.put path content)

end FileTree

end DemandPaging.Cli
