import DemandPaging.Page.Backing

/-!
# What a page holds

A page starts uninitialized: it only knows the `Origin` of its first content. Once it has that
content it is an anonymous page, kept in swap while it is evicted, or a file page, kept in its file.
Which of the two is its type, chosen when the page is registered.
-/

namespace DemandPaging

/-- What backs a page once it was loaded. -/
inductive PageType where
  | anon
  | file
deriving DecidableEq

/-- A type is written by its name. -/
def PageType.describe : PageType → String
  | anon => "Anon"
  | file => "File"

/-- What a caller asks the first content of a page to be. -/
inductive Setup where
  /-- All zeros. -/
  | zero
  /-- A window on a file. -/
  | file (window : FileWindow)
  /-- Whatever the supplied initializer writes. -/
  | custom (initializer : Initializer)

/-- How an uninitialized page gets its first content. -/
inductive Origin where
  /-- All zeros. -/
  | zero
  /-- From a window on a file. -/
  | file (window : FileWindow)
  /-- From the supplied initializer with this number. -/
  | custom (initializer : Nat)
deriving DecidableEq

/-- What a page is. -/
inductive Content where
  /-- Never loaded. -/
  | uninit (type : PageType) (origin : Origin)
  /-- Anonymous memory. -/
  | anon (page : AnonPage)
  /-- Memory backed by a file. -/
  | file (window : FileWindow)
deriving DecidableEq

/-- Take a setup in. A supplied initializer is kept here, and pages name it by its number, so that
the copies of a page share what is left of its refusals. -/
def Backing.prepare (backing : Backing) : Setup → Origin × Backing
  | .zero => (.zero, backing)
  | .file w => (.file w, backing)
  | .custom i =>
    (.custom backing.initializers.size,
      { backing with initializers := backing.initializers.push i })

namespace Origin

/-- The same with its own handle on the file. -/
def duplicate (origin : Origin) (files : FileStore) : Origin × FileStore :=
  match origin with
  | file w =>
    let (w, files) := w.reopen files
    (file w, files)
  | other => (other, files)

/-- Produce the first content in the zeroed frame. -/
def run : Origin → Action Transfer Unit
  | zero => pure ()
  | file w => Transfer.loadWindow w
  | custom number => Transfer.runInitializer number

/-- An origin is written by its name, a window with its fields. -/
def describe (origin : Origin) (files : FileStore) : String :=
  match origin with
  | zero => "Zero"
  | file w => appliedText "File" (w.describe files)
  | custom _ => "Custom"

end Origin

namespace Content

/-- What an uninitialized page becomes once it has its first content. -/
def initialized : PageType → Origin → Content
  | .file, .file w => file w
  | _, _ => anon {}

/-- The type of a page, also of one that is still uninitialized. -/
def type : Content → PageType
  | uninit type _ => type
  | anon _ => .anon
  | file _ => .file

/-- The content of a copy that shares the frame: an own handle on the file, and no slot. -/
def duplicate (content : Content) (files : FileStore) : Content × FileStore :=
  match content with
  | uninit type origin =>
    let (origin, files) := origin.duplicate files
    (uninit type origin, files)
  | anon _ => (anon {}, files)
  | file w =>
    let (w, files) := w.reopen files
    (file w, files)

/-- A content is written by its name and what it holds. -/
def describe (content : Content) (files : FileStore) : String :=
  match content with
  | uninit type origin =>
    appliedText "Uninit" <|
      recordText "UninitPage" [("ty", type.describe), ("init", origin.describe files)]
  | anon page => appliedText "Anon" page.describe
  | file w => appliedText "File" (w.describePage files)

end Content

end DemandPaging
