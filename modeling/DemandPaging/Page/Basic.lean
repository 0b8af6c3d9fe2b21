import DemandPaging.Page.Content

/-!
# Pages

A page of one address space: its number, whether it may be written, its content, and the frame that
holds it, if one does. `load` brings the content into a frame; `store` moves it out again; `destroy`
gives up what an evicted page holds.
-/

namespace DemandPaging

/-- Where the content of a page is. -/
inductive PageState where
  | uninit
  | resident (ppn : FrameNum)
  | evicted
deriving DecidableEq

/-- What an eviction left behind. -/
structure Evicted where
  /-- The swap slot that holds the content of an anonymous page. -/
  slot : Option Nat := none
  /-- Whether a file page was written back. -/
  writtenBack : Bool := false
deriving DecidableEq

/-- A page of one address space. -/
structure Page where
  vpn : PageNum
  /-- Whether the page may be written, whatever its mapping says. -/
  writable : Bool
  /-- The frame that holds the page. -/
  frame : Option FrameNum := none
  content : Content
  /-- The eviction group of the page: the pages that shared a frame when it was evicted. -/
  group : Option Nat := none
deriving DecidableEq

namespace Page

/-- A page that waits for its first load. A file page needs a window to be loaded from. -/
def uninit (vpn : PageNum) (writable : Bool) (type : PageType) (origin : Origin) :
    Except Refusal Page :=
  match type, origin with
  | .file, .zero | .file, .custom _ =>
    .error (.invalidArgument "file-backed page needs a file initializer")
  | _, _ => .ok { vpn, writable, content := .uninit type origin }

/-- The type of the page, also while it is uninitialized. -/
def type (page : Page) : PageType := page.content.type

/-- Where the content of the page is. -/
def state (page : Page) : PageState :=
  match page.frame, page.content with
  | some ppn, _ => .resident ppn
  | none, .uninit .. => .uninit
  | none, _ => .evicted

/-- The mapping the page belongs to, zero if none. -/
def mapping (page : Page) : Nat :=
  match page.content with
  | .uninit _ (.file w) => w.mapping
  | .file w => w.mapping
  | _ => 0

/-- The swap slot an anonymous page holds. -/
def slot (page : Page) : Option Nat :=
  match page.content with
  | .anon a => a.slot
  | _ => none

/-- A copy for another space, with its own file handle and no frame. -/
def duplicate (page : Page) (files : FileStore) : Page × FileStore :=
  let (content, files) := page.content.duplicate files
  ({ page with content, frame := none, group := none }, files)

/-- Bring the content of the page into the frame. An uninitialized page becomes what its type says;
a failure leaves the page as it was. -/
def load (page : Page) : Action Transfer Page :=
  match page.content with
  | .uninit type origin => do
    origin.run
    return { page with content := .initialized type origin }
  | .anon a => do
    let a ← Transfer.loadAnon a
    return { page with content := .anon a }
  | .file w => do
    Transfer.loadWindow w
    return page

/-- Move the page out of `frame`: an anonymous page to a fresh swap slot, a file page to its file
if it is dirty. -/
def store (page : Page) (frame : PageBytes) (dirty : Bool) : Action Backing (Page × Evicted) :=
  match page.content with
  | .uninit .. => Action.refuse (.inconsistent "resident page is uninitialized")
  | .anon _ => do
    let (a, slot, swap) ← Action.permit (AnonPage.store (← get).swap frame)
    modify fun backing => { backing with swap }
    return ({ page with content := .anon a, frame := none }, { slot := some slot })
  | .file w => do
    let writtenBack ← Backing.onFiles (w.pageOut frame dirty)
    return ({ page with frame := none }, { writtenBack })

/-- The page after the frame it was in was moved out by another page that shared it. -/
def markEvicted (page : Page) (evicted : Evicted) : Page :=
  match page.content, evicted.slot with
  | .anon _, some slot => { page with content := .anon ⟨some slot⟩, frame := none }
  | _, _ => { page with frame := none }

/-- The page in a frame that another member of its group just filled. -/
def attach (page : Page) (ppn : FrameNum) : Page :=
  match page.content with
  | .anon _ => { page with content := .anon {}, frame := some ppn }
  | _ => { page with frame := some ppn }

/-- Write a file page back from `frame`. Tells whether it was one. -/
def writeBack (page : Page) (frame : PageBytes) : Action Backing Bool :=
  match page.content with
  | .file w => do
    Backing.onFiles (w.writeBack frame)
    return true
  | _ => return false

/-- Give up the swap slot the page holds alone. -/
def destroy (page : Page) : Action Backing Page :=
  match page.content with
  | .anon a => do
    let (a, swap) ← Action.assert (a.destroy (← get).swap)
    modify fun backing => { backing with swap }
    return { page with content := .anon a }
  | _ => return page

/-- A page is written with all its fields. -/
def describe (page : Page) (files : FileStore) : String :=
  recordText "Page" [
    ("vpn", page.vpn.describe),
    ("writable", boolText page.writable),
    ("frame", optionText (page.frame.map FrameNum.describe)),
    ("kind", page.content.describe files),
    ("group", optionText (page.group.map toString))]

end Page

end DemandPaging
