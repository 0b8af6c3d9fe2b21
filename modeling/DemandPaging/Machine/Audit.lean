import DemandPaging.Machine.Basic

/-!
# Auditing a machine

The audit compares pages, page tables and the frame table, and reports the first disagreement.
-/

namespace DemandPaging.Machine

/-- The refusal that reports a disagreement. -/
def disagree (detail : String) : Except Refusal Unit := .error (.inconsistent detail)

/-- A resident page is mapped to its frame and listed there; any other page is not mapped. -/
def auditPage (m : Machine) (id : SpaceId) (space : AddressSpace) (page : Page) :
    Except Refusal Unit :=
  let entry := space.table.lookup? page.vpn
  match page.frame with
  | some ppn =>
    if entry.map Entry.frame ≠ some ppn then
      disagree "resident page is not mapped to its frame"
    else if ⟨id, page.vpn⟩ ∉ m.resident.owners ppn then
      disagree "frame table does not list a resident page"
    else .ok ()
  | none =>
    if entry.isSome then disagree "non-resident page is mapped" else .ok ()

/-- A mapping belongs to a resident page. -/
def auditMapping (space : AddressSpace) (vpn : PageNum) : Except Refusal Unit :=
  if ((space.registry.get? vpn).bind Page.frame).isNone then
    disagree "mapping without a resident page"
  else .ok ()

/-- Every page and every mapping of a space is in order. -/
def auditSpace (m : Machine) (id : SpaceId) (space : AddressSpace) : Except Refusal Unit := do
  space.registry.toList.forM (m.auditPage id space)
  space.table.toList.forM fun mapping => auditMapping space mapping.1

/-- An owner of a frame is in that frame, and cannot write to it if it is shared. -/
def auditOwner (m : Machine) (ppn : FrameNum) (shared : Bool) (owner : Owner) :
    Except Refusal Unit :=
  match m.spaces[owner.space]? with
  | none => disagree "unknown address space"
  | some space =>
    if (space.registry.get? owner.vpn).bind Page.frame ≠ some ppn then
      disagree "frame owner does not point at the frame"
    else if shared && space.table.has owner.vpn .writable then
      disagree "shared frame is mapped writable"
    else .ok ()

/-- A frame is not pinned and its owners are in order. -/
def auditFrame (m : Machine) (ppn : FrameNum) (frame : Frame) : Except Refusal Unit :=
  if frame.pinned then disagree "frame left pinned"
  else frame.owners.forM (m.auditOwner ppn (1 < frame.owners.length))

/-- Every space and every frame is in order, and no frame is lost. -/
def audit (m : Machine) : Except Refusal Unit := do
  m.spaces.toList.forM fun (id, space) => m.auditSpace id space
  m.resident.toList.forM fun (ppn, frame) => m.auditFrame ppn frame
  if m.resident.size + m.frames.free ≠ m.frames.total then
    disagree "frame pool leaked a frame"

end DemandPaging.Machine
