import DemandPaging.Machine.Claim

/-!
# Copy-on-write sharing

Pages copied from one space to another share frames, mapped read-only. The first write to a shared
page gives the writer a copy of its own; when one owner is left on the old frame it may write again.
-/

namespace DemandPaging.Machine

/-- Let the last page on a frame be written again, if it is writable. -/
def restoreSoleOwner (ppn : FrameNum) : MachineM Unit := do
  match (← get).resident.owners ppn with
  | [owner] =>
    let page ← ownedPage owner
    if page.writable then
      modify (·.modifyTable owner.space (·.put owner.vpn .writable true))
  | _ => pure ()

/-- Get a frame while `ppn` cannot be evicted. -/
def acquireBeside (ppn : FrameNum) : MachineM FrameNum := do
  modify fun m => { m with resident := m.resident.pin ppn }
  let acquired ← Action.attempt acquireFrame
  modify fun m => { m with resident := m.resident.unpin ppn }
  Action.permit acquired

/-- Move an owner from the frame it shares to a copy of its own, keeping its dirty bit. -/
def moveToCopy (owner : Owner) (old : Entry) (copy : FrameNum) : MachineM Unit := do
  let frames ← Action.assert ((← get).frames.copy old.frame copy)
  modify fun m => { m with frames, resident := m.resident.removeOwner old.frame owner }
  restoreSoleOwner old.frame
  modify (·.modifyTable owner.space (·.unmap owner.vpn))
  mapOwner owner copy ((userFlags true).put .dirty (old.has .dirty))
  let page ← ownedPage owner
  modify (·.modifyPage owner fun _ => { page with frame := some copy })
  recordFrame copy [owner]

/-- Make a resident page writable: in place if it is alone in its frame, in a copy otherwise. -/
def breakSharing (owner : Owner) : MachineM Unit := do
  let space ← space owner.space
  let old ← Action.require (.inconsistent "resident page is not mapped")
    (space.table.lookup? owner.vpn)
  if old.has .writable then
    pure ()
  else if (← get).resident.shareCount old.frame ≤ 1 then
    modify (·.modifyTable owner.space (·.put owner.vpn .writable true))
  else
    let copy ← acquireBeside old.frame
    moveToCopy owner old copy
    count fun c => { c with cowBreaks := c.cowBreaks + 1 }
    note (.unshared owner old.frame copy)

/-- Register in `target` a copy of a page of `source`, which shares its frame if it is resident. -/
def shareWith (target source : SpaceId) (vpn : PageNum) : MachineM Unit := do
  let page ← registeredPage ⟨source, vpn⟩
  let (copy, files) := page.duplicate (← get).backing.files
  modify fun m => { m with backing := { m.backing with files } }
  if let some ppn := page.frame then
    modify (·.modifyTable source (·.put vpn .writable false))
    mapOwner ⟨target, vpn⟩ ppn (userFlags false)
  let space ← space target
  let registry ← Action.permit (space.registry.insert { copy with frame := page.frame })
  modify (·.modifySpace target fun space => { space with registry })
  if let some ppn := page.frame then
    modify fun m => { m with resident := m.resident.addOwner ppn ⟨target, vpn⟩ }

/-- Copy one page. An evicted anonymous page is made resident first, so that both share a frame. -/
def copyPage (target source : SpaceId) (vpn : PageNum) : MachineM Unit := do
  let space ← space target
  if space.registry.contains vpn then
    Action.refuse (.pageExists vpn.base)
  else
    let page ← registeredPage ⟨source, vpn⟩
    if page.state = .evicted ∧ page.type = .anon then
      let _ ← claim ⟨source, vpn⟩
    shareWith target source vpn

/-- Copy every page of `source` into `target`, and let the stack of `target` reach as far down. -/
def copyPages (target source : SpaceId) : MachineM Unit := do
  let vpns := (← space source).registry.vpns
  vpns.forM (copyPage target source)
  let floor := (← space source).stackFloor
  let _ ← space target
  modify (·.modifySpace target fun space => { space with stackFloor := min space.stackFloor floor })
  note (.copied source target)

end DemandPaging.Machine
