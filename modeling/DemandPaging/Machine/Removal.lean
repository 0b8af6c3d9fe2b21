import DemandPaging.Machine.Sharing

/-!
# Removing pages

A page that is removed gives up its share of a frame, its place in an eviction group, or the swap
slot it holds alone. The last owner of a frame gives it back to the pool. A group left with one
member dissolves, and that page keeps the slot for itself; a group left empty frees it.
-/

namespace DemandPaging.Machine

/-- Dissolve an eviction group. -/
def dissolve (gid : Nat) : MachineM Unit := do
  modify fun m => { m with groups := m.groups.erase gid }
  let groupIds ← Action.assert ((← get).groupIds.release gid)
  modify fun m => { m with groupIds }

/-- Free a swap slot. -/
def freeSlot (slot : Nat) : Action Backing Unit := do
  let swap ← Action.assert ((← get).swap.release slot)
  modify fun backing => { backing with swap }

/-- Take an owner out of its eviction group. -/
def leaveGroup (gid : Nat) (owner : Owner) : MachineM Unit := do
  match (← get).groups[gid]? with
  | none => pure ()
  | some group =>
    match group.members.filter (· ≠ owner) with
    | [] =>
      if let some slot := group.slot then
        onBacking (freeSlot slot)
      dissolve gid
    | [last] =>
      modify (·.modifyPage last fun page => { page with group := none })
      dissolve gid
    | members =>
      modify fun m => { m with groups := m.groups.insert gid { group with members } }

/-- Write a dirty file page back before it goes. -/
def writeBackBeforeRemoval (page : Page) (ppn : FrameNum) : MachineM Unit := do
  let bytes ← frameBytes ppn
  let written ← onBacking (page.writeBack bytes)
  if written then
    count fun c => { c with writeBacks := c.writeBacks + 1 }

/-- Take an owner off its frame. -/
def leaveFrame (owner : Owner) (ppn : FrameNum) : MachineM Unit := do
  modify fun m => { m with resident := m.resident.removeOwner ppn owner }
  if ((← get).resident.owners ppn).isEmpty then
    modify fun m => { m with resident := m.resident.erase ppn }
    releaseFrame ppn
  else
    restoreSoleOwner ppn

/-- Unregister a page. With `writeBack` a dirty resident file page is written to its file. -/
def removePage (owner : Owner) (writeBack : Bool) : MachineM Unit := do
  let page ← registeredPage owner
  modify (·.modifySpace owner.space fun space =>
    { space with registry := space.registry.erase owner.vpn })
  match page.frame, page.group with
  | some ppn, _ =>
    let dirty := (← get).hasFlag owner .dirty
    modify (·.modifyTable owner.space (·.unmap owner.vpn))
    if writeBack && dirty then
      writeBackBeforeRemoval page ppn
    leaveFrame owner ppn
  | none, some gid => leaveGroup gid owner
  | none, none =>
    let _ ← onBacking page.destroy
  note (.removed owner)

end DemandPaging.Machine
