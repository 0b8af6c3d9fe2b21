import DemandPaging.Machine.Basic

/-!
# Eviction

A frame is taken from the pool while it has one. After that a victim is chosen by the accessed bits
of its owners and its content is moved to the backing store: once, however many pages share the
frame. Its owners are unmapped; when there is more than one they form an eviction group, so that
they come back together.
-/

namespace DemandPaging.Machine

/-- Whether a mapping of the owner was used since it was last asked. -/
def isAccessed (spaces : Table AddressSpace) (owner : Owner) : Bool :=
  spaces[owner.space]?.any fun space => space.table.has owner.vpn .accessed

/-- The spaces with the accessed bit of the owner clear. -/
def clearAccessed (spaces : Table AddressSpace) (owner : Owner) : Table AddressSpace :=
  spaces.modify owner.space fun space =>
    { space with table := space.table.put owner.vpn .accessed false }

/-- Whether any owner used the frame, and the spaces with all their accessed bits clear. -/
def testAndClear (owners : List Owner) (spaces : Table AddressSpace) :
    Bool × Table AddressSpace :=
  (owners.any (isAccessed spaces), owners.foldl clearAccessed spaces)

/-- Choose the frame to evict. -/
def selectVictim : MachineM FrameNum := do
  let m ← get
  let (victim, resident, spaces) := m.resident.selectVictim testAndClear m.spaces
  set { m with resident, spaces }
  match victim with
  | some ppn =>
    note (.victim ppn)
    return ppn
  | none => Action.refuse .outOfFrames

/-- Move the content of a frame to the backing store of the page that brought it in. -/
def moveOut (leader : Owner) (ppn : FrameNum) (dirty : Bool) : MachineM Evicted := do
  let page ← ownedPage leader
  let bytes ← frameBytes ppn
  let (page, evicted) ← onBacking (page.store bytes dirty)
  modify (·.modifyPage leader fun _ => page)
  if let some slot := evicted.slot then
    note (.slotWritten slot)
  return evicted

/-- Unmap an owner of an evicted frame. -/
def detach (evicted : Evicted) (owner : Owner) : MachineM Unit := do
  let page ← ownedPage owner
  modify fun m =>
    (m.modifyTable owner.space (·.unmap owner.vpn)).modifyPage owner fun _ =>
      page.markEvicted evicted

/-- Make the owners of an evicted frame a group. -/
def formGroup (members : List Owner) (slot : Option Nat) : MachineM Unit := do
  let m ← get
  let (gid, groupIds) := m.groupIds.take
  set { m with groupIds }
  members.forM fun owner => do
    let page ← ownedPage owner
    modify (·.modifyPage owner fun _ => { page with group := some gid })
  modify fun m => { m with groups := m.groups.insert gid { members, slot } }

/-- Move a frame to its backing store and detach its owners. The frame stays handed out, for the
caller to use. -/
def evict (ppn : FrameNum) : MachineM Unit := do
  let m ← get
  let frame ← Action.require (.inconsistent "victim is not in the frame table")
    (m.resident.get? ppn)
  match frame.owners with
  | [] => Action.abort .outOfBounds
  | leader :: others =>
    let owners := leader :: others
    let evicted ← moveOut leader ppn (owners.any (m.hasFlag · .dirty))
    owners.forM (detach evicted)
    modify fun m => { m with resident := m.resident.erase ppn }
    if 1 < owners.length then
      formGroup owners evicted.slot
    count fun c => { c with
      evictions := c.evictions + 1
      swapOuts := if evicted.slot.isSome then c.swapOuts + 1 else c.swapOuts
      writeBacks := if evicted.writtenBack then c.writeBacks + 1 else c.writeBacks }
    note (.evicted ppn owners.length evicted.slot)

/-- Get a zeroed frame, evicting one if the pool is empty. -/
def acquireFrame : MachineM FrameNum := do
  match (← get).frames.alloc? with
  | some (ppn, frames) =>
    modify fun m => { m with frames }
    return ppn
  | none =>
    let ppn ← selectVictim
    evict ppn
    modify fun m => { m with frames := m.frames.setBytes ppn .zero }
    return ppn

end DemandPaging.Machine
