import DemandPaging.Machine.Eviction

/-!
# Making pages resident

`claim` brings a page into a frame and maps it. A page that was evicted from a shared frame brings
the other members of its eviction group back with it, and all of them are mapped read-only; a page
alone in its frame is mapped as writable as it is.
-/

namespace DemandPaging.Machine

/-- Connect the members of a group that are still evicted to the frame one of them just filled. -/
def rejoinMembers (gid : Nat) (ppn : FrameNum) : List Owner → MachineM (List Owner)
  | [] => pure []
  | member :: rest => do
    let page ← ownedPage member
    if page.group = some gid ∧ page.frame = none then
      modify (·.modifyPage member fun _ => { page.attach ppn with group := none })
      let others ← rejoinMembers gid ppn rest
      return member :: others
    else
      rejoinMembers gid ppn rest

/-- Bring a group back into the frame `owner` was loaded into: everyone who is in it now. -/
def rejoin (gid : Nat) (owner : Owner) (ppn : FrameNum) : MachineM (List Owner) := do
  let m ← get
  let group ← Action.require (.inconsistent "unknown eviction group") m.groups[gid]?
  set { m with groups := m.groups.erase gid }
  let others ← rejoinMembers gid ppn (group.members.filter (· ≠ owner))
  let groupIds ← Action.assert ((← get).groupIds.release gid)
  modify fun m => { m with groupIds }
  note (.restored (others.length + 1) ppn)
  return owner :: others

/-- Load a page into a frame. Tells which eviction group it was in. -/
def loadInto (owner : Owner) (ppn : FrameNum) : MachineM (Option Nat) := do
  let page ← registeredPage owner
  let loaded ← onFrame ppn page.load
  modify (·.modifyPage owner fun _ => { loaded with frame := some ppn, group := none })
  if let some slot := page.slot then
    note (.slotRead slot)
    count fun c => { c with swapIns := c.swapIns + 1 }
  return page.group

/-- Map an owner of a frame that was just filled, read-only if the frame is shared. -/
def mapResident (ppn : FrameNum) (shared : Bool) (owner : Owner) : MachineM Unit := do
  let page ← ownedPage owner
  mapOwner owner ppn (userFlags (page.writable && !shared))

/-- Fill a frame with a page that is not resident, and map everyone who comes back with it. -/
def populate (owner : Owner) (ppn : FrameNum) : MachineM Unit := do
  let owners ←
    match ← loadInto owner ppn with
    | some gid => rejoin gid owner ppn
    | none => pure [owner]
  owners.forM (mapResident ppn (1 < owners.length))
  recordFrame ppn owners
  note (.claimed owner ppn)

/-- Make a page resident and return its frame, which is the one it has if it is resident already. -/
def claim (owner : Owner) : MachineM FrameNum := do
  let page ← registeredPage owner
  match page.frame with
  | some ppn => return ppn
  | none =>
    if ((← get).entryAt? owner).isSome then
      Action.refuse (.alreadyMapped owner.vpn.base)
    else
      let ppn ← acquireFrame
      match ← Action.attempt (populate owner ppn) with
      | .ok () => return ppn
      | .error cause =>
        releaseFrame ppn
        Action.refuse cause

end DemandPaging.Machine
