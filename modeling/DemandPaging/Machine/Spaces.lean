import DemandPaging.Machine.Removal

/-!
# Address spaces

A space is created empty, filled from another by copying, and torn down page by page, writing dirty
file pages back. A fork is a new space with a copy of every page; if the copy fails the new space is
torn down again.
-/

namespace DemandPaging.Machine

/-- Create an empty space. -/
def createSpace : MachineM SpaceId := do
  let m ← get
  let (id, spaceIds) := m.spaceIds.take
  let space : AddressSpace := { stackFloor := m.config.stackTop.pageAbove }
  set { m with spaceIds, spaces := m.spaces.insert id space }
  note (.created id)
  return id

/-- Remove a page of a space that is torn down; a refusal is only reported. -/
def releasePage (owner : Owner) : MachineM Unit := do
  match ← Action.attempt (removePage owner true) with
  | .ok () => pure ()
  | .error cause => note (.releaseFailed owner cause)

/-- Tear a space down. Nothing happens if there is no such space. -/
def destroySpace (id : SpaceId) : MachineM Unit := do
  match (← get).spaces[id]? with
  | none => pure ()
  | some space =>
    space.registry.vpns.forM fun vpn => releasePage ⟨id, vpn⟩
    modify fun m => { m with spaces := m.spaces.erase id }
    let spaceIds ← Action.assert ((← get).spaceIds.release id)
    modify fun m => { m with spaceIds }
    note (.destroyed id)

/-- A space to copy from: of this machine, or of another one. -/
inductive CopySource where
  | own (id : SpaceId)
  | foreign (id : SpaceId)
deriving DecidableEq

/-- The identity of the source in its own machine. -/
def CopySource.id : CopySource → SpaceId
  | own id => id
  | foreign id => id

/-- Copy every page of a space of this machine into `target`. -/
def copySpace (target : SpaceId) : CopySource → MachineM Unit
  | .own source => copyPages target source
  | .foreign _ => Action.refuse (.invalidArgument "space belongs to another vm")

/-- Create a space that shares every page of `parent`. -/
def fork (parent : SpaceId) : MachineM SpaceId := do
  let child ← createSpace
  match ← Action.settle (copyPages child parent) with
  | .ok () => return child
  | .error failure =>
    destroySpace child
    throw failure

end DemandPaging.Machine
