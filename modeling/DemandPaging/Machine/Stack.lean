import DemandPaging.Machine.Claim
import DemandPaging.PageRange

/-!
# Stacks

The stack of a space starts at the configured top. Its floor is the lowest page it reaches; it grows
down to a faulting page as long as that lies above the configured bottom.
-/

namespace DemandPaging.Machine

/-- Whether the stack of a space may grow to hold `va`. -/
def inStackGap (config : Config) (space : AddressSpace) (va : Address) : Bool :=
  decide (config.stackBottom.toNat ≤ va.toNat) && decide (va.toNat < space.stackFloor.base.toNat)

/-- Register a stack page unless the space has a page there. -/
def registerStackPage (id : SpaceId) (vpn : PageNum) : MachineM Unit := do
  unless (← space id).registry.contains vpn do
    register id .anon vpn.base true .zero

/-- Grow the stack down to a page. -/
def growStack (id : SpaceId) (vpn : PageNum) : MachineM Unit := do
  let floor := (← space id).stackFloor
  let range ← Action.assert (PageRange.between vpn floor)
  range.toList.forM (registerStackPage id)
  modify (·.modifySpace id fun space => { space with stackFloor := vpn })
  note (.stackGrew id vpn)

/-- Register and load the first page of the stack. The top of the stack is returned. -/
def setupStack (id : SpaceId) : MachineM Address := do
  let top := (← get).config.stackTop
  let vpn := (top.retreat pageSize).page
  register id .anon vpn.base true .zero
  let _ ← claim ⟨id, vpn⟩
  let _ ← space id
  modify (·.modifySpace id fun space => { space with stackFloor := vpn })
  return top

end DemandPaging.Machine
