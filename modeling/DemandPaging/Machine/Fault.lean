import DemandPaging.Machine.Sharing
import DemandPaging.Machine.Stack

/-!
# Resolving page faults

A fault is legal if the space has a page at the address that allows the access, or if the stack may
grow there. Then the page is made resident, or its sharing is broken when a present page refused a
write.
-/

namespace DemandPaging.Machine

/-- Resolve a fault at an address no page is registered for. -/
def faultOnMissing (id : SpaceId) (space : AddressSpace) (fault : PageFault) : MachineM Unit := do
  if fault.user && inStackGap (← get).config space fault.va then
    growStack id fault.va.page
    let _ ← claim ⟨id, fault.va.page⟩
  else
    Action.refuse (.notMapped fault.va)

/-- Resolve a fault on a registered page. -/
def faultOnPage (owner : Owner) (page : Page) (fault : PageFault) : MachineM Unit := do
  if fault.write && !page.writable then
    Action.refuse (.writeProtected fault.va)
  else if page.frame.isNone then
    note (.faultClaims owner)
    let _ ← claim owner
  else if fault.write && !fault.notPresent then
    breakSharing owner

/-- Resolve a fault, or refuse it. -/
def dispatchFault (id : SpaceId) (fault : PageFault) : MachineM Unit := do
  let ceiling := (← get).config.ceiling
  if fault.va.isNull || fault.user && decide (ceiling.toNat ≤ fault.va.toNat) then
    Action.refuse (.invalidAddress fault.va)
  else
    let space ← space id
    match space.registry.find? fault.va with
    | none => faultOnMissing id space fault
    | some page => faultOnPage ⟨id, fault.va.page⟩ page fault

/-- Count a fault and resolve it; a refusal is reported. -/
def resolveFault (id : SpaceId) (fault : PageFault) : MachineM Unit := do
  count fun c => { c with faults := c.faults + 1 }
  match ← Action.attempt (dispatchFault id fault) with
  | .ok () => pure ()
  | .error cause =>
    note (.faultFailed id fault cause)
    Action.refuse cause

end DemandPaging.Machine
