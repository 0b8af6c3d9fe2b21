import DemandPaging.Machine.Removal
import DemandPaging.PageRange

/-!
# Mapped files

A mapping is a run of file pages, each with its own window on the file. The windows tile the mapped
part of the file from the front; pages past its end are zeros. Either every page of a mapping is
registered or none is. Unmapping takes away the run of pages that starts at its address.
-/

namespace DemandPaging.Machine

/-- A new handle on the file behind `handle`. -/
def reopen (handle : HandleNum) : MachineM HandleNum :=
  modifyGet fun m =>
    let (opened, files) := m.backing.files.reopen handle
    (opened, { m with backing := { m.backing with files } })

/-- Register the pages of a mapping in turn: the next window starts at `offset` and `remaining`
bytes of the file are left to map. If a page is refused, those registered before it are removed. -/
def mapPages (id : SpaceId) (writable : Bool) (handle : HandleNum) (mapping : Nat)
    (start : PageNum) : List PageNum → (offset remaining : Nat) → MachineM Unit
  | [], _, _ => pure ()
  | vpn :: rest, offset, remaining => do
    let here := min remaining pageSize
    let opened ← reopen handle
    let window : FileWindow :=
      { handle := opened, offset, readBytes := here, zeroBytes := pageSize - here, mapping }
    match ← Action.attempt (register id .file vpn.base writable (.file window)) with
    | .ok () => mapPages id writable handle mapping start rest (offset + here) (remaining - here)
    | .error cause =>
      let registered ← Action.assert (PageRange.between start vpn)
      registered.toList.forM fun vpn => removePage ⟨id, vpn⟩ false
      Action.refuse cause

/-- The address after the last byte of a mapping, which has to lie below the ceiling. -/
def mappingEnd (config : Config) (va : Address) (length : Nat) : Except Refusal Address :=
  let stop := va.toNat + length
  if stop < UInt64.size ∧ stop ≤ config.ceiling.toNat then .ok (.ofNat stop)
  else .error (.invalidAddress va)

/-- What a mapping covers, if the request is well formed: the address after it. -/
def checkMapping (config : Config) (va : Address) (length offset fileSize : Nat) :
    Except Refusal Address := do
  if va.isNull || !va.isAligned then
    throw (.invalidAddress va)
  if length = 0 then
    throw (.invalidArgument "mmap of zero bytes")
  if offset % pageSize ≠ 0 then
    throw (.invalidArgument "mmap offset is not page-aligned")
  let stop ← mappingEnd config va length
  if fileSize = 0 then
    throw (.invalidArgument "mmap of an empty file")
  if fileSize ≤ offset then
    throw (.invalidArgument "mmap offset is past end of file")
  return stop

/-- Map `length` bytes of a file from `offset` on at `va`. Every call uses a mapping number up. -/
def mapFile (id : SpaceId) (va : Address) (length : Nat) (writable : Bool) (handle : HandleNum)
    (offset : Nat) : MachineM Address := do
  let mapping ← modifyGet fun m => (m.nextMapping, { m with nextMapping := m.nextMapping + 1 })
  let m ← get
  let file := m.backing.files.fileOf handle
  let stop ← Action.permit (checkMapping m.config va length offset file.size)
  let range ← Action.assert (PageRange.between va.page stop.pageAbove)
  let registry := (← space id).registry
  match registry.vpns.find? range.contains with
  | some vpn => Action.refuse (.pageExists vpn.base)
  | none =>
    mapPages id writable handle mapping range.start range.toList offset
      (min length (file.size - offset))
    note (.mapped id file.inode va stop mapping)
    return va

/-- The consecutive pages from `vpn` on that belong to a mapping. -/
def mappedRun (registry : Registry) (mapping : Nat) (vpn : PageNum) : List PageNum :=
  (List.range' vpn registry.size).takeWhile fun vpn =>
    (registry.get? vpn).any (·.mapping == mapping)

/-- Take away the mapping that starts at the page of `va`, writing dirty pages back. Nothing happens
unless that page is the first of a run of one mapping. -/
def unmapRun (id : SpaceId) (va : Address) : MachineM Unit := do
  let vpn := va.page
  let registry := (← space id).registry
  let mapping := ((registry.get? vpn).map Page.mapping).getD 0
  if mapping = 0 then
    pure ()
  else if decide (0 < vpn) && (registry.get? (vpn - 1)).any (·.mapping == mapping) then
    note (.insideMapping va mapping)
  else
    let run := mappedRun registry mapping vpn
    run.forM fun vpn => removePage ⟨id, vpn⟩ true
    note (.unmapped id mapping run.length va)

/-- Unmap at `va`; a refusal is only reported. -/
def unmap (id : SpaceId) (va : Address) : MachineM Unit := do
  match ← Action.attempt (unmapRun id va) with
  | .ok () => pure ()
  | .error cause => note (.unmapFailed id va cause)

end DemandPaging.Machine
