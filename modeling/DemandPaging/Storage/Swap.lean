import DemandPaging.Storage.Bitmap
import DemandPaging.Storage.Disk

/-!
# Swap space

A device divided into slots of one page each, with the bitmap of the slots in use. A page is stored
in the lowest free slot; the sectors left over at the end of the device are never used.
-/

namespace DemandPaging

/-- A swap device and its occupied slots. -/
structure Swap where
  disk : Disk
  slots : Bitmap

namespace Swap

/-- All of a device as free slots. -/
def ofDisk (disk : Disk) : Swap := ⟨disk, .empty (disk.size / sectorsPerPage)⟩

/-- Number of slots. -/
def capacity (swap : Swap) : Nat := swap.slots.size

/-- Number of occupied slots. -/
def used (swap : Swap) : Nat := swap.slots.used

/-- Store a page in a free slot. -/
def store (swap : Swap) (page : PageBytes) : Except Refusal (Nat × Swap) :=
  match swap.slots.alloc? with
  | some (slot, slots) => .ok (slot, ⟨swap.disk.writePage (slot * sectorsPerPage) page, slots⟩)
  | none => .error .outOfSwap

/-- The page in an occupied slot, which stays occupied. -/
def peek (swap : Swap) (slot : Nat) : Except Violation PageBytes :=
  if swap.slots.isSet slot then .ok (swap.disk.readPage (slot * sectorsPerPage))
  else .error (.swapSlotFree slot)

/-- Free an occupied slot. -/
def release (swap : Swap) (slot : Nat) : Except Violation Swap :=
  match swap.slots.release slot with
  | .ok slots => .ok { swap with slots }
  | .error broken => .error broken

/-- Take the page out of an occupied slot and free the slot. -/
def fetch (swap : Swap) (slot : Nat) : Except Violation (PageBytes × Swap) :=
  match swap.peek slot, swap.release slot with
  | .ok page, .ok swap => .ok (page, swap)
  | .error broken, _ => .error broken
  | _, .error broken => .error broken

end Swap

end DemandPaging
