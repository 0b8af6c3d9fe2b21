import DemandPaging.Storage.Swap
import DemandPaging.Storage.SparseBytes.View
import DemandPaging.Proofs.Storage.Bitmap

/-!
# Swap as a map from slots to pages

The view is `content`, the page a slot holds, and the occupied bits of the bitmap. Storing a page
takes a free slot and changes the content of that slot alone (`Valid.store`); fetching gives the
content back and frees the slot, releasing only frees it (`Valid.fetch`, `Valid.release`).
-/

namespace DemandPaging

namespace Disk

theorem getElem_readPage (disk : Disk) (first i : Nat) (h : i < pageSize) :
    (disk.readPage first)[i] = disk.data.get (first * sectorSize + i) := by
  rw [readPage, PageBytes.ofBytes, PageBytes.getElem_blit, SparseBytes.size_slice, if_pos (by omega),
    SparseBytes.getElem?_slice _ _ _ _ (by omega)]
  rfl

/-- A page written inside the device does not change its size. -/
theorem size_writePage (disk : Disk) (first : Nat) (page : PageBytes) :
    (disk.writePage first page).size = disk.size := by
  unfold writePage
  split
  · rename_i h
    simp only [size, SparseBytes.size_overwrite, Vector.size_toArray, sectorsPerPage, pageSize,
      sectorSize] at h ⊢
    omega
  · rfl

/-- A page is read back as it was written. -/
theorem readPage_writePage_self {disk : Disk} {first : Nat} (page : PageBytes)
    (h : first + sectorsPerPage ≤ disk.size) : (disk.writePage first page).readPage first = page := by
  ext i hi
  rw [getElem_readPage, writePage, if_pos h, SparseBytes.get_overwrite, Vector.size_toArray,
    if_pos (by omega), Nat.add_sub_cancel_left]
  simp [hi]

/-- A page written elsewhere leaves the others as they were. -/
theorem readPage_writePage_ne {disk : Disk} {first other : Nat} (page : PageBytes)
    (h : first + sectorsPerPage ≤ other ∨ other + sectorsPerPage ≤ first) :
    (disk.writePage first page).readPage other = disk.readPage other := by
  ext i hi
  rw [getElem_readPage, getElem_readPage, writePage]
  split
  · rw [SparseBytes.get_overwrite, Vector.size_toArray, if_neg]
    simp only [sectorsPerPage, pageSize, sectorSize] at h hi ⊢
    omega
  · rfl

end Disk

namespace Swap

/-- The page a slot holds. -/
def content (swap : Swap) (slot : Nat) : PageBytes := swap.disk.readPage (slot * sectorsPerPage)

/-- Whether a slot is occupied. -/
def occupied (swap : Swap) (slot : Nat) : Bool := swap.slots.bit slot

/-- Every slot is occupied. -/
def Full (swap : Swap) : Prop := ∀ slot < swap.capacity, swap.occupied slot = true

/-- Every slot lies on the device, and only slots are occupied. -/
structure Valid (swap : Swap) : Prop where
  slots : swap.slots.Valid
  fits : swap.capacity * sectorsPerPage ≤ swap.disk.size

theorem Valid.lt_capacity {swap : Swap} {slot : Nat} (h : swap.Valid)
    (hs : swap.occupied slot = true) : slot < swap.capacity := h.slots slot hs

theorem valid_ofDisk (disk : Disk) : (ofDisk disk).Valid :=
  ⟨Bitmap.valid_empty _, Nat.div_mul_le_self _ _⟩

theorem occupied_ofDisk (disk : Disk) (slot : Nat) : (ofDisk disk).occupied slot = false :=
  Bitmap.bit_empty _ _

/-! ### The number of slots -/

theorem capacity_store {swap swap' : Swap} {page : PageBytes} {slot : Nat}
    (h : swap.store page = .ok (slot, swap')) : swap'.capacity = swap.capacity := by
  unfold Swap.store at h
  split at h
  · rename_i ha
    obtain ⟨-, rfl⟩ := Prod.mk.inj (Except.ok.inj h)
    unfold Bitmap.alloc? at ha
    simp only at ha
    split at ha
    · rw [capacity, ← (Prod.mk.inj (Option.some.inj ha)).2]
      rfl
    · cases ha
  · cases h

theorem capacity_release {swap swap' : Swap} {slot : Nat} (h : swap.release slot = .ok swap') :
    swap'.capacity = swap.capacity := by
  unfold Swap.release at h
  split at h
  · rename_i hr
    rw [← Except.ok.inj h]
    unfold Bitmap.release at hr
    split at hr
    · rw [capacity, ← Except.ok.inj hr]
      rfl
    · cases hr
  · cases h

theorem capacity_fetch {swap swap' : Swap} {slot : Nat} {page : PageBytes}
    (h : swap.fetch slot = .ok (page, swap')) : swap'.capacity = swap.capacity := by
  unfold Swap.fetch at h
  split at h
  · rename_i hr
    rw [← (Prod.mk.inj (Except.ok.inj h)).2]
    exact capacity_release hr
  · cases h
  · cases h

/-! ### Storing and fetching -/

/-- **Storing a page.** It goes to a slot that was free, whose content alone changes. -/
theorem Valid.store {swap swap' : Swap} {page : PageBytes} {slot : Nat} (h : swap.Valid)
    (hs : swap.store page = .ok (slot, swap')) :
    swap'.Valid ∧ swap.occupied slot = false ∧
      (∀ t, swap'.occupied t = (decide (t = slot) || swap.occupied t)) ∧
      swap'.content slot = page ∧ ∀ t, t ≠ slot → swap'.content t = swap.content t := by
  unfold Swap.store at hs
  cases ha : swap.slots.alloc? with
  | none =>
    rw [ha] at hs
    cases hs
  | some taken =>
    obtain ⟨s, slots'⟩ := taken
    rw [ha] at hs
    obtain ⟨rfl, rfl⟩ := Prod.mk.inj (Except.ok.inj hs)
    obtain ⟨hvalid, hsize, hlt, hfree, hbit⟩ := h.slots.alloc? ha
    have hroom : s * sectorsPerPage + sectorsPerPage ≤ swap.disk.size := by
      rw [← Nat.succ_mul]
      exact Nat.le_trans (Nat.mul_le_mul_right _ hlt) h.fits
    refine ⟨⟨hvalid, ?_⟩, hfree, hbit, Disk.readPage_writePage_self page hroom, fun t ht => ?_⟩
    · show slots'.size * sectorsPerPage ≤ (swap.disk.writePage _ _).size
      rw [Disk.size_writePage, hsize]
      exact h.fits
    · apply Disk.readPage_writePage_ne
      rcases Nat.lt_or_gt_of_ne ht with hlt' | hgt
      · right
        rw [← Nat.succ_mul]
        exact Nat.mul_le_mul_right _ hlt'
      · left
        rw [← Nat.succ_mul]
        exact Nat.mul_le_mul_right _ hgt

/-- Storing is refused for want of a slot only. -/
theorem store_error {swap : Swap} {page : PageBytes} {cause : Refusal}
    (hs : swap.store page = .error cause) : cause = .outOfSwap ∧ swap.Full := by
  unfold Swap.store at hs
  cases ha : swap.slots.alloc? with
  | none =>
    rw [ha] at hs
    exact ⟨(Except.error.inj hs).symm, fun _ => Bitmap.bit_of_alloc?_eq_none ha⟩
  | some taken =>
    rw [ha] at hs
    cases hs

/-- **Releasing a slot.** An occupied slot becomes free and nothing else changes. -/
theorem Valid.release {swap : Swap} {slot : Nat} (h : swap.Valid)
    (hs : swap.occupied slot = true) :
    ∃ swap', swap.release slot = .ok swap' ∧ swap'.Valid ∧
      (∀ t, swap'.occupied t = (decide (t ≠ slot) && swap.occupied t)) ∧
      ∀ t, swap'.content t = swap.content t := by
  obtain ⟨slots', hrel, hvalid, hsize, hbit⟩ := h.slots.release hs
  refine ⟨⟨swap.disk, slots'⟩, by rw [Swap.release, hrel], ⟨hvalid, ?_⟩, hbit, fun t => rfl⟩
  show slots'.size * sectorsPerPage ≤ swap.disk.size
  rw [hsize]
  exact h.fits

/-- **Fetching a slot.** The content comes out and the slot becomes free. -/
theorem Valid.fetch {swap : Swap} {slot : Nat} (h : swap.Valid)
    (hs : swap.occupied slot = true) :
    ∃ swap', swap.fetch slot = .ok (swap.content slot, swap') ∧ swap'.Valid ∧
      (∀ t, swap'.occupied t = (decide (t ≠ slot) && swap.occupied t)) ∧
      ∀ t, swap'.content t = swap.content t := by
  obtain ⟨swap', hrel, hrest⟩ := h.release hs
  have hpeek : swap.peek slot = .ok (swap.content slot) := by
    rw [peek, h.slots.isSet, show swap.slots.bit slot = true from hs, if_pos rfl]
    rfl
  exact ⟨swap', by rw [Swap.fetch, hpeek, hrel], hrest⟩

end Swap

end DemandPaging
