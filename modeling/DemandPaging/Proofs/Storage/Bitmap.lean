import DemandPaging.Storage.Bitmap

/-!
# The bitmap as a set of slots

The view is `bit`, one truth value for each slot. `bit_set` and `bit_clear` say that the word
operations change one slot, `bit_lowestClear` that the slot chosen next is free. `Valid` says that
no bit past the size is set; under it `isSet` is `bit`.
-/

namespace DemandPaging

namespace Word

/-- A word that is not full has a clear bit, and `lowestClear` finds one. -/
theorem getLsbD_lowestClear {w : Word} (h : w ≠ full) :
    w.lowestClear < 64 ∧ w.getLsbD w.lowestClear = false := by
  unfold lowestClear
  cases hfind : (List.range 64).find? fun i => !w.getLsbD i with
  | some i =>
    have hmem := List.mem_of_find?_eq_some hfind
    have hclear := List.find?_some hfind
    exact ⟨List.mem_range.mp hmem, by simpa using hclear⟩
  | none =>
    refine absurd (BitVec.eq_of_getLsbD_eq fun i hi => ?_) h
    have hset := List.find?_eq_none.mp hfind i (List.mem_range.mpr hi)
    rw [full, BitVec.getLsbD_allOnes, decide_eq_true hi]
    simpa using hset

/-- All bits below the lowest clear one are set. -/
theorem getLsbD_of_lt_lowestClear {w : Word} {i : Nat} (hi : i < 64) (h : i < w.lowestClear) :
    w.getLsbD i = true := by
  unfold lowestClear at h
  cases hfind : (List.range 64).find? fun i => !w.getLsbD i with
  | some j =>
    rw [hfind, Option.getD_some] at h
    have hbelow := (List.find?_range_eq_some.mp hfind).2.2 i h
    simpa using hbelow
  | none =>
    have hset := List.find?_eq_none.mp hfind i (List.mem_range.mpr hi)
    simpa using hset

end Word

namespace Bitmap

/-- The bit of a slot, whatever the size of the bitmap. -/
def bit (b : Bitmap) (slot : Nat) : Bool := (b.word (slot / 64)).getLsbD (slot % 64)

/-- No bit past the size is set. -/
def Valid (b : Bitmap) : Prop := ∀ slot, b.bit slot = true → slot < b.size

theorem isSet_eq (b : Bitmap) (slot : Nat) : b.isSet slot = (decide (slot < b.size) && b.bit slot) :=
  rfl

theorem Valid.isSet {b : Bitmap} (h : b.Valid) (slot : Nat) : b.isSet slot = b.bit slot := by
  rw [isSet_eq]
  cases hb : b.bit slot with
  | false => rw [Bool.and_false]
  | true => rw [Bool.and_true, decide_eq_true (h slot hb)]

theorem bit_empty (size slot : Nat) : (empty size).bit slot = false := by
  simp [bit, word, empty]

theorem valid_empty (size : Nat) : (empty size).Valid := fun slot h => by
  rw [bit_empty] at h
  cases h

/-- Changing a word changes that word alone. -/
theorem word_putWord (b : Bitmap) (i j : Nat) (w : Word) :
    (b.putWord i w).word j = if i = j then w else b.word j := by
  unfold putWord word
  by_cases hi : i < b.words.size
  · rw [if_pos hi, Array.getElem?_setIfInBounds]
    split <;> rfl
  · rw [if_neg hi]
    simp only [Array.getElem?_push, Array.size_append, Array.size_replicate]
    have hlen : b.words.size + (i - b.words.size) = i := by omega
    rw [hlen]
    by_cases hj : j = i
    · rw [if_pos hj, if_pos hj.symm]
      rfl
    · rw [if_neg hj, if_neg (Ne.symm hj), Array.getElem?_append]
      split
      · rfl
      · rename_i hge
        rw [Array.getElem?_replicate]
        rw [Array.getElem?_eq_none (Nat.not_lt.mp hge)]
        split <;> rfl

/-- The bit of a slot among those of its word. -/
theorem getLsbD_one_shift (i j : Nat) (hj : j < 64) : (1#64 <<< i).getLsbD j = decide (j = i) := by
  rw [BitVec.getLsbD_shiftLeft, BitVec.getLsbD_one, decide_eq_true hj, Bool.true_and]
  by_cases hlt : j < i
  · simp [hlt, Nat.ne_of_lt hlt]
  · by_cases heq : j = i
    · simp [heq]
    · simp [hlt, heq, show j - i ≠ 0 by omega]

/-- Two slots with one word and one place in it are the same. -/
theorem slot_eq_iff (s t : Nat) : t = s ↔ s / 64 = t / 64 ∧ t % 64 = s % 64 := by omega

/-- Setting a slot changes no other. -/
theorem bit_set (b : Bitmap) (s t : Nat) : (b.set s).bit t = (decide (t = s) || b.bit t) := by
  have hplace : t % 64 < 64 := Nat.mod_lt t (by decide)
  unfold bit set
  rw [word_putWord]
  by_cases hw : s / 64 = t / 64
  · rw [if_pos hw, BitVec.getLsbD_or, getLsbD_one_shift _ _ hplace, hw, Bool.or_comm]
    simp [slot_eq_iff s t, hw]
  · rw [if_neg hw]
    simp [slot_eq_iff s t, hw]

/-- Clearing a slot changes no other. -/
theorem bit_clear (b : Bitmap) (s t : Nat) : (b.clear s).bit t = (decide (t ≠ s) && b.bit t) := by
  have hplace : t % 64 < 64 := Nat.mod_lt t (by decide)
  unfold bit clear
  rw [word_putWord]
  by_cases hw : s / 64 = t / 64
  · rw [if_pos hw, BitVec.getLsbD_and, BitVec.getLsbD_not, getLsbD_one_shift _ _ hplace, hw,
      Bool.and_comm]
    simp [slot_eq_iff s t, hw, hplace]
  · rw [if_neg hw]
    simp [slot_eq_iff s t, hw]

/-- The first word that is not full, or the word after the last, is not full. -/
theorem word_firstOpen_ne_full (b : Bitmap) : b.word b.firstOpen ≠ Word.full := by
  unfold firstOpen word
  by_cases h : b.words.findIdx (· ≠ Word.full) < b.words.size
  · have hopen := Array.findIdx_getElem (w := h)
    rw [Array.getElem?_eq_getElem h, Option.getD_some]
    simpa using hopen
  · rw [Array.getElem?_eq_none (Nat.not_lt.mp h), Option.getD_none]
    decide

/-- The slot chosen next is free. -/
theorem bit_lowestClear (b : Bitmap) : b.bit b.lowestClear = false := by
  obtain ⟨hlt, hclear⟩ := Word.getLsbD_lowestClear b.word_firstOpen_ne_full
  unfold bit lowestClear
  rw [Nat.mul_comm, Nat.mul_add_div (by decide), Nat.div_eq_of_lt hlt, Nat.add_zero,
    Nat.mul_add_mod, Nat.mod_eq_of_lt hlt]
  exact hclear

/-- All slots below the one chosen next are occupied. -/
theorem bit_of_lt_lowestClear {b : Bitmap} {slot : Nat} (h : slot < b.lowestClear) :
    b.bit slot = true := by
  have hlow := (Word.getLsbD_lowestClear b.word_firstOpen_ne_full).1
  have hplace : slot % 64 < 64 := Nat.mod_lt _ (by decide)
  unfold lowestClear at h
  unfold bit
  rcases Nat.lt_or_ge (slot / 64) b.firstOpen with hbefore | hafter
  · have hsize := Nat.lt_of_lt_of_le hbefore Array.findIdx_le_size
    have hfull : b.words[slot / 64] = Word.full := by simpa using Array.not_of_lt_findIdx hbefore
    rw [word, Array.getElem?_eq_getElem hsize, hfull, Option.getD_some, Word.full,
      BitVec.getLsbD_allOnes, decide_eq_true hplace]
  · obtain heq : slot / 64 = b.firstOpen := by omega
    rw [heq]
    exact Word.getLsbD_of_lt_lowestClear hplace (by omega)

/-- No slot is left only when all are occupied. -/
theorem bit_of_alloc?_eq_none {b : Bitmap} (h : b.alloc? = none) {slot : Nat} (hs : slot < b.size) :
    b.bit slot = true := by
  unfold alloc? at h
  simp only at h
  split at h
  · cases h
  · rename_i hge
    exact bit_of_lt_lowestClear (Nat.lt_of_lt_of_le hs (Nat.not_lt.mp hge))

/-- A slot that is taken was free and lies below the size, and nothing else changes. -/
theorem Valid.alloc? {b b' : Bitmap} {slot : Nat} (h : b.Valid)
    (ha : b.alloc? = some (slot, b')) :
    b'.Valid ∧ b'.size = b.size ∧ slot < b.size ∧ b.bit slot = false ∧
      ∀ t, b'.bit t = (decide (t = slot) || b.bit t) := by
  unfold Bitmap.alloc? at ha
  simp only at ha
  split at ha
  · rename_i hlt
    obtain ⟨rfl, rfl⟩ := Prod.mk.inj (Option.some.inj ha)
    refine ⟨fun t ht => ?_, rfl, hlt, b.bit_lowestClear, b.bit_set _⟩
    rw [bit_set, Bool.or_eq_true, decide_eq_true_eq] at ht
    rcases ht with rfl | ht
    · exact hlt
    · exact h t ht
  · cases ha

/-- An occupied slot can be given back, and nothing else changes. -/
theorem Valid.release {b : Bitmap} {slot : Nat} (h : b.Valid) (hs : b.bit slot = true) :
    ∃ b', b.release slot = .ok b' ∧ b'.Valid ∧ b'.size = b.size ∧
      ∀ t, b'.bit t = (decide (t ≠ slot) && b.bit t) := by
  refine ⟨b.clear slot, ?_, fun t ht => ?_, rfl, b.bit_clear _⟩
  · rw [Bitmap.release, h.isSet, hs, if_pos rfl]
  · rw [bit_clear, Bool.and_eq_true] at ht
    exact h t ht.2

/-- A word without set bits counts none. -/
theorem Word.count_eq_zero {w : Word} (h : ∀ i < 64, w.getLsbD i = false) : w.count = 0 := by
  unfold Word.count
  rw [List.countP_eq_zero]
  intro i hi
  rw [h i (List.mem_range.mp hi)]
  decide

theorem count_eq_zero : ∀ {words : List Word}, (∀ w ∈ words, w.count = 0) → count words = 0
  | [], _ => rfl
  | w :: rest, h => by
    rw [count, h w List.mem_cons_self, count_eq_zero fun v hv => h v (List.mem_cons_of_mem w hv)]

/-- With every slot free none is counted as used. -/
theorem used_eq_zero {b : Bitmap} (h : ∀ slot, b.bit slot = false) : b.used = 0 := by
  refine count_eq_zero fun w hw => Word.count_eq_zero fun i hi => ?_
  obtain ⟨k, hk, rfl⟩ := Array.getElem_of_mem (Array.mem_toList_iff.mp hw)
  have hclear := h (k * 64 + i)
  unfold bit word at hclear
  rw [Nat.mul_comm, Nat.mul_add_div (by decide), Nat.div_eq_of_lt hi, Nat.add_zero,
    Nat.mul_add_mod, Nat.mod_eq_of_lt hi, Array.getElem?_eq_getElem hk, Option.getD_some] at hclear
  exact hclear

end Bitmap

end DemandPaging
