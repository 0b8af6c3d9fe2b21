import DemandPaging.Proofs.Replay
import DemandPaging.Proofs.Storage.Bitmap
import Mathlib.Data.Nat.Count
import Mathlib.Order.Bounds.Basic

/-!
# The bitmap as a finite set

A bitmap that started empty stands for the set of slots taken and not given back since, which the
calls made so far determine (`taken`). `Represents` says that the set bits are the members of a set
of slots below the size; every call preserves it (`Represents.call?`). What the bitmap answers is
then read off the set (`Answers`): membership, the number of members, the least slot that is no
member, and a violation where a slot is given back that is none. Occupied slots are counted word by
word, members one by one; `used_eq_count` equates the two.

Headline: **`answers_as_set`**.
-/

namespace DemandPaging

namespace Bitmap

/-! ### Counting -/

/-- The set bits of a row of words, counted slot by slot. -/
theorem count_eq (words : List Word) :
    count words =
      Nat.count (fun slot => (words[slot / 64]?.getD 0).getLsbD (slot % 64) = true)
        (64 * words.length) := by
  induction words with
  | nil => rfl
  | cons w rest ih =>
    have hfirst : w.count = Nat.count (fun slot =>
        ((w :: rest)[slot / 64]?.getD 0).getLsbD (slot % 64) = true) 64 := by
      rw [Word.count, Nat.count]
      refine List.countP_congr fun i hi => ?_
      have hi : i < 64 := List.mem_range.mp hi
      simp [Nat.div_eq_of_lt hi, Nat.mod_eq_of_lt hi]
    have hrest : (fun slot => ((w :: rest)[(64 + slot) / 64]?.getD 0).getLsbD
        ((64 + slot) % 64) = true) =
        fun slot => (rest[slot / 64]?.getD 0).getLsbD (slot % 64) = true := by
      funext slot
      simp [Nat.add_div_left]
    rw [count, ih, hfirst, List.length_cons, Nat.mul_succ, Nat.add_comm (64 * rest.length),
      Nat.count_add]
    simp only [hrest]

/-- The number of occupied slots, whatever number of slots is looked at past the kept words. -/
theorem used_eq_count (b : Bitmap) :
    b.used = Nat.count (fun slot => b.bit slot = true) (64 * b.words.size) := by
  rw [used, count_eq, Array.length_toList]
  simp only [bit, word, Array.getElem?_toList]
  rfl

/-- The number of members of the set a bitmap stands for. -/
theorem used_eq_card {b : Bitmap} {slots : Finset Nat} (h : ∀ slot, b.bit slot = true ↔ slot ∈ slots) :
    b.used = slots.card := by
  rw [used_eq_count, Nat.count_eq_card_filter_range]
  congr 1
  ext slot
  rw [Finset.mem_filter, Finset.mem_range, h, and_iff_right_iff_imp, ← h]
  intro hset
  by_contra hpast
  rw [bit, word, Array.getElem?_eq_none (by omega)] at hset
  simp at hset

/-! ### Words -/

/-- Changing a word keeps no more words than those up to it. -/
theorem size_words_putWord (b : Bitmap) (i : Nat) (w : Word) :
    (b.putWord i w).words.size = max b.words.size (i + 1) := by
  unfold putWord
  split
  · simp
    omega
  · simp
    omega

/-! ### The set -/

/-- A call to a bitmap with its answer. -/
inductive Call where
  /-- The lowest free slot is taken, if there is one. -/
  | take (answer : Option Nat)
  /-- A slot is given back. -/
  | release (slot : Nat)

/-- The bitmap after a call, if the call is answered so. -/
def call? (b : Bitmap) : Call → Option Bitmap
  | .take answer =>
    match b.alloc? with
    | some (slot, b') => if answer = some slot then some b' else none
    | none => if answer = none then some b else none
  | .release slot => (b.release slot).toOption

/-- The slots taken and not given back since, by calls of which the latest comes first. -/
def taken : List Call → Finset Nat
  | [] => ∅
  | .take (some slot) :: before => insert slot (taken before)
  | .take none :: before => taken before
  | .release slot :: before => (taken before).erase slot

/-- A bitmap of `n` slots in which those of a set are occupied. -/
structure Represents (n : Nat) (slots : Finset Nat) (b : Bitmap) : Prop where
  size : b.size = n
  bit : ∀ slot, b.bit slot = true ↔ slot ∈ slots
  /-- No bit past the size is set. -/
  below : ∀ slot ∈ slots, slot < n
  /-- No words are kept but those that have a slot. -/
  words : b.words.size ≤ (n + 63) / 64

variable {n slot : Nat} {slots : Finset Nat} {b b' : Bitmap}

theorem represents_empty (n : Nat) : (empty n).Represents n ∅ where
  size := rfl
  bit slot := by simp [bit_empty]
  below := by simp
  words := Nat.zero_le _

namespace Represents

theorem valid (h : b.Represents n slots) : b.Valid := fun slot hset => by
  rw [h.size]
  exact h.below slot ((h.bit slot).mp hset)

theorem bit_eq (h : b.Represents n slots) (slot : Nat) : b.bit slot = decide (slot ∈ slots) := by
  rw [Bool.eq_iff_iff, h.bit, decide_eq_true_eq]

theorem isSet (h : b.Represents n slots) (slot : Nat) : b.isSet slot = decide (slot ∈ slots) := by
  rw [h.valid.isSet, h.bit_eq]

/-- Taking a slot takes the least one that is no member. -/
theorem alloc? (h : b.Represents n slots) (ha : b.alloc? = some (slot, b')) :
    IsLeast {s | s < n ∧ s ∉ slots} slot ∧ b'.Represents n (insert slot slots) := by
  obtain ⟨-, hsize, hlt, hfree, hbit⟩ := h.valid.alloc? ha
  rw [h.size] at hsize hlt
  rw [h.bit_eq, decide_eq_false_iff_not] at hfree
  unfold Bitmap.alloc? at ha
  simp only at ha
  split at ha
  · obtain ⟨rfl, rfl⟩ := Prod.mk.inj (Option.some.inj ha)
    refine ⟨⟨⟨hlt, hfree⟩, fun s hs => ?_⟩, hsize, fun t => ?_, fun t ht => ?_, ?_⟩
    · by_contra hbelow
      exact hs.2 ((h.bit s).mp (bit_of_lt_lowestClear (Nat.lt_of_not_le hbelow)))
    · rw [hbit, h.bit_eq, Finset.mem_insert, Bool.or_eq_true, decide_eq_true_eq, decide_eq_true_eq]
    · rcases Finset.mem_insert.mp ht with rfl | ht
      · exact hlt
      · exact h.below t ht
    · rw [set, size_words_putWord]
      have hwords := h.words
      omega
  · cases ha

/-- No slot is left to take when all are members. -/
theorem alloc?_eq_none (h : b.Represents n slots) :
    b.alloc? = none ↔ ∀ slot < n, slot ∈ slots := by
  constructor
  · intro ha slot hs
    exact (h.bit slot).mp (bit_of_alloc?_eq_none ha (h.size ▸ hs))
  · intro hall
    cases ha : b.alloc? with
    | none => rfl
    | some taken =>
      obtain ⟨hlt, hfree⟩ := (h.alloc? ha).1.1
      exact absurd (hall _ hlt) hfree

/-- Giving back a slot that is no member breaks an assertion. -/
theorem release_of_notMem (h : b.Represents n slots) (hs : slot ∉ slots) :
    b.release slot = .error (.slotNotAllocated slot) := by
  rw [Bitmap.release, h.isSet, decide_eq_false hs, if_neg Bool.false_ne_true]

/-- Giving back a member removes it. -/
theorem release_of_mem (h : b.Represents n slots) (hs : slot ∈ slots) :
    ∃ b', b.release slot = .ok b' ∧ b'.Represents n (slots.erase slot) := by
  refine ⟨b.clear slot, ?_, h.size, fun t => ?_, fun t ht => ?_, ?_⟩
  · rw [Bitmap.release, h.isSet, decide_eq_true hs, if_pos rfl]
  · rw [bit_clear, h.bit_eq, Finset.mem_erase, Bool.and_eq_true, decide_eq_true_eq,
      decide_eq_true_eq]
  · exact h.below t (Finset.mem_of_mem_erase ht)
  · rw [clear, size_words_putWord]
    have hwords := h.words
    have hlt := h.below slot hs
    omega

/-- Every call keeps to the set. -/
theorem call? {before : List Call} {call : Call} (h : b.Represents n (taken before))
    (hc : b.call? call = some b') : b'.Represents n (taken (call :: before)) := by
  cases call with
  | take answer =>
    simp only [Bitmap.call?] at hc
    split at hc
    · rename_i ha
      obtain ⟨rfl, hb⟩ := Option.ite_none_right_eq_some.mp hc
      exact Option.some.inj hb ▸ (h.alloc? ha).2
    · obtain ⟨rfl, hb⟩ := Option.ite_none_right_eq_some.mp hc
      exact Option.some.inj hb ▸ h
  | release slot =>
    simp only [Bitmap.call?] at hc
    by_cases hmem : slot ∈ taken before
    · obtain ⟨after, hok, hafter⟩ := h.release_of_mem hmem
      rw [hok] at hc
      exact Option.some.inj hc ▸ hafter
    · rw [h.release_of_notMem hmem] at hc
      cases hc

end Represents

/-- Whatever the calls, the bitmap represents the slots taken and not given back. -/
theorem represents_of_replay {calls : List Call}
    (h : replay Bitmap.call? (empty n) calls = some b) : b.Represents n (taken calls) :=
  replay_induction (I := fun calls b => b.Represents n (taken calls)) (represents_empty n)
    (fun _ _ _ _ hb hc => hb.call? hc) h

/-! ### What it answers -/

/-- The answers of a bitmap of `n` slots in which those of a set are occupied. -/
structure Answers (n : Nat) (slots : Finset Nat) (b : Bitmap) : Prop where
  isSet : ∀ slot, b.isSet slot = decide (slot ∈ slots)
  used : b.used = slots.card
  full : b.alloc? = none ↔ ∀ slot < n, slot ∈ slots
  take : ∀ slot b', b.alloc? = some (slot, b') → IsLeast {s | s < n ∧ s ∉ slots} slot ∧
    ∀ t, b'.isSet t = decide (t ∈ insert slot slots)
  violation : ∀ slot, b.release slot = .error (.slotNotAllocated slot) ↔ slot ∉ slots
  release : ∀ slot ∈ slots, ∃ b', b.release slot = .ok b' ∧
    ∀ t, b'.isSet t = decide (t ∈ slots.erase slot)
  /-- A slot past the size is refused without a look at the words. -/
  past : ∀ slot, n ≤ slot → ∀ words,
    { b with words }.release slot = .error (.slotNotAllocated slot)
  /-- No bit past the size is set. -/
  below : ∀ slot, b.bit slot = true → slot < n
  /-- No words are kept but those that have a slot. -/
  words : b.words.size ≤ (n + 63) / 64

/-- **The bitmap is a set.** After any calls to an empty bitmap of any size, its answers are those
of the set of slots taken and not given back. -/
theorem answers_as_set {calls : List Call} (h : replay call? (empty n) calls = some b) :
    b.Answers n (taken calls) := by
  have hb := represents_of_replay h
  refine
    { isSet := hb.isSet
      used := used_eq_card hb.bit
      full := hb.alloc?_eq_none
      take := fun slot b' ha => ⟨(hb.alloc? ha).1, (hb.alloc? ha).2.isSet⟩
      violation := fun slot => ⟨fun hr hmem => ?_, hb.release_of_notMem⟩
      release := fun slot hmem => ?_
      past := fun slot hpast words => ?_
      below := fun slot hset => hb.below slot ((hb.bit slot).mp hset)
      words := hb.words }
  · obtain ⟨b', hok, -⟩ := hb.release_of_mem hmem
    rw [hok] at hr
    cases hr
  · obtain ⟨b', hok, hafter⟩ := hb.release_of_mem hmem
    exact ⟨b', hok, hafter.isSet⟩
  · have hclear : ({ b with words } : Bitmap).isSet slot = false := by
      rw [isSet_eq, show ({ b with words } : Bitmap).size = n from hb.size,
        decide_eq_false (Nat.not_lt.mpr hpast), Bool.false_and]
    rw [Bitmap.release, hclear, if_neg Bool.false_ne_true]

/-- Calls to a bitmap of two words: all slots are taken, one more is refused, and a slot of each
word is given back, of which the lower one is taken again. -/
def callsOfTwoWords : List Call :=
  [.take (some 3), .release 3, .release 65, .take none] ++
    (List.range 66).reverse.map fun slot => .take (some slot)

theorem answers_of_two_words : ∃ b, replay call? (empty 66) callsOfTwoWords = some b ∧
    b.Answers 66 (taken callsOfTwoWords) := by
  have hsome : (replay call? (empty 66) callsOfTwoWords).isSome := by decide +kernel
  obtain ⟨b, hb⟩ := Option.isSome_iff_exists.mp hsome
  exact ⟨b, hb, answers_as_set hb⟩

end Bitmap

end DemandPaging
