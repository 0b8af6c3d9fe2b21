import DemandPaging.Proofs.Ledger.Requests
import Mathlib.Algebra.Ring.Nat

/-!
# Which bytes a read gives

A read goes through its range in spans, none of which crosses the end of a page. So the byte it gives
at a place is the one at that address, in the frame its page was in when the span was reached
(`Ledger.Reads.byte`), and a read that does not stop gives as many bytes as it was asked for.
-/

namespace DemandPaging

namespace Machine

/-- A span lies in one page. -/
def Span.Fits (span : Span) : Prop := span.va.offset + span.length ≤ pageSize

theorem fits_spansWithin : ∀ (runs : Nat) (va : Address) (length : Nat),
    ∀ span ∈ spansWithin runs va length, span.Fits
  | 0, _, _ => nofun
  | runs + 1, va, length => by
    intro span hspan
    unfold spansWithin at hspan
    split at hspan
    · cases hspan
    · rcases List.mem_cons.mp hspan with rfl | hspan
      · have hlt := va.offset_lt
        show va.offset + min (pageSize - va.offset) length ≤ pageSize
        omega
      · exact fits_spansWithin runs _ _ span hspan

/-- A range inside a page is one span. -/
theorem spans_of_fits {va : Address} {n : Nat} (hn : 0 < n) (h : va.offset + n ≤ pageSize) :
    spans va n = [⟨va, n⟩] := by
  obtain ⟨k, rfl⟩ := Nat.exists_eq_succ_of_ne_zero (Nat.ne_of_gt hn)
  unfold spans spansWithin
  rw [if_neg (Nat.succ_ne_zero k), Nat.min_eq_right (by omega)]
  dsimp only
  rw [Nat.sub_self]
  cases k <;> rfl

/-- The first span of a range, and the rest. -/
theorem spansWithin_eq_cons {runs length : Nat} {va : Address} {span : Span} {rest : List Span}
    (h : spansWithin runs va length = span :: rest) :
    ∃ runs', span = ⟨va, min (pageSize - va.offset) length⟩ ∧
      rest = spansWithin runs' (va.advance (min (pageSize - va.offset) length))
        (length - min (pageSize - va.offset) length) := by
  cases runs with
  | zero => cases h
  | succ runs =>
    unfold spansWithin at h
    split at h
    · cases h
    · obtain ⟨rfl, rfl⟩ := List.cons.inj h
      exact ⟨runs, rfl, rfl⟩

/-- The spans of a range cover it. -/
theorem sum_length_spansWithin : ∀ {runs length : Nat} (va : Address), length ≤ runs →
    ((spansWithin runs va length).map Span.length).sum = length
  | 0, length, va, h => by
    obtain rfl : length = 0 := Nat.le_zero.mp h
    rfl
  | runs + 1, length, va, h => by
    unfold spansWithin
    split
    · rename_i hzero
      exact hzero.symm
    · have hlt := va.offset_lt
      have hrest : length - min (pageSize - va.offset) length ≤ runs := by omega
      rw [List.map_cons, List.sum_cons, sum_length_spansWithin _ hrest]
      dsimp only
      omega

end Machine

namespace Ledger

variable {L L' : Ledger} {id : SpaceId} {bytes : Bytes} {ks : List Kind}

/-- The part of a frame that a span covers. -/
theorem size_slice_span {page : PageBytes} {start n : Nat} (h : start + n ≤ pageSize) :
    (page.slice start n).size = n := by
  simp only [PageBytes.slice, Array.size_extract, Vector.size_toArray]
  omega

theorem getElem?_slice_span {page : PageBytes} {start n i : Nat} (h : start + n ≤ pageSize)
    (hi : i < n) : (page.slice start n)[i]? = page[start + i]? := by
  rw [PageBytes.slice, Array.getElem?_extract, if_pos]
  · exact Vector.getElem?_toArray
  · rw [Vector.size_toArray]
    omega

/-- **The byte a read gives at a place** is the one its frame held when its page was accessed. -/
theorem Reads.byte {before rest : List Machine.Span} {runs length : Nat} {va : Address}
    (h : Reads id before bytes ks L L')
    (hspans : before ++ rest = Machine.spansWithin runs va length) {i : Nat}
    (hi : i < bytes.size) :
    ∃ (A : Ledger) (ks₁ ks₂ : List Kind) (e : Grant), ks = ks₁ ++ ks₂ ∧ Trace ks₁ L A ∧
      Trace ks₂ A L' ∧ A.grant ⟨id, (va.advance i).page⟩ = some e ∧
      bytes[i]? = (A.bytes e.frame)[(va.advance i).offset]? := by
  induction h generalizing runs length va i with
  | nil => cases hi
  | @cons L A L' span spans e bytes ks ks' h hg he hrest ih =>
    -- The byte is in the first span or in the rest of the range.
    obtain ⟨runs', rfl, hrest'⟩ := Machine.spansWithin_eq_cons hspans.symm
    dsimp only at he hi hg ih ⊢
    have hlt := va.offset_lt
    generalize hn : min (pageSize - va.offset) length = n at *
    have hfits : va.offset + n ≤ pageSize := by omega
    rw [Array.size_append, size_slice_span hfits] at hi
    by_cases hin : i < n
    · obtain ⟨hpage, hoffset⟩ := va.page_advance (n := i) (by omega)
      refine ⟨A, ks, ks', e, rfl, h, hrest.trace, by rw [hpage]; exact he, ?_⟩
      rw [hoffset, Array.getElem?_append_left (by rwa [size_slice_span hfits]),
        getElem?_slice_span hfits hin]
    · have hrest : i - n < bytes.size := by omega
      obtain ⟨B, ks₁, ks₂, d, rfl, h₁, h₂, hd, hbyte⟩ := ih hrest' hrest
      rw [Address.advance_advance, Nat.add_sub_of_le (Nat.le_of_not_lt hin)] at hd hbyte
      refine ⟨B, ks ++ ks₁, ks₂, d, (List.append_assoc ..).symm, h.trans h₁, h₂, hd, ?_⟩
      rw [Array.getElem?_append_right (by rw [size_slice_span hfits]; omega),
        size_slice_span hfits, hbyte]

/-- A read gives the bytes of its spans. -/
theorem Reads.size_bytes {spans : List Machine.Span} (h : Reads id spans bytes ks L L')
    (hfits : ∀ span ∈ spans, span.Fits) :
    bytes.size = (spans.map Machine.Span.length).sum := by
  induction h with
  | nil => rfl
  | cons _ _ _ _ ih =>
    rw [Array.size_append, size_slice_span (hfits _ List.mem_cons_self),
      ih fun span hspan => hfits span (List.mem_cons_of_mem _ hspan), List.map_cons, List.sum_cons]

/-- The byte at a place of a read is the one its frame held when its page was accessed. -/
def Gives (id : SpaceId) (va : Address) (bytes : Bytes) (ks : List Kind) (L L' : Ledger) : Prop :=
  ∀ i < bytes.size, ∃ (A : Ledger) (ks₁ ks₂ : List Kind) (e : Grant), ks = ks₁ ++ ks₂ ∧
    Trace ks₁ L A ∧ Trace ks₂ A L' ∧ A.grant ⟨id, (va.advance i).page⟩ = some e ∧
    bytes[i]? = (A.bytes e.frame)[(va.advance i).offset]?

/-- **What a read gives**, byte by byte. -/
theorem ReadsUpTo.gives {va : Address} {length : Nat} {r : Machine.ReadResult}
    (h : ReadsUpTo id (Machine.spans va length) r L L') (hL : L.Sound) :
    ∃ ks, (Operation.read id va length).Moves (.ok (.bytes r)) L.layout ks ∧ Trace ks L L' ∧
      Gives id va r.bytes ks L L' ∧ (r.stopped = none → r.bytes.size = length) := by
  unfold Machine.spans at h
  generalize hspans : Machine.spansWithin length va length = spans at h
  cases h with
  | all h =>
    have hsize := h.size_bytes (hspans ▸ Machine.fits_spansWithin length va length)
    rw [← hspans, Machine.sum_length_spansWithin va (Nat.le_refl length)] at hsize
    have hall : spans ++ [] = Machine.spansWithin length va length := by
      rw [List.append_nil]
      exact hspans.symm
    refine ⟨_, .read ?_, h.trace, fun i hi => h.byte hall hi, fun _ => hsize⟩
    rw [Machine.spans, hspans]
    exact h.visits hL
  | part h hg hs =>
    rw [h.trace.layout hL] at hg
    refine ⟨_, .readStopped ?_, h.trace.trans hs, fun i hi => ?_, nofun⟩
    · rw [Machine.spans, hspans]
      exact .intro (h.visits hL) hg
    · obtain ⟨A, ks₁, ks₂, e, rfl, h₁, h₂, he, hbyte⟩ := h.byte hspans.symm hi
      exact ⟨A, ks₁, _, e, List.append_assoc .., h₁, h₂.trans hs, he, hbyte⟩

end Ledger

end DemandPaging
