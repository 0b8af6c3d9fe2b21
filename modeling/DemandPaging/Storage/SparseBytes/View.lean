import DemandPaging.Storage.SparseBytes
import Std.Data.ExtTreeMap.Lemmas

/-!
# The view of bytes with holes

What the operations on `SparseBytes` do to `get`, the byte at a place: `getElem_slice` for reading
and `get_overwrite` for writing.
-/

namespace DemandPaging.SparseBytes

theorem size_overwrite (data : SparseBytes) (start : Nat) (bytes : Bytes) :
    (data.overwrite start bytes).size = max data.size (start + bytes.size) := rfl

/-! ## Reading -/

theorem size_foldl_appendPage (data : SparseBytes) (ps : List Nat) (done : Bytes) :
    (ps.foldl data.appendPage done).size = done.size + pageSize * ps.length := by
  induction ps generalizing done with
  | nil => simp
  | cons p ps ih =>
    rw [List.foldl_cons, ih, appendPage, Array.size_append, Vector.size_toArray, List.length_cons,
      Nat.mul_succ]
    omega

theorem size_slice (data : SparseBytes) (start n : Nat) : (data.slice start n).size = n := by
  simp only [slice, Array.size_extract, size_foldl_appendPage, pagesOver, List.length_range',
    List.size_toArray, List.length_nil, pageSize]
  omega

theorem getElem?_foldl_appendPage (data : SparseBytes) (first count : Nat) (done : Bytes) :
    (∀ i < done.size, ((List.range' first count).foldl data.appendPage done)[i]? = done[i]?) ∧
    ∀ i < pageSize * count, ((List.range' first count).foldl data.appendPage done)[done.size + i]? =
      some (data.get (first * pageSize + i)) := by
  induction count generalizing first done with
  | zero => simp
  | succ count ih =>
    obtain ⟨before, after⟩ := ih (first + 1) (data.appendPage done first)
    have size : (data.appendPage done first).size = done.size + pageSize := by simp [appendPage]
    rw [List.range'_succ, List.foldl_cons]
    refine ⟨fun i h => ?_, fun i h => ?_⟩
    · rw [before i (by omega), appendPage, Array.getElem?_append_left h]
    · by_cases inFirst : i < pageSize
      · rw [before _ (by omega), appendPage, Array.getElem?_append_right (by omega)]
        have page : (first * pageSize + i) / pageSize = first := by
          rw [Nat.mul_comm, Nat.mul_add_div (by decide), Nat.div_eq_of_lt inFirst, Nat.add_zero]
        have place : (first * pageSize + i) % pageSize = i := by
          rw [Nat.mul_comm, Nat.mul_add_mod, Nat.mod_eq_of_lt inFirst]
        simp [get, page, place, inFirst]
      · have rest := after (i - pageSize) (by rw [Nat.mul_succ] at h; omega)
        rw [size] at rest
        rw [show done.size + i = done.size + pageSize + (i - pageSize) by omega, rest,
          show (first + 1) * pageSize + (i - pageSize) = first * pageSize + i by
            rw [Nat.succ_mul]; omega]

theorem getElem?_slice (data : SparseBytes) (start n i : Nat) (h : i < n) :
    (data.slice start n)[i]? = some (data.get (start + i)) := by
  have read := (getElem?_foldl_appendPage data (start / pageSize)
    ((start % pageSize + n + (pageSize - 1)) / pageSize) #[]).2 (start % pageSize + i)
    (by simp only [pageSize]; omega)
  rw [slice, Array.getElem?_extract, pagesOver]
  rw [List.size_toArray, List.length_nil, Nat.zero_add] at read
  rw [if_pos (by rw [size_foldl_appendPage, List.length_range']; simp only [pageSize]; omega),
    read, show start / pageSize * pageSize + (start % pageSize + i) = start + i by
      rw [← Nat.add_assoc, Nat.mul_comm, Nat.div_add_mod]]

/-! ## Writing -/

/-- Page `q` with the part of `bytes` that falls on it when they are put at `start`. -/
def patched (data : SparseBytes) (start : Nat) (bytes : Bytes) (q : Nat) : PageBytes :=
  (data.page q).blit (start - q * pageSize)
    (bytes.extract (q * pageSize - start) (q * pageSize + pageSize - start))

theorem page_overwritePage (data : SparseBytes) (start : Nat) (bytes : Bytes) (p q : Nat) :
    (overwritePage start bytes data p).page q =
      if p = q then data.patched start bytes q else data.page q := by
  simp only [overwritePage, page, patched, Std.ExtTreeMap.getElem?_insert, Nat.compare_eq_eq]
  split
  · rename_i same
    simp [same]
  · rfl

theorem page_foldl_overwritePage (data : SparseBytes) (start : Nat) (bytes : Bytes)
    (first count q : Nat) :
    ((List.range' first count).foldl (overwritePage start bytes) data).page q =
      if first ≤ q ∧ q < first + count then data.patched start bytes q else data.page q := by
  induction count generalizing first data with
  | zero => simp [show ¬(first ≤ q ∧ q < first) by omega]
  | succ count ih =>
    rw [List.range'_succ, List.foldl_cons, ih, page_overwritePage]
    by_cases here : first = q
    · rw [if_neg (by omega), if_pos here, if_pos (by omega)]
    · by_cases later : first + 1 ≤ q ∧ q < first + 1 + count
      · rw [if_pos later, if_pos (by omega), patched, page_overwritePage, if_neg here, patched]
      · rw [if_neg later, if_neg here, if_neg (by omega)]

theorem getElem_patched (data : SparseBytes) (start : Nat) (bytes : Bytes) (q r : Nat)
    (h : r < pageSize) :
    (data.patched start bytes q)[r] =
      if start ≤ q * pageSize + r ∧ q * pageSize + r - start < bytes.size then
        bytes[q * pageSize + r - start]?.getD 0
      else (data.page q)[r] := by
  rw [patched, PageBytes.getElem_blit, Array.size_extract]
  by_cases inside : start ≤ q * pageSize + r ∧ q * pageSize + r - start < bytes.size
  · rw [if_pos inside, if_pos (by omega), Array.getElem?_extract, if_pos (by omega)]
    congr 2
    omega
  · rw [if_neg inside, if_neg (by omega)]

/-- The page of a place that is written is one of those that are overwritten. -/
theorem page_mem_pagesOver (start n i : Nat) (h : start ≤ i ∧ i - start < n) :
    start / pageSize ≤ i / pageSize ∧
      i / pageSize < start / pageSize + (start % pageSize + n + (pageSize - 1)) / pageSize := by
  simp only [pageSize]
  omega

theorem get_overwrite (data : SparseBytes) (start : Nat) (bytes : Bytes) (i : Nat) :
    (data.overwrite start bytes).get i =
      if start ≤ i ∧ i - start < bytes.size then bytes[i - start]?.getD 0 else data.get i := by
  have whole : i / pageSize * pageSize + i % pageSize = i := by
    rw [Nat.mul_comm, Nat.div_add_mod]
  have small : i % pageSize < pageSize := Nat.mod_lt i (by decide)
  have page : (data.overwrite start bytes).page (i / pageSize) =
      if start / pageSize ≤ i / pageSize ∧ i / pageSize < start / pageSize +
          (start % pageSize + bytes.size + (pageSize - 1)) / pageSize then
        data.patched start bytes (i / pageSize)
      else data.page (i / pageSize) :=
    page_foldl_overwritePage ..
  rw [get]
  simp only [page]
  split
  · rw [getElem_patched, whole, get]
  · rename_i outside
    rw [if_neg fun near => outside (page_mem_pagesOver start bytes.size i near)]
    rfl

end DemandPaging.SparseBytes
