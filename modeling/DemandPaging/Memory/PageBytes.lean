import DemandPaging.Address

/-!
# The bytes of a page

A page always holds `pageSize` bytes. `blit` replaces a part of it, and `getElem_blit` says which
bytes that changes. A device divides a page into consecutive sectors.
-/

namespace DemandPaging

/-- Any run of bytes. -/
abbrev Bytes := Array UInt8

/-- The content of a page or a frame. -/
abbrev PageBytes := Vector UInt8 pageSize

/-- Bytes in a sector of a device. -/
def sectorSize : Nat := 512

/-- Consecutive sectors that hold one page. -/
def sectorsPerPage : Nat := pageSize / sectorSize

/-- The content of a sector. -/
abbrev Sector := Vector UInt8 sectorSize

namespace PageBytes

/-- The page of zeros. -/
def zero : PageBytes := Vector.replicate pageSize 0

/-- The page with `bytes` in place of its own from `start` on; what would fall past the end is
dropped. Bytes that make a whole page are taken as they are. -/
def blit (page : PageBytes) (start : Nat) (bytes : Bytes) : PageBytes :=
  if h : start = 0 ∧ bytes.size = pageSize then ⟨bytes, h.2⟩
  else
    ⟨(page.toArray.extract 0 start ++ bytes ++
        page.toArray.extract (start + bytes.size) pageSize).extract 0 pageSize, by
      simp only [Array.size_extract, Array.size_append, Vector.size_toArray]
      omega⟩

theorem getElem_blit (page : PageBytes) (start : Nat) (bytes : Bytes) (i : Nat)
    (h : i < pageSize) :
    (page.blit start bytes)[i] =
      if start ≤ i ∧ i - start < bytes.size then bytes[i - start]?.getD 0 else page[i] := by
  unfold blit
  split
  · rename_i whole
    simp [whole.1, whole.2, h]
  · simp only [Vector.getElem_mk, Array.getElem_extract, Array.getElem_append, Array.size_extract,
      Array.size_append, Vector.size_toArray, Vector.getElem_toArray, Nat.zero_add]
    by_cases before : i < start
    · simp only [show ¬start ≤ i by omega, false_and, if_false]
      simp only [show i < min start pageSize - 0 by omega,
        show i < min start pageSize - 0 + bytes.size by omega, dif_pos]
    · simp only [show min start pageSize - 0 = start by omega, before, dif_neg, not_false_eq_true,
        show start ≤ i by omega, true_and]
      by_cases inside : i - start < bytes.size
      · simp only [show i < start + bytes.size by omega, dif_pos, inside, if_true,
          Array.getElem?_eq_getElem, Option.getD_some]
      · simp only [show ¬i < start + bytes.size by omega, dif_neg, not_false_eq_true, inside,
          if_false, show start + bytes.size + (i - (start + bytes.size)) = i by omega]

/-- The page with zeros from `start` on. -/
def clearFrom (page : PageBytes) (start : Nat) : PageBytes :=
  page.blit start (Array.replicate (pageSize - start) 0)

theorem getElem_clearFrom (page : PageBytes) (start i : Nat) (h : i < pageSize) :
    (page.clearFrom start)[i] = if start ≤ i then 0 else page[i] := by
  rw [clearFrom, getElem_blit, Array.size_replicate]
  by_cases past : start ≤ i
  · rw [if_pos (by omega), if_pos past, Array.getElem?_replicate, if_pos (by omega)]
    rfl
  · rw [if_neg (by omega), if_neg past]

/-- The `n` bytes from `start` on, fewer at the end of the page. -/
def slice (page : PageBytes) (start n : Nat) : Bytes := page.toArray.extract start (start + n)

/-- The page that starts with `bytes` and is zero after them. -/
def ofBytes (bytes : Bytes) : PageBytes := zero.blit 0 bytes

/-- Sector number `i` of the page. -/
def sector (page : PageBytes) (i : Nat) : Sector :=
  Vector.ofFn fun j => page[i * sectorSize + j]?.getD 0

end PageBytes

end DemandPaging
