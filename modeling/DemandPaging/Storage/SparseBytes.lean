import DemandPaging.Memory.PageBytes
import DemandPaging.Table

/-!
# Bytes with holes

`SparseBytes` is a run of bytes in which only the pages that were written take room; every other
page is zeros. It is what a file or a device holds.

The view is `get`, the byte at a place: reading gives the bytes of the view, and writing and cutting
change it where they should and nowhere else.
-/

namespace DemandPaging

/-- A run of `size` bytes, by pages. -/
structure SparseBytes where
  size : Nat := 0
  /-- The pages that were written. -/
  pages : Table PageBytes := ∅

namespace SparseBytes

/-- A run of zeros. -/
def zeros (size : Nat) : SparseBytes := { size }

/-- The page with this number. -/
def page (data : SparseBytes) (p : Nat) : PageBytes := data.pages[p]?.getD .zero

/-- The byte at `i`, zero past the end. -/
def get (data : SparseBytes) (i : Nat) : UInt8 :=
  have : i % pageSize < pageSize := Nat.mod_lt i (by decide)
  (data.page (i / pageSize))[i % pageSize]

/-- The pages that hold the `n` bytes from `start` on. -/
def pagesOver (start n : Nat) : List Nat :=
  List.range' (start / pageSize) ((start % pageSize + n + (pageSize - 1)) / pageSize)

/-- The bytes read so far with those of one more page. -/
def appendPage (data : SparseBytes) (done : Bytes) (p : Nat) : Bytes :=
  done ++ (data.page p).toArray

/-- The `n` bytes from `start` on. -/
def slice (data : SparseBytes) (start n : Nat) : Bytes :=
  ((pagesOver start n).foldl data.appendPage #[]).extract (start % pageSize)
    (start % pageSize + n)

/-- All bytes. -/
def toBytes (data : SparseBytes) : Bytes := data.slice 0 data.size

/-- The run with the part of `bytes` that falls on page `p` when they are put at `start`. -/
def overwritePage (start : Nat) (bytes : Bytes) (data : SparseBytes) (p : Nat) : SparseBytes :=
  let base := p * pageSize
  { data with pages := data.pages.insert p <|
      (data.page p).blit (start - base) (bytes.extract (base - start) (base + pageSize - start)) }

/-- The run with `bytes` in place of its own from `start` on. It becomes longer if they end past
its end. -/
def overwrite (data : SparseBytes) (start : Nat) (bytes : Bytes) : SparseBytes :=
  { (pagesOver start bytes.size).foldl (overwritePage start bytes) data with
    size := max data.size (start + bytes.size) }

/-- The run cut to a size, or followed by zeros up to it. -/
def resize (data : SparseBytes) (size : Nat) : SparseBytes :=
  { size
    pages := (data.pages.filter fun p _ => decide (p * pageSize < size)).modify (size / pageSize)
      (·.clearFrom (size % pageSize)) }

/-- The most bytes a file that grows can hold: 2^32 - 1 blocks of 4096 bytes. -/
def maxFileSize : Nat := 17592186040320

/-- A run of the given bytes. -/
def ofBytes (bytes : Bytes) : SparseBytes := (zeros 0).overwrite 0 bytes

end SparseBytes

end DemandPaging
