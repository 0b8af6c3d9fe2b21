import DemandPaging.Failure
import DemandPaging.Storage.SparseBytes

/-!
# Sector devices

A `Disk` has a fixed number of sectors. An `Image` is the same device kept in a byte file: it has as
many sectors as lie wholly inside the file, and a write past its end extends it.
-/

namespace DemandPaging

/-- The content of the sector in the bytes from `i * sectorSize` on. -/
def SparseBytes.sector (data : SparseBytes) (i : Nat) : Sector :=
  Vector.ofFn fun j => data.get (i * sectorSize + j)

/-- A device of fixed size. -/
structure Disk where
  data : SparseBytes

namespace Disk

/-- A device of `n` zeroed sectors. -/
def blank (n : Nat) : Disk := ⟨.zeros (n * sectorSize)⟩

/-- Number of sectors. -/
def size (disk : Disk) : Nat := disk.data.size / sectorSize

/-- The content of a sector, if the device has it. -/
def sector? (disk : Disk) (i : Nat) : Option Sector :=
  if i < disk.size then some (disk.data.sector i) else none

/-- The device with a page in the sectors from `first` on, all of which it has to have. -/
def writePage (disk : Disk) (first : Nat) (page : PageBytes) : Disk :=
  if first + sectorsPerPage ≤ disk.size then
    ⟨disk.data.overwrite (first * sectorSize) page.toArray⟩
  else disk

/-- The page in the sectors from `first` on; a sector the device lacks reads as zeros. -/
def readPage (disk : Disk) (first : Nat) : PageBytes :=
  .ofBytes (disk.data.slice (first * sectorSize) pageSize)

end Disk

/-- A device kept in a byte file. -/
structure Image where
  data : SparseBytes

namespace Image

/-- Number of whole sectors. -/
def size (image : Image) : Nat := image.data.size / sectorSize

/-- The content of a sector that lies wholly inside the file. -/
def read (image : Image) (i : Nat) : Except Violation Sector :=
  if i < image.size then .ok (image.data.sector i) else .error .outOfBounds

/-- Write a sector, filling the file with zeros up to it where it is shorter. The sector has to lie
in what a file can hold. -/
def write (image : Image) (i : Nat) (content : Sector) : Except Violation Image :=
  if (i + 1) * sectorSize ≤ SparseBytes.maxFileSize then
    .ok ⟨image.data.overwrite (i * sectorSize) content.toArray⟩
  else .error .outOfBounds

end Image

end DemandPaging
