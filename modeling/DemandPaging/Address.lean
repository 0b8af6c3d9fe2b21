import DemandPaging.Text

/-!
# Addresses, page numbers, frame numbers

An address is a 64-bit word. The page number of an address is its quotient by the page size; the
base of a page is its number times the page size, reduced to 64 bits. Page, frame and space numbers
are plain naturals.
-/

namespace DemandPaging

/-- Bytes in a page, and in a frame. -/
def pageSize : Nat := 4096

/-- A user virtual address. -/
structure Address where
  word : UInt64
deriving DecidableEq

/-- A virtual page number inside one address space. -/
abbrev PageNum := Nat

/-- A frame number: the index of a frame in the pool. -/
abbrev FrameNum := Nat

/-- The identity of an address space. -/
abbrev SpaceId := Nat

namespace Address

/-- The address as a number. -/
def toNat (va : Address) : Nat := va.word.toNat

/-- The address with this number, reduced to 64 bits. -/
def ofNat (n : Nat) : Address := ⟨UInt64.ofNat n⟩

/-- The address `n` bytes further on, reduced to 64 bits. -/
def advance (va : Address) (n : Nat) : Address := ofNat (va.toNat + n)

/-- The address `n` bytes before, reduced to 64 bits. -/
def retreat (va : Address) (n : Nat) : Address := ⟨va.word - UInt64.ofNat n⟩

/-- Where the address lies inside its page. -/
def offset (va : Address) : Nat := va.toNat % pageSize

/-- Whether the address starts a page. -/
def isAligned (va : Address) : Bool := va.offset == 0

/-- Whether this is address zero. -/
def isNull (va : Address) : Bool := va.toNat == 0

/-- The page that contains the address. -/
def page (va : Address) : PageNum := va.toNat / pageSize

/-- The first page that starts at or above the address. -/
def pageAbove (va : Address) : PageNum := (va.toNat + (pageSize - 1)) / pageSize

/-- An address is written `VA:` and its number in base sixteen. -/
def describe (va : Address) : String := "VA:" ++ hexText va.toNat

end Address

/-- The first address of a page, reduced to 64 bits. -/
def PageNum.base (vpn : PageNum) : Address := .ofNat (vpn * pageSize)

/-- A page number is written `VPN:` and its number in base sixteen. -/
def PageNum.describe (vpn : PageNum) : String := "VPN:" ++ hexText vpn

/-- A frame number is written `PPN:` and its number in base sixteen. -/
def FrameNum.describe (ppn : FrameNum) : String := "PPN:" ++ hexText ppn

/-- A space identity is written in base ten. -/
def SpaceId.describe (id : SpaceId) : String := appliedText "Space" (toString id)

end DemandPaging
