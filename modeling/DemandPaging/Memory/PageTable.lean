import DemandPaging.Failure
import DemandPaging.Table

/-!
# Page tables

An entry is one 64-bit word: eight flags in the low byte and a 44-bit frame number from bit 10 on.
Changing a flag builds the word anew from the frame number and the changed flags. A page table holds
leaf entries only; a page without a valid entry is not mapped.
-/

namespace DemandPaging

/-- What a flag of an entry stands for. -/
inductive Flag where
  | valid | readable | writable | executable | user | global | accessed | dirty
deriving DecidableEq

namespace Flag

/-- The flags in the order of their bits. -/
def all : List Flag := [valid, readable, writable, executable, user, global, accessed, dirty]

/-- The bit of a flag. -/
def bit : Flag → Nat
  | valid => 0
  | readable => 1
  | writable => 2
  | executable => 3
  | user => 4
  | global => 5
  | accessed => 6
  | dirty => 7

/-- The letter of a flag. -/
def letter : Flag → String
  | valid => "V"
  | readable => "R"
  | writable => "W"
  | executable => "X"
  | user => "U"
  | global => "G"
  | accessed => "A"
  | dirty => "D"

end Flag

/-- The flag byte of an entry. -/
abbrev Flags := BitVec 8

namespace Flags

/-- Whether a flag is set. -/
def has (flags : Flags) (flag : Flag) : Bool := flags.getLsbD flag.bit

/-- The flags with one of them set or cleared. -/
def put (flags : Flags) (flag : Flag) (value : Bool) : Flags :=
  if value then flags ||| (1#8 <<< flag.bit) else flags &&& ~~~(1#8 <<< flag.bit)

/-- The byte with just these flags. -/
def ofList (flags : List Flag) : Flags := flags.foldl (fun acc flag => acc.put flag true) 0

/-- The flags that are set, in the order of their bits. -/
def toList (flags : Flags) : List Flag := Flag.all.filter flags.has

/-- Flags are written as their letters between bars; no flag at all as a zero. -/
def describe (flags : Flags) : String :=
  appliedText "PTEFlags" <|
    if flags.toList.isEmpty then "0x0" else " | ".intercalate (flags.toList.map Flag.letter)

end Flags

/-- A page table entry. -/
structure Entry where
  bits : BitVec 64
deriving DecidableEq

namespace Entry

/-- The entry that maps to a frame under the given flags. -/
def make (ppn : FrameNum) (flags : Flags) : Entry :=
  ⟨(BitVec.ofNat 64 ppn <<< 10) ||| flags.setWidth 64⟩

/-- The frame an entry maps to. -/
def frame (e : Entry) : FrameNum := (e.bits.extractLsb' 10 44).toNat

/-- The flags of an entry. -/
def flags (e : Entry) : Flags := e.bits.extractLsb' 0 8

/-- Whether a flag of the entry is set. -/
def has (e : Entry) (flag : Flag) : Bool := e.flags.has flag

/-- The entry with one flag set or cleared. -/
def put (e : Entry) (flag : Flag) (value : Bool) : Entry :=
  make e.frame (e.flags.put flag value)

/-- An entry is written as its frame and its flags. -/
def describe (e : Entry) : String :=
  appliedText "PTE" (e.frame.describe ++ ", " ++ e.flags.describe)

end Entry

/-- The page table of one address space. -/
structure PageTable where
  entries : Table Entry := ∅

namespace PageTable

/-- The valid entry of a page. -/
def lookup? (table : PageTable) (vpn : PageNum) : Option Entry :=
  table.entries[vpn]?.filter (·.has .valid)

/-- Map a page that is not mapped; the entry becomes valid. -/
def map (table : PageTable) (vpn : PageNum) (ppn : FrameNum) (flags : Flags) :
    Except Refusal PageTable :=
  match table.lookup? vpn with
  | some _ => .error (.alreadyMapped vpn.base)
  | none =>
    .ok { table with entries := table.entries.insert vpn (.make ppn (flags.put .valid true)) }

/-- Take the mapping of a page away. -/
def unmap (table : PageTable) (vpn : PageNum) : PageTable :=
  { table with entries := table.entries.erase vpn }

/-- Set or clear a flag of a mapped page. -/
def put (table : PageTable) (vpn : PageNum) (flag : Flag) (value : Bool) : PageTable :=
  { table with
    entries := table.entries.modify vpn fun e => if e.has .valid then e.put flag value else e }

/-- Whether a page is mapped with a flag set. -/
def has (table : PageTable) (vpn : PageNum) (flag : Flag) : Bool :=
  (table.lookup? vpn).any (·.has flag)

/-- The valid entries in increasing order of page. -/
def toList (table : PageTable) : List (PageNum × Entry) :=
  table.entries.toList.filter fun mapping => mapping.2.has .valid

end PageTable

end DemandPaging
