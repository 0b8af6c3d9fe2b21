import DemandPaging.Failure

/-!
# Occupancy bitmap

A set of slot numbers below a fixed size, kept as 64-bit words. Slot `s` is bit `s % 64` of word
`s / 64`. Words are kept up to the last one that was ever used; those after it are clear. Allocation
takes the lowest clear bit of the first word that is not full, and refuses it when it lies past the
size; the unused bits of the last word stay clear, so that slot is the lowest free one.
-/

namespace DemandPaging

/-- A word of the bitmap. -/
abbrev Word := BitVec 64

namespace Word

/-- The word with every bit set. -/
def full : Word := .allOnes 64

/-- The lowest clear bit of a word, 64 if it is full. -/
def lowestClear (w : Word) : Nat :=
  ((List.range 64).find? fun i => !w.getLsbD i).getD 64

/-- Number of set bits of a word. -/
def count (w : Word) : Nat :=
  (List.range 64).countP fun i => w.getLsbD i

end Word

/-- Occupancy of the slots below `size`. -/
structure Bitmap where
  size : Nat
  words : Array Word := #[]

namespace Bitmap

/-- The bitmap of `size` free slots. -/
def empty (size : Nat) : Bitmap := { size }

/-- A word of the bitmap, clear if it was never used. -/
def word (b : Bitmap) (i : Nat) : Word := b.words[i]?.getD 0

/-- The bitmap with another content in a word. -/
def putWord (b : Bitmap) (i : Nat) (w : Word) : Bitmap :=
  { b with words :=
      if i < b.words.size then b.words.setIfInBounds i w
      else (b.words ++ Array.replicate (i - b.words.size) 0).push w }

/-- Whether a slot is occupied. -/
def isSet (b : Bitmap) (slot : Nat) : Bool :=
  slot < b.size && (b.word (slot / 64)).getLsbD (slot % 64)

/-- The bitmap with the bit of `slot` set. -/
def set (b : Bitmap) (slot : Nat) : Bitmap :=
  b.putWord (slot / 64) (b.word (slot / 64) ||| (1#64 <<< (slot % 64)))

/-- The bitmap with the bit of `slot` clear. -/
def clear (b : Bitmap) (slot : Nat) : Bitmap :=
  b.putWord (slot / 64) (b.word (slot / 64) &&& ~~~(1#64 <<< (slot % 64)))

/-- The number of the first word that is not full. -/
def firstOpen (b : Bitmap) : Nat := b.words.findIdx (· ≠ Word.full)

/-- The lowest slot whose bit is clear. -/
def lowestClear (b : Bitmap) : Nat := b.firstOpen * 64 + (b.word b.firstOpen).lowestClear

/-- Take the lowest free slot. -/
def alloc? (b : Bitmap) : Option (Nat × Bitmap) :=
  let slot := b.lowestClear
  if slot < b.size then some (slot, b.set slot) else none

/-- Give a slot back. -/
def release (b : Bitmap) (slot : Nat) : Except Violation Bitmap :=
  if b.isSet slot then .ok (b.clear slot) else .error (.slotNotAllocated slot)

/-- Number of set bits of a row of words. -/
def count : List Word → Nat
  | [] => 0
  | w :: rest => w.count + count rest

/-- Number of occupied slots. -/
def used (b : Bitmap) : Nat := count b.words.toList

end Bitmap

end DemandPaging
