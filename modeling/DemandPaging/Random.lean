import DemandPaging.Memory.PageBytes

/-!
# Random choices

What a workload draws from: bytes, and the order to visit things in. `Choices` is any source that
gives as many bytes as it is asked for and orders that leave nothing out; `SplitMix` is one, a
64-bit counter whose values are scrambled, so that every word comes up once in its period.

`SplitMix.size_bytes` and `SplitMix.shuffle_perm` say that it is such a source.
-/

namespace DemandPaging

/-- A source of random choices with state `γ`. -/
structure Choices (γ : Type) where
  /-- So many random bytes. -/
  bytes : Nat → γ → Bytes × γ
  /-- The same elements in a random order. -/
  shuffle : Array Nat → γ → Array Nat × γ
  size_bytes : ∀ n g, (bytes n g).1.size = n
  shuffle_perm : ∀ items g, (shuffle items g).1.Perm items

/-- The state of the generator. -/
structure SplitMix where
  state : UInt64

namespace SplitMix

/-- The next word. -/
def next (g : SplitMix) : UInt64 × SplitMix :=
  let state := g.state + 0x9e3779b97f4a7c15
  let z := (state ^^^ (state >>> 30)) * 0xbf58476d1ce4e5b9
  let z := (z ^^^ (z >>> 27)) * 0x94d049bb133111eb
  (z ^^^ (z >>> 31), ⟨state⟩)

/-- Bytes followed by those of a word, the lowest first. -/
def pushWord (done : Bytes) (w : UInt64) : Bytes :=
  ((((((((done.push w.toUInt8).push (w >>> 8).toUInt8).push (w >>> 16).toUInt8).push
    (w >>> 24).toUInt8).push (w >>> 32).toUInt8).push (w >>> 40).toUInt8).push
    (w >>> 48).toUInt8).push (w >>> 56).toUInt8)

/-- The bytes drawn so far with those of one more word. -/
def appendWord : Bytes × SplitMix → Nat → Bytes × SplitMix
  | (done, g), _ =>
    let (w, g) := g.next
    (pushWord done w, g)

/-- `n` random bytes: whole words, and the low bytes of one more for the rest. -/
def bytes (n : Nat) (g : SplitMix) : Bytes × SplitMix :=
  let drawn := (List.range ((n + 7) / 8)).foldl appendWord (#[], g)
  (drawn.1.extract 0 n, drawn.2)

theorem size_appendWord (drawn : Bytes × SplitMix) (i : Nat) :
    (appendWord drawn i).1.size = drawn.1.size + 8 := by
  simp [appendWord, pushWord]

theorem size_foldl_appendWord (words : List Nat) (drawn : Bytes × SplitMix) :
    (words.foldl appendWord drawn).1.size = drawn.1.size + 8 * words.length := by
  induction words generalizing drawn with
  | nil => rfl
  | cons _ words ih =>
    rw [List.foldl_cons, ih, size_appendWord, List.length_cons]
    omega

theorem size_bytes (n : Nat) (g : SplitMix) : (bytes n g).1.size = n := by
  simp only [bytes, Array.size_extract, size_foldl_appendWord, List.length_range, Array.size_empty]
  omega

/-- How many draws are made at most: the period, in which some draw is accepted. -/
def period : Nat := UInt64.size

/-- The largest low half that is accepted for a number below `range`: the multiples of `range` that
fit, scaled to 32 bits. -/
def zone (range : UInt32) : UInt32 :=
  (range <<< UInt32.ofNat (31 - range.toNat.log2)) - 1

/-- A number below `range`: the high half of a 32-bit draw times `range`, drawn again while the low
half would favour some numbers. -/
def below (range : UInt32) : Nat → SplitMix → Nat × SplitMix
  | 0, g => (0, g)
  | draws + 1, g =>
    let (w, g) := g.next
    let product := w.toUInt32.toUInt64 * range.toUInt64
    if product.toUInt32 ≤ zone range then ((product >>> 32).toNat, g) else below range draws g

/-- Exchange the element at place `i` with one not after it. -/
def exchange (i : Nat) (drawn : Array Nat × SplitMix) : Array Nat × SplitMix :=
  let choice := below (UInt32.ofNat (i + 1)) period drawn.2
  (drawn.1.swapIfInBounds i choice.1, choice.2)

/-- The elements in a random order: each but the first is exchanged, from the last down. -/
def shuffle (items : Array Nat) (g : SplitMix) : Array Nat × SplitMix :=
  (List.range' 1 (items.size - 1)).foldr exchange (items, g)

theorem swapIfInBounds_perm (items : Array Nat) (i j : Nat) :
    (items.swapIfInBounds i j).Perm items := by
  unfold Array.swapIfInBounds
  split
  · split
    · exact Array.swap_perm _ _
    · exact .refl _
  · exact .refl _

theorem foldr_exchange_perm (places : List Nat) (items : Array Nat) (g : SplitMix) :
    (places.foldr exchange (items, g)).1.Perm items := by
  induction places with
  | nil => exact .refl _
  | cons i places ih => exact (swapIfInBounds_perm ..).trans ih

theorem shuffle_perm (items : Array Nat) (g : SplitMix) : (shuffle items g).1.Perm items :=
  foldr_exchange_perm ..

/-- The generator as a source of choices. -/
def choices : Choices SplitMix := ⟨bytes, shuffle, size_bytes, shuffle_perm⟩

end SplitMix

end DemandPaging
