import DemandPaging.Proofs.Storage.SlotSet
import DemandPaging.Proofs.Storage.Swap

/-!
# Swap as a finite map

All of a device started as free slots; the calls made since determine which page each occupied slot
holds (`kept`): the one whose storing was last answered with it. `Represents` says that the occupied
slots are the keys of a map and that the sectors of each hold its page; every call preserves it
(`Represents.call?`). What the device answers is then read off the map (`Answers`). Storing writes
the eight sectors of its slot, which the device has, and no other (`sector?_writePage`).

Headline: **`answers_as_map`**.
-/

namespace DemandPaging

/-! ### Sectors -/

/-- A page written inside the device changes its own sectors alone. -/
theorem Disk.sector?_writePage {disk : Disk} {first : Nat} (page : PageBytes)
    (h : first + sectorsPerPage ≤ disk.size) (i : Nat) :
    (disk.writePage first page).sector? i =
      if first ≤ i ∧ i < first + sectorsPerPage then some (page.sector (i - first))
      else disk.sector? i := by
  have hsector : (disk.writePage first page).data.sector i =
      if first ≤ i ∧ i < first + sectorsPerPage then page.sector (i - first)
      else disk.data.sector i := by
    refine Vector.ext fun j hj => ?_
    have hsmall : j < 512 := hj
    rw [writePage, if_pos h]
    split
    · have hplace : i * sectorSize + j - first * sectorSize = (i - first) * sectorSize + j := by
        simp only [sectorSize]
        omega
      rw [SparseBytes.sector, PageBytes.sector, Vector.getElem_ofFn, Vector.getElem_ofFn,
        SparseBytes.get_overwrite, Vector.size_toArray, if_pos, hplace, Vector.getElem?_toArray]
      simp only [sectorsPerPage, pageSize, sectorSize] at *
      omega
    · rw [SparseBytes.sector, SparseBytes.sector, Vector.getElem_ofFn, Vector.getElem_ofFn,
        SparseBytes.get_overwrite, Vector.size_toArray, if_neg]
      simp only [sectorsPerPage, pageSize, sectorSize] at *
      omega
  rw [sector?, sector?, size_writePage, hsector]
  split <;> split <;> first | rfl | omega

/-! ### The keys of a table -/

namespace Table

variable {α : Type} (table : Table α)

/-- The numbers a table has an entry for. -/
def keySet : Finset Nat := table.keys.toFinset

theorem mem_keySet (k : Nat) : k ∈ keySet table ↔ k ∈ table := by
  rw [keySet, List.mem_toFinset, Std.ExtTreeMap.mem_keys]

theorem card_keySet : (keySet table).card = table.size := by
  rw [keySet, List.toFinset_card_of_nodup Std.ExtTreeMap.nodup_keys, Std.ExtTreeMap.length_keys]

theorem keySet_insert (k : Nat) (a : α) :
    keySet (table.insert k a) = insert k (keySet table) := by
  ext j
  rw [mem_keySet, Std.ExtTreeMap.mem_insert, Finset.mem_insert, mem_keySet, Nat.compare_eq_eq,
    eq_comm]

theorem keySet_erase (k : Nat) : keySet (table.erase k) = (keySet table).erase k := by
  ext j
  rw [mem_keySet, Std.ExtTreeMap.mem_erase, Finset.mem_erase, mem_keySet, ne_eq,
    Nat.compare_eq_eq, eq_comm]

end Table

namespace Swap

/-! ### The map -/

/-- A call to a swap device with the slot it is answered, where it is. -/
inductive Call where
  /-- A page is stored, if a slot is free. -/
  | store (page : PageBytes) (answer : Option Nat)
  /-- A slot is read. -/
  | peek (slot : Nat)
  /-- A slot is read and freed. -/
  | fetch (slot : Nat)
  /-- A slot is freed. -/
  | release (slot : Nat)

/-- The device after a call, if the call is answered so. -/
def call? (swap : Swap) : Call → Option Swap
  | .store page answer =>
    match swap.store page with
    | .ok (slot, swap') => if answer = some slot then some swap' else none
    | .error _ => if answer = none then some swap else none
  | .peek slot => (swap.peek slot).toOption.map fun _ => swap
  | .fetch slot => (swap.fetch slot).toOption.map Prod.snd
  | .release slot => (swap.release slot).toOption

/-- The page last stored in each slot that was not freed since, by calls of which the latest comes
first. -/
def kept : List Call → Table PageBytes
  | [] => ∅
  | .store page (some slot) :: before => (kept before).insert slot page
  | .store _ none :: before => kept before
  | .peek _ :: before => kept before
  | .fetch slot :: before => (kept before).erase slot
  | .release slot :: before => (kept before).erase slot

/-- A device of a number of sectors whose occupied slots hold the pages of a map. -/
structure Represents (sectors : Nat) (pages : Table PageBytes) (swap : Swap) : Prop where
  size : swap.disk.size = sectors
  slots : swap.slots.Represents (sectors / sectorsPerPage) (Table.keySet pages)
  content : ∀ slot page, pages[slot]? = some page → swap.content slot = page

variable {sectors slot : Nat} {pages : Table PageBytes} {page : PageBytes} {swap swap' : Swap}

theorem represents_ofDisk (disk : Disk) : (ofDisk disk).Represents disk.size ∅ where
  size := rfl
  slots := by
    rw [Table.keySet, Std.ExtTreeMap.keys_eq_nil_iff.mpr rfl]
    exact Bitmap.represents_empty _
  content slot page h := by simp at h

namespace Represents

theorem valid (h : swap.Represents sectors pages) : swap.Valid where
  slots := h.slots.valid
  fits := by
    rw [capacity, h.slots.size, h.size]
    exact Nat.div_mul_le_self _ _

theorem occupied (h : swap.Represents sectors pages) (slot : Nat) :
    swap.occupied slot = true ↔ slot ∈ pages := by
  rw [Swap.occupied, h.slots.bit, Table.mem_keySet]

/-- Storing a page takes a slot without one and writes its sectors alone. -/
theorem store (h : swap.Represents sectors pages) (hs : swap.store page = .ok (slot, swap')) :
    slot ∉ pages ∧ slot * sectorsPerPage + sectorsPerPage ≤ sectors ∧
      (∀ i, swap'.disk.sector? i =
        if slot * sectorsPerPage ≤ i ∧ i < slot * sectorsPerPage + sectorsPerPage then
          some (page.sector (i - slot * sectorsPerPage))
        else swap.disk.sector? i) ∧
      swap'.Represents sectors (pages.insert slot page) := by
  obtain ⟨-, hfree, -, hself, hothers⟩ := h.valid.store hs
  have hfree : slot ∉ pages := by
    rw [← h.occupied, hfree]
    exact Bool.false_ne_true
  unfold Swap.store at hs
  cases ha : swap.slots.alloc? with
  | none =>
    rw [ha] at hs
    cases hs
  | some taken =>
    rw [ha] at hs
    obtain ⟨rfl, rfl⟩ := Prod.mk.inj (Except.ok.inj hs)
    obtain ⟨hleast, hslots⟩ := h.slots.alloc? ha
    have hroom : taken.1 * sectorsPerPage + sectorsPerPage ≤ swap.disk.size := by
      rw [← Nat.succ_mul, h.size]
      exact (Nat.mul_le_mul_right _ hleast.1.1).trans (Nat.div_mul_le_self _ _)
    refine ⟨hfree, h.size ▸ hroom, Disk.sector?_writePage page hroom, ?_, ?_, fun t p hp => ?_⟩
    · exact (Disk.size_writePage _ _ _).trans h.size
    · rw [Table.keySet_insert]
      exact hslots
    · by_cases ht : t = taken.1
      · subst ht
        rw [Std.ExtTreeMap.getElem?_insert_self] at hp
        exact Option.some.inj hp ▸ hself
      · simp only [Std.ExtTreeMap.getElem?_insert, Nat.compare_eq_eq, Ne.symm ht, if_false] at hp
        rw [hothers t ht]
        exact h.content t p hp

/-- Storing is refused exactly when every slot has a page. -/
theorem store_error (h : swap.Represents sectors pages) (page : PageBytes) :
    swap.store page = .error .outOfSwap ↔ ∀ slot < sectors / sectorsPerPage, slot ∈ pages := by
  simp only [← Table.mem_keySet]
  rw [← h.slots.alloc?_eq_none, Swap.store]
  cases ha : swap.slots.alloc? with
  | none => simp
  | some taken => simp

theorem peek_of_mem (h : swap.Represents sectors pages) (hp : pages[slot]? = some page) :
    swap.peek slot = .ok page := by
  have hmem : slot ∈ Table.keySet pages := by
    rw [Table.mem_keySet, Std.ExtTreeMap.mem_iff_isSome_getElem?, hp, Option.isSome_some]
  rw [Swap.peek, h.slots.isSet, decide_eq_true hmem, if_pos rfl, ← h.content slot page hp]
  rfl

theorem peek_of_notMem (h : swap.Represents sectors pages) (hs : slot ∉ pages) :
    swap.peek slot = .error (.swapSlotFree slot) := by
  rw [← Table.mem_keySet] at hs
  rw [Swap.peek, h.slots.isSet, decide_eq_false hs, if_neg Bool.false_ne_true]

/-- Freeing a slot with a page forgets the page and leaves the sectors as they are. -/
theorem release_of_mem (h : swap.Represents sectors pages) (hs : slot ∈ pages) :
    ∃ swap', swap.release slot = .ok swap' ∧ swap'.disk = swap.disk ∧
      swap'.Represents sectors (pages.erase slot) := by
  obtain ⟨slots', hok, hslots⟩ := h.slots.release_of_mem ((Table.mem_keySet _ _).mpr hs)
  refine ⟨{ swap with slots := slots' }, by rw [Swap.release, hok], rfl, h.size, ?_,
    fun t p hp => ?_⟩
  · rw [Table.keySet_erase]
    exact hslots
  · rw [Std.ExtTreeMap.getElem?_erase] at hp
    split at hp
    · cases hp
    · exact h.content t p hp

theorem release_of_notMem (h : swap.Represents sectors pages) (hs : slot ∉ pages) :
    swap.release slot = .error (.slotNotAllocated slot) := by
  rw [← Table.mem_keySet] at hs
  rw [Swap.release, h.slots.release_of_notMem hs]

theorem fetch_of_mem (h : swap.Represents sectors pages) (hp : pages[slot]? = some page) :
    ∃ swap', swap.fetch slot = .ok (page, swap') ∧ swap'.disk = swap.disk ∧
      swap'.Represents sectors (pages.erase slot) := by
  have hmem : slot ∈ pages := by
    rw [Std.ExtTreeMap.mem_iff_isSome_getElem?, hp, Option.isSome_some]
  obtain ⟨swap', hok, hrest⟩ := h.release_of_mem hmem
  exact ⟨swap', by rw [Swap.fetch, h.peek_of_mem hp, hok], hrest⟩

theorem fetch_of_notMem (h : swap.Represents sectors pages) (hs : slot ∉ pages) :
    swap.fetch slot = .error (.swapSlotFree slot) := by
  rw [Swap.fetch, h.peek_of_notMem hs, h.release_of_notMem hs]

/-- Every call keeps to the map. -/
theorem call? {before : List Call} {call : Call} (h : swap.Represents sectors (kept before))
    (hc : swap.call? call = some swap') : swap'.Represents sectors (kept (call :: before)) := by
  cases call with
  | store page answer =>
    simp only [Swap.call?] at hc
    split at hc
    · rename_i hs
      obtain ⟨rfl, hb⟩ := Option.ite_none_right_eq_some.mp hc
      exact Option.some.inj hb ▸ (h.store hs).2.2.2
    · obtain ⟨rfl, hb⟩ := Option.ite_none_right_eq_some.mp hc
      exact Option.some.inj hb ▸ h
  | peek slot =>
    obtain ⟨page, -, rfl⟩ := Option.map_eq_some_iff.mp hc
    exact h
  | fetch slot =>
    simp only [Swap.call?] at hc
    cases hp : (kept before)[slot]? with
    | some page =>
      obtain ⟨after, hok, -, hafter⟩ := h.fetch_of_mem hp
      rw [hok] at hc
      exact Option.some.inj hc ▸ hafter
    | none =>
      have hmem : slot ∉ kept before := by
        rw [Std.ExtTreeMap.mem_iff_isSome_getElem?, hp]
        exact Bool.false_ne_true
      rw [h.fetch_of_notMem hmem] at hc
      cases hc
  | release slot =>
    simp only [Swap.call?] at hc
    by_cases hmem : slot ∈ kept before
    · obtain ⟨after, hok, -, hafter⟩ := h.release_of_mem hmem
      rw [hok] at hc
      exact Option.some.inj hc ▸ hafter
    · rw [h.release_of_notMem hmem] at hc
      cases hc

end Represents

/-- Whatever the calls, the device represents the pages stored and not freed. -/
theorem represents_of_replay {disk : Disk} {calls : List Call}
    (h : replay Swap.call? (ofDisk disk) calls = some swap) :
    swap.Represents disk.size (kept calls) :=
  replay_induction (I := fun calls swap => swap.Represents disk.size (kept calls))
    (represents_ofDisk disk) (fun _ _ _ _ hswap hc => hswap.call? hc) h

/-! ### What it answers -/

/-- The answers of a device of a number of sectors whose occupied slots hold the pages of a map. -/
structure Answers (sectors : Nat) (pages : Table PageBytes) (swap : Swap) : Prop where
  used : swap.used = pages.size
  capacity : swap.capacity = sectors / sectorsPerPage
  full : ∀ page, swap.store page = .error .outOfSwap ↔
    ∀ slot < sectors / sectorsPerPage, slot ∈ pages
  /-- Nothing else keeps a page from being stored. -/
  refused : ∀ page cause, swap.store page = .error cause → cause = .outOfSwap
  /-- A page goes to a slot without one, whose sectors the device has, and to no other sector. -/
  store : ∀ page slot swap', swap.store page = .ok (slot, swap') → slot ∉ pages ∧
    slot * sectorsPerPage + sectorsPerPage ≤ sectors ∧ ∀ i, swap'.disk.sector? i =
      if slot * sectorsPerPage ≤ i ∧ i < slot * sectorsPerPage + sectorsPerPage then
        some (page.sector (i - slot * sectorsPerPage))
      else swap.disk.sector? i
  peek : ∀ slot page, pages[slot]? = some page → swap.peek slot = .ok page
  fetch : ∀ slot page, pages[slot]? = some page →
    ∃ swap', swap.fetch slot = .ok (page, swap') ∧ swap'.disk = swap.disk
  release : ∀ slot ∈ pages, ∃ swap', swap.release slot = .ok swap' ∧ swap'.disk = swap.disk
  peekFree : ∀ slot, swap.peek slot = .error (.swapSlotFree slot) ↔ slot ∉ pages
  fetchFree : ∀ slot, swap.fetch slot = .error (.swapSlotFree slot) ↔ slot ∉ pages
  releaseFree : ∀ slot, swap.release slot = .error (.slotNotAllocated slot) ↔ slot ∉ pages

/-- **Swap is a map from slots to pages.** After any calls to a device of any size, what it answers
is what the pages stored and not freed say, and a page is stored in the sectors of its slot alone. -/
theorem answers_as_map {disk : Disk} {calls : List Call}
    (h : replay call? (ofDisk disk) calls = some swap) :
    swap.Answers disk.size (kept calls) := by
  have hswap := represents_of_replay h
  have hpage : ∀ slot ∈ kept calls, ∃ page, (kept calls)[slot]? = some page := fun slot hmem =>
    Option.isSome_iff_exists.mp (Std.ExtTreeMap.mem_iff_isSome_getElem?.mp hmem)
  refine
    { used := (Bitmap.used_eq_card hswap.slots.bit).trans (Table.card_keySet _)
      capacity := hswap.slots.size
      full := hswap.store_error
      refused := fun page cause hs => (store_error hs).1
      store := fun page slot swap' hs => ?_
      peek := fun slot page hp => hswap.peek_of_mem hp
      fetch := fun slot page hp => ?_
      release := fun slot hmem => ?_
      peekFree := fun slot => ⟨fun hf hmem => ?_, hswap.peek_of_notMem⟩
      fetchFree := fun slot => ⟨fun hf hmem => ?_, hswap.fetch_of_notMem⟩
      releaseFree := fun slot => ⟨fun hf hmem => ?_, hswap.release_of_notMem⟩ }
  · obtain ⟨hfree, hroom, hsectors, -⟩ := hswap.store hs
    exact ⟨hfree, hroom, hsectors⟩
  · obtain ⟨swap', hok, hdisk, -⟩ := hswap.fetch_of_mem hp
    exact ⟨swap', hok, hdisk⟩
  · obtain ⟨swap', hok, hdisk, -⟩ := hswap.release_of_mem hmem
    exact ⟨swap', hok, hdisk⟩
  · obtain ⟨page, hp⟩ := hpage slot hmem
    rw [hswap.peek_of_mem hp] at hf
    cases hf
  · obtain ⟨page, hp⟩ := hpage slot hmem
    obtain ⟨swap', hok, -⟩ := hswap.fetch_of_mem hp
    rw [hok] at hf
    cases hf
  · obtain ⟨swap', hok, -⟩ := hswap.release_of_mem hmem
    rw [hok] at hf
    cases hf

/-- Calls to a device of two slots and three sectors left over: both slots are filled, a third page
is refused, one slot is emptied and filled again, and the other is read and freed. -/
def callsOfTwoSlots : List Call :=
  let page (value : UInt8) : PageBytes := .replicate pageSize value
  [.release 1, .peek 1, .store (page 4) (some 0), .fetch 0, .store (page 3) none,
    .store (page 2) (some 1), .store (page 1) (some 0)]

theorem answers_of_two_slots :
    ∃ swap, replay call? (ofDisk (.blank 19)) callsOfTwoSlots = some swap ∧
      swap.Answers (Disk.blank 19).size (kept callsOfTwoSlots) := by
  have hsome : (replay call? (ofDisk (.blank 19)) callsOfTwoSlots).isSome := by decide +kernel
  obtain ⟨swap, hswap⟩ := Option.isSome_iff_exists.mp hsome
  exact ⟨swap, hswap, answers_as_map hswap⟩

end Swap

end DemandPaging
