import DemandPaging.Memory.PageTable
import Std.Data.ExtTreeMap.Lemmas

/-!
# Page tables as maps of records

An entry is a word, but what is read off it are a frame number and eight flags. `frame_make` and
`flags_make` say that a word gives back what it was made of, as long as the frame number fits the
frame field (`frameLimit`); `frame_put` and `has_put` say that changing a flag changes that flag
alone. The view of a page table is `lookup?`, with one equation for each operation.
-/

namespace DemandPaging

namespace Flags

theorem has_put (flags : Flags) (flag flag' : Flag) (value : Bool) :
    (flags.put flag value).has flag' = if flag' = flag then value else flags.has flag' := by
  cases value <;> cases flag <;> cases flag' <;> simp [put, has, Flag.bit]

end Flags

namespace Entry

/-- Frame numbers below this fit the frame field of an entry, which has 44 bits. -/
def frameLimit : Nat := 17592186044416

/-- The frame field of a new entry holds the frame number, cut to the field. -/
theorem field_make (ppn : FrameNum) (flags : Flags) :
    (make ppn flags).bits.extractLsb' 10 44 = BitVec.ofNat 44 ppn := by
  apply BitVec.eq_of_getLsbD_eq
  intro i hi
  have hpast : flags.getLsbD (10 + i) = false := BitVec.getLsbD_of_ge _ _ (by omega)
  have hlow : ¬10 + i < 10 := by omega
  have hword : (BitVec.ofNat 64 ppn).getLsbD i = (BitVec.ofNat 44 ppn).getLsbD i := by
    simp only [BitVec.getLsbD_ofNat, hi, show i < 64 by omega]
  simp only [BitVec.getLsbD_extractLsb', make, BitVec.getLsbD_or, BitVec.getLsbD_shiftLeft,
    BitVec.getLsbD_setWidth, hi, hpast, hlow, show 10 + i < 64 by omega, Nat.add_sub_cancel_left,
    hword]
  simp

/-- The flags of a new entry are those it was made with. -/
@[simp]
theorem flags_make (ppn : FrameNum) (flags : Flags) : (make ppn flags).flags = flags := by
  apply BitVec.eq_of_getLsbD_eq
  intro i hi
  simp [Entry.flags, make, hi, show i < 10 by omega, show i < 64 by omega]

/-- An entry maps to the frame it was made for, if the number fits the field. -/
theorem frame_make {ppn : FrameNum} (h : ppn < frameLimit) (flags : Flags) :
    (make ppn flags).frame = ppn := by
  rw [frame, field_make, BitVec.toNat_ofNat]
  exact Nat.mod_eq_of_lt h

@[simp]
theorem has_make (ppn : FrameNum) (flags : Flags) (flag : Flag) :
    (make ppn flags).has flag = flags.has flag := by
  rw [has, flags_make]

/-- The frame of an entry always fits its field. -/
theorem frame_lt (e : Entry) : e.frame < frameLimit := (e.bits.extractLsb' 10 44).isLt

/-- Changing a flag keeps the frame. -/
@[simp]
theorem frame_put (e : Entry) (flag : Flag) (value : Bool) : (e.put flag value).frame = e.frame :=
  frame_make e.frame_lt _

/-- Changing a flag changes no other flag. -/
@[simp]
theorem has_put (e : Entry) (flag flag' : Flag) (value : Bool) :
    (e.put flag value).has flag' = if flag' = flag then value else e.has flag' := by
  rw [put, has_make, Flags.has_put]
  rfl

end Entry

namespace PageTable

variable (table : PageTable) (vpn vpn' : PageNum)

/-- What is listed is what can be looked up. -/
theorem mem_toList {table : PageTable} {mapping : PageNum × Entry} :
    mapping ∈ table.toList ↔ table.lookup? mapping.1 = some mapping.2 := by
  unfold toList lookup?
  rw [List.mem_filter, Option.filter_eq_some_iff]
  exact and_congr_left fun _ => Std.ExtTreeMap.mem_toList_iff_getElem?_eq_some

/-- An unused page table maps nothing. -/
@[simp]
theorem lookup?_empty : ({} : PageTable).lookup? vpn = none := by
  simp [lookup?]

/-- Taking a mapping away. -/
@[simp]
theorem lookup?_unmap :
    (table.unmap vpn).lookup? vpn' = if vpn = vpn' then none else table.lookup? vpn' := by
  unfold unmap lookup?
  rw [Std.ExtTreeMap.getElem?_erase]
  simp only [Nat.compare_eq_eq]
  split <;> simp

/-- Changing a flag other than the valid one changes it in that mapping alone. -/
theorem lookup?_put {flag : Flag} (hflag : flag ≠ .valid) (value : Bool) :
    (table.put vpn flag value).lookup? vpn' =
      if vpn = vpn' then (table.lookup? vpn').map (·.put flag value) else table.lookup? vpn' := by
  unfold put lookup?
  rw [Std.ExtTreeMap.getElem?_modify]
  simp only [Nat.compare_eq_eq]
  by_cases hv : vpn = vpn'
  · subst hv
    rw [if_pos rfl, if_pos rfl]
    cases table.entries[vpn]? with
    | none => rfl
    | some e =>
      by_cases he : e.has .valid = true
      · simp [Option.filter, he, Ne.symm hflag]
      · simp [Option.filter, he]
  · rw [if_neg hv, if_neg hv]

/-- The table after an access through a mapping. -/
def used (table : PageTable) (vpn : PageNum) (write : Bool) : PageTable :=
  let table := table.put vpn .accessed true
  if write then table.put vpn .dirty true else table

/-- A page that is not mapped can be mapped; the new entry is valid. -/
theorem map_ok {table : PageTable} {vpn : PageNum} (h : table.lookup? vpn = none)
    (ppn : FrameNum) (flags : Flags) : ∃ table', table.map vpn ppn flags = .ok table' ∧
      ∀ v, table'.lookup? v =
        if vpn = v then some (.make ppn (flags.put .valid true)) else table.lookup? v := by
  refine ⟨_, by rw [map, h], fun v => ?_⟩
  unfold lookup?
  rw [Std.ExtTreeMap.getElem?_insert]
  simp only [Nat.compare_eq_eq]
  split
  · simp [Option.filter, Flags.has_put]
  · rfl

end PageTable

end DemandPaging
