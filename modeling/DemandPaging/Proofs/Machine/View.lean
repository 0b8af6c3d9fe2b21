import DemandPaging.Machine.Basic
import DemandPaging.Proofs.Memory.PageTable

/-!
# The view of a machine

A machine is looked at by owner: the registered page (`page?`), the valid entry (`entryAt?`), and
the stack floor of a space (`floorAt?`), which also tells whether the space exists. Every change of
a space is one of a page, of a page table or of a floor, and has one equation for each of the three.
-/

namespace DemandPaging.Machine

/-- The lowest page the stack of a space reaches, if there is such a space. -/
def floorAt? (m : Machine) (id : SpaceId) : Option PageNum := m.spaces[id]?.map (·.stackFloor)

/-- The frame that holds the page of an owner. -/
def frameOf (m : Machine) (o : Owner) : Option FrameNum := (m.page? o).bind Page.frame

/-- The eviction group of the page of an owner. -/
def groupOf (m : Machine) (o : Owner) : Option Nat := (m.page? o).bind Page.group

/-- The swap slot that holds the page of an owner. -/
def slotOf (m : Machine) (o : Owner) : Option Nat := (m.page? o).bind Page.slot

theorem page?_eq (m : Machine) (o : Owner) :
    m.page? o = m.spaces[o.space]?.bind fun space => space.registry.get? o.vpn := rfl

theorem entryAt?_eq (m : Machine) (o : Owner) :
    m.entryAt? o = m.spaces[o.space]?.bind fun space => space.table.lookup? o.vpn := rfl

/-- A registered page is in a space. -/
theorem floorAt?_of_page? {m : Machine} {o : Owner} {p : Page} (h : m.page? o = some p) :
    ∃ space, m.spaces[o.space]? = some space ∧ space.registry.get? o.vpn = some p :=
  Option.bind_eq_some_iff.mp h

/-- Two machines over the same spaces have the same pages. -/
theorem page?_congr {m m' : Machine} (h : m'.spaces = m.spaces) (o : Owner) :
    m'.page? o = m.page? o := by
  rw [page?_eq, page?_eq, h]

/-- Two machines over the same spaces have the same mappings. -/
theorem entryAt?_congr {m m' : Machine} (h : m'.spaces = m.spaces) (o : Owner) :
    m'.entryAt? o = m.entryAt? o := by
  rw [entryAt?_eq, entryAt?_eq, h]

section Changes

variable (m : Machine) (id id' : SpaceId) (o o' : Owner)

theorem spaces_modifySpace (f : AddressSpace → AddressSpace) :
    (m.modifySpace id f).spaces[id']? =
      if id = id' then m.spaces[id']?.map f else m.spaces[id']? := by
  unfold modifySpace
  rw [Std.ExtTreeMap.getElem?_modify]
  simp only [Nat.compare_eq_eq]
  split
  · rename_i h
    rw [h]
  · rfl

/-! ### Changing a page -/

@[simp]
theorem page?_modifyPage (f : Page → Page) :
    (m.modifyPage o f).page? o' = if o = o' then (m.page? o').map f else m.page? o' := by
  obtain ⟨s, v⟩ := o
  obtain ⟨s', v'⟩ := o'
  rw [page?_eq, page?_eq, modifyPage, spaces_modifySpace]
  by_cases hs : s = s'
  · subst hs
    cases hm : m.spaces[s]? with
    | none => simp
    | some space =>
      simp only [if_true, Option.map_some, Option.bind_some, Registry.get?, Registry.modify,
        Std.ExtTreeMap.getElem?_modify, Nat.compare_eq_eq, Owner.mk.injEq, true_and]
      split
      · rename_i h
        rw [h]
      · rfl
  · simp [hs]

@[simp]
theorem entryAt?_modifyPage (f : Page → Page) :
    (m.modifyPage o f).entryAt? o' = m.entryAt? o' := by
  rw [entryAt?_eq, entryAt?_eq, modifyPage, spaces_modifySpace]
  split
  · cases m.spaces[o'.space]? <;> rfl
  · rfl

@[simp]
theorem floorAt?_modifyPage (f : Page → Page) :
    (m.modifyPage o f).floorAt? id = m.floorAt? id := by
  rw [floorAt?, floorAt?, modifyPage, spaces_modifySpace]
  split
  · cases m.spaces[id]? <;> rfl
  · rfl

/-! ### Changing a page table -/

@[simp]
theorem page?_modifyTable (f : PageTable → PageTable) :
    (m.modifyTable id f).page? o = m.page? o := by
  rw [page?_eq, page?_eq, modifyTable, spaces_modifySpace]
  split
  · cases m.spaces[o.space]? <;> rfl
  · rfl

theorem entryAt?_modifyTable (f : PageTable → PageTable) :
    (m.modifyTable id f).entryAt? o =
      if id = o.space then m.spaces[o.space]?.bind fun space => (f space.table).lookup? o.vpn
      else m.entryAt? o := by
  rw [entryAt?_eq, entryAt?_eq, modifyTable, spaces_modifySpace]
  split
  · cases m.spaces[o.space]? <;> rfl
  · rfl

@[simp]
theorem floorAt?_modifyTable (f : PageTable → PageTable) :
    (m.modifyTable id f).floorAt? id' = m.floorAt? id' := by
  rw [floorAt?, floorAt?, modifyTable, spaces_modifySpace]
  split
  · cases m.spaces[id']? <;> rfl
  · rfl

/-- Changing a page table twice. -/
theorem modifyTable_modifyTable (f g : PageTable → PageTable) :
    (m.modifyTable id f).modifyTable id g = m.modifyTable id fun table => g (f table) := by
  unfold modifyTable modifySpace
  refine congrArg (fun spaces => ({ m with spaces } : Machine)) ?_
  refine Std.ExtTreeMap.ext_getElem? fun k => ?_
  simp only [Std.ExtTreeMap.getElem?_modify, Nat.compare_eq_eq]
  split
  · rw [if_pos trivial, Option.map_map]
    rfl
  · rfl

@[simp]
theorem entryAt?_unmap :
    (m.modifyTable o.space (·.unmap o.vpn)).entryAt? o' =
      if o = o' then none else m.entryAt? o' := by
  obtain ⟨s, v⟩ := o
  obtain ⟨s', v'⟩ := o'
  rw [entryAt?_modifyTable, entryAt?_eq]
  by_cases hs : s = s'
  · subst hs
    cases m.spaces[s]? <;> simp
  · simp [hs]

theorem entryAt?_put {flag : Flag} (hflag : flag ≠ .valid) (value : Bool) :
    (m.modifyTable o.space (·.put o.vpn flag value)).entryAt? o' =
      if o = o' then (m.entryAt? o').map (·.put flag value) else m.entryAt? o' := by
  obtain ⟨s, v⟩ := o
  obtain ⟨s', v'⟩ := o'
  rw [entryAt?_modifyTable, entryAt?_eq]
  by_cases hs : s = s'
  · subst hs
    cases m.spaces[s]? <;> simp [PageTable.lookup?_put _ _ _ hflag]
  · simp [hs]

end Changes

end DemandPaging.Machine
