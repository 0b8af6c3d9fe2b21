import DemandPaging.Proofs.Action
import DemandPaging.Proofs.Machine.View

/-!
# Changing the spaces only

The loops of the machine go through a list of owners and change the page and the mapping of each.
`Respaced` says what such a loop did: the same to every owner on the list, nothing to any other, and
nothing outside the spaces.
-/

namespace DemandPaging.Registry

variable {registry : Registry}

theorem contains_eq (v : PageNum) : registry.contains v = (registry.get? v).isSome :=
  Std.ExtTreeMap.contains_eq_isSome_getElem?

/-- A page can be registered where there is none. -/
theorem insert_ok {page : Page} (h : registry.get? page.vpn = none) :
    ∃ registry', registry.insert page = .ok registry' ∧
      ∀ v, registry'.get? v = if v = page.vpn then some page else registry.get? v := by
  have hfree : registry.contains page.vpn = false := by
    rw [contains_eq, h]
    rfl
  refine ⟨_, by rw [insert, hfree]; rfl, fun v => ?_⟩
  unfold get?
  rw [Std.ExtTreeMap.getElem?_insert]
  simp only [Nat.compare_eq_eq]
  by_cases hv : v = page.vpn
  · rw [if_pos hv.symm, if_pos hv]
  · rw [if_neg (Ne.symm hv), if_neg hv]

theorem mem_vpns {v : PageNum} : v ∈ registry.vpns ↔ (registry.get? v).isSome := by
  unfold vpns get?
  rw [Std.ExtTreeMap.mem_keys, Std.ExtTreeMap.mem_iff_isSome_getElem?]

theorem get?_erase (vpn v : PageNum) :
    (registry.erase vpn).get? v = if v = vpn then none else registry.get? v := by
  unfold get? erase
  rw [Std.ExtTreeMap.getElem?_erase]
  simp only [Nat.compare_eq_eq]
  by_cases hv : v = vpn
  · rw [if_pos hv.symm, if_pos hv]
  · rw [if_neg (Ne.symm hv), if_neg hv]

end DemandPaging.Registry

namespace DemandPaging.Machine

variable {F : Violation → Machine → Prop} {m m' m'' : Machine} {o : Owner} {p : Page}

/-! ## Steps that do not fail -/

/-- A space with a floor can be looked up. -/
theorem exists_space {id : SpaceId} (h : (m.floorAt? id).isSome) :
    ∃ space, m.spaces[id]? = some space := by
  rw [floorAt?, Option.isSome_map] at h
  exact Option.isSome_iff_exists.mp h

theorem space_eq (id : SpaceId) {space : AddressSpace} (h : m.spaces[id]? = some space) :
    Machine.space id m = .ok space m := by
  show (Action.require _ m.spaces[id]? : MachineM AddressSpace) m = _
  rw [h]
  rfl

theorem ownedPage_eq (h : m.page? o = some p) : ownedPage o m = .ok p m := by
  obtain ⟨space, hspace, hget⟩ := floorAt?_of_page? h
  show (EStateM.bind (Machine.space o.space) _) m = _
  unfold EStateM.bind
  rw [space_eq o.space hspace]
  show (Action.require _ (space.registry.get? o.vpn) : MachineM Page) m = _
  rw [hget]
  rfl

theorem registeredPage_eq (h : m.page? o = some p) : registeredPage o m = .ok p m := by
  obtain ⟨space, hspace, hget⟩ := floorAt?_of_page? h
  show (EStateM.bind (Machine.space o.space) _) m = _
  unfold EStateM.bind
  rw [space_eq o.space hspace]
  show (Action.require _ (space.registry.get? o.vpn) : MachineM Page) m = _
  rw [hget]
  rfl

/-! ## What a loop did -/

/-- Every owner on the list had its page changed by `fp` and its mapping by `fe`. -/
structure Respaced (m m' : Machine) (l : List Owner) (fp : Page → Page)
    (fe : Owner → Option Entry → Option Entry) : Prop where
  rest : ∃ spaces, m' = { m with spaces }
  page : ∀ o, m'.page? o = if o ∈ l then (m.page? o).map fp else m.page? o
  entry : ∀ o, m'.entryAt? o = if o ∈ l then fe o (m.entryAt? o) else m.entryAt? o
  floor : ∀ id, m'.floorAt? id = m.floorAt? id

variable {l : List Owner} {fp : Page → Page} {fe : Owner → Option Entry → Option Entry}

theorem Respaced.nil : Respaced m m [] fp fe :=
  ⟨⟨m.spaces, rfl⟩, fun _ => rfl, fun _ => rfl, fun _ => rfl⟩

theorem Respaced.cons (h : Respaced m m' [o] fp fe) (h' : Respaced m' m'' l fp fe) (ho : o ∉ l) :
    Respaced m m'' (o :: l) fp fe := by
  refine ⟨?_, fun x => ?_, fun x => ?_, fun id => (h'.floor id).trans (h.floor id)⟩
  · obtain ⟨spaces', h'⟩ := h'.rest
    obtain ⟨spaces, h⟩ := h.rest
    exact ⟨spaces', by rw [h', h]⟩
  · rw [h'.page, h.page]
    by_cases hx : x = o
    · subst hx
      simp [ho]
    · simp [hx]
  · rw [h'.entry, h.entry]
    by_cases hx : x = o
    · subst hx
      simp [ho]
    · simp [hx]

/-- What a step did to one mapping, told in another way. -/
theorem Respaced.entry_congr {fe' : Owner → Option Entry → Option Entry}
    (h : Respaced m m' [o] fp fe) (he : fe o (m.entryAt? o) = fe' o (m.entryAt? o)) :
    Respaced m m' [o] fp fe' := by
  refine ⟨h.rest, h.page, fun x => ?_, h.floor⟩
  rw [h.entry]
  by_cases hx : x = o
  · subst hx
    simp [he]
  · simp [hx]

/-- Changing the page of one owner. -/
theorem respaced_modifyPage (hp : m.page? o = some p) (fp : Page → Page) :
    Respaced m (m.modifyPage o fun _ => fp p) [o] fp fun _ e => e := by
  refine ⟨⟨_, rfl⟩, fun x => ?_, fun x => ?_, fun id => floorAt?_modifyPage m id o _⟩
  · rw [page?_modifyPage]
    by_cases hx : x = o
    · subst hx
      simp [hp]
    · simp [hx, Ne.symm hx]
  · rw [entryAt?_modifyPage]
    simp

/-- Changing the page of one owner that was unmapped. -/
theorem respaced_unmap (hp : m.page? o = some p) (fp : Page → Page) :
    Respaced m ((m.modifyTable o.space (·.unmap o.vpn)).modifyPage o fun _ => fp p) [o] fp
      fun _ _ => none := by
  refine ⟨⟨_, rfl⟩, fun x => ?_, fun x => ?_, fun id => ?_⟩
  · rw [page?_modifyPage, page?_modifyTable]
    by_cases hx : x = o
    · subst hx
      simp [hp]
    · simp [hx, Ne.symm hx]
  · rw [entryAt?_modifyPage, entryAt?_unmap]
    by_cases hx : x = o
    · simp [hx]
    · simp [hx, Ne.symm hx]
  · rw [floorAt?_modifyPage, floorAt?_modifyTable]

/-- Mapping an owner that is not mapped. -/
theorem meets_mapOwner {f : FrameNum} {flags : Flags} {R : Refusal → Machine → Prop}
    (hspace : (m.floorAt? o.space).isSome) (he : m.entryAt? o = none) :
    Action.Meets F (mapOwner o f flags) m
      (fun _ m' => Respaced m m' [o] (fun q => q)
        fun _ _ => some (.make f (flags.put .valid true))) R := by
  obtain ⟨space, hspace⟩ := exists_space hspace
  have hnone : space.table.lookup? o.vpn = none := by
    rw [entryAt?_eq, hspace] at he
    exact he
  obtain ⟨table, hmap, hlookup⟩ := PageTable.map_ok hnone f flags
  unfold mapOwner
  rw [Action.meets_bind_of_ok (space_eq o.space hspace), hmap]
  refine ⟨⟨_, rfl⟩, fun x => ?_, fun x => ?_, fun id => floorAt?_modifyTable m o.space id _⟩
  · simp
  · rw [entryAt?_modifyTable, entryAt?_eq]
    obtain ⟨s, v⟩ := o
    obtain ⟨s', v'⟩ := x
    by_cases hs : s = s'
    · subst hs
      by_cases hv : v = v'
      · simp [hspace, hlookup, hv]
      · simp [hspace, hlookup, hv, Ne.symm hv]
    · simp [hs, Ne.symm hs]

/-- A loop does to the owners on its list what its body does to one of them. -/
theorem Respaced.forM {body : Owner → MachineM PUnit} {R : Refusal → Machine → Prop}
    (hl : l.Nodup)
    (hbody : ∀ o ∈ l, ∀ s : Machine, s.page? o = m.page? o → s.entryAt? o = m.entryAt? o →
      Action.Meets F (body o) s (fun _ s' => Respaced s s' [o] fp fe) R) :
    Action.Meets F (l.forM body) m (fun _ m' => Respaced m m' l fp fe) R := by
  suffices h : ∀ s : Machine, (∀ o ∈ l, s.page? o = m.page? o ∧ s.entryAt? o = m.entryAt? o) →
      Action.Meets F (l.forM body) s (fun _ s' => Respaced s s' l fp fe) R from
    h m fun o _ => ⟨rfl, rfl⟩
  induction l with
  | nil => exact fun s _ => Respaced.nil
  | cons o l ih =>
    intro s hs
    obtain ⟨ho, hl⟩ := List.nodup_cons.mp hl
    obtain ⟨hpage, hentry⟩ := hs o List.mem_cons_self
    show Action.Meets F (body o >>= fun _ => l.forM body) s _ R
    refine (hbody o List.mem_cons_self s hpage hentry).bind (fun _ s' hs' => ?_) fun _ _ h => h
    refine (ih hl (fun x hx => hbody x (List.mem_cons_of_mem o hx)) s' fun x hx => ?_).mono
      (fun _ s'' hs'' => hs'.cons hs'' ho) fun _ _ h => h
    have hne : x ≠ o := fun h => ho (h ▸ hx)
    rw [hs'.page, hs'.entry]
    simpa [hne] using hs x (List.mem_cons_of_mem o hx)

/-! ## Registering and unregistering -/

/-- The page of one owner is `q` now, or it has none. -/
structure Repaged (m m' : Machine) (o : Owner) (q : Option Page) : Prop where
  rest : ∃ spaces, m' = { m with spaces }
  page : ∀ x, m'.page? x = if x = o then q else m.page? x
  entry : ∀ x, m'.entryAt? x = m.entryAt? x
  floor : ∀ id, m'.floorAt? id = m.floorAt? id

/-- Changing the registry of a space in one place. -/
theorem repaged_modifySpace {space : AddressSpace} (registry : AddressSpace → Registry)
    {q : Option Page} (hspace : m.spaces[o.space]? = some space)
    (hget : ∀ v, (registry space).get? v = if v = o.vpn then q else space.registry.get? v) :
    Repaged m (m.modifySpace o.space fun space => { space with registry := registry space }) o q := by
  obtain ⟨s, v⟩ := o
  refine ⟨⟨_, rfl⟩, fun x => ?_, fun x => ?_, fun id => ?_⟩
  · obtain ⟨s', v'⟩ := x
    rw [page?_eq, page?_eq, spaces_modifySpace]
    by_cases hs : s = s'
    · subst hs
      simp [hspace, hget]
    · simp [hs, Ne.symm hs]
  · rw [entryAt?_eq, entryAt?_eq, spaces_modifySpace]
    split
    · cases m.spaces[x.space]? <;> rfl
    · rfl
  · rw [floorAt?, floorAt?, spaces_modifySpace]
    split
    · cases m.spaces[id]? <;> rfl
    · rfl

/-- A page can be registered where there is none. -/
theorem meets_insertPage {α : Type} {id : SpaceId} (page : Page) {k : MachineM α}
    {Q : α → Machine → Prop} {R : Refusal → Machine → Prop} (hspace : (m.floorAt? id).isSome)
    (hfree : m.page? ⟨id, page.vpn⟩ = none)
    (h : ∀ m', Repaged m m' ⟨id, page.vpn⟩ (some page) → Action.Meets F k m' Q R) :
    Action.Meets F (do
      let space ← space id
      let registry ← Action.permit (space.registry.insert page)
      modify (·.modifySpace id fun space => { space with registry })
      k) m Q R := by
  obtain ⟨space, hspace⟩ := exists_space hspace
  have hnone : space.registry.get? page.vpn = none := by
    rw [page?_eq, hspace] at hfree
    exact hfree
  obtain ⟨registry, hinsert, hget⟩ := Registry.insert_ok hnone
  rw [Action.meets_bind_of_ok (space_eq id hspace), hinsert]
  exact h _ (repaged_modifySpace (o := ⟨id, page.vpn⟩) _ hspace hget)

end DemandPaging.Machine
