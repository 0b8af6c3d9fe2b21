import DemandPaging.Machine.Spaces
import DemandPaging.Proofs.Machine.Removal

/-!
# Spaces come and go

A space is made under a number no live space has. Tearing one down is never refused, whatever state
the machine is in, so that a fork that failed can always be undone.
-/

namespace DemandPaging.Machine

variable {lax : Tolerance} {m m' : Machine} {id : SpaceId}

/-! ## Creating a space -/

section

variable {space : AddressSpace}

theorem spaces_insertSpace (id' : SpaceId) :
    (m.spaces.insert id space)[id']? = if id' = id then some space else m.spaces[id']? := by
  rw [Std.ExtTreeMap.getElem?_insert]
  simp only [Nat.compare_eq_eq]
  by_cases hid : id' = id
  · rw [if_pos hid.symm, if_pos hid]
  · rw [if_neg (Ne.symm hid), if_neg hid]

/-- An empty space holds no page. -/
theorem page?_insertSpace (hnew : m.floorAt? id = none) (hempty : space.registry = {}) (x : Owner) :
    Machine.page? { m with spaces := m.spaces.insert id space } x = m.page? x := by
  rw [page?_eq, page?_eq, spaces_insertSpace]
  split
  · rename_i hx
    rw [hx, Option.map_eq_none_iff.mp hnew, Option.bind_some, hempty]
    exact Std.ExtTreeMap.getElem?_empty
  · rfl

theorem entryAt?_insertSpace (hnew : m.floorAt? id = none) (hempty : space.table = {}) (x : Owner) :
    Machine.entryAt? { m with spaces := m.spaces.insert id space } x = m.entryAt? x := by
  rw [entryAt?_eq, entryAt?_eq, spaces_insertSpace]
  split
  · rename_i hx
    rw [hx, Option.map_eq_none_iff.mp hnew, Option.bind_some, hempty]
    exact PageTable.lookup?_empty _
  · rfl

theorem floorAt?_insertSpace (m : Machine) (id : SpaceId) (space : AddressSpace) (x : SpaceId) :
    Machine.floorAt? { m with spaces := m.spaces.insert id space } x =
      if x = id then some space.stackFloor else m.floorAt? x := by
  rw [floorAt?, floorAt?, spaces_insertSpace]
  split <;> rfl

end

/-- What creating a space did to the machine. -/
structure Created (lax : Tolerance) (m m' : Machine) (id : SpaceId) : Prop where
  fresh : m.floorAt? id = none
  kept : m'.Kept lax
  ledger : m'.ledger none none = (m.ledger none none).setFloor id (some m.config.stackTop.pageAbove)
  counters : m'.counters = m.counters

namespace Created

theorem sound (h : Created lax m m' id) (hm : Sound lax m none none) : Sound lax m' none none := by
  refine ⟨?_, h.kept⟩
  rw [h.ledger]
  exact hm.books.setFloor nofun

theorem live (h : Created lax m m' id) : (m'.floorAt? id).isSome := by
  rw [show m'.floorAt? = _ from congrArg Ledger.floor h.ledger]
  simp [Ledger.setFloor]

/-- A new space is empty. -/
theorem page? (h : Created lax m m' id) (hm : Sound lax m none none) (v : PageNum) :
    m'.page? ⟨id, v⟩ = none := by
  have hnone := hm.books.page_of_space (o := ⟨id, v⟩) h.fresh rfl
  rw [show (m.ledger none none).page = (m'.ledger none none).page by rw [h.ledger]; rfl] at hnone
  exact Option.map_eq_none_iff.mp hnone

end Created

theorem meets_createSpace_machine {R : Refusal → Machine → Prop} (hm : Sound lax m none none) :
    Action.Meets (Breaking lax) createSpace m (fun id m' => Created lax m m' id) R := by
  obtain ⟨hvalid, hfresh, hlive⟩ := hm.kept.spaceIds.take
  have hnew : m.floorAt? m.spaceIds.take.1 = none := by
    rw [hm.kept.spaces, Option.not_isSome_iff_eq_none] at hfresh
    exact hfresh
  have hfloor := floorAt?_insertSpace m m.spaceIds.take.1
    { stackFloor := m.config.stackTop.pageAbove }
  unfold createSpace note
  simp only [Action.meets_bind, Action.meets_get, Action.meets_set, Action.meets_modify,
    Action.meets_pure]
  refine ⟨hnew, { hm.kept with
    spaceIds := hvalid, spaces := fun x => ?_, floors := fun {x v} hv => ?_,
    windows := fun {x p w} hx hw => ?_ }, ?_, rfl⟩
  · refine (hlive x).trans ((or_congr_left (hm.kept.spaces x)).trans ?_)
    refine Iff.trans ?_ (Eq.to_iff (congrArg (·.isSome = true) (hfloor x).symm))
    split <;> simp_all
  · have hv := (hfloor x).symm.trans hv
    split at hv
    · exact Option.some.inj hv ▸ Address.pageAbove_le _
    · exact hm.kept.floors hv
  · exact hm.kept.windows ((page?_insertSpace hnew rfl x).symm.trans hx) hw
  · apply Ledger.ext
    case page => exact funext fun x => congrArg (Option.map _) (page?_insertSpace hnew rfl x)
    case grant => exact funext fun x => congrArg (Option.map _) (entryAt?_insertSpace hnew rfl x)
    case floor => exact funext hfloor
    case log => exact (Event.placings_push ..).trans (List.append_nil _)
    all_goals rfl

/-- **Creating a space** is not refused. -/
theorem meets_createSpace {R : Refusal → Machine → Prop} (hm : Sound lax m none none) :
    Action.Meets (Breaking lax) createSpace m
      (fun id m' => Reaches lax (Ledger.Told (Layout.Creates id)) m m') R := by
  refine (meets_createSpace_machine hm).mono (fun id m' h => ?_) fun _ _ h => h
  refine ⟨h.kept, _, .intro h.fresh, .single (?_ : Ledger.Move _ _ _)⟩
  rw [h.ledger]
  exact .floor nofun

/-! ## Tearing a space down -/

theorem meets_releasePage {o : Owner} {R : Refusal → Machine → Prop} (hm : Sound lax m none none)
    (hp : (m.page? o).isSome) :
    Action.Meets (Breaking lax) (releasePage o) m
      (fun _ m' => Reaches lax (Ledger.Move (.leave o true)) m m' ∧
        (m.hasFlag o .dirty = false → m'.counters = m.counters)) R := by
  unfold releasePage
  rw [Action.meets_bind, Action.meets_attempt]
  refine (meets_removePage hm o true).mono (fun _ _ h => h) fun cause m' h => ?_
  rw [h.2.1] at hp
  cases hp

theorem floorAt?_erase (x : SpaceId) :
    Machine.floorAt? { m with spaces := m.spaces.erase id } x =
      if x = id then none else m.floorAt? x := by
  rw [floorAt?, floorAt?, Std.ExtTreeMap.getElem?_erase]
  simp only [Nat.compare_eq_eq]
  by_cases hx : x = id
  · rw [if_pos hx.symm, if_pos hx]
    rfl
  · rw [if_neg (Ne.symm hx), if_neg hx]

/-- A space without pages can go. -/
theorem meets_eraseSpace {R : Refusal → Machine → Prop} (hm : Sound lax m none none)
    (hlive : (m.floorAt? id).isSome) (hgone : ∀ v, m.page? ⟨id, v⟩ = none) :
    Action.Meets (Breaking lax) (do
      modify fun m => { m with spaces := m.spaces.erase id }
      let spaceIds ← Action.assert ((← get).spaceIds.release id)
      modify fun m => { m with spaceIds }
      note (.destroyed id)) m
      (fun _ m' => Reaches lax (Ledger.Move (.floor id none)) m m' ∧
        m'.counters = m.counters) R := by
  obtain ⟨spaceIds, hrelease, hvalid, hafter⟩ :=
    hm.kept.spaceIds.release ((hm.kept.spaces id).mpr hlive)
  have hpage : ∀ x, Machine.page? { m with spaces := m.spaces.erase id } x = m.page? x := by
    rintro ⟨s, v⟩
    rw [page?_eq, page?_eq, Std.ExtTreeMap.getElem?_erase]
    simp only [Nat.compare_eq_eq]
    split
    · rename_i hs
      subst hs
      exact (hgone v).symm
    · rfl
  have hunmapped : ∀ v, m.entryAt? ⟨id, v⟩ = none := fun v => by
    have hnone : (m.ledger none none).page ⟨id, v⟩ = none := by
      rw [page_ledger, hgone]
      rfl
    exact Option.map_eq_none_iff.mp (hm.books.grant_eq_none hnone)
  have hentry : ∀ x, Machine.entryAt? { m with spaces := m.spaces.erase id } x = m.entryAt? x := by
    rintro ⟨s, v⟩
    rw [entryAt?_eq, entryAt?_eq, Std.ExtTreeMap.getElem?_erase]
    simp only [Nat.compare_eq_eq]
    split
    · rename_i hs
      subst hs
      exact (hunmapped v).symm
    · rfl
  unfold note
  simp only [Action.meets_bind, Action.meets_modify, Action.meets_get]
  rw [hrelease]
  refine ⟨⟨{ hm.kept with
    spaceIds := hvalid, spaces := fun x => ?_, floors := fun {x v} hv => ?_,
    windows := fun {x p w} hx hw => hm.kept.windows ((hpage x).symm.trans hx) hw }, ?_⟩, rfl⟩
  · refine (hafter x).trans ((and_congr_left' (hm.kept.spaces x)).trans ?_)
    refine Iff.trans ?_ (Eq.to_iff (congrArg (·.isSome = true) (floorAt?_erase x).symm))
    split <;> simp_all
  · have hv := (floorAt?_erase x).symm.trans hv
    split at hv
    · cases hv
    · exact hm.kept.floors hv
  · have hledger : Machine.ledger { m with
        spaceIds, spaces := m.spaces.erase id,
        journal := m.journal.push (.destroyed id) } none none =
        (m.ledger none none).setFloor id none := by
      apply Ledger.ext
      case page => exact funext fun x => congrArg (Option.map _) (hpage x)
      case grant => exact funext fun x => congrArg (Option.map _) (hentry x)
      case floor => exact funext floorAt?_erase
      case log => exact (Event.placings_push ..).trans (List.append_nil _)
      all_goals rfl
    show Ledger.Move _ _ (Machine.ledger { m with
      spaceIds, spaces := m.spaces.erase id,
      journal := m.journal.push (.destroyed id) } none none)
    rw [hledger]
    refine .floor fun _ o ho => ?_
    obtain ⟨s, v⟩ := o
    subst ho
    rw [page_ledger, hgone]
    rfl

/-- **Tearing a space down** is not refused. What is kept while its pages are removed holds before the
space itself goes, which has no page then. -/
theorem meets_destroySpace_keeping {I : Machine → Prop} {R : Refusal → Machine → Prop}
    (hkeeps : ∀ (m : Machine) (v : PageNum), Sound lax m none none → I m →
      (m.page? ⟨id, v⟩).isSome → Action.Meets (fun _ _ => True) (releasePage ⟨id, v⟩) m
        (fun _ m' => I m') fun _ _ => True)
    (hm : Sound lax m none none) (hlive : (m.floorAt? id).isSome) (hI : I m) :
    Action.Meets (Breaking lax) (destroySpace id) m
      (fun _ m' => Reaches lax (Ledger.Told (Layout.Destroys id)) m m' ∧
        ∃ m₁, I m₁ ∧ Sound lax m₁ none none ∧ (∀ v, m₁.page? ⟨id, v⟩ = none) ∧
          Ledger.Move (.floor id none) (m₁.ledger none none) (m'.ledger none none) ∧
          m'.counters = m₁.counters) R := by
  obtain ⟨space, hspace⟩ := exists_space hlive
  unfold destroySpace
  rw [Action.meets_bind, Action.meets_get, hspace]
  have hall : ∀ v, v ∈ space.registry.vpns ↔
      (m.ledger none none).layout.registered ⟨id, v⟩ = true := fun v => by
    rw [Registry.mem_vpns, registered_ledger, page?_eq, hspace]
    rfl
  have hnodup : space.registry.vpns.Nodup := Std.ExtTreeMap.nodup_keys
  dsimp only
  generalize space.registry.vpns = vs at hall hnodup ⊢
  rw [Action.meets_bind]
  refine (meets_forM_leave id true (fun m v hm hI hv =>
    ((meets_releasePage (R := R) hm hv).and (hkeeps m v hm hI hv)).relax (fun _ _ h => h.1) |>.mono
      (fun _ _ h => ⟨h.1.1, h.2⟩) fun _ _ h => h.1) hnodup (fun v hv => ?_) hm hI).mono (fun _ m₁ h₁ => ?_)
        fun _ _ h => h
  · have := (hall v).mp hv
    rwa [registered_ledger] at this
  · obtain ⟨h₁, hI₁⟩ := h₁
    have hlayout := h₁.told.layout hm.books
    have hfloor : m₁.floorAt? = m.floorAt? :=
      (congrArg Layout.floor hlayout).trans (Layout.floor_leaveKinds ..)
    have hgone : ∀ v, m₁.page? ⟨id, v⟩ = none := fun v => by
      have hregistered := congrFun (congrArg Layout.registered hlayout) ⟨id, v⟩
      rw [registered_ledger, Layout.registered_leaveKinds] at hregistered
      refine Option.not_isSome_iff_eq_none.mp fun hsome => ?_
      rw [hregistered, Bool.and_eq_true, Bool.not_eq_true', decide_eq_false_iff_not] at hsome
      exact hsome.2 ⟨rfl, (hall v).mpr hsome.1⟩
    exact (meets_eraseSpace (h₁.sound hm) (hfloor ▸ hlive) hgone).mono
      (fun _ m₂ h₂ => ⟨⟨h₂.1.kept, _, .intro hlive hall, h₁.told.move h₂.1.told⟩, m₁, hI₁,
        h₁.sound hm, hgone, h₂.1.told, h₂.2⟩) fun _ _ h => h

/-- Tearing a space down does nothing if it is not there. -/
theorem meets_destroySpace {R : Refusal → Machine → Prop} (hm : Sound lax m none none) :
    Action.Meets (Breaking lax) (destroySpace id) m
      (fun _ m' => Reaches lax (Ledger.Told (Layout.Destroys id)) m m') R := by
  cases hfloor : m.floorAt? id with
  | none =>
    have hspace : m.spaces[id]? = none := Option.map_eq_none_iff.mp hfloor
    unfold destroySpace
    rw [Action.meets_bind, Action.meets_get, hspace]
    exact ⟨hm.kept, [], .absent hfloor, .refl _⟩
  | some v =>
    exact (meets_destroySpace_keeping (I := fun _ => True)
      (fun m v _ _ _ => (Action.meets_trivial _ m)) hm (by rw [hfloor]; rfl) trivial).mono
        (fun _ _ h => h.1) fun _ _ h => h

/-- Tearing a space down is not refused, whatever state the machine is in. -/
theorem meets_destroySpace_of_any (id : SpaceId) (m : Machine) :
    Action.Meets (fun _ _ => True) (destroySpace id) m (fun _ _ => True) fun _ _ => False := by
  unfold destroySpace
  rw [Action.meets_bind, Action.meets_get]
  cases m.spaces[id]? with
  | none => trivial
  | some space =>
    dsimp only
    rw [Action.meets_bind]
    refine (Action.Meets.forM (I := fun _ => True) (fun v _ m _ => ?_) trivial).mono
      (fun _ m' _ => ?_) fun _ _ h => h
    · unfold releasePage
      rw [Action.meets_bind, Action.meets_attempt]
      exact (Action.meets_trivial _ m).mono (fun _ _ _ => trivial) fun _ _ _ => trivial
    · unfold note
      simp only [Action.meets_bind, Action.meets_modify, Action.meets_get, Action.meets_assert]
      exact ⟨fun _ _ => trivial, fun _ _ => trivial⟩

/-! ## Copying a space -/

/-- **Forking.** The new space of a fork that is refused is gone again. -/
theorem meets_fork {parent : SpaceId} (hm : Sound lax m none none) :
    Action.Meets (Breaking lax) (fork parent) m
      (fun child m' => Reaches lax (Ledger.Told (Layout.Forks parent child)) m m')
      (fun cause m' => Reaches lax (Ledger.Told (Layout.ForksInVain parent)) m m' ∧
        (cause.isInternal = true → m.floorAt? parent = none)) := by
  unfold fork
  rw [Action.meets_bind]
  refine (meets_createSpace hm).mono (fun child m₁ h₁ => ?_) fun _ _ h => h
  obtain ⟨hkept₁, _, ⟨hnew⟩, htrace⟩ := h₁
  have hm₁ : Sound lax m₁ none none := ⟨htrace.sound hm.books, hkept₁⟩
  have hlayout : (m₁.ledger none none).layout =
      (m.ledger none none).layout.after ((m.ledger none none).layout.createKind child) :=
    htrace.layout hm.books
  rw [Action.meets_bind]
  refine (meets_copyPages hm₁).settle (fun _ m₂ h₂ => ?_)
    (fun cause m₂ h₂ => ?_) fun v m₂ h₂ => ?_
  · obtain ⟨hkept₂, ks, hks, htrace₂⟩ := h₂.mono fun _ _ h => h.told
    rw [hlayout] at hks
    exact ⟨hkept₂, _, .intro hnew hks, htrace.trans htrace₂⟩
  · obtain ⟨⟨hkept₂, ks, hks, htrace₂⟩, hinternal⟩ := h₂
    have hm₂ : Sound lax m₂ none none := ⟨htrace₂.sound hm₁.books, hkept₂⟩
    dsimp only
    rw [Action.meets_bind]
    refine (meets_destroySpace hm₂).mono (fun _ m₃ h₃ => ?_) fun _ _ h => h
    obtain ⟨hkept₃, ks', hks', htrace₃⟩ := h₃
    rw [htrace₂.layout hm₁.books, hlayout] at hks'
    rw [hlayout] at hks
    refine ⟨⟨hkept₃, _, .intro hnew hks hks', htrace.trans (htrace₂.trans htrace₃)⟩,
      fun hc => ?_⟩
    have hfloor : ∀ x, m₁.floorAt? x = if x = child then _ else m.floorAt? x :=
      fun x => congrFun (congrArg Layout.floor hlayout) x
    rcases hinternal hc with hnone | hnone
    · rw [hfloor] at hnone
      split at hnone
      · cases hnone
      · exact hnone
    · rw [hfloor, if_pos rfl] at hnone
      cases hnone
  · obtain ⟨hlax, hany | hm₂⟩ := h₂
    · refine ((meets_destroySpace_of_any child m₂).relax fun w _ _ => lax.closed hany w).bind
        (fun _ _ _ => hlax) fun _ _ h => h.elim
    · exact (meets_destroySpace (R := fun _ _ => False) hm₂).bind (fun _ _ _ => hlax)
        fun _ _ h => h.elim

/-- **Copying a space.** -/
theorem meets_copySpace {target : SpaceId} {source : CopySource} (hm : Sound lax m none none) :
    Action.Meets (Breaking lax) (copySpace target source) m
      (fun _ m' => ∃ id, source = .own id ∧ Reaches lax (Ledger.CopiesAll id target) m m')
      (fun cause m' => Reaches lax (Ledger.Told (Layout.CopiesSome source.id target)) m m' ∧
        (cause.isInternal = true →
          ∃ id, source = .own id ∧ (m.floorAt? id = none ∨ m.floorAt? target = none))) := by
  cases source with
  | own source =>
    exact ((meets_copyPages hm).mono (fun _ _ h => ⟨source, rfl, h⟩)
      fun _ _ h => ⟨h.1, fun hc => ⟨source, rfl, h.2 hc⟩⟩).relax fun _ _ h => h.1
  | foreign source => exact ⟨⟨hm.kept, [], .intro (List.forall_mem_nil _), .refl _⟩, nofun⟩

end DemandPaging.Machine
