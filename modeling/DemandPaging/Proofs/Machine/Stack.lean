import DemandPaging.Machine.Stack
import DemandPaging.Proofs.Machine.Sharing

/-!
# Registering pages and growing the stack keep the books
-/

namespace DemandPaging

namespace Machine

variable {lax : Tolerance} {m m' : Machine} {id : SpaceId} {va : Address} {vpn : PageNum}
  {writable : Bool} {type : PageType} {origin : Origin}

/-! ## Registering a page -/

/-- An origin a page can be loaded from: an initializer that was supplied or a usable window. -/
structure Available (lax : Tolerance) (b : Backing) (origin : Origin) : Prop where
  supplied : ∀ n, origin = .custom n → (b.initializers[n]?).isSome
  window : ∀ w, origin = .file w → w.Usable lax b.files

theorem Available.zero (b : Backing) : Available lax b .zero := ⟨nofun, nofun⟩

theorem uninit_ok {page : Page} (h : Page.uninit vpn writable type origin = .ok page) :
    page = Page.fresh vpn writable type origin ∧ (type = .file → ∃ w, origin = .file w) := by
  unfold Page.uninit at h
  split at h
  · cases h
  · cases h
  · rename_i hzero hcustom
    refine ⟨(Except.ok.inj h).symm, ?_⟩
    rintro rfl
    cases origin with
    | zero => exact absurd rfl (hzero rfl)
    | custom n => exact absurd rfl (hcustom n rfl)
    | file w => exact ⟨w, rfl⟩

theorem ledger_repaged {o : Owner} {q : Page} {hand pin : Option FrameNum}
    (h : Repaged m m' o (some q)) :
    m'.ledger hand pin = (m.ledger hand pin).enter o (q.located m.backing.files) := by
  have hpage := h.page
  have hentry := h.entry
  have hfloor := h.floor
  obtain ⟨spaces, rfl⟩ := h.rest
  apply Ledger.ext
  case page =>
    funext x
    refine (congrArg (Option.map (Page.located m.backing.files)) (hpage x)).trans ?_
    by_cases hx : x = o
    · rw [if_pos hx]
      exact (if_pos hx).symm
    · rw [if_neg hx]
      exact (if_neg hx).symm
  case grant => exact funext fun x => congrArg (Option.map Entry.grant) (hentry x)
  case floor => exact funext hfloor
  all_goals rfl

/-- A page can be registered where there is none. -/
theorem meets_register_of_free {F : Violation → Machine → Prop} {R : Refusal → Machine → Prop}
    (hm : Sound lax m none none) (horigin : Available lax m.backing origin) (htyped : type = .file → ∃ w, origin = .file w)
    (hlive : (m.floorAt? id).isSome) (hfree : m.page? ⟨id, va.page⟩ = none) :
    Action.Meets F (register id type va writable origin) m
      (fun _ m' => m'.backing = m.backing ∧ Reaches lax (Ledger.Move
        (.enter ⟨id, va.page⟩ writable type (origin.located m.backing.files))) m m') R := by
  have huninit : Page.uninit va.page writable type origin =
      .ok (.fresh va.page writable type origin) := by
    unfold Page.uninit
    split
    · obtain ⟨w, hw⟩ := htyped rfl
      cases hw
    · obtain ⟨w, hw⟩ := htyped rfl
      cases hw
    · rfl
  unfold register
  rw [huninit]
  refine meets_insertPage (.fresh va.page writable type origin) hlive hfree fun m' h => ?_
  have hbacking : m'.backing = m.backing := by
    obtain ⟨spaces, rfl⟩ := h.rest
    rfl
  have hledger : m'.ledger none none = _ := ledger_repaged h
  have hkept : m'.Kept lax := by
    have hpage := h.page
    have hfloor := h.floor
    obtain ⟨spaces, rfl⟩ := h.rest
    refine hm.kept.respaced hfloor fun x q hx w hw => ?_
    rw [hpage] at hx
    split at hx
    · rw [← Option.some.inj hx] at hw
      cases origin with
      | file w' => exact horigin.window w (by rw [← Option.some.inj hw])
      | zero => cases hw
      | custom n => cases hw
    · exact hm.kept.windows hx hw
  unfold note
  rw [Action.meets_modify]
  refine ⟨hbacking, Reaches.idle ⟨hkept, ?_⟩ (.note m' _ rfl)⟩
  rw [hledger, Page.located_fresh]
  refine .enter (by rw [page_ledger, hfree]; rfl) (fun htype => ?_) hlive fun n hn => ?_
  · obtain ⟨w, rfl⟩ := htyped htype
    exact ⟨_, rfl⟩
  · cases origin with
    | custom k =>
      show (m.backing.initializers[n]?.map Initializer.content).isSome
      rw [Option.isSome_map]
      exact horigin.supplied n (by rw [Origin.custom.inj hn])
    | zero => cases hn
    | file w => cases hn

/-- **Registering a page.** A refusal changes nothing. -/
theorem meets_register {F : Violation → Machine → Prop} (hm : Sound lax m none none)
    (horigin : Available lax m.backing origin) :
    Action.Meets F (register id type va writable origin) m
      (fun _ m' => m'.backing = m.backing ∧ Reaches lax (Ledger.Move
        (.enter ⟨id, va.page⟩ writable type (origin.located m.backing.files))) m m')
      (fun cause m' => m' = m ∧ (cause.isInternal = true → m.floorAt? id = none)) := by
  by_cases hgood : (type = .file → ∃ w, origin = .file w) ∧ (m.floorAt? id).isSome ∧
      m.page? ⟨id, va.page⟩ = none
  · exact meets_register_of_free hm horigin hgood.1 hgood.2.1 hgood.2.2
  · unfold register
    rw [Action.meets_bind, Action.meets_permit]
    refine ⟨fun page hpage => ?_, fun cause hcause => ⟨rfl, fun hinternal => ?_⟩⟩
    · obtain ⟨rfl, htyped⟩ := uninit_ok hpage
      rw [Action.meets_bind]
      refine (meets_space m id).mono ?_ ?_
      · rintro space m ⟨rfl, hspace⟩
        have hlive : (m.floorAt? id).isSome := by
          rw [floorAt?, hspace]
          rfl
        have hinsert : space.registry.insert (Page.fresh va.page writable type origin) =
            .error (.pageExists (PageNum.base va.page)) := by
          unfold Registry.insert
          refine if_pos (?_ : space.registry.contains va.page = true)
          rw [Registry.contains_eq]
          have hsome : m.page? ⟨id, va.page⟩ ≠ none := fun h => hgood ⟨htyped, hlive, h⟩
          rw [page?_eq, hspace] at hsome
          exact Option.ne_none_iff_isSome.mp hsome
        rw [hinsert]
        exact ⟨rfl, fun hinternal => by cases hinternal⟩
      · rintro cause _ ⟨rfl, hnone⟩
        exact ⟨rfl, fun _ => hnone⟩
    · unfold Page.uninit at hcause
      split at hcause
      · obtain rfl := (Except.error.inj hcause)
        cases hinternal
      · obtain rfl := (Except.error.inj hcause)
        cases hinternal
      · cases hcause

/-! ## Growing the stack -/

/-- A stack page is registered unless there is a page. -/
theorem meets_registerStackPage {F : Violation → Machine → Prop} {R : Refusal → Machine → Prop}
    (hm : Sound lax m none none)
    (hlive : (m.floorAt? id).isSome) (hvpn : vpn < PageNum.limit) :
    Action.Meets F (registerStackPage id vpn) m
      (fun _ m' => Reaches lax
        (Ledger.Trace ((m.ledger none none).layout.stackKinds id [vpn])) m m') R := by
  obtain ⟨space, hspace⟩ := exists_space hlive
  have hcontains : space.registry.contains vpn =
      (m.ledger none none).layout.registered ⟨id, vpn⟩ := by
    rw [registered_ledger, page?_eq, hspace]
    exact Registry.contains_eq vpn
  unfold registerStackPage Layout.stackKinds
  rw [Action.meets_bind_of_ok (space_eq id hspace), hcontains]
  cases hregistered : (m.ledger none none).layout.registered ⟨id, vpn⟩ with
  | true =>
    rw [List.filter_cons, hregistered]
    exact .refl hm
  | false =>
    have hbase : (PageNum.base vpn).page = vpn := PageNum.page_base hvpn
    have hfree : m.page? ⟨id, vpn⟩ = none := by
      rwa [registered_ledger, Option.isSome_eq_false_iff, Option.isNone_iff_eq_none]
        at hregistered
    rw [List.filter_cons, hregistered]
    refine (meets_register_of_free hm (.zero m.backing) (fun h => by cases h) hlive
      (by rw [hbase, hfree])).mono (fun _ m' h => ?_) fun _ _ h => h
    obtain ⟨-, h⟩ := h
    rw [hbase] at h
    exact .single h.kept h.told

theorem meets_forM_registerStackPage {F : Violation → Machine → Prop} {R : Refusal → Machine → Prop} :
    ∀ {vs : List PageNum} {m : Machine}, vs.Nodup → (∀ v ∈ vs, v < PageNum.limit) →
      Sound lax m none none → (m.floorAt? id).isSome →
      Action.Meets F (vs.forM (registerStackPage id)) m
        (fun _ m' => Reaches lax
          (Ledger.Trace ((m.ledger none none).layout.stackKinds id vs)) m m') R
  | [], m, _, _, hm, _ => .refl hm
  | v :: vs, m, hnodup, hlimit, hm, hlive => by
    obtain ⟨hv, hnodup⟩ := List.nodup_cons.mp hnodup
    show Action.Meets F (registerStackPage id v >>= fun _ => vs.forM _) m _ _
    refine (meets_registerStackPage hm hlive (hlimit v List.mem_cons_self)).bind ?_
      fun _ _ h => h
    rintro _ m₁ h₁
    have hlayout := h₁.told.layout hm.books
    have hfloor : m₁.floorAt? = m.floorAt? :=
      (congrArg Layout.floor hlayout).trans (Layout.floor_stackKinds ..)
    refine (meets_forM_registerStackPage hnodup
      (fun x hx => hlimit x (List.mem_cons_of_mem v hx)) (h₁.sound hm) (hfloor ▸ hlive)).mono
      (fun _ m₂ h₂ => ?_) fun _ _ h => h
    have hkinds : (m₁.ledger none none).layout.stackKinds id vs =
        (m.ledger none none).layout.stackKinds id vs :=
      Layout.stackKinds_congr fun x hx => by
        have hne : x ≠ v := fun h => hv (h ▸ hx)
        rw [hlayout, Layout.registered_stackKinds]
        simp [hne]
    rw [hkinds] at h₂
    have := h₁.trans h₂
    rwa [← Layout.stackKinds_append] at this

/-- **Growing the stack** to a page below its floor is not refused. -/
theorem meets_growStack {top : PageNum} {F : Violation → Machine → Prop}
    {R : Refusal → Machine → Prop} (hm : Sound lax m none none)
    (htop : m.floorAt? id = some top) (hle : vpn ≤ top) :
    Action.Meets F (growStack id vpn) m
      (fun _ m' => Reaches lax (Ledger.Trace
        ((m.ledger none none).layout.stackKinds id (List.range' vpn (top - vpn)) ++
          [.floor id (some vpn)])) m m' ∧ m'.floorAt? id = some vpn) R := by
  obtain ⟨space, hspace, rfl⟩ := Option.map_eq_some_iff.mp htop
  have hlimit := hm.kept.floors htop
  have hlive : (m.floorAt? id).isSome := by rw [htop]; rfl
  unfold growStack
  have hrange : PageRange.between vpn space.stackFloor = .ok ⟨vpn, space.stackFloor, hle⟩ :=
    dif_pos hle
  rw [Action.meets_bind_of_ok (space_eq id hspace)]
  dsimp only
  rw [hrange]
  show Action.Meets F ((List.range' vpn (space.stackFloor - vpn)).forM _ >>= fun _ => _) m _ _
  rw [Action.meets_bind]
  refine (meets_forM_registerStackPage List.nodup_range' (fun v hv => ?_) hm hlive).mono ?_
    fun _ _ h => h
  · have hlt := (List.mem_range'_1.mp hv).2
    rw [Nat.add_sub_of_le hle] at hlt
    exact Nat.lt_of_lt_of_le hlt hlimit
  · rintro _ m₁ h₁
    have hfloor : m₁.floorAt? = m.floorAt? :=
      (congrArg Layout.floor (h₁.told.layout hm.books)).trans (Layout.floor_stackKinds ..)
    rw [← hfloor] at hlive
    obtain ⟨space₁, hspace₁⟩ := exists_space hlive
    unfold note
    simp only [Action.meets_bind, Action.meets_modify]
    refine ⟨(h₁.trans (.single (h₁.kept.setFloor hspace₁ (Nat.le_trans hle hlimit)) ?_)).idle
      (.note _ _ rfl), (floorAt?_setFloor (g := fun _ => vpn) hspace₁ id).trans (if_pos rfl)⟩
    rw [ledger_setFloor hspace₁]
    exact .floor fun h => by cases h

/-! ## Setting a stack up -/

/-- **Setting a stack up.** A refusal may leave the page behind. -/
theorem meets_setupStack (hm : Sound lax m none none) :
    Action.Meets (Breaking lax) (setupStack id) m
      (fun top m' => top = m.config.stackTop ∧ Reaches lax (Ledger.Trace
        [(m.ledger none none).layout.stackKind id,
          .floor id (some (m.ledger none none).layout.firstStackPage)]) m m')
      (fun cause m' => (Reaches lax Ledger.Shifts m m' ∨
          Reaches lax (Ledger.Trace [(m.ledger none none).layout.stackKind id]) m m') ∧
        (cause.isInternal = true → m.floorAt? id = none)) := by
  have hbase : (PageNum.base (m.config.stackTop.retreat pageSize).page).page =
      (m.config.stackTop.retreat pageSize).page := PageNum.page_base (Address.page_lt _)
  unfold setupStack
  simp only [Action.meets_bind, Action.meets_get]
  refine (meets_register hm (.zero m.backing)).mono (fun _ m₁ h₁ => ?_) fun cause m₁ h₁ => ?_
  · obtain ⟨-, h₁⟩ := h₁
    rw [hbase] at h₁
    have hreach : Reaches lax (Ledger.Trace [(m.ledger none none).layout.stackKind id]) m m₁ :=
      .single h₁.kept h₁.told
    have hm₁ := hreach.sound hm
    have hfloor : m₁.floorAt? = m.floorAt? := congrArg Layout.floor h₁.told.layout
    refine ((meets_claim hm₁ _).relax fun _ _ h => h.1).mono (fun f m₂ h₂ => ?_)
      fun cause m₂ h₂ => ?_
    · obtain ⟨h₂, -⟩ := h₂
      refine (meets_space m₂ id).mono ?_ ?_
      · rintro space m₂ ⟨rfl, hspace⟩
        refine ⟨rfl, hreach.trans (h₂.trans (.single (h₂.kept.setFloor hspace
          (Nat.le_of_lt (Address.page_lt _))) ?_))⟩
        rw [ledger_setFloor hspace]
        exact .floor fun h => by cases h
      · rintro cause m₂ ⟨rfl, hnone⟩
        rw [h₂.floorAt? hm₁, hfloor] at hnone
        exact ⟨Or.inr (hreach.trans h₂), fun _ => hnone⟩
    · rw [hfloor] at h₂
      exact ⟨Or.inr (hreach.trans h₂.1), h₂.2⟩
  · obtain ⟨rfl, hinternal⟩ := h₁
    exact ⟨Or.inl (.refl hm), hinternal⟩

end Machine

end DemandPaging
