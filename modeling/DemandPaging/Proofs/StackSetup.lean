import DemandPaging.Proofs.Growth

/-!
# A refused request for a stack leaves a page behind

A request for a stack registers the first page of it, claims the page, and only then moves the floor. When
there is no frame for the page the request is refused and the page stays registered, so that the request is
refused ever after: there is a page already.

Headline: **`Reachable.setupStack_refused`**.
-/

namespace DemandPaging

open Machine (Sound)

/-- No step changes the configuration. -/
theorem Run.config {lax : Tolerance} {m m' : Machine} {labels : List Label} (h : Run lax m labels m')
    (hm : Sound lax m none none) : m'.config = m.config := by
  induction h with
  | refl => rfl
  | step h hs ih =>
    have hm' := h.sound hm
    obtain ⟨ks, htrace⟩ := (hs.tells hm').told.trace hm'.books
    have hlayout := congrArg Layout.config (htrace.layout hm'.books)
    exact (hlayout.trans (Layout.config_afterAll _ ks)).trans ih

namespace Machine

variable {lax : Tolerance} {m m' : Machine} {id : SpaceId} {cause : Refusal}

/-- The first page of every stack. -/
def firstStackPage (m : Machine) : PageNum := (m.config.stackTop.retreat pageSize).page

theorem page_base_firstStackPage (m : Machine) :
    (PageNum.base m.firstStackPage).page = m.firstStackPage := PageNum.page_base (Address.page_lt _)

/-! ## A stack that is refused -/

/-- **What a refused request for a stack leaves**, by the way it was refused. -/
inductive SetupRefused (lax : Tolerance) (id : SpaceId) (m : Machine) : Refusal → Machine → Prop
  /-- There is no such space. -/
  | absent (h : m.floorAt? id = none) :
      SetupRefused lax id m (.inconsistent "unknown address space") m
  /-- The first page is registered already. -/
  | taken (h : (m.page? ⟨id, m.firstStackPage⟩).isSome) :
      SetupRefused lax id m (.pageExists (PageNum.base m.firstStackPage)) m
  /-- There is no frame for the first page. It stays registered, and as long as it does no stack can be
  set up, whatever frames and slots there are. -/
  | starved {cause : Refusal} {m' : Machine} (hlive : (m.floorAt? id).isSome)
      (hfree : m.page? ⟨id, m.firstStackPage⟩ = none) (hcause : cause.isExhaustion = true)
      (hpage : ∀ o, m'.page? o = if o = ⟨id, m.firstStackPage⟩
        then some (.fresh m.firstStackPage true .anon .zero) else m.page? o)
      (hfloor : ∀ x, m'.floorAt? x = m.floorAt? x)
      (hagain : ∀ {labels m''}, Run lax m' labels m'' → (m''.page? ⟨id, m.firstStackPage⟩).isSome →
        setupStack id m'' = .error (.refused (.pageExists (PageNum.base m.firstStackPage))) m'') :
      SetupRefused lax id m cause m'

/-- **There is no such space.** -/
theorem setupStack_eq_absent (h : m.floorAt? id = none) :
    setupStack id m = .error (.refused (.inconsistent "unknown address space")) m := by
  have hnone : m.spaces[id]? = none := Option.map_eq_none_iff.mp h
  have hmeets : Action.Meets (fun _ _ => False) (setupStack id) m (fun _ _ => False)
      fun cause m' => cause = .inconsistent "unknown address space" ∧ m' = m := by
    unfold setupStack register Machine.space
    simp only [Action.meets_bind, Action.meets_get]
    show Action.Meets _ (Action.require _ m.spaces[id]?) m _ _
    rw [hnone]
    exact ⟨rfl, rfl⟩
  obtain ⟨cause, m', h, rfl, rfl⟩ := hmeets.exists_refused
  exact h

/-- **There is a page already.** -/
theorem setupStack_eq_pageExists (h : (m.page? ⟨id, m.firstStackPage⟩).isSome) :
    setupStack id m = .error (.refused (.pageExists (PageNum.base m.firstStackPage))) m := by
  obtain ⟨p, hp⟩ := Option.isSome_iff_exists.mp h
  obtain ⟨space, hspace, hget⟩ := floorAt?_of_page? hp
  have hinsert : space.registry.insert (.fresh m.firstStackPage true .anon .zero) =
      .error (.pageExists (PageNum.base m.firstStackPage)) := by
    refine if_pos (?_ : space.registry.contains m.firstStackPage = true)
    rw [Registry.contains_eq, hget]
    rfl
  have hmeets : Action.Meets (fun _ _ => False) (setupStack id) m (fun _ _ => False)
      fun cause m' => cause = .pageExists (PageNum.base m.firstStackPage) ∧ m' = m := by
    unfold setupStack
    simp only [Action.meets_bind, Action.meets_get]
    unfold register
    rw [show (PageNum.base (m.config.stackTop.retreat pageSize).page).page = m.firstStackPage from
      m.page_base_firstStackPage]
    show Action.Meets _ (Machine.space id >>= _) m _ _
    rw [Action.meets_bind_of_ok (space_eq id hspace)]
    show Action.Meets _ (Action.permit (space.registry.insert (.fresh m.firstStackPage ..)) >>= _) m _ _
    rw [hinsert]
    exact ⟨rfl, rfl⟩
  obtain ⟨cause, m', h, rfl, rfl⟩ := hmeets.exists_refused
  exact h

theorem Stacked.page_of_free {v : PageNum} (h : Stacked id [v] m m') (hfree : m.page? ⟨id, v⟩ = none)
    (o : Owner) : m'.page? o = if o = ⟨id, v⟩ then some (.fresh v true .anon .zero) else m.page? o := by
  rw [h.page]
  by_cases ho : o = ⟨id, v⟩
  · subst ho
    simp [hfree]
  · rw [if_neg ho, if_neg]
    obtain ⟨x, w⟩ := o
    rintro ⟨rfl, hw, -⟩
    exact ho (congrArg _ (List.mem_singleton.mp hw))

/-- The first page is registered where there is none. -/
theorem meets_register_firstStackPage (hm : Sound lax m none none) (hlive : (m.floorAt? id).isSome)
    (hfree : m.page? ⟨id, m.firstStackPage⟩ = none) :
    Action.Meets (Breaking lax) (register id .anon (PageNum.base m.firstStackPage) true .zero) m
      (fun _ m' => Sound lax m' none none ∧ Stacked id [m.firstStackPage] m m') fun _ _ => False := by
  have hbase := m.page_base_firstStackPage
  have hstacked : Action.Meets (fun _ _ => True)
      (register id .anon (PageNum.base m.firstStackPage) true .zero) m
      (fun _ m' => Stacked id [m.firstStackPage] m m') fun _ _ => False :=
    meets_register_stacked hlive (Address.page_lt _) hfree
  refine (((meets_register_of_free (R := fun _ _ => False) hm (.zero m.backing) (fun h => by cases h) hlive
    (by rw [hbase, hfree])).and hstacked).relax fun _ _ h => h.1).mono (fun _ m' h => ?_) fun _ _ h => h.1
  exact ⟨(Reaches.single h.1.2.kept h.1.2.told).sound hm, h.2⟩

/-- **There is no page yet.** Only a frame may be missing. -/
theorem meets_setupStack_of_free (hm : Sound lax m none none) (hlive : (m.floorAt? id).isSome)
    (hfree : m.page? ⟨id, m.firstStackPage⟩ = none) :
    Action.Meets (Breaking lax) (setupStack id) m (fun _ _ => True) (SetupRefused lax id m) := by
  unfold setupStack
  simp only [Action.meets_bind, Action.meets_get]
  refine (meets_register_firstStackPage hm hlive hfree).mono (fun _ m₁ h₁ => ?_) fun _ _ h => h.elim
  obtain ⟨hm₁, hstacked⟩ := h₁
  have hp₁ : m₁.page? ⟨id, m.firstStackPage⟩ = some (.fresh m.firstStackPage true .anon .zero) :=
    (hstacked.page _).trans (if_pos ⟨rfl, List.mem_singleton_self _, hfree⟩)
  have hlive₁ : (m₁.floorAt? id).isSome := (hstacked.floor id).symm ▸ hlive
  refine ((meets_claim_of_page hm₁ hp₁).relax fun _ _ h => h.1.allowed).mono (fun f m₂ h₂ => ?_)
    fun cause m₂ h₂ => ?_
  · have hshifts := h₂.1.shifts_of_claims
    refine (meets_space m₂ id).mono (fun _ _ _ => trivial) ?_
    rintro cause _ ⟨-, hnone⟩
    rw [hshifts.floorAt? hm₁] at hnone
    rw [hnone] at hlive₁
    cases hlive₁
  · obtain ⟨hshifts, ⟨hexhausted, hscanned⟩ | ⟨-, hfallible, -⟩⟩ := h₂
    · have hm₂ := hshifts.sound hm₁
      refine .starved hlive hfree hexhausted.isExhaustion (fun o => ?_)
        (fun x => (hscanned.idle.floor x).trans (hstacked.floor x)) fun {labels m''} hrun hthere => ?_
      · rw [hscanned.idle.page, hstacked.page_of_free hfree]
      · have hconfig : m''.config = m.config := by
          rw [hrun.config hm₂, hscanned.idle.config]
          obtain ⟨_, _, rfl⟩ := hstacked.rest
          rfl
        have hsame : m''.firstStackPage = m.firstStackPage := by rw [firstStackPage, hconfig]; rfl
        rw [← hsame] at hthere ⊢
        exact setupStack_eq_pageExists hthere
    · exact absurd hfallible (Page.plain_fresh _).not_isFallible

/-- **Setting a stack up is refused** in one of three ways. -/
theorem meets_setupStack_refused (hm : Sound lax m none none) :
    Action.Meets (Breaking lax) (setupStack id) m (fun _ _ => True) (SetupRefused lax id m) := by
  by_cases hlive : (m.floorAt? id).isSome
  · by_cases hfree : m.page? ⟨id, m.firstStackPage⟩ = none
    · exact meets_setupStack_of_free hm hlive hfree
    · have htaken := Option.isSome_iff_ne_none.mpr hfree
      rw [Action.Meets, setupStack_eq_pageExists htaken]
      exact .taken htaken
  · have habsent := Option.not_isSome_iff_eq_none.mp hlive
    rw [Action.Meets, setupStack_eq_absent habsent]
    exact .absent habsent

/-- What changed is seen by the cause. -/
theorem SetupRefused.kept_iff (h : SetupRefused lax id m cause m') :
    ((∀ o, (m'.page? o).isSome = (m.page? o).isSome) ∧ ∀ x, m'.floorAt? x = m.floorAt? x) ↔
      cause.isExhaustion = false := by
  cases h with
  | absent => simp [Refusal.isExhaustion]
  | taken => simp [Refusal.isExhaustion]
  | starved hlive hfree hcause hpage =>
    rw [hcause]
    refine iff_of_false (fun h => ?_) (by decide)
    have := h.1 ⟨id, m.firstStackPage⟩
    rw [hpage, if_pos rfl, hfree] at this
    cases this

end Machine

open Machine

variable {lax : Tolerance} {m m' : Machine} {id : SpaceId} {cause : Refusal}

/-- **A request for a stack that is refused** leaves the pages and the floor as they were unless it is
refused for want of a frame. Then the first page of the stack stays registered, and as long as it does no
request for a stack goes through. -/
theorem Reachable.setupStack_refused (h : Reachable lax m)
    (hrefused : setupStack id m = .error (.refused cause) m') :
    SetupRefused lax id m cause m' ∧
      (((∀ o, (m'.page? o).isSome = (m.page? o).isSome) ∧ ∀ x, m'.floorAt? x = m.floorAt? x) ↔
        cause.isExhaustion = false) := by
  have hleft := (meets_setupStack_refused h.sound).of_refused hrefused
  exact ⟨hleft, hleft.kept_iff⟩

/-- Requests that use up the only frame. -/
def Operation.cramping : List Operation :=
  [.create, .register 0 .anon ⟨0x1000⟩ true .zero, .write 0 ⟨0x1000⟩ #[7]]

/-- The first page of a stack stays registered when there is no frame for it and none can be made
free. -/
theorem Reachable.setupStack_refused_cramped : ∃ m m', Reachable .all m ∧
    setupStack 0 m = .error (.refused .outOfSwap) m' ∧ SetupRefused .all 0 m .outOfSwap m' := by
  have h : ((start { userFrames := 1 } (.blank 0)).carry Operation.cramping).any (fun r =>
      ((setupStack 0).refusal? r.2).any fun r' => decide (r'.1 = .outOfSwap)) = true := by decide +kernel
  obtain ⟨r, -, hm, hrest⟩ := Reachable.exists_of_carry (by decide) h
  obtain ⟨cause, m', hsetup, hcause⟩ := Action.exists_refused_of_any hrest
  obtain rfl := of_decide_eq_true hcause
  exact ⟨r.2, m', hm, hsetup, (hm.setupStack_refused hsetup).1⟩

/-- **A refused request for a stack may register a page**, and then no stack can be set up, although one
could be if the request had not been made: by then a frame is free. -/
theorem Reachable.not_always_setupStack_undone : ∃ m m' m₁ m₂ sp m₃, Reachable .all m ∧
    setupStack 0 m = .error (.refused .outOfSwap) m' ∧
    m.page? ⟨0, m.firstStackPage⟩ = none ∧ (m'.page? ⟨0, m.firstStackPage⟩).isSome ∧
    removePage ⟨0, 1⟩ false m' = .ok () m₁ ∧
    setupStack 0 m₁ = .error (.refused (.pageExists (PageNum.base m₁.firstStackPage))) m₁ ∧
    removePage ⟨0, 1⟩ false m = .ok () m₂ ∧ setupStack 0 m₂ = .ok sp m₃ := by
  have h : ((start { userFrames := 1 } (.blank 0)).carry Operation.cramping).any (fun r =>
      (r.2.page? ⟨0, r.2.firstStackPage⟩).isNone &&
      (((removePage ⟨0, 1⟩ false).result? r.2).any fun r₂ => ((setupStack 0).result? r₂.2).isSome) &&
      ((setupStack 0).refusal? r.2).any fun r' => decide (r'.1 = .outOfSwap) &&
        (r'.2.page? ⟨0, r.2.firstStackPage⟩).isSome &&
        ((removePage ⟨0, 1⟩ false).result? r'.2).any fun r₁ =>
          (r₁.2.page? ⟨0, r₁.2.firstStackPage⟩).isSome) = true := by decide +kernel
  obtain ⟨r, -, hm, hrest⟩ := Reachable.exists_of_carry (by decide) h
  simp only [Bool.and_eq_true, Option.isNone_iff_eq_none] at hrest
  obtain ⟨⟨hfree, hremoved⟩, hrefused⟩ := hrest
  obtain ⟨⟨⟩, m₂, hremove₂, hagain⟩ := Action.exists_ok_of_any hremoved
  obtain ⟨sp, m₃, hsetup⟩ := Action.exists_ok_of_isSome hagain
  obtain ⟨cause, m', hsetup', hkept⟩ := Action.exists_refused_of_any hrefused
  simp only [Bool.and_eq_true, decide_eq_true_eq] at hkept
  obtain ⟨⟨rfl, hthere⟩, hremoved'⟩ := hkept
  obtain ⟨⟨⟩, m₁, hremove₁, hthere₁⟩ := Action.exists_ok_of_any hremoved'
  exact ⟨r.2, m', m₁, m₂, sp, m₃, hm, hsetup', hfree, hthere, hremove₁,
    setupStack_eq_pageExists hthere₁, hremove₂, hsetup⟩

end DemandPaging
