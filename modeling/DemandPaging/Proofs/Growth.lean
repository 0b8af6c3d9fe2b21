import DemandPaging.Proofs.Copying
import DemandPaging.Proofs.Forking
import DemandPaging.Proofs.Residency

/-!
# A stack that grows registers the pages that are missing

A user fault between the bottom and the floor of a stack registers a writable page of zeros on every
number from the faulting page up to the floor that has none, moves the floor down to the faulting page,
and claims that page (`Machine.Grown`). The claim may evict pages and may be refused; either way it moves
contents only. Any other fault where there is no page is refused and registers nothing.

Headline: **`Reachable.stack_grows`**.
-/

namespace DemandPaging

/-! ## The ledger -/

namespace Ledger

variable {L A L' : Ledger} {id : SpaceId} {v top : PageNum} {f : FrameNum}

/-- The ledger after the stack of a space grew down to the page `v` from the page `top`. -/
structure Grown (id : SpaceId) (v top : PageNum) (L L' : Ledger) : Prop where
  registered : ∀ o, (L'.page o).isSome ↔
    (L.page o).isSome ∨ o.space = id ∧ v ≤ o.vpn ∧ o.vpn < top
  shows : ∀ {w}, v ≤ w → w < top → L.page ⟨id, w⟩ = none → L'.Shows ⟨id, w⟩ false .zero ∧
    ∃ p, L'.page ⟨id, w⟩ = some p ∧ p.profile = (.anon, true, 0)
  profile : ∀ {o p}, L.page o = some p → ∃ q, L'.page o = some q ∧ q.profile = p.profile
  floor : ∀ x, L'.floor x = if x = id then some v else L.floor x

/-- Fresh pages of zeros below the floor, and the floor moved. -/
theorem grown_of_page
    (hpage : ∀ o, L'.page o = if o.space = id ∧ (v ≤ o.vpn ∧ o.vpn < top) ∧ L.page o = none
      then some (.fresh o.vpn true .anon .zero) else L.page o)
    (hfloor : ∀ x, L'.floor x = if x = id then some v else L.floor x) : Grown id v top L L' := by
  refine ⟨fun o => ?_, fun {w} hv htop hfree => ?_, fun {o p} hp => ?_, hfloor⟩
  · rw [hpage]
    cases hp : L.page o with
    | some p => simp
    | none =>
      by_cases hin : o.space = id ∧ v ≤ o.vpn ∧ o.vpn < top
      · simp [hin]
      · simp [hin]
  · have hnew : L'.page ⟨id, w⟩ = some (.fresh w true .anon .zero) :=
      (hpage _).trans (if_pos ⟨rfl, ⟨hv, htop⟩, hfree⟩)
    exact ⟨⟨_, hnew, Page.plain_fresh w, nofun, rfl⟩, _, hnew, rfl⟩
  · refine ⟨p, (hpage o).trans ?_, rfl⟩
    rw [if_neg (by rw [hp]; exact fun h => nomatch h.2.2), hp]

/-- **Claiming the page the stack grew to** moves contents only. -/
theorem Grown.claims (h : Grown id v top L A) (hA : A.Sound) (hv : v < top) (hfree : L.page ⟨id, v⟩ = none)
    (hc : Claims A ⟨id, v⟩ f L') : Grown id v top L L' := by
  have hshifts := hc.trace
  obtain ⟨-, p, hp, hprofile⟩ := h.shows (Nat.le_refl v) hv hfree
  have htype : p.type = .anon := congrArg Prod.fst hprofile
  have hmapping : p.mapping = 0 := congrArg (·.2.2) hprofile
  have hkeeps := fun {x q} => hc.profile (x := x) (q := q) hA hp htype hmapping
  refine ⟨fun o => ?_, fun {w} hlow hhigh hnone => ?_, fun {o q} hq => ?_, fun x => ?_⟩
  · rw [← h.registered o, Option.isSome_iff_ne_none, Option.isSome_iff_ne_none]
    exact not_congr (hshifts.page_eq_none hA o)
  · obtain ⟨hshows, q, hq, hprofile⟩ := h.shows hlow hhigh hnone
    obtain ⟨r, hr, hsame⟩ := hkeeps hq
    exact ⟨hshows.shifts hA hshifts, r, hr, hsame.trans hprofile⟩
  · obtain ⟨r, hr, hsame⟩ := h.profile hq
    obtain ⟨s, hs, hsame'⟩ := hkeeps hr
    exact ⟨s, hs, hsame'.trans hsame⟩
  · rw [hshifts.floor hA]
    exact h.floor x

/-- Bytes that are read from a page that shows zeros are zeros. -/
theorem ReadsUpTo.zeros {va : Address} {n : Nat} {r : Machine.ReadResult} {loaded : Bool}
    (h : L.ReadsUpTo id (Machine.spans va n) r L') (hL : L.Sound) (hfits : va.offset + n ≤ pageSize)
    (hshows : L.Shows ⟨id, va.page⟩ loaded .zero) : ∀ b ∈ r.bytes, b = 0 := by
  rcases Nat.eq_zero_or_pos n with rfl | hn
  · rw [show Machine.spans va 0 = [] from rfl] at h
    generalize hspans : ([] : List Machine.Span) = spans at h
    cases h with
    | all h =>
      cases h with
      | nil => exact fun b hb => absurd hb (Array.not_mem_empty b)
      | cons => cases hspans
    | part => simp at hspans
  · rw [Machine.spans_of_fits hn hfits] at h
    obtain ⟨-, hbytes⟩ := h.span hL hshows
    rw [hbytes]
    split
    · intro b hb
      rw [PageBytes.slice, Array.mem_extract_iff_getElem] at hb
      obtain ⟨i, -, rfl⟩ := hb
      simp [PageBytes.zero]
    · exact fun b hb => absurd hb (Array.not_mem_empty b)

end Ledger

/-! ## The pages a stack is made of -/

namespace Machine

variable {lax : Tolerance} {m m₁ m' : Machine} {id : SpaceId} {v top : PageNum} {vs ws : List PageNum}
  {fault : PageFault} {F : Violation → Machine → Prop} {R : Refusal → Machine → Prop}

/-- A writable page of zeros was registered on each of `vs` that had none. Nothing else has changed but
the journal. -/
structure Stacked (id : SpaceId) (vs : List PageNum) (m m' : Machine) : Prop where
  page : ∀ o, m'.page? o = if o.space = id ∧ o.vpn ∈ vs ∧ m.page? o = none
    then some (.fresh o.vpn true .anon .zero) else m.page? o
  floor : ∀ x, m'.floorAt? x = m.floorAt? x
  rest : ∃ spaces journal, m' = { m with spaces, journal }

theorem Stacked.nil : Stacked id [] m m :=
  ⟨fun _ => (if_neg fun h => nomatch h.2.1).symm, fun _ => rfl, m.spaces, m.journal, rfl⟩

theorem Stacked.append (h : Stacked id vs m m₁) (h' : Stacked id ws m₁ m') :
    Stacked id (vs ++ ws) m m' := by
  refine ⟨fun o => ?_, fun x => (h'.floor x).trans (h.floor x), ?_⟩
  · rw [h'.page, h.page]
    by_cases hid : o.space = id <;> by_cases hv : o.vpn ∈ vs <;> by_cases hp : m.page? o = none <;>
      simp [hid, hv, hp]
  · obtain ⟨_, _, rfl⟩ := h.rest
    obtain ⟨_, _, rfl⟩ := h'.rest
    exact ⟨_, _, rfl⟩

/-- Registering a page of zeros where there is none. -/
theorem meets_register_stacked (hlive : (m.floorAt? id).isSome) (hv : v < PageNum.limit)
    (hfree : m.page? ⟨id, v⟩ = none) :
    Action.Meets F (register id .anon (PageNum.base v) true .zero) m
      (fun _ m' => Stacked id [v] m m') R := by
  have hbase : (PageNum.base v).page = v := PageNum.page_base hv
  unfold register
  rw [hbase]
  refine meets_insertPage (.fresh v true .anon .zero) hlive hfree fun m₁ h₁ => ?_
  have hpage : ∀ x, m₁.page? x = if x = ⟨id, v⟩ then some (.fresh v true .anon .zero) else m.page? x :=
    h₁.page
  have hfloor := h₁.floor
  obtain ⟨spaces, rfl⟩ := h₁.rest
  unfold note
  rw [Action.meets_modify]
  refine ⟨fun o => (hpage o).trans ?_, hfloor, _, _, rfl⟩
  obtain ⟨x, w⟩ := o
  by_cases hx : x = id ∧ w = v
  · obtain ⟨rfl, rfl⟩ := hx
    simp [hfree]
  · have hne : (⟨x, w⟩ : Owner) ≠ ⟨id, v⟩ := fun h => hx (Owner.mk.inj h)
    rw [if_neg hne, if_neg fun h => hx ⟨h.1, List.mem_singleton.mp h.2.1⟩]

theorem meets_registerStackPage_stacked (hlive : (m.floorAt? id).isSome) (hv : v < PageNum.limit) :
    Action.Meets F (registerStackPage id v) m (fun _ m' => Stacked id [v] m m') R := by
  obtain ⟨space, hspace⟩ := exists_space hlive
  have hcontains : space.registry.contains v = (m.page? ⟨id, v⟩).isSome := by
    rw [page?_eq, hspace]
    exact Registry.contains_eq v
  unfold registerStackPage
  rw [Action.meets_bind_of_ok (space_eq id hspace), hcontains]
  cases hp : m.page? ⟨id, v⟩ with
  | none => exact meets_register_stacked hlive hv hp
  | some p =>
    refine ⟨fun o => (if_neg ?_).symm, fun _ => rfl, m.spaces, m.journal, rfl⟩
    obtain ⟨x, w⟩ := o
    rintro ⟨rfl, hw, hnone⟩
    obtain rfl := List.mem_singleton.mp hw
    rw [hp] at hnone
    cases hnone

theorem meets_forM_stacked : ∀ {vs : List PageNum} {m : Machine}, (m.floorAt? id).isSome →
    (∀ v ∈ vs, v < PageNum.limit) →
    Action.Meets F (vs.forM (registerStackPage id)) m (fun _ m' => Stacked id vs m m') R
  | [], _, _, _ => .nil
  | v :: vs, m, hlive, hvs => by
    show Action.Meets F (registerStackPage id v >>= fun _ => vs.forM _) m _ _
    refine (meets_registerStackPage_stacked hlive (hvs v List.mem_cons_self)).bind
      (fun _ m₁ h₁ => ?_) fun _ _ h => h
    exact (meets_forM_stacked ((h₁.floor id).symm ▸ hlive) fun w hw =>
      hvs w (List.mem_cons_of_mem v hw)).mono (fun _ _ h₂ => h₁.append h₂) fun _ _ h => h

/-- Growing a stack registers the pages that are missing, and moves the floor. -/
theorem meets_growStack_stacked (htop : m.floorAt? id = some top) (hv : v ≤ top)
    (hlimit : top ≤ PageNum.limit) :
    Action.Meets F (growStack id v) m (fun _ m' => ∃ m₁, Stacked id (List.range' v (top - v)) m m₁ ∧
      (∀ o, m'.page? o = m₁.page? o) ∧ (∀ x, m'.floorAt? x = if x = id then some v else m₁.floorAt? x) ∧
      m'.backing = m₁.backing) R := by
  obtain ⟨space, hspace, rfl⟩ := Option.map_eq_some_iff.mp htop
  have hlive : (m.floorAt? id).isSome := by
    rw [htop]
    rfl
  have hrange : PageRange.between v space.stackFloor = .ok ⟨v, space.stackFloor, hv⟩ := dif_pos hv
  unfold growStack
  rw [Action.meets_bind_of_ok (space_eq id hspace)]
  dsimp only
  rw [hrange]
  show Action.Meets F ((List.range' v (space.stackFloor - v)).forM _ >>= fun _ => _) m _ _
  refine (meets_forM_stacked hlive fun w hw => ?_).bind (fun _ m₁ h₁ => ?_) fun _ _ h => h
  · have hhigh := (List.mem_range'_1.mp hw).2
    rw [Nat.add_sub_of_le hv] at hhigh
    exact Nat.lt_of_lt_of_le hhigh hlimit
  · rw [← h₁.floor id] at hlive
    obtain ⟨space₁, hspace₁⟩ := exists_space hlive
    unfold note
    simp only [Action.meets_bind, Action.meets_modify]
    exact ⟨m₁, h₁, page?_setFloor (g := fun _ => v), floorAt?_setFloor (g := fun _ => v) hspace₁, rfl⟩

/-- **Growing a stack**, in the ledger. -/
theorem meets_growStack_grown (hm : Sound lax m none none) (htop : m.floorAt? id = some top)
    (hv : v ≤ top) :
    Action.Meets (Breaking lax) (growStack id v) m
      (fun _ m' => Sound lax m' none none ∧
        Ledger.Grown id v top (m.ledger none none) (m'.ledger none none)) R := by
  have hstacked : Action.Meets (fun _ _ => True) (growStack id v) m _ R :=
    meets_growStack_stacked htop hv (hm.kept.floors htop)
  refine (((meets_growStack hm htop hv).and hstacked).relax fun _ _ h => h.1).mono
    (fun _ m' h => ?_) fun _ _ h => h.1
  obtain ⟨⟨hreach, -⟩, m₁, hstack, hpage, hfloor, hbacking⟩ := h
  refine ⟨hreach.sound hm, Ledger.grown_of_page (fun o => ?_) fun x => ?_⟩
  · have hfiles : m'.backing.files = m.backing.files := by
      rw [hbacking]
      obtain ⟨_, _, rfl⟩ := hstack.rest
      rfl
    rw [page_ledger, page_ledger, hpage, hstack.page, hfiles]
    simp only [List.mem_range'_1, Nat.add_sub_of_le hv, Option.map_eq_none_iff]
    split
    · rfl
    · rfl
  · refine (hfloor x).trans ?_
    rw [hstack.floor]
    rfl

/-! ## A fault in the gap -/

/-- **The machine `m'` is `m` after the stack of a space grew** down to the page `v` from the page `top`. -/
structure Grown (id : SpaceId) (v top : PageNum) (m m' : Machine) : Prop where
  /-- The registered pages are those that were, and every page from `v` up to `top`. -/
  registered : ∀ o, (m'.page? o).isSome ↔ (m.page? o).isSome ∨ o.space = id ∧ v ≤ o.vpn ∧ o.vpn < top
  /-- Those that were added may be written, are anonymous and in no mapping, and hold zeros. -/
  added : ∀ {w}, v ≤ w → w < top → m.page? ⟨id, w⟩ = none → ∃ p, m'.page? ⟨id, w⟩ = some p ∧
    p.vpn = w ∧ p.writable = true ∧ p.type = .anon ∧ p.mapping = 0 ∧ m'.imageOf ⟨id, w⟩ = some .zero
  /-- They read as zeros. -/
  reads : ∀ {va : Address} {n : Nat} {r : ReadResult} {m''}, v ≤ va.page → va.page < top →
    m.page? ⟨id, va.page⟩ = none → va.offset + n ≤ pageSize → read id va n m' = .ok r m'' →
      ∀ b ∈ r.bytes, b = 0
  /-- Pages that were there keep their type, their mapping and whether they may be written. -/
  profile : ∀ {o p}, m.page? o = some p → ∃ q, m'.page? o = some q ∧ q.profile = p.profile
  /-- The floor is `v`; no other has moved. -/
  floor : ∀ x, m'.floorAt? x = if x = id then some v else m.floorAt? x

/-- What the ledger tells of a stack that grew, the machine shows. -/
theorem Sound.grown (hm' : Sound lax m' none none)
    (h : Ledger.Grown id v top (m.ledger none none) (m'.ledger none none)) : Grown id v top m m' := by
  have hfree : ∀ {w}, m.page? ⟨id, w⟩ = none → (m.ledger none none).page ⟨id, w⟩ = none := fun hnone => by
    rw [page_ledger, hnone]
    rfl
  refine ⟨fun o => ?_, fun {w} hv htop hnone => ?_, fun {va n r m''} hv htop hnone hfits hread => ?_,
    fun {o p} hp => ?_, h.floor⟩
  · simpa only [isSome_page_ledger] using h.registered o
  · obtain ⟨⟨q, hq, -, -, hzero⟩, q', hq', hprofile⟩ := h.shows hv htop (hfree hnone)
    obtain ⟨p, hp, rfl⟩ := exists_page?_of_ledger hq'
    rw [Page.profile_located] at hprofile
    obtain ⟨htype, hw, hmapping⟩ : p.type = .anon ∧ p.writable = true ∧ p.mapping = 0 := by
      simpa [Page.profile] using hprofile
    refine ⟨p, hp, hm'.books.numbered hq', hw, htype, hmapping, ?_⟩
    rw [imageOf, hq, Option.map_some, hzero]
  · obtain ⟨hreads, -⟩ := (meets_read (R := fun _ _ => True) hm').of_ok hread
    exact hreads.told.zeros hm'.books hfits (h.shows hv htop (hfree hnone)).1
  · obtain ⟨r, hr, hprofile⟩ := h.profile (page_ledger_of_page? hp)
    obtain ⟨q, hq, rfl⟩ := exists_page?_of_ledger hr
    rw [Page.profile_located, Page.profile_located] at hprofile
    exact ⟨q, hq, hprofile⟩

/-- The page the stack grew to can be claimed if there is a frame for it. -/
theorem meets_claim_grown {L : Ledger} (hm : Sound lax m none none) (hv : v < top)
    (hfree : L.page ⟨id, v⟩ = none) (h : Ledger.Grown id v top L (m.ledger none none)) :
    Action.Meets (Breaking lax) (claim ⟨id, v⟩) m
      (fun _ m' => Sound lax m' none none ∧ Ledger.Grown id v top L (m'.ledger none none))
      fun cause m' => cause.isExhaustion = true ∧ Sound lax m' none none ∧
        Ledger.Grown id v top L (m'.ledger none none) := by
  obtain ⟨⟨q, hq, hplain, -⟩, -⟩ := h.shows (Nat.le_refl v) hv hfree
  obtain ⟨p, hp, rfl⟩ := exists_page?_of_ledger hq
  refine ((meets_claim_of_page hm hp).relax fun _ _ h => h.1.allowed).mono (fun f m' h' => ?_)
    fun cause m' h' => ?_
  · exact ⟨h'.1.shifts_of_claims.sound hm, h.claims hm.books hv hfree h'.1.told⟩
  · obtain ⟨hshifts, ⟨hexhausted, hscanned⟩ | ⟨-, hfallible, -⟩⟩ := h'
    · exact ⟨hexhausted.isExhaustion, hshifts.sound hm, hscanned.idle.ledger.symm ▸ h⟩
    · exact absurd (Page.isFallible_located.mpr hfallible) hplain.not_isFallible

/-- A legal fault where there is no page is up to the stack. -/
theorem meets_dispatchFault_missing {F : Violation → Machine → Prop} {Q : Unit → Machine → Prop}
    {R : Refusal → Machine → Prop} {space : AddressSpace} (hspace : m.spaces[id]? = some space)
    (hnull : fault.va.isNull = false)
    (hbelow : fault.user = true → fault.va.toNat < m.config.ceiling.toNat)
    (hfree : m.page? ⟨id, fault.va.page⟩ = none) :
    Action.Meets F (dispatchFault id fault) m Q R ↔
      Action.Meets F (faultOnMissing id space fault) m Q R := by
  have hlegal : ¬(fault.va.isNull ||
      fault.user && decide (m.config.ceiling.toNat ≤ fault.va.toNat)) = true := by
    simpa [hnull] using hbelow
  have hfind : space.registry.find? fault.va = none := by
    rw [page?_eq, hspace] at hfree
    exact hfree
  unfold dispatchFault
  rw [Action.meets_bind, Action.meets_get, if_neg hlegal, Action.meets_bind_of_ok (space_eq id hspace), hfind]

theorem meets_dispatchFault_grown (hm : Sound lax m none none) (htop : m.floorAt? id = some top)
    (hnull : fault.va.isNull = false) (hbelow : fault.va.toNat < m.config.ceiling.toNat)
    (huser : fault.user = true) (hfree : m.page? ⟨id, fault.va.page⟩ = none) (hgap : m.InGap id fault.va) :
    Action.Meets (Breaking lax) (dispatchFault id fault) m
      (fun _ m' => Sound lax m' none none ∧
        Ledger.Grown id fault.va.page top (m.ledger none none) (m'.ledger none none))
      fun cause m' => cause.isExhaustion = true ∧ Sound lax m' none none ∧
        Ledger.Grown id fault.va.page top (m.ledger none none) (m'.ledger none none) := by
  obtain ⟨space, hspace⟩ := exists_space (Option.isSome_iff_exists.mpr ⟨_, htop⟩)
  obtain ⟨top', htop', hbottom, hunder⟩ := hgap
  obtain rfl := Option.some.inj (htop.symm.trans htop')
  have hgrows : (fault.user && inStackGap m.config space fault.va) = true :=
    Bool.and_eq_true_iff.mpr ⟨huser, (inStackGap_iff hspace).mpr ⟨_, htop, hbottom, hunder⟩⟩
  have hlt : fault.va.page < top := PageNum.page_lt_of_lt_base hunder
  rw [meets_dispatchFault_missing hspace hnull (fun _ => hbelow) hfree]
  unfold faultOnMissing
  rw [Action.meets_bind, Action.meets_get, if_pos hgrows]
  refine (meets_growStack_grown hm htop (Nat.le_of_lt hlt)).bind (fun _ m₁ h₁ => ?_) fun _ _ h => h
  refine (meets_claim_grown h₁.1 hlt ?_ h₁.2).bind (fun _ _ h => h) fun _ _ h => h
  rw [page_ledger, hfree]
  rfl

/-- **A user fault in the gap** grows the stack, whether the page it asks for can be claimed or not. -/
theorem meets_resolveFault_grown (hm : Sound lax m none none) (htop : m.floorAt? id = some top)
    (hnull : fault.va.isNull = false) (hbelow : fault.va.toNat < m.config.ceiling.toNat)
    (huser : fault.user = true) (hfree : m.page? ⟨id, fault.va.page⟩ = none) (hgap : m.InGap id fault.va) :
    Action.Meets (Breaking lax) (resolveFault id fault) m
      (fun _ m' => Grown id fault.va.page top m m')
      fun cause m' => cause.isExhaustion = true ∧ Grown id fault.va.page top m m' := by
  have hidle := Idle.count m { m.counters with faults := m.counters.faults + 1 }
    (Nat.le_refl m.nextMapping)
  have hledger : _ = m.ledger none none := hidle.ledger
  unfold resolveFault count
  simp only [Action.meets_bind, Action.meets_modify, Action.meets_attempt]
  refine (meets_dispatchFault_grown (hidle.sound hm) htop hnull hbelow huser hfree hgap).mono
    (fun _ m' h => ?_) fun cause m' h => ?_
  · exact h.1.grown (hledger ▸ h.2)
  · obtain ⟨hcause, hm', hgrown⟩ := h
    have hnoted := Idle.note m' (.faultFailed id fault cause) rfl
    refine ⟨hcause, (hnoted.sound hm').grown ?_⟩
    rw [hnoted.ledger]
    exact hledger ▸ hgrown

/-! ## Any other fault -/

/-- **A fault where there is no page**, outside the gap or raised by the kernel, is refused. -/
theorem resolveFault_eq_notMapped (hlive : (m.floorAt? id).isSome) (hnull : fault.va.isNull = false)
    (hbelow : fault.user = true → fault.va.toNat < m.config.ceiling.toNat)
    (hfree : m.page? ⟨id, fault.va.page⟩ = none) (hgap : ¬(fault.user = true ∧ m.InGap id fault.va)) :
    ∃ counters journal, resolveFault id fault m =
      .error (.refused (.notMapped fault.va)) { m with counters, journal } := by
  obtain ⟨space, hspace⟩ := exists_space hlive
  have hstays : ¬(fault.user && inStackGap m.config space fault.va) = true := by
    rwa [Bool.and_eq_true_iff, inStackGap_iff hspace]
  have hmeets : Action.Meets (fun _ _ => False) (resolveFault id fault) m (fun _ _ => False)
      fun cause m' => cause = .notMapped fault.va ∧
        ∃ counters journal, m' = { m with counters, journal } := by
    unfold resolveFault count note
    simp only [Action.meets_bind, Action.meets_modify, Action.meets_attempt]
    rw [meets_dispatchFault_missing
      (m := { m with counters := { m.counters with faults := m.counters.faults + 1 } })
      hspace hnull hbelow hfree]
    unfold faultOnMissing
    rw [Action.meets_bind, Action.meets_get, if_neg hstays]
    exact ⟨rfl, _, _, rfl⟩
  obtain ⟨cause, m', h, rfl, counters, journal, rfl⟩ := hmeets.exists_refused
  exact ⟨counters, journal, h⟩

/-- What no fault does: it registers no page that lies wholly below the bottom of the stack or in another
space, and raises no floor. -/
structure Bounded (id : SpaceId) (m m' : Machine) : Prop where
  pages : ∀ o, (m'.page? o).isSome → (m.page? o).isSome ∨
    o.space = id ∧ m.config.stackBottom.toNat < (o.vpn + 1) * pageSize
  floors : ∀ x a, m.floorAt? x = some a → ∃ b ≤ a, m'.floorAt? x = some b

theorem Reaches.bounded {va : Address} (h : Reaches lax (Ledger.Told (Layout.Grows id va)) m m')
    (hm : Sound lax m none none) : Bounded id m m' := by
  obtain ⟨-, ks, hgrows, htrace⟩ := h
  have hlayout := htrace.layout hm.books
  have hpages : ∀ o, (m'.page? o).isSome = ((m.ledger none none).layout.afterAll ks).registered o :=
    fun o => by rw [← hlayout, registered_ledger]
  have hfloors : ∀ x, m'.floorAt? x = ((m.ledger none none).layout.afterAll ks).floor x :=
    fun x => congrFun (congrArg Layout.floor hlayout) x
  cases hgrows with
  | stays =>
    refine ⟨fun o ho => Or.inl ?_, fun x a ha => ⟨a, Nat.le_refl a, (hfloors x).trans ha⟩⟩
    rw [hpages] at ho
    rwa [← registered_ledger]
  | grows hfree htop hbottom hbelow =>
    rename_i top
    have hlt : va.page < top := PageNum.page_lt_of_lt_base hbelow
    refine ⟨fun o ho => ?_, fun x a ha => ?_⟩
    · rw [hpages, Layout.afterAll_append] at ho
      have ho := (Layout.registered_stackKinds ..).symm.trans ho
      rw [Bool.or_eq_true, decide_eq_true_eq, registered_ledger] at ho
      refine ho.imp_right fun ⟨hid, hin⟩ => ⟨hid, ?_⟩
      have hlow : va.toNat / 4096 ≤ o.vpn := (List.mem_range'_1.mp hin).1
      have hbottom : m.config.stackBottom.toNat ≤ va.toNat := hbottom
      show m.config.stackBottom.toNat < (o.vpn + 1) * 4096
      omega
    · have hfloor := hfloors x
      rw [Layout.afterAll_append] at hfloor
      have hsame := congrFun (Layout.floor_stackKinds (m.ledger none none).layout id
        (List.range' va.page (top - va.page))) x
      by_cases hx : x = id
      · subst hx
        obtain rfl := Option.some.inj (htop.symm.trans ha)
        exact ⟨va.page, Nat.le_of_lt hlt, hfloor.trans (if_pos rfl)⟩
      · exact ⟨a, Nat.le_refl a, hfloor.trans ((if_neg hx).trans (hsame.trans ha))⟩

end Machine

open Machine

variable {lax : Tolerance} {m : Machine}

/-- **A stack grows by exactly the pages that are missing**, in any machine of a run. A user fault in the
gap registers them, whether the page it asks for can be claimed then or not; any other fault where there is
no page is refused and changes nothing but what is counted and noted. No fault registers a page below the
bottom of the stack or raises a floor. -/
theorem Reachable.stack_grows (h : Reachable lax m) (id : SpaceId) :
    (∀ {fault : PageFault} {top : PageNum}, m.floorAt? id = some top → fault.va.isNull = false →
      (fault.user = true → fault.va.toNat < m.config.ceiling.toNat) →
      m.page? ⟨id, fault.va.page⟩ = none →
      (fault.user = true ∧ m.config.stackBottom.toNat ≤ fault.va.toNat ∧
          fault.va.toNat < (PageNum.base top).toNat →
        Action.Meets (Breaking lax) (resolveFault id fault) m
          (fun _ m' => Grown id fault.va.page top m m')
          fun cause m' => cause.isExhaustion = true ∧ Grown id fault.va.page top m m') ∧
      (¬(fault.user = true ∧ m.config.stackBottom.toNat ≤ fault.va.toNat ∧
          fault.va.toNat < (PageNum.base top).toNat) →
        ∃ counters journal, resolveFault id fault m =
          .error (.refused (.notMapped fault.va)) { m with counters, journal })) ∧
    ∀ fault : PageFault, Action.Meets (Breaking lax) (resolveFault id fault) m
      (fun _ m' => Bounded id m m') fun _ m' => Bounded id m m' := by
  refine ⟨fun {fault top} htop hnull hbelow hfree => ⟨fun ⟨huser, hbottom, hunder⟩ => ?_, fun hno => ?_⟩,
    fun fault => ?_⟩
  · exact meets_resolveFault_grown h.sound htop hnull (hbelow huser) huser hfree ⟨top, htop, hbottom, hunder⟩
  · refine resolveFault_eq_notMapped (by rw [htop]; rfl) hnull hbelow hfree ?_
    rintro ⟨huser, top', htop', hgap⟩
    obtain rfl := Option.some.inj (htop.symm.trans htop')
    exact hno ⟨huser, hgap⟩
  · exact ((meets_resolveFault h.sound).relax fun _ _ h' => h'.overrun.allowed).mono
      (fun _ _ h' => h'.reaches.bounded h.sound) fun _ _ h' => h'.1.bounded h.sound

/-- Requests that put the first page of a stack into a frame, and a page into the gap below it. -/
def Operation.stacking : List Operation :=
  [.create, .setupStack 0, .register 0 .anon ⟨0x3fffffc000⟩ false .zero]

/-- The stack grows around the page in the gap, and there is no frame for the page it grows to. A fault
below the bottom is refused. -/
theorem Reachable.stack_grows_refused : ∃ m m' m'' cause, Reachable .all m ∧
    (m.page? ⟨0, 0x3fffffc⟩).isSome ∧
    resolveFault 0 (.missing ⟨0x3fffffb010⟩ true) m = .error (.refused cause) m' ∧
    cause.isExhaustion = true ∧ Grown 0 0x3fffffb 0x3fffffe m m' ∧ Bounded 0 m m' ∧
    resolveFault 0 (.missing ⟨0x3fffefefff⟩ true) m =
      .error (.refused (.notMapped ⟨0x3fffefefff⟩)) m'' := by
  have h : ((Machine.start { userFrames := 1 } (.blank 0)).carry Operation.stacking).any (fun r =>
      decide (r.2.floorAt? 0 = some 0x3fffffe) && decide (r.2.config = { userFrames := 1 }) &&
      (r.2.page? ⟨0, 0x3fffffc⟩).isSome && (r.2.page? ⟨0, 0x3fffffb⟩).isNone &&
      (r.2.page? ⟨0, 0x3fffefe⟩).isNone &&
      ((resolveFault 0 (.missing ⟨0x3fffffb010⟩ true)).refusal? r.2).any fun r' =>
        r'.1.isExhaustion) = true := by decide +kernel
  obtain ⟨r, -, hm, hrest⟩ := Reachable.exists_of_carry (by decide) h
  simp only [Bool.and_eq_true, decide_eq_true_eq, Option.isNone_iff_eq_none] at hrest
  obtain ⟨⟨⟨⟨⟨htop, hconfig⟩, hthere⟩, hfree⟩, hfree'⟩, hrefused⟩ := hrest
  obtain ⟨hmissing, hbounded⟩ := hm.stack_grows 0
  obtain ⟨cause, m', hfault, -⟩ := Action.exists_refused_of_any hrefused
  obtain ⟨hcause, hgrown⟩ := ((@hmissing (.missing ⟨0x3fffffb010⟩ true) _ htop (by decide)
    (by rw [hconfig]; decide) hfree).1 (by rw [hconfig]; decide)).of_refused hfault
  obtain ⟨counters, journal, hbelow⟩ := (@hmissing (.missing ⟨0x3fffefefff⟩ true) _ htop
    (by decide) (by rw [hconfig]; decide) hfree').2 (by rw [hconfig]; decide)
  exact ⟨r.2, m', _, cause, hm, hthere, hfault, hcause, hgrown, (hbounded _).of_refused hfault, hbelow⟩

end DemandPaging
