import DemandPaging.Machine.Fault
import DemandPaging.Proofs.Machine.Stack

/-!
# Resolving a fault keeps the books

A fault grows the stack to the faulting page or changes no page as its space sees it, whether it is
resolved or refused. After it was resolved the page is resident, and it may be written if a write to
a present page was what had been refused.
-/

namespace DemandPaging.Machine

variable {lax : Tolerance} {m m' : Machine} {id : SpaceId} {va : Address} {fault : PageFault} {p : Page}
  {o : Owner}

theorem Reaches.stays (h : Reaches lax Ledger.Shifts m m') (id : SpaceId) (va : Address) :
    Reaches lax (Ledger.Told (Layout.Grows id va)) m m' := ⟨h.kept, [], .stays, h.told⟩

/-! ## When faults are resolved -/

/-- The stack of a space may grow to an address. -/
def InGap (m : Machine) (id : SpaceId) (va : Address) : Prop :=
  ∃ top, m.floorAt? id = some top ∧ m.config.stackBottom.toNat ≤ va.toNat ∧
    va.toNat < (PageNum.base top).toNat

theorem inStackGap_iff {space : AddressSpace} (hspace : m.spaces[id]? = some space) :
    inStackGap m.config space va = true ↔ m.InGap id va := by
  have htop : m.floorAt? id = some space.stackFloor := by
    rw [floorAt?, hspace]
    rfl
  simp [inStackGap, InGap, htop]

/-- A space may be accessed at an address: its page allows the access, or its stack may grow there. -/
inductive Allows (m : Machine) (id : SpaceId) (va : Address) (write : Bool) : Prop
  | page {p : Page} (hp : m.page? ⟨id, va.page⟩ = some p)
      (hw : write = true → p.writable = true)
  | gap (hfree : m.page? ⟨id, va.page⟩ = none) (hgap : m.InGap id va)

/-- Why a fault is refused that a user or the kernel raised. -/
inductive Denied (m : Machine) (id : SpaceId) (va : Address) (user write : Bool) : Refusal → Prop
  /-- The address is null, or user memory ends below it. -/
  | barred (h : (va.isNull || user && decide (m.config.ceiling.toNat ≤ va.toNat)) = true) :
      Denied m id va user write (.invalidAddress va)
  /-- There is no such space. -/
  | absent {cause : Refusal} (h : m.floorAt? id = none) : Denied m id va user write cause
  /-- There is no page, and the stack may not grow there. -/
  | unmapped (hfree : m.page? ⟨id, va.page⟩ = none) (hgap : ¬(user = true ∧ m.InGap id va)) :
      Denied m id va user write (.notMapped va)
  /-- The page may not be written. -/
  | shielded {p : Page} (hp : m.page? ⟨id, va.page⟩ = some p) (hwrite : write = true)
      (hw : p.writable = false) : Denied m id va user write (.writeProtected va)
  /-- There is no frame for the page, or it cannot be loaded. -/
  | unavailable {cause : Refusal} (hallowed : m.Allows id va write)
      (h : cause.isExhaustion = true ∨ cause.IsLoading) : Denied m id va user write cause

/-- A refusal that tells of a machine out of order tells that there is no such space. -/
theorem Denied.internal {user write : Bool} {cause : Refusal} (h : Denied m id va user write cause)
    (hinternal : cause.isInternal = true) : m.floorAt? id = none := by
  cases h with
  | absent h => exact h
  | barred | unmapped | shielded => cases hinternal
  | unavailable hallowed h =>
    rcases h with h | h
    · exact absurd hinternal (Refusal.not_isInternal_of_isExhaustion h)
    · exact absurd hinternal h.not_isInternal

section

variable {user write : Bool} {cause : Refusal}

/-- Where the stack may grow to stays while nothing changes. -/
theorem Idle.inGap (h : Idle m m') : m'.InGap id va ↔ m.InGap id va := by
  unfold InGap
  rw [h.floor, h.config]

theorem Idle.allows (h : Idle m m') (ha : m'.Allows id va write) :
    m.Allows id va write := by
  cases ha with
  | page hp hw => exact .page ((h.page _).symm.trans hp) hw
  | gap hfree hgap => exact .gap ((h.page _).symm.trans hfree) (h.inGap.mp hgap)

theorem Idle.denied (h : Idle m m') (hd : Denied m' id va user write cause) :
    Denied m id va user write cause := by
  cases hd with
  | barred hbars => exact .barred (h.config ▸ hbars)
  | absent hnone => exact .absent ((h.floor id).symm.trans hnone)
  | unmapped hfree hgap =>
    exact .unmapped ((h.page _).symm.trans hfree) fun hg => hgap ⟨hg.1, h.inGap.mpr hg.2⟩
  | shielded hp hwrite hw => exact .shielded ((h.page _).symm.trans hp) hwrite hw
  | unavailable hallowed hcause => exact .unavailable (h.allows hallowed) hcause

end

/-- What was resolved: the page is resident, may be written after a refused write to it, and holds
what it held if it was resident before. -/
structure Resolved (lax : Tolerance) (m m' : Machine) (id : SpaceId) (fault : PageFault) : Prop where
  reaches : Reaches lax (Ledger.Told (Layout.Grows id fault.va)) m m'
  allowed : m.Allows id fault.va fault.write
  resident : (m'.frameOf ⟨id, fault.va.page⟩).isSome
  writable : fault.write = true → fault.notPresent = false →
    (m.frameOf ⟨id, fault.va.page⟩).isSome →
      ∃ e, m'.entryAt? ⟨id, fault.va.page⟩ = some e ∧ e.has .writable = true
  keeps : ∀ {f f'}, m.frameOf ⟨id, fault.va.page⟩ = some f →
    m'.frameOf ⟨id, fault.va.page⟩ = some f' →
      (m'.ledger none none).bytes f' = (m.ledger none none).bytes f

/-- Why an access that is allowed breaks off: a file took too little of what was written back, or the
page at the address is no page that fits in a frame. -/
structure Broken (lax : Tolerance) (m : Machine) (id : SpaceId) (va : Address) (write : Bool)
    (v : Violation) : Prop where
  overrun : Overrun lax ((m.ledger none none).Admits ⟨id, va.page⟩) v
  allowed : m.Allows id va write

theorem Idle.broken {write : Bool} {v : Violation} (h : Idle m m') (hb : Broken lax m' id va write v) :
    Broken lax m id va write v := by
  obtain ⟨hoverrun, hallowed⟩ := hb
  rw [h.ledger] at hoverrun
  exact ⟨hoverrun, h.allows hallowed⟩

/-- What breaks off after the stack has grown would have done so before. -/
theorem Reaches.overrun {v : Violation} {o : Owner}
    (h : Reaches lax (Ledger.Told (Layout.Grows id va)) m m') (hm : Sound lax m none none)
    (hv : Overrun lax ((m'.ledger none none).Admits o) v) :
    Overrun lax ((m.ledger none none).Admits o) v := by
  obtain ⟨ks, hks, htrace⟩ := h.told
  exact hv.mono fun hadmits => hadmits.trace_of_growth htrace hm.books fun _ hk => hks.mem hk

/-- Why a page that is there cannot be claimed. -/
theorem isExhaustion_or_isLoading {cause : Refusal}
    (h : Exhausted m cause ∧ Scanned m m' ∨
      cause.IsLoading ∧ p.IsFallible ∧ ∃ f, Forgone lax m m' o f) :
    cause.isExhaustion = true ∨ cause.IsLoading :=
  h.imp (fun h => h.1.isExhaustion) And.left

/-- **A fault where there is no page** is refused or grows the stack. -/
theorem meets_faultOnMissing {space : AddressSpace} (hm : Sound lax m none none)
    (hspace : m.spaces[id]? = some space) (hfree : m.page? ⟨id, fault.va.page⟩ = none) :
    Action.Meets (fun v _ => Broken lax m id fault.va fault.write v) (faultOnMissing id space fault) m
      (fun _ m' => Resolved lax m m' id fault)
      (fun cause m' => Reaches lax (Ledger.Told (Layout.Grows id fault.va)) m m' ∧
        Denied m id fault.va fault.user fault.write cause) := by
  have hbefore : m.frameOf ⟨id, fault.va.page⟩ = none := by
    rw [frameOf, hfree]
    rfl
  have htop : m.floorAt? id = some space.stackFloor := by
    rw [floorAt?, hspace]
    rfl
  unfold faultOnMissing
  simp only [Action.meets_bind, Action.meets_get, Action.meets_ite]
  refine ⟨fun hgap => ?_, fun hno => ⟨(Reaches.refl hm).stays id fault.va, .unmapped hfree ?_⟩⟩
  swap
  · rwa [Bool.and_eq_true_iff, inStackGap_iff hspace] at hno
  obtain ⟨top, htop', hbottom, hbelow⟩ := (inStackGap_iff hspace).mp (Bool.and_eq_true_iff.mp hgap).2
  obtain rfl := Option.some.inj (htop.symm.trans htop')
  have hallowed : m.Allows id fault.va fault.write := .gap hfree ⟨_, htop, hbottom, hbelow⟩
  have hregistered : (m.ledger none none).layout.registered ⟨id, fault.va.page⟩ = false := by
    rw [registered_ledger, hfree]
    rfl
  have hgrows : ∀ {A}, Reaches lax (Ledger.Trace ((m.ledger none none).layout.stackKinds id
      (List.range' fault.va.page (space.stackFloor - fault.va.page)) ++
        [.floor id (some fault.va.page)])) m A → Reaches lax (Ledger.Told (Layout.Grows id fault.va)) m A :=
    fun h => ⟨h.kept, _, .grows hregistered htop hbottom hbelow, h.told⟩
  refine (meets_growStack hm htop (Nat.le_of_lt (PageNum.page_lt_of_lt_base hbelow))).mono ?_
    fun _ _ h => h
  rintro _ m₁ ⟨h₁, hfloor⟩
  have hthere : (m₁.ledger none none).layout.registered ⟨id, fault.va.page⟩ = true := by
    rw [h₁.told.layout hm.books]
    exact (Layout.Grows.grows hregistered htop hbottom hbelow).registered (by simp)
  obtain ⟨p, hp⟩ := Option.isSome_iff_exists.mp (registered_ledger.symm.trans hthere)
  refine ((meets_claim_of_page (h₁.sound hm) hp).relax fun _ _ h =>
    ⟨(hgrows h₁).overrun hm h.1, hallowed⟩).mono (fun f m₂ h₂ => ?_) fun cause m₂ h₂ => ?_
  · have hframe := h₂.1.frameOf_of_claims
    have h₂ := h₂.1.shifts_of_claims
    refine ⟨hgrows (h₁.shifts h₂), hallowed, by rw [hframe]; rfl, fun _ _ hresident => ?_,
      fun hresident => ?_⟩
    · rw [hbefore] at hresident
      cases hresident
    · rw [hbefore] at hresident
      cases hresident
  · exact ⟨hgrows (h₁.shifts h₂.1), .unavailable hallowed (isExhaustion_or_isLoading h₂.2)⟩

/-- **A fault on a page** changes no page as its space sees it. -/
theorem meets_faultOnPage (hm : Sound lax m none none)
    (hp : m.page? ⟨id, fault.va.page⟩ = some p) :
    Action.Meets (fun v _ => Broken lax m id fault.va fault.write v)
      (faultOnPage ⟨id, fault.va.page⟩ p fault) m
      (fun _ m' => Resolved lax m m' id fault)
      (fun cause m' => Reaches lax (Ledger.Told (Layout.Grows id fault.va)) m m' ∧
        Denied m id fault.va fault.user fault.write cause) := by
  have hbefore : m.frameOf ⟨id, fault.va.page⟩ = p.frame := by
    rw [frameOf, hp]
    rfl
  unfold faultOnPage
  rw [Action.meets_ite]
  refine ⟨fun hrefused => ⟨(Reaches.refl hm).stays id fault.va, ?_⟩, fun hmay => ?_⟩
  · obtain ⟨hwrite, hw⟩ := Bool.and_eq_true_iff.mp hrefused
    exact .shielded hp hwrite (by simpa using hw)
  have hallowed : m.Allows id fault.va fault.write := .page hp fun hwrite => by
    simpa [hwrite] using hmay
  rw [Action.meets_ite]
  refine ⟨fun hframe => ?_, fun hframe => ?_⟩
  · have hidle := Idle.note m (.faultClaims ⟨id, fault.va.page⟩) rfl
    have hreach := Reaches.of_idle hm hidle
    have haway : m.frameOf ⟨id, fault.va.page⟩ = none :=
      hbefore.trans (Option.isNone_iff_eq_none.mp hframe)
    unfold note
    simp only [Action.meets_bind, Action.meets_modify]
    refine ((meets_claim_of_page (hreach.sound hm) ((hidle.page _).trans hp)).relax fun _ _ h =>
      ⟨(hreach.stays id fault.va).overrun hm h.1, hallowed⟩).mono (fun f m₂ h₂ => ?_)
      fun cause m₂ h₂ => ?_
    · have hframe₂ := h₂.1.frameOf_of_claims
      have h₂ := h₂.1.shifts_of_claims
      refine ⟨(hreach.shifts h₂).stays id fault.va, hallowed, by rw [hframe₂]; rfl,
        fun _ _ hresident => ?_, fun hresident => ?_⟩
      · rw [haway] at hresident
        cases hresident
      · rw [haway] at hresident
        cases hresident
    · exact ⟨(hreach.shifts h₂.1).stays id fault.va,
        .unavailable hallowed (isExhaustion_or_isLoading h₂.2)⟩
  · rw [Bool.not_eq_true, Option.isNone_eq_false_iff] at hframe
    obtain ⟨src, hsrc⟩ := Option.isSome_iff_exists.mp hframe
    rw [Action.meets_ite]
    refine ⟨fun hbreaks => ?_, fun hpresent => ?_⟩
    · obtain ⟨hwrite, -⟩ := Bool.and_eq_true_iff.mp hbreaks
      have hw : p.writable = true := by simpa [hwrite] using hmay
      refine ((meets_breakSharing hm hp hsrc hw).relax fun _ _ h =>
        ⟨h.mono Ledger.Admits.fitted, hallowed⟩).mono (fun _ m' h => ?_) fun cause m' h => ?_
      · obtain ⟨hreach, e, he, hew, hbytes⟩ := h
        have hframe' : m'.frameOf ⟨id, fault.va.page⟩ = some e.frame := by
          rw [← (hreach.sound hm).frame_entryAt?, he]
          rfl
        refine ⟨hreach.stays id fault.va, hallowed, by rw [hframe']; rfl, fun _ _ _ => ⟨e, he, hew⟩,
          fun hf hf' => ?_⟩
        rw [hbefore, hsrc] at hf
        rw [hframe'] at hf'
        rw [← Option.some.inj hf, ← Option.some.inj hf', hbytes]
      · obtain ⟨hexhausted, -, hscanned⟩ := h
        exact ⟨(Reaches.of_idle hm hscanned.idle).stays id fault.va,
          .unavailable hallowed (Or.inl hexhausted.isExhaustion)⟩
    · refine ⟨(Reaches.refl hm).stays id fault.va, hallowed, by rw [hbefore]; exact hframe,
        fun hwrite hnot _ => absurd ?_ hpresent, fun hf hf' => ?_⟩
      · simp [hwrite, hnot]
      · rw [Option.some.inj (hf.symm.trans hf')]

theorem meets_dispatchFault (hm : Sound lax m none none) :
    Action.Meets (fun v _ => Broken lax m id fault.va fault.write v) (dispatchFault id fault) m
      (fun _ m' => Resolved lax m m' id fault)
      (fun cause m' => Reaches lax (Ledger.Told (Layout.Grows id fault.va)) m m' ∧
        Denied m id fault.va fault.user fault.write cause) := by
  have hrefl : Reaches lax (Ledger.Told (Layout.Grows id fault.va)) m m :=
    (Reaches.refl hm).stays id fault.va
  unfold dispatchFault
  simp only [Action.meets_bind, Action.meets_get]
  rw [Action.meets_ite]
  refine ⟨fun hbars => ⟨hrefl, .barred hbars⟩, fun _ => ?_⟩
  rw [Action.meets_bind]
  refine (meets_space m id).mono ?_ ?_
  · rintro space m ⟨rfl, hspace⟩
    have hfind : space.registry.find? fault.va = m.page? ⟨id, fault.va.page⟩ := by
      rw [page?_eq, hspace]
      rfl
    rw [hfind]
    cases hp : m.page? ⟨id, fault.va.page⟩ with
    | none =>
      exact meets_faultOnMissing hm hspace hp
    | some p =>
      exact meets_faultOnPage hm hp
  · rintro cause _ ⟨rfl, hnone⟩
    exact ⟨hrefl, .absent hnone⟩

/-- **Resolving a fault.** -/
theorem meets_resolveFault (hm : Sound lax m none none) :
    Action.Meets (fun v _ => Broken lax m id fault.va fault.write v) (resolveFault id fault) m
      (fun _ m' => Resolved lax m m' id fault)
      (fun cause m' => Reaches lax (Ledger.Told (Layout.Grows id fault.va)) m m' ∧
        Denied m id fault.va fault.user fault.write cause) := by
  have hidle := Idle.count m { m.counters with faults := m.counters.faults + 1 }
    (Nat.le_refl m.nextMapping)
  have hledger : _ = m.ledger none none := hidle.ledger
  unfold resolveFault count
  simp only [Action.meets_bind, Action.meets_modify, Action.meets_attempt]
  refine ((meets_dispatchFault (hidle.sound hm)).relax fun _ _ h => hidle.broken h).mono
    (fun _ m' h => ?_) fun cause m' h => ?_
  · obtain ⟨hreach, hallowed, hresident, hwritable, hkeeps⟩ := h
    exact ⟨⟨hreach.kept, hledger ▸ hreach.told⟩, hidle.allows hallowed, hresident, hwritable, hkeeps⟩
  · have hnoted := Idle.note m' (.faultFailed id fault cause) rfl
    exact ⟨Reaches.idle ⟨h.1.kept, hledger ▸ h.1.told⟩ hnoted, hidle.denied h.2⟩

end DemandPaging.Machine
