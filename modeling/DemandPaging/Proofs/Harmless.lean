import DemandPaging.Proofs.Copying
import DemandPaging.Proofs.Forking

/-!
# A claim or a fault that is refused does no harm

A page that is claimed, or on which a fault is resolved, may need a frame. It is refused for want of
one, and then nothing has happened but a scan; or a frame was acquired, perhaps by evicting another, and
the page could not be loaded into it. Then the frame is free again, and the pages that were evicted for
it are where any other need for a frame would have put them. `Machine.Turned` tells the ways apart; what
is left of the machine follows from the moves each of them comes to.

Headline: **`Reachable.harmless`**.
-/

namespace DemandPaging

/-! ## The ledger -/

namespace Ledger

variable {L L' : Ledger} {x : Owner} {p : Page} {f : FrameNum} {fixed : Nat → Prop}

/-- What a page keeps wherever it is, it keeps while a frame is acquired. -/
theorem Acquires.profile (h : Acquires L f L') (hL : L.Sound) (x : Owner) :
    (L'.page x).map Page.profile = (L.page x).map Page.profile := by
  cases hp : L.page x with
  | none => rw [(h.trace.page_eq_none hL x).mpr hp]
  | some p =>
    rcases h.page_of_page hL hp with hp' | ⟨slot, group, hp'⟩
    · rw [hp']
    · rw [hp', Option.map_some, Option.map_some, Page.profile_evictedTo]

theorem Forgoes.profile (h : Forgoes L f L') (hL : L.Sound) (x : Owner) :
    (L'.page x).map Page.profile = (L.page x).map Page.profile := by
  obtain ⟨b, hacq⟩ := h
  exact hacq.profile hL x

/-- A page that depends on no file that changes is found as it was while a frame is acquired. -/
theorem Acquires.contentOf (h : Acquires L f L') (hL : L.Sound) (hp : L.page x = some p)
    (hd : p.Detached fixed) (hfixed : ∀ i, fixed i → L'.file i = L.file i) :
    ∃ p', L'.page x = some p' ∧ p'.Detached fixed ∧ L'.contentOf p' = L.contentOf p := by
  cases h with
  | fresh hfree hhand => exact (Shift.take hfree hhand).contentOf hL hp hd fun _ _ => rfl
  | evicted h =>
    obtain ⟨q, hq, hqd, hqc⟩ := (Shift.evict h).contentOf hL hp hd hfixed
    obtain ⟨r, hr, hrd, hrc⟩ :=
      (Shift.scrub .zero h.hand).contentOf (h.sound hL) hq hqd fun _ _ => rfl
    exact ⟨r, hr, hrd, hrc.trans hqc⟩

theorem Forgoes.contentOf (h : Forgoes L f L') (hL : L.Sound) (hp : L.page x = some p)
    (hd : p.Detached fixed) (hfixed : ∀ i, fixed i → L'.file i = L.file i) :
    ∃ p', L'.page x = some p' ∧ L'.contentOf p' = L.contentOf p := by
  obtain ⟨b, hacq⟩ := h
  have hA := hacq.sound hL
  have hscrub := Shift.scrub b hacq.hand
  have hback := Shift.giveBack (show (Ledger.overwrite _ f b).hand = some f from hacq.hand)
  obtain ⟨q, hq, hqd, hqc⟩ := hacq.contentOf hL hp hd hfixed
  obtain ⟨r, hr, hrd, hrc⟩ := hscrub.contentOf hA hq hqd fun _ _ => rfl
  obtain ⟨s, hs, -, hsc⟩ := hback.contentOf (hA.overwrite b) hr hrd fun _ _ => rfl
  exact ⟨s, hs, hsc.trans (hrc.trans hqc)⟩

end Ledger

namespace Machine

variable {lax : Tolerance} {m m' : Machine} {o : Owner} {p : Page} {cause : Refusal}
  {counters : Counters} {splits : Prop} {fault : PageFault}

/-! ## How a request is refused -/

/-- How a request on the page of `o` is refused: `counters` is what is counted by then, and `splits`
whether the frame of the page would have been split. -/
inductive Turned (lax : Tolerance) (m m' : Machine) (o : Owner) (counters : Counters) (splits : Prop)
    (cause : Refusal) : Prop
  /-- It was not allowed. -/
  | denied (hroom : cause.isExhaustion = false) (hload : ¬cause.IsLoading)
      (hs : Scanned { m with counters } m') : Turned lax m m' o counters splits cause
  /-- There was no frame for the page. -/
  | exhausted (h : Exhausted m cause) (hs : Scanned { m with counters } m') :
      Turned lax m m' o counters splits cause
  /-- There was no frame for a copy of the page beside the frame it shares. -/
  | beside {src : FrameNum} (hsplits : splits) (hsrc : (m.resident.get? src).isSome)
      (h : ExhaustedBeside m src cause) (hs : Scanned { m with counters } m') :
      Turned lax m m' o counters splits cause
  /-- There was a frame, and the page could not be loaded into it. -/
  | forgone {f : FrameNum} (hload : cause.IsLoading)
      (hacquired : ∃ journal m₁, acquireFrame { m with counters, journal } = .ok f m₁)
      (hreach : Reaches lax (Ledger.Forgoes · f ·) m m') (hpage : m'.page? o = m.page? o) :
      Turned lax m m' o counters splits cause

namespace Turned

/-- What was counted and noted before the request may be told of it. -/
theorem aside {before : Counters} {journal : Array Event}
    (hquiet : Scanned { m with counters } { m with counters, journal })
    (h : Turned lax { m with counters := before, journal } m' o counters splits cause) :
    Turned lax m m' o counters splits cause := by
  have hledger : ({ m with counters := before, journal } : Machine).ledger none none =
      m.ledger none none := hquiet.idle.ledger
  cases h with
  | denied hroom hload hs => exact .denied hroom hload (hquiet.trans hs)
  | exhausted h hs =>
    refine .exhausted ?_ (hquiet.trans hs)
    cases h with
    | frames hfree hpinned => exact .frames hfree hpinned
    | swap hfree hvictim hfull => exact .swap hfree hvictim hfull
  | beside hsplits hsrc h hs =>
    refine .beside hsplits hsrc ?_ (hquiet.trans hs)
    cases h with
    | frames hfree honly => exact .frames hfree honly
    | swap hfree hfull => exact .swap hfree hfull
  | forgone hload hacquired hreach hpage =>
    exact .forgone hload hacquired ⟨hreach.kept, hledger ▸ hreach.told⟩ hpage

/-- An event may be noted afterwards. -/
theorem note (h : Turned lax m m' o counters splits cause) {event : Event}
    (hevent : event.isPlacing = false) :
    Turned lax m { m' with journal := m'.journal.push event } o counters splits cause := by
  have hnote := Scanned.note m' event hevent
  cases h with
  | denied hroom hload hs => exact .denied hroom hload (hs.trans hnote)
  | exhausted h hs => exact .exhausted h (hs.trans hnote)
  | beside hsplits hsrc h hs => exact .beside hsplits hsrc h (hs.trans hnote)
  | forgone hload hacquired hreach hpage =>
    exact .forgone hload hacquired (hreach.idle hnote.idle) hpage

end Turned

/-- **A claim of a registered page** is refused for want of a frame, or because it cannot be loaded. -/
theorem meets_claim_turned (hm : Sound lax m none none) (hp : m.page? o = some p) :
    Action.Meets (fun _ _ => True) (claim o) m (fun _ _ => True)
      (fun cause m' => Turned lax m m' o m.counters splits cause) := by
  refine ((meets_claim_of_page hm hp).relax fun _ _ _ => trivial).mono (fun _ _ _ => trivial)
    fun cause m' h => ?_
  rcases h.2 with ⟨hexhausted, hs⟩ | ⟨hload, -, f, hacquired, hreach, -, hpage⟩
  · exact .exhausted hexhausted hs
  · exact .forgone hload ⟨m.journal, hacquired⟩ hreach hpage

/-- The fault is a refused write to a page that shares its frame. -/
def Splits (m : Machine) (o : Owner) (fault : PageFault) : Prop :=
  fault.write = true ∧ fault.notPresent = false ∧
    ∃ f, m.frameOf o = some f ∧ 1 < m.resident.shareCount f

/-- **A fault on a registered page** is refused if the page may not be written, or for want of a frame,
or because the page cannot be loaded. -/
theorem meets_faultOnPage_turned (hm : Sound lax m none none) (hp : m.page? o = some p) :
    Action.Meets (fun _ _ => True) (faultOnPage o p fault) m (fun _ _ => True)
      (fun cause m' => Turned lax m m' o m.counters (m.Splits o fault) cause) := by
  unfold faultOnPage
  rw [Action.meets_ite]
  refine ⟨fun _ => .denied rfl nofun (.refl m), fun hmay => ?_⟩
  rw [Action.meets_ite]
  refine ⟨fun _ => ?_, fun hframe => ?_⟩
  · have hidle := Idle.note m (.faultClaims o) rfl
    unfold Machine.note
    simp only [Action.meets_bind, Action.meets_modify]
    exact (meets_claim_turned (hidle.sound hm) ((hidle.page o).trans hp)).mono
      (fun _ _ _ => trivial) fun _ _ h => h.aside (.note _ _ rfl)
  · rw [Bool.not_eq_true, Option.isNone_eq_false_iff] at hframe
    obtain ⟨src, hsrc⟩ := Option.isSome_iff_exists.mp hframe
    rw [Action.meets_ite]
    refine ⟨fun hbreaks => ?_, fun _ => trivial⟩
    obtain ⟨hwrite, hpresent⟩ := Bool.and_eq_true_iff.mp hbreaks
    have hw : p.writable = true := by simpa [hwrite] using hmay
    obtain ⟨c, hc, -⟩ := hm.exists_crew hp hsrc
    refine ((meets_breakSharing hm hp hsrc hw).relax fun _ _ _ => trivial).mono
      (fun _ _ _ => trivial) fun cause m' h => ?_
    obtain ⟨hexhausted, hshared, hs⟩ := h
    refine .beside ⟨hwrite, by simpa using hpresent, src, ?_, hshared⟩ (by rw [hc]; rfl) hexhausted hs
    rw [frameOf, hp]
    exact hsrc

/-- **A fault at a registered page**, which is counted first. -/
theorem meets_resolveFault_turned (hm : Sound lax m none none) (hp : m.page? o = some p)
    (hva : fault.va.page = o.vpn) :
    Action.Meets (fun _ _ => True) (resolveFault o.space fault) m (fun _ _ => True)
      (fun cause m' => Turned lax m m' o { m.counters with faults := m.counters.faults + 1 }
        (m.Splits o fault) cause) := by
  have hidle := Idle.count m { m.counters with faults := m.counters.faults + 1 }
    (Nat.le_refl m.nextMapping)
  obtain ⟨space, hspace, hget⟩ := floorAt?_of_page? hp
  have hfind : space.registry.find? fault.va = some p := by
    unfold Registry.find?
    rw [hva]
    exact hget
  unfold resolveFault count
  simp only [Action.meets_bind, Action.meets_modify, Action.meets_attempt]
  have hdispatch : Action.Meets (fun _ _ => True) (dispatchFault o.space fault)
      { m with counters := { m.counters with faults := m.counters.faults + 1 } } (fun _ _ => True)
      (fun cause m' => Turned lax m m' o { m.counters with faults := m.counters.faults + 1 }
        (m.Splits o fault) cause) := by
    unfold dispatchFault
    simp only [Action.meets_bind, Action.meets_get]
    rw [Action.meets_ite]
    refine ⟨fun _ => .denied rfl (fun h => by cases h) (.refl _), fun _ => ?_⟩
    rw [Action.meets_bind_of_ok (space_eq (m := { m with
      counters := { m.counters with faults := m.counters.faults + 1 } }) o.space hspace), hfind, hva]
    exact (meets_faultOnPage_turned (hidle.sound hm) hp).mono (fun _ _ h => h) fun _ _ h => h.aside (.refl _)
  refine hdispatch.mono (fun _ _ _ => trivial) fun cause m' h => ?_
  exact h.note rfl

/-! ## What is left -/

/-- **The machine `m` refused a request on the page of `o` and is `m'` now.** What was counted by then is
`counters`, and `splits` tells whether the frame of the page would have been split. -/
structure Spared (m m' : Machine) (o : Owner) (counters : Counters) (splits : Prop) (cause : Refusal) :
    Prop where
  /-- The page is what it was, and where it was. -/
  page : m'.page? o = m.page? o
  /-- The same spaces are there, and their stacks reach as far. -/
  floors : ∀ id, m'.floorAt? id = m.floorAt? id
  /-- The same pages are registered. -/
  profiles : ∀ x, (m'.page? x).map Page.profile = (m.page? x).map Page.profile
  /-- Anonymous pages show the same bytes. -/
  images : ∀ {x p a}, m.page? x = some p → p.content = .anon a → m'.imageOf x = m.imageOf x
  /-- So will the pages that are still to become anonymous memory, if the file they are loaded from is
  the same. -/
  pending : ∀ {x p g}, m.page? x = some p → p.content = .uninit .anon g →
    (∀ w, g = .file w → m'.backing.files.file (w.located m.backing.files).handle =
      m.backing.files.file (w.located m.backing.files).handle) → m'.imageOf x = m.imageOf x
  /-- Files changed only where a dirty page was written back. -/
  files : ∀ i, (m.backing.files.file i).Rewritten
    (fun w => w.handle = i ∧ ∃ x, m.hasFlag x .dirty = true ∧ m.homeOf x = some w)
    (m'.backing.files.file i)
  /-- The audit passes. -/
  audited : m'.audit = .ok ()
  /-- Swap is exhausted when no frame is free and every slot is occupied; then nothing but accessed bits,
  the direction of the scan and what is counted has changed. -/
  outOfSwap : cause = .outOfSwap →
    m.frames.free = 0 ∧ m.backing.swap.Full ∧ Scanned { m with counters } m'
  /-- Frames are exhausted when there is none at all, or just the one that would have been split. -/
  outOfFrames : cause = .outOfFrames → m.frames.total = 0 ∨ m.frames.total = 1 ∧ splits
  /-- When the page could not be loaded, the frame that was acquired for it is free again. -/
  loading : cause.IsLoading → ∃ journal f m₁, acquireFrame { m with counters, journal } = .ok f m₁ ∧
    m'.resident.get? f = none ∧ ∀ x, m'.frames.Held x ↔ m.frames.Held x ∧ x ≠ f

theorem profile_ledger (x : Owner) :
    ((m.ledger none none).page x).map Page.profile = (m.page? x).map Page.profile := by
  rw [page_ledger, Option.map_map]
  exact congrArg (Option.map · _) (funext fun p => p.profile_located _)

/-- Files change where dirty pages are written back while contents are moved. -/
theorem Reaches.rewritten (h : Reaches lax Ledger.Shifts m m') (hm : Sound lax m none none) (i : Nat) :
    (m.backing.files.file i).Rewritten
      (fun w => w.handle = i ∧ ∃ x, m.hasFlag x .dirty = true ∧ m.homeOf x = some w)
      (m'.backing.files.file i) := by
  have hsoils : (m.ledger none none).Soils (fun _ => False)
      fun x w => m.hasFlag x .dirty = true ∧ m.homeOf x = some w := fun x p w hp hw _ hx =>
    ⟨isDirty_ledger.symm.trans (hx.resolve_right id), homeOf_of_ledger hp hw⟩
  exact (h.told.rewritten hm.books hsoils nofun).2 i

/-- A page that is or will be anonymous memory shows what it showed while a frame is acquired and given
back, if the file it is still to be loaded from is the same. -/
theorem Reaches.imageOf {f : FrameNum} (h : Reaches lax (Ledger.Forgoes · f ·) m m')
    (hm : Sound lax m none none) (hp : m.page? o = some p) (htype : p.type = .anon)
    (hfile : ∀ w, p.window? = some w → m'.backing.files.file (w.located m.backing.files).handle =
      m.backing.files.file (w.located m.backing.files).handle) : m'.imageOf o = m.imageOf o := by
  have hdetached : (p.located m.backing.files).Detached
      fun i => m'.backing.files.file i = m.backing.files.file i := fun w hw => by
    rw [Page.window?_located, Option.map_eq_some_iff] at hw
    obtain ⟨w, hw, rfl⟩ := hw
    exact ⟨(p.type_located _).trans htype, hfile w hw⟩
  have hp : (m.ledger none none).page o = some (p.located m.backing.files) := page_ledger_of_page? hp
  obtain ⟨q, hq, hcontent⟩ := h.told.contentOf hm.books hp hdetached fun _ h => h
  rw [Machine.imageOf, Machine.imageOf, hp, hq, Option.map_some, Option.map_some, hcontent]

/-- With no frame resident there is none at all, if none is free. -/
theorem Sound.total_eq_zero (hm : Sound lax m none none) (hfree : m.frames.free = 0)
    (hnone : ∀ f, m.resident.get? f = none) : m.frames.total = 0 := by
  have hsize := hm.size_add_free
  have hkeys : m.resident.frames.keys = [] := List.eq_nil_iff_forall_not_mem.mpr fun f hf => by
    rw [Std.ExtTreeMap.mem_keys, Std.ExtTreeMap.mem_iff_isSome_getElem?] at hf
    rw [show m.resident.frames[f]? = none from hnone f] at hf
    cases hf
  have hlength : m.resident.size = m.resident.frames.keys.length := Std.ExtTreeMap.length_keys.symm
  rw [hkeys] at hlength
  rw [← hsize, hlength, hfree]
  rfl

/-- With one frame resident there is just that one, if none is free. -/
theorem Sound.total_eq_one (hm : Sound lax m none none) (hfree : m.frames.free = 0) {src : FrameNum}
    (hsrc : (m.resident.get? src).isSome) (honly : ∀ f, (m.resident.get? f).isSome → f = src) :
    m.frames.total = 1 := by
  have hsize := hm.size_add_free
  have hmem : ∀ f, f ∈ m.resident.frames.keys ↔ (m.resident.get? f).isSome := fun f => by
    rw [Std.ExtTreeMap.mem_keys, Std.ExtTreeMap.mem_iff_isSome_getElem?]
    rfl
  have hkeys : m.resident.frames.keys.length = 1 := by
    have hnodup : m.resident.frames.keys.Nodup := Std.ExtTreeMap.nodup_keys
    rw [List.eq_replicate_of_mem fun f hf => honly f ((hmem f).mp hf), List.nodup_replicate] at hnodup
    have hpositive := List.length_pos_of_mem ((hmem src).mpr hsrc)
    omega
  have hlength : m.resident.size = m.resident.frames.keys.length := Std.ExtTreeMap.length_keys.symm
  omega

namespace Turned

/-- **Where nothing but a scan happened**, nothing is harmed. -/
theorem spared_of_scanned (hm : Sound lax m none none) (hs : Scanned { m with counters } m')
    (hframes : cause = .outOfFrames → m.frames.total = 0 ∨ m.frames.total = 1 ∧ splits)
    (hswap : cause = .outOfSwap → m.frames.free = 0 ∧ m.backing.swap.Full)
    (hload : ¬cause.IsLoading) : Spared m m' o counters splits cause := by
  have hidle : Idle m m' := (Idle.count m counters (Nat.le_refl m.nextMapping)).trans hs.idle
  have hm' := hidle.sound hm
  have himage : ∀ x, m'.imageOf x = m.imageOf x := fun x => by
    rw [imageOf, imageOf, hidle.ledger]
  refine ⟨hidle.page o, hidle.floor, fun x => by rw [hidle.page], fun _ _ => himage _,
    fun _ _ _ => himage _, fun i => ?_, (audit_eq_ok hm'.numbered).mpr hm'.audit_agrees,
    fun hc => ⟨(hswap hc).1, (hswap hc).2, hs⟩, hframes, fun hc => absurd hc hload⟩
  rw [hidle.backing]
  exact .refl

/-- **Where a frame was acquired and given back**, the page is what it was and other pages may have been
evicted. -/
theorem spared_of_forgone (hm : Sound lax m none none) {f : FrameNum} (hload : cause.IsLoading)
    (hacquired : ∃ journal m₁, acquireFrame { m with counters, journal } = .ok f m₁)
    (hreach : Reaches lax (Ledger.Forgoes · f ·) m m') (hpage : m'.page? o = m.page? o) :
    Spared m m' o counters splits cause := by
  have hshifts : Reaches lax Ledger.Shifts m m' := hreach.mono fun _ _ h => h.trace
  have hm' := hshifts.sound hm
  refine ⟨hpage, congrFun (hshifts.floorAt? hm), fun x => ?_, fun {x p a} hp hc => ?_,
    fun {x p g} hp hc hfile => ?_, hshifts.rewritten hm,
    (audit_eq_ok hm'.numbered).mpr hm'.audit_agrees, ?_, ?_, fun _ => ?_⟩
  · have := hreach.told.profile hm.books x
    rwa [profile_ledger, profile_ledger] at this
  · refine hreach.imageOf hm hp (by rw [Page.type, hc]; rfl) fun w hw => ?_
    rw [Page.window?, hc] at hw
    cases hw
  · refine hreach.imageOf hm hp (by rw [Page.type, hc]; rfl) fun w hw => hfile w ?_
    rw [Page.window?, hc] at hw
    cases g <;> cases hw
    rfl
  · rintro rfl
    cases hload
  · rintro rfl
    cases hload
  · obtain ⟨journal, m₁, hacquired⟩ := hacquired
    exact ⟨journal, f, m₁, hacquired, hreach.told.crew hm.books, hreach.told.held⟩

/-- **A request that is refused does no harm**, whatever it is refused for. -/
theorem spared (h : Turned lax m m' o counters splits cause) (hm : Sound lax m none none) :
    Spared m m' o counters splits cause := by
  cases h with
  | denied hroom hload hs =>
    refine spared_of_scanned hm hs ?_ ?_ hload
    · rintro rfl
      cases hroom
    · rintro rfl
      cases hroom
  | exhausted h hs =>
    cases h with
    | frames hfree hpinned =>
      refine spared_of_scanned hm hs (fun _ => Or.inl (hm.total_eq_zero hfree fun f => ?_)) nofun nofun
      refine Option.eq_none_iff_forall_ne_some.mpr fun c hc => ?_
      cases (hm.books.pinned hc).mp (hpinned f c hc)
    | swap hfree hvictim hfull => exact spared_of_scanned hm hs nofun (fun _ => ⟨hfree, hfull⟩) nofun
  | beside hsplits hsrc h hs =>
    cases h with
    | frames hfree honly =>
      exact spared_of_scanned hm hs (fun _ => Or.inr ⟨hm.total_eq_one hfree hsrc honly, hsplits⟩) nofun
        nofun
    | swap hfree hfull => exact spared_of_scanned hm hs nofun (fun _ => ⟨hfree, hfull⟩) nofun
  | forgone hload hacquired hreach hpage => exact spared_of_forgone hm hload hacquired hreach hpage

end Turned

end Machine

open Machine

variable {m m' : Machine} {o : Owner} {p : Page}

/-- **A claim or a fault that is refused does no harm**, in any machine of a run and on any registered
page, and what it tells to be exhausted is. -/
theorem Reachable.harmless (h : Reachable .all m) (hp : m.page? o = some p) :
    (∀ {cause m'}, claim o m = .error (.refused cause) m' → Spared m m' o m.counters False cause) ∧
    ∀ {fault : PageFault} {cause m'}, fault.va.page = o.vpn →
      resolveFault o.space fault m = .error (.refused cause) m' →
      Spared m m' o { m.counters with faults := m.counters.faults + 1 } (m.Splits o fault) cause :=
  ⟨fun hclaim => ((meets_claim_turned h.sound hp).of_refused hclaim).spared h.sound,
    fun hva hfault => ((meets_resolveFault_turned h.sound hp hva).of_refused hfault).spared h.sound⟩

/-- Requests that write a page in the only frame, and register one that an initializer fails to fill. -/
def Operation.faltering : List Operation :=
  [.create, .register 0 .anon ⟨0x1000⟩ true .zero, .write 0 ⟨0x1000⟩ #[7],
    .register 0 .anon ⟨0x2000⟩ true (.custom { content := #[1], refusals := 1 })]

/-- The page in the only frame is evicted for one that cannot be loaded. -/
theorem Reachable.harmless_faltering : ∃ m m₁ m₂ c₁ c₂, Reachable .all m ∧
    claim ⟨0, 2⟩ m = .error (.refused c₁) m₁ ∧ c₁ ≠ .outOfSwap ∧
    resolveFault 0 (.missing ⟨0x2000⟩ true) m = .error (.refused c₂) m₂ ∧ c₂ ≠ .outOfSwap ∧
    Spared m m₁ ⟨0, 2⟩ m.counters False c₁ ∧
    Spared m m₂ ⟨0, 2⟩ { m.counters with faults := m.counters.faults + 1 }
      (m.Splits ⟨0, 2⟩ (.missing ⟨0x2000⟩ true)) c₂ := by
  have h : ((Machine.start { userFrames := 1 } (.blank 16)).carry Operation.faltering).any
      (fun r => (r.2.page? ⟨0, 2⟩).isSome &&
        (((claim ⟨0, 2⟩).refusal? r.2).any fun r' => decide (r'.1 ≠ .outOfSwap)) &&
        ((resolveFault 0 (.missing ⟨0x2000⟩ true)).refusal? r.2).any fun r' =>
          decide (r'.1 ≠ .outOfSwap)) = true := by decide +kernel
  obtain ⟨r, -, hm, hrest⟩ := Reachable.exists_of_carry (by decide) h
  simp only [Bool.and_eq_true] at hrest
  obtain ⟨⟨hpage, hclaim⟩, hfault⟩ := hrest
  obtain ⟨p, hp⟩ := Option.isSome_iff_exists.mp hpage
  obtain ⟨c₁, m₁, hclaimed, hc₁⟩ := Action.exists_refused_of_any hclaim
  obtain ⟨c₂, m₂, hfaulted, hc₂⟩ := Action.exists_refused_of_any hfault
  exact ⟨r.2, m₁, m₂, c₁, c₂, hm, hclaimed, of_decide_eq_true hc₁, hfaulted, of_decide_eq_true hc₂,
    (hm.harmless hp).1 hclaimed, (hm.harmless hp).2 (by decide) hfaulted⟩

end DemandPaging
