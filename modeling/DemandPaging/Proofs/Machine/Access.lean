import DemandPaging.Proofs.Ledger.Files
import DemandPaging.Proofs.Ledger.Transfers
import DemandPaging.Proofs.Machine.Fault
import DemandPaging.Proofs.Machine.Standing

/-!
# User accesses keep the books

An access faults at most twice: once for the page to become resident and once for a write to reach a
copy of its own. So `accessWithin` never runs out of faults. A read gives what the frames hold that
its accesses end in, a write changes them, and a transfer that is refused stops between two spans.
-/

namespace DemandPaging

/-- The entry of a mapping that was used for an access. -/
structure Entry.Used (e : Entry) (write : Bool) : Prop where
  accessed : e.has .accessed = true
  writable : write = true → e.has .writable = true
  dirty : write = true → e.has .dirty = true

namespace Machine

variable {lax : Tolerance} {m m' : Machine} {id : SpaceId} {va : Address} {write : Bool}
  {hand pin : Option FrameNum}

/-! ## One access -/

theorem entryAt?_eq_lookup? {space : AddressSpace} {o : Owner}
    (hspace : m.spaces[o.space]? = some space) : m.entryAt? o = space.table.lookup? o.vpn := by
  rw [entryAt?_eq, hspace]
  rfl

/-- Setting a dirty bit touches the mapping. -/
theorem ledger_putDirty (hand pin : Option FrameNum) (m : Machine) (o : Owner) :
    (m.modifyTable o.space (·.put o.vpn .dirty true)).ledger hand pin =
      (m.ledger hand pin).touch o := by
  apply Ledger.ext
  case page => exact funext fun x => congrArg (Option.map _) (page?_modifyTable m o.space x _)
  case floor => exact funext fun id => floorAt?_modifyTable m o.space id _
  case grant =>
    funext x
    show Option.map _ (Machine.entryAt? _ x) = if x = o then _ else (m.entryAt? x).map Entry.grant
    rw [entryAt?_put m o x (by decide)]
    by_cases hx : x = o
    · subst hx
      rw [if_pos rfl, if_pos rfl]
      show _ = ((m.entryAt? x).map Entry.grant).map _
      cases m.entryAt? x with
      | none => rfl
      | some e => simp [Entry.grant]
    · rw [if_neg (Ne.symm hx), if_neg hx]
  all_goals rfl

theorem Kept.putDirty (hk : m.Kept lax) (o : Owner) :
    (m.modifyTable o.space (·.put o.vpn .dirty true)).Kept lax :=
  hk.respaced (fun id => floorAt?_modifyTable m o.space id (·.put o.vpn .dirty true))
    fun x _ hx _ hw =>
      hk.windows ((page?_modifyTable m o.space x (·.put o.vpn .dirty true)).symm.trans hx) hw

/-- Using a mapping sets its bits. -/
theorem entryAt?_markUsed {o : Owner} {e : Entry} (he : m.entryAt? o = some e)
    (hgrants : grants e write = true) :
    ∃ e', (m.modifyTable o.space fun table =>
        let table := table.put o.vpn .accessed true
        if write then table.put o.vpn .dirty true else table).entryAt? o = some e' ∧
      e'.frame = e.frame ∧ e'.Used write := by
  have haccessed := entryAt?_put m o o (show Flag.accessed ≠ .valid by decide) true
  rw [if_pos rfl, he] at haccessed
  cases write with
  | false => exact ⟨_, haccessed, Entry.frame_put .., by simp, nofun, nofun⟩
  | true =>
    have hdirty := entryAt?_put (m.modifyTable o.space (·.put o.vpn .accessed true)) o o
      (show Flag.dirty ≠ .valid by decide) true
    rw [if_pos rfl, haccessed, modifyTable_modifyTable] at hdirty
    have hw : e.has .writable = true := hgrants
    exact ⟨_, hdirty, by simp, by simp, fun _ => by simp [hw], fun _ => by simp⟩

/-- Where an access that is served after at most `faults` faults ends: in the frame of the page, which
holds what it held if it was resident before. -/
structure Served (lax : Tolerance) (m m' : Machine) (id : SpaceId) (va : Address) (write : Bool)
    (faults : Nat) (f : FrameNum) : Prop where
  reaches : Reaches lax (Ledger.Accesses id va write f) m m'
  allowed : m.Allows id va write
  used : ∃ e, m'.entryAt? ⟨id, va.page⟩ = some e ∧ e.frame = f ∧ e.Used write
  keeps : ∀ {g}, m.frameOf ⟨id, va.page⟩ = some g →
    (m'.ledger none none).bytes f = (m.ledger none none).bytes g
  counted : m'.counters.faults ≤ m.counters.faults + faults

/-- Where an access that is refused after at most `faults` faults ends. -/
structure Refused (lax : Tolerance) (m m' : Machine) (id : SpaceId) (va : Address) (write : Bool)
    (faults : Nat) (cause : Refusal) : Prop where
  reaches : Reaches lax (Ledger.Told (Layout.Grows id va)) m m'
  denied : m.Denied id va true write cause
  counted : m'.counters.faults ≤ m.counters.faults + faults

/-- Where an access that breaks off after at most `faults` faults ends. -/
structure Stopped (lax : Tolerance) (m m' : Machine) (id : SpaceId) (va : Address) (write : Bool)
    (faults : Nat) (v : Violation) : Prop where
  broken : Broken lax m id va write v
  counted : m'.counters.faults ≤ m.counters.faults + faults

theorem Stopped.allowed {faults : Nat} {v : Violation} (h : Stopped lax m m' id va write faults v) :
    lax v := h.broken.overrun.allowed

/-- A space that is not there refuses every access. -/
theorem Refused.absent {faults : Nat} {cause : Refusal} (hm : Sound lax m none none)
    (hnone : m.floorAt? id = none) : Refused lax m m id va write faults cause :=
  ⟨(Reaches.refl hm).stays id va, .absent hnone, Nat.le_add_right _ _⟩

/-- Just the pages in frames are mapped. -/
theorem Sound.entryAt?_isSome (hm : Sound lax m hand pin) (o : Owner) :
    (m.entryAt? o).isSome = (m.frameOf o).isSome := by
  rw [← hm.frame_entryAt? o, Option.isSome_map]

/-- **Using a mapping** that grants the access. -/
theorem meets_markUsed {e : Entry} {faults : Nat} {F : Violation → Machine → Prop}
    {R : Refusal → Machine → Prop}
    (hm : Sound lax m none none) (he : m.entryAt? ⟨id, va.page⟩ = some e)
    (hgrants : grants e write = true) :
    Action.Meets F (markUsed ⟨id, va.page⟩ write) m
      (fun _ m' => Served lax m m' id va write faults e.frame) R := by
  have hgrant : (m.ledger none none).grant ⟨id, va.page⟩ = some e.grant :=
    grant_ledger_of_entryAt? he
  have hw : write = true → e.grant.writable = true := fun hwrite => by
    rw [hwrite] at hgrants
    exact hgrants
  have hused : (m.ledger none none).Accesses id va write e.frame (if write
      then (m.ledger none none).touch ⟨id, va.page⟩ else m.ledger none none) :=
    .intro .stays (.refl _) hgrant rfl hw
  obtain ⟨q, hq, hqf⟩ := hm.books.page_of_grant hgrant
  obtain ⟨p, hp, rfl⟩ := Option.map_eq_some_iff.mp hq
  have hallowed : m.Allows id va write :=
    .page hp fun hwrite => ((hm.books.writes hq hgrant).mp (hw hwrite)).1
  have hframe : m.frameOf ⟨id, va.page⟩ = some e.frame := by
    rw [frameOf, hp]
    exact hqf
  have hkeeps : ∀ {g}, m.frameOf ⟨id, va.page⟩ = some g →
      (m.ledger none none).bytes e.frame = (m.ledger none none).bytes g := fun hg => by
    rw [Option.some.inj (hframe.symm.trans hg)]
  obtain ⟨e', he', hframe', hflags⟩ := entryAt?_markUsed he hgrants
  have hreach := Reaches.of_idle hm (scanned_putAccessed m ⟨id, va.page⟩ true).idle
  have hledger : _ = m.ledger none none := (scanned_putAccessed m ⟨id, va.page⟩ true).idle.ledger
  unfold markUsed
  rw [Action.meets_modify]
  refine ⟨?_, hallowed, ⟨e', he', hframe', hflags⟩, hkeeps, Nat.le_add_right _ _⟩
  cases write with
  | false => exact ⟨hreach.kept, hledger.symm ▸ hused⟩
  | true =>
    simp only [if_true]
    rw [← modifyTable_modifyTable m id (·.put va.page .accessed true) (·.put va.page .dirty true)]
    have hdirty := ledger_putDirty none none
      (m.modifyTable id (·.put va.page .accessed true)) ⟨id, va.page⟩
    rw [hledger] at hdirty
    refine ⟨hreach.kept.putDirty ⟨id, va.page⟩, ?_⟩
    rw [hdirty]
    exact hused

/-- An access goes on from where a fault was resolved. -/
theorem Reaches.grows {m'' : Machine} (hm : Sound lax m none none)
    (h : Reaches lax (Ledger.Told (Layout.Grows id va)) m m')
    (h' : Reaches lax (Ledger.Told (Layout.Grows id va)) m' m'') :
    Reaches lax (Ledger.Told (Layout.Grows id va)) m m'' := by
  obtain ⟨ks, hks, htrace⟩ := h.told
  obtain ⟨ks', hks', htrace'⟩ := h'.told
  rw [htrace.layout hm.books] at hks'
  exact ⟨h'.kept, ks ++ ks', hks.append hks', htrace.trans htrace'⟩

theorem Reaches.sound_told {P : Layout → List Ledger.Kind → Prop}
    (h : Reaches lax (Ledger.Told P) m m') (hm : Sound lax m none none) :
    Sound lax m' none none := by
  obtain ⟨ks, -, htrace⟩ := h.told
  exact ⟨htrace.sound hm.books, h.kept⟩

/-- An access goes on from where a fault was resolved, and is granted there. -/
theorem Reaches.accesses {m'' : Machine} {f : FrameNum} (hm : Sound lax m none none)
    (h : Reaches lax (Ledger.Told (Layout.Grows id va)) m m')
    (h' : Reaches lax (Ledger.Accesses id va write f) m' m'') :
    Reaches lax (Ledger.Accesses id va write f) m m'' := by
  obtain ⟨ks, hks, htrace⟩ := h.told
  refine ⟨h'.kept, ?_⟩
  have htold := h'.told
  generalize m''.ledger none none = L at htold ⊢
  cases htold with
  | intro hg htrace' he hf hw =>
    rw [htrace.layout hm.books] at hg
    exact .intro (hks.append hg) (htrace.trans htrace') he hf hw

/-- Faults make and remove no space. -/
theorem Reaches.floorAt?_eq_none (hm : Sound lax m none none)
    (h : Reaches lax (Ledger.Told (Layout.Grows id va)) m m') (hnone : m'.floorAt? id = none) :
    m.floorAt? id = none := by
  obtain ⟨ks, hks, htrace⟩ := h.told
  have hfloor : m'.floorAt? = _ := congrArg Layout.floor (htrace.layout hm.books)
  exact hks.floor_eq_none ((congrFun hfloor id).symm.trans hnone)

section

variable {fault : PageFault} {user : Bool} {cause : Refusal}

/-- The page may be written after a refused write to it was resolved, and before. -/
theorem Resolved.writable_page (h : Resolved lax m m' id fault) (hm : Sound lax m none none)
    (hwrite : fault.write = true) {p : Page} (hp : m'.page? ⟨id, fault.va.page⟩ = some p) :
    p.writable = true := by
  obtain ⟨ks, hks, htrace⟩ := h.reaches.told
  refine htrace.writable_of_growth (q := p.located m'.backing.files) hm.books (fun k hk => hks.mem hk)
    (fun q hq => ?_) (page_ledger_of_page? hp)
  obtain ⟨p₀, hp₀, rfl⟩ := Option.map_eq_some_iff.mp hq
  cases h.allowed with
  | page hp' hw =>
    rw [← Option.some.inj (hp'.symm.trans hp₀)]
    exact hw hwrite
  | gap hfree =>
    rw [hfree] at hp₀
    cases hp₀

/-- What breaks off after a fault was resolved would have done so before. -/
theorem Resolved.broken {v : Violation} (h : Resolved lax m m' id fault) (hm : Sound lax m none none)
    (hv : Broken lax m' id fault.va fault.write v) : Broken lax m id fault.va fault.write v :=
  ⟨h.reaches.overrun hm hv.overrun, h.allowed⟩

/-- What is refused after a fault was resolved would have been refused before. -/
theorem Resolved.denied (h : Resolved lax m m' id fault) (hm : Sound lax m none none)
    (h' : m'.Denied id fault.va user fault.write cause) :
    m.Denied id fault.va user fault.write cause := by
  cases h' with
  | barred hbars =>
    have hconfig : m'.config = m.config := by
      obtain ⟨ks, -, htrace⟩ := h.reaches.told
      have hlayout := congrArg Layout.config (htrace.layout hm.books)
      rwa [Layout.config_afterAll] at hlayout
    exact .barred (hconfig ▸ hbars)
  | absent hnone => exact .absent (h.reaches.floorAt?_eq_none hm hnone)
  | unmapped hfree =>
    have hresident := h.resident
    rw [frameOf, hfree] at hresident
    cases hresident
  | shielded hp hwrite hw =>
    rw [h.writable_page hm hwrite hp] at hw
    cases hw
  | unavailable _ hcause => exact .unavailable h.allowed hcause

/-- An access that faults goes on from where the fault was resolved. -/
theorem meets_faultThenAccess {k faults : Nat} (hm : Sound lax m none none) (hva : fault.va = va)
    (huser : fault.user = true) (hwrite : fault.write = write)
    (hrest : ∀ m', Resolved lax m m' id fault → Sound lax m' none none →
      Action.Meets (fun v m'' => Stopped lax m' m'' id va write faults v) (accessWithin id va write k) m'
        (fun f m'' => Served lax m' m'' id va write faults f)
        (fun cause m'' => Refused lax m' m'' id va write faults cause)) :
    Action.Meets (fun v m'' => Stopped lax m m'' id va write (faults + 1) v)
      (resolveFault id fault >>= fun _ => accessWithin id va write k) m
      (fun f m'' => Served lax m m'' id va write (faults + 1) f)
      (fun cause m'' => Refused lax m m'' id va write (faults + 1) cause) := by
  subst hva
  subst hwrite
  rw [Action.meets_bind]
  have hcounts : ∀ {m' : Machine}, m'.standing = { m.standing with faults := m.counters.faults + 1 } →
      m'.counters.faults ≤ m.counters.faults + 1 := fun h => Nat.le_of_eq (congrArg Standing.faults h)
  have hcounted : ∀ {m' m'' : Machine}, m'.counters.faults ≤ m.counters.faults + 1 →
      m''.counters.faults ≤ m'.counters.faults + faults →
      m''.counters.faults ≤ m.counters.faults + (faults + 1) := by omega
  refine (((meets_resolveFault hm).and (meets_resolveFault_standing id fault m)).relax fun _ _ h =>
    ⟨h.1, hcounted (hcounts h.2) (Nat.le_add_right _ _)⟩).mono (fun _ m' h => ?_) fun cause m' h => ?_
  · obtain ⟨h, hstanding⟩ := h
    have hgrows := h.reaches
    refine ((hrest m' h (hgrows.sound_told hm)).relax fun _ _ h' =>
      ⟨h.broken hm h'.broken, hcounted (hcounts hstanding) h'.counted⟩).mono
      (fun f m'' h' => ?_) fun cause m'' h' => ?_
    · refine ⟨hgrows.accesses hm h'.reaches, h.allowed, h'.used, fun {g} hg => ?_,
        hcounted (hcounts hstanding) h'.counted⟩
      obtain ⟨f', hf'⟩ := Option.isSome_iff_exists.mp h.resident
      exact (h'.keeps hf').trans (h.keeps hg hf')
    · exact ⟨hgrows.grows hm h'.reaches, h.denied hm h'.denied,
        hcounted (hcounts hstanding) h'.counted⟩
  · obtain ⟨⟨hreach, hdenied⟩, hstanding⟩ := h
    rw [huser] at hdenied
    exact ⟨hreach, hdenied, hcounted (hcounts hstanding) (Nat.le_add_right _ _)⟩

end

/-- An access that is granted needs no fault. -/
theorem meets_accessWithin_granted {e : Entry} {k faults : Nat} (hm : Sound lax m none none)
    (he : m.entryAt? ⟨id, va.page⟩ = some e) (hgrants : grants e write = true) :
    Action.Meets (fun v m' => Stopped lax m m' id va write faults v) (accessWithin id va write (k + 1)) m
      (fun f m' => Served lax m m' id va write faults f)
      (fun cause m' => Refused lax m m' id va write faults cause) := by
  unfold accessWithin
  rw [Action.meets_bind]
  refine (meets_space m id).mono ?_ ?_
  · rintro space m ⟨rfl, hspace⟩
    rw [← entryAt?_eq_lookup? (o := ⟨id, va.page⟩) hspace, he]
    dsimp only
    rw [if_pos hgrants, Action.meets_bind]
    exact meets_markUsed hm he hgrants
  · rintro cause _ ⟨rfl, hnone⟩
    exact .absent hm hnone

/-- An access to a mapped page faults at most once. -/
theorem meets_accessWithin_mapped {k : Nat} (hm : Sound lax m none none)
    (hmapped : (m.entryAt? ⟨id, va.page⟩).isSome) :
    Action.Meets (fun v m' => Stopped lax m m' id va write 1 v) (accessWithin id va write (k + 2)) m
      (fun f m' => Served lax m m' id va write 1 f)
      (fun cause m' => Refused lax m m' id va write 1 cause) := by
  obtain ⟨e, he⟩ := Option.isSome_iff_exists.mp hmapped
  by_cases hgrants : grants e write = true
  · exact meets_accessWithin_granted hm he hgrants
  · obtain rfl : write = true := by
      cases write with
      | false => exact absurd rfl hgrants
      | true => rfl
    unfold accessWithin
    rw [Action.meets_bind]
    refine (meets_space m id).mono ?_ ?_
    · rintro space m ⟨rfl, hspace⟩
      rw [← entryAt?_eq_lookup? (o := ⟨id, va.page⟩) hspace, he]
      dsimp only
      rw [if_neg hgrants]
      refine meets_faultThenAccess hm rfl rfl rfl fun m' h hm' => ?_
      obtain ⟨e', he', hw⟩ := h.writable rfl rfl ((hm.entryAt?_isSome _).symm.trans hmapped)
      exact meets_accessWithin_granted hm' he' hw
    · rintro cause _ ⟨rfl, hnone⟩
      exact .absent hm hnone

/-- An access faults at most twice. -/
theorem meets_accessWithin {k : Nat} (hm : Sound lax m none none) :
    Action.Meets (fun v m' => Stopped lax m m' id va write 2 v) (accessWithin id va write (k + 3)) m
      (fun f m' => Served lax m m' id va write 2 f)
      (fun cause m' => Refused lax m m' id va write 2 cause) := by
  cases hentry : m.entryAt? ⟨id, va.page⟩ with
  | some e =>
    refine ((meets_accessWithin_mapped hm (by rw [hentry]; rfl)).relax
      fun _ _ h => { h with counted := ?_ }).mono (fun _ _ h => { h with counted := ?_ })
      fun _ _ h => { h with counted := ?_ }
    all_goals exact Nat.le_succ_of_le h.counted
  | none =>
    unfold accessWithin
    rw [Action.meets_bind]
    refine (meets_space m id).mono ?_ ?_
    · rintro space m ⟨rfl, hspace⟩
      rw [← entryAt?_eq_lookup? (o := ⟨id, va.page⟩) hspace, hentry]
      refine meets_faultThenAccess hm rfl rfl rfl fun m' h hm' => ?_
      exact meets_accessWithin_mapped hm' ((hm'.entryAt?_isSome _).trans h.resident)
    · rintro cause _ ⟨rfl, hnone⟩
      exact .absent hm hnone

/-- **One access.** -/
theorem meets_access (hm : Sound lax m none none) :
    Action.Meets (fun v m' => Stopped lax m m' id va write 2 v) (access id va write) m
      (fun f m' => Served lax m m' id va write 2 f)
      (fun cause m' => Refused lax m m' id va write 2 cause) := by
  show Action.Meets _ (accessWithin id va write (1 + 3)) m _ _
  exact meets_accessWithin hm

/-- An access that is granted goes to the frame the page is mapped to, and marks the mapping. -/
theorem access_eq {e : Entry} (he : m.entryAt? ⟨id, va.page⟩ = some e)
    (hgrants : grants e write = true) :
    access id va write m = .ok e.frame (m.modifyTable id (·.used va.page write)) := by
  obtain ⟨space, hspace, hlookup⟩ := Option.bind_eq_some_iff.mp he
  show accessWithin id va write (3 + 1) m = _
  unfold accessWithin
  rw [Action.bind_of_ok (space_eq id hspace), hlookup]
  dsimp only
  rw [if_pos hgrants]
  rfl

/-- An access that is granted only marks the mapping. -/
theorem meets_access_of_grants {F : Violation → Machine → Prop} {R : Refusal → Machine → Prop}
    {e : Entry} (he : m.entryAt? ⟨id, va.page⟩ = some e) (hgrants : grants e write = true) :
    Action.Meets F (access id va write) m
      (fun f m' => f = e.frame ∧ ∃ change, m' = m.modifyTable id change) R :=
  .ok (access_eq he hgrants) ⟨rfl, _, rfl⟩

/-! ## Transfers -/

/-- A frame that is mapped can be read. -/
theorem Sound.exists_bytes?_of_grant {o : Owner} {e : Grant} (hm : Sound lax m none none)
    (he : (m.ledger none none).grant o = some e) : ∃ b, m.frames.bytes? e.frame = some b := by
  obtain ⟨p, hp, hf⟩ := hm.books.page_of_grant he
  obtain ⟨q, hq, rfl⟩ := Option.map_eq_some_iff.mp hp
  obtain ⟨c, hc, -⟩ := hm.exists_crew hq hf
  exact hm.exists_bytes? (hm.held hc)

theorem meets_readSpans {R : Refusal → Machine → Prop} :
    ∀ {spans : List Span} {done : Bytes} {m : Machine}, Sound lax m none none →
      Action.Meets (Breaking lax) (readSpans id spans done) m
        (fun r m' => ∃ bytes, r.bytes = done ++ bytes ∧
          Reaches lax (Ledger.ReadsUpTo id spans { r with bytes }) m m' ∧
          ∀ cause, r.stopped = some cause → cause.isInternal = true → m.floorAt? id = none) R
  | [], done, m, hm => ⟨#[], (Array.append_empty).symm, ⟨hm.kept, .all (.nil _)⟩, nofun⟩
  | span :: spans, done, m, hm => by
    unfold readSpans
    rw [Action.meets_bind, Action.meets_attempt]
    refine ((meets_access hm).relax fun _ _ h => h.allowed).mono (fun f m₁ h₁ => ?_)
      fun cause m₁ h₁ => ?_
    · have h₁ := h₁.reaches
      obtain ⟨ks, e, hks, htrace, he, rfl⟩ := h₁.told.read
      have hgrows : Reaches lax (Ledger.Told (Layout.Grows id span.va)) m m₁ :=
        ⟨h₁.kept, ks, hks, htrace⟩
      have hm₁ := hgrows.sound_told hm
      obtain ⟨b, hb⟩ := hm₁.exists_bytes?_of_grant he
      refine (Action.meets_bind_of_ok (frameBytes_eq hb)).mpr ?_
      refine (meets_readSpans hm₁).mono (fun r m₂ h₂ => ?_) fun _ _ h => h
      obtain ⟨bytes, hbytes, h₂, hinternal⟩ := h₂
      refine ⟨b.slice span.va.offset span.length ++ bytes, ?_, ⟨h₂.kept, ?_⟩, fun cause hc hi =>
        hgrows.floorAt?_eq_none hm (hinternal cause hc hi)⟩
      · rw [hbytes, Array.append_assoc]
      · have := Ledger.ReadsUpTo.cons htrace hks he h₂.told
        rwa [bytes_ledger hb] at this
    · obtain ⟨ks, hks, htrace⟩ := h₁.reaches.told
      have hpart : Ledger.ReadsUpTo id ([] ++ span :: spans) { bytes := #[], stopped := some cause }
          (m.ledger none none) (m₁.ledger none none) := .part (.nil _) hks htrace
      refine ⟨#[], (Array.append_empty).symm, ⟨h₁.reaches.kept, hpart⟩, fun cause' hc => ?_⟩
      rw [← Option.some.inj hc]
      exact h₁.denied.internal

/-- **Reading user memory** is not refused; it may stop. -/
theorem meets_read {length : Nat} {R : Refusal → Machine → Prop} (hm : Sound lax m none none) :
    Action.Meets (Breaking lax) (read id va length) m
      (fun r m' => Reaches lax (Ledger.ReadsUpTo id (spans va length) r) m m' ∧
        ∀ cause, r.stopped = some cause → cause.isInternal = true → m.floorAt? id = none) R := by
  refine (meets_readSpans hm).mono (fun r m' h => ?_) fun _ _ h => h
  obtain ⟨bytes, hbytes, h⟩ := h
  rw [Array.empty_append] at hbytes
  subst hbytes
  exact h

/-- **Writing into a frame** that is mapped for it. -/
theorem meets_writeFrame {α : Type} {f : FrameNum} {start : Nat} {bytes : Bytes}
    {k : MachineM α} {Q : α → Machine → Prop} {R : Refusal → Machine → Prop}
    (hm : Sound lax m none none) (h : Reaches lax (Ledger.Accesses id va true f) m m')
    (hfits : start + bytes.size ≤ pageSize)
    (hk : ∀ m'', (∃ ks, (m.ledger none none).layout.Grows id va ks ∧ Reaches lax
        (Ledger.Trace (ks ++ [.write ⟨id, va.page⟩ start bytes])) m m'') →
      Action.Meets (Breaking lax) k m'' Q R) :
    Action.Meets (Breaking lax) (do
      let frames ← Action.assert ((← get).frames.write f start bytes)
      modify fun m => { m with frames }
      k) m' Q R := by
  obtain ⟨ks, A, e, hg, htrace, he, rfl, hw, htouched⟩ := h.told.write
  have hA := htrace.sound hm.books
  have hm' : Sound lax m' none none := ⟨htouched ▸ hA.touch he hw, h.kept⟩
  have hmapped : (m'.ledger none none).grant ⟨id, va.page⟩ = some { e with dirty := true } := by
    rw [htouched]
    exact (if_pos rfl).trans (by rw [he]; rfl)
  obtain ⟨b, hb⟩ := hm'.exists_bytes?_of_grant hmapped
  have hwrite : m'.frames.write e.frame start bytes =
      .ok (m'.frames.setBytes e.frame (b.blit start bytes)) := by
    unfold FramePool.write
    rw [hb]
    exact if_pos hfits
  simp only [Action.meets_bind, Action.meets_get]
  rw [hwrite]
  refine hk _ ⟨ks, hg, h.kept.setBytes e.frame _, ?_⟩
  rw [ledger_setBytes (FramePool.bytes?_isSome.mp (by rw [hb]; rfl)), htouched]
  have hbytes : A.bytes e.frame = b := by
    have hb' : (m'.ledger none none).bytes e.frame = b := bytes_ledger hb
    rwa [htouched] at hb'
  rw [← hbytes]
  exact htrace.move (.write he hw)

theorem meets_writeSpans {bytes : Bytes} :
    ∀ {spans : List Span} {done : Nat} {m : Machine}, Sound lax m none none →
      (∀ span ∈ spans, span.Fits) →
      Action.Meets (Breaking lax) (writeSpans id bytes spans done) m
        (fun _ m' => Reaches lax (Ledger.Told (Layout.Writes id bytes done spans)) m m')
        (fun cause m' =>
          Reaches lax (Ledger.Told (Layout.Stops id (Layout.Writes id bytes done) spans)) m m' ∧
          (cause.isInternal = true → m.floorAt? id = none))
  | [], done, m, hm, _ => ⟨hm.kept, [], .nil done _, .refl _⟩
  | span :: spans, done, m, hm, hfits => by
    unfold writeSpans
    rw [Action.meets_bind]
    refine ((meets_access hm).relax fun _ _ h => h.allowed).mono (fun f m₁ h₁ => ?_)
      fun cause m₁ h₁ => ?_
    · have hsize : (bytes.extract done (done + span.length)).size ≤ span.length := by
        rw [Array.size_extract]
        omega
      have hspan : span.va.offset + span.length ≤ pageSize := hfits span List.mem_cons_self
      refine meets_writeFrame hm h₁.reaches
        (Nat.le_trans (Nat.add_le_add_left hsize _) hspan) fun m₂ h₂ => ?_
      obtain ⟨ks, hks, h₂⟩ := h₂
      have hm₂ : Sound lax m₂ none none := h₂.sound hm
      have hlayout : (m₂.ledger none none).layout = (m.ledger none none).layout.afterAll ks := by
        rw [h₂.told.layout hm.books, Layout.afterAll_append]
        rfl
      refine (meets_writeSpans hm₂ fun x hx => hfits x (List.mem_cons_of_mem span hx)).mono
        (fun _ m₃ h₃ => ?_) fun cause m₃ h₃ => ?_
      · obtain ⟨ks', hks', htrace'⟩ := h₃.told
        rw [hlayout] at hks'
        refine ⟨h₃.kept, _, .cons hks hks', ?_⟩
        have := h₂.told.trans htrace'
        rwa [List.append_assoc] at this
      · obtain ⟨⟨hkept, ks', hks', htrace'⟩, hinternal⟩ := h₃
        rw [hlayout] at hks'
        refine ⟨⟨hkept, _, hks'.write hks, ?_⟩, fun hc =>
          hks.floor_eq_none (congrFun (congrArg Layout.floor hlayout) id ▸ hinternal hc)⟩
        have := h₂.told.trans htrace'
        rwa [List.append_assoc] at this
    · obtain ⟨ks, hks, htrace⟩ := h₁.reaches.told
      have hstops : Layout.Stops id (Layout.Writes id bytes done) ([] ++ span :: spans)
          (m.ledger none none).layout ([] ++ ks) := .intro (.nil _ _) hks
      exact ⟨⟨h₁.reaches.kept, _, hstops, htrace⟩, h₁.denied.internal⟩

/-- **Writing user memory.** A write that is refused stops between two pages. -/
theorem meets_write {bytes : Bytes} (hm : Sound lax m none none) :
    Action.Meets (Breaking lax) (Machine.write id va bytes) m
      (fun _ m' => Reaches lax (Ledger.Told (Layout.Writes id bytes 0 (spans va bytes.size))) m m')
      (fun cause m' =>
        Reaches lax (Ledger.Told (Layout.Stops id (Layout.Writes id bytes 0)
          (spans va bytes.size))) m m' ∧
        (cause.isInternal = true → m.floorAt? id = none)) :=
  meets_writeSpans hm (fits_spansWithin _ _ _)

end Machine

end DemandPaging
