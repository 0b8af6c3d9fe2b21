import DemandPaging.Machine.Audit
import DemandPaging.Proofs.Run

/-!
# The audit finds nothing

`Audited` spells out what the audit compares, page by page, mapping by mapping and frame by frame;
`audit_eq_ok` says that the audit passes exactly the machines it holds of. The books of a machine in
order contain all of it, and the frames in the table are those handed out, so that no frame is lost.

Headline: **`Reachable.audited`**: the audit passes every machine on a run.
-/

namespace DemandPaging

open Machine (Sound)

/-- A check of every item passes if it passes each. -/
theorem Except.forM_eq_ok {α ε : Type} {l : List α} {check : α → Except ε Unit} :
    l.forM check = .ok () ↔ ∀ a ∈ l, check a = .ok () := by
  induction l with
  | nil => exact iff_of_true rfl nofun
  | cons a l ih =>
    change Except.bind (check a) (fun _ => l.forM check) = _ ↔ _
    rw [List.forall_mem_cons, ← ih]
    cases check a with
    | error e => exact iff_of_false nofun fun h => nomatch h.1
    | ok u => exact (and_iff_right rfl).symm

/-- Two checks pass if both do. -/
theorem Except.seq_eq_ok {ε : Type} {x y : Except ε Unit} :
    (do x; y) = .ok () ↔ x = .ok () ∧ y = .ok () := by
  cases x with
  | error e => exact iff_of_false nofun fun h => nomatch h.1
  | ok u => exact (and_iff_right rfl).symm

namespace Registry

variable {registry : Registry} {page : Page}

theorem mem_toList : page ∈ registry.toList ↔ ∃ v, registry.get? v = some page := by
  unfold toList
  simp only [List.mem_map, Prod.exists, Std.ExtTreeMap.mem_toList_iff_getElem?_eq_some,
    exists_eq_right]
  exact Iff.rfl

end Registry

namespace FrameTable

variable {table : FrameTable} {f : FrameNum} {c : Frame}

theorem mem_toList : (f, c) ∈ table.toList ↔ table.get? f = some c :=
  Std.ExtTreeMap.mem_toList_iff_getElem?_eq_some

theorem mem_owners {o : Owner} : o ∈ table.owners f ↔ ∃ c, table.get? f = some c ∧ o ∈ c.owners := by
  unfold owners
  cases table.get? f <;> simp

end FrameTable

namespace Machine

variable {m : Machine} {o : Owner} {p : Page} {f : FrameNum} {c : Frame} {e : Entry}

/-! ## What the audit compares -/

/-- Pages, page tables and the frame table agree, and no frame is lost. -/
structure Audited (m : Machine) : Prop where
  /-- A resident page is mapped to exactly its frame. -/
  mapped : ∀ {o p f}, m.page? o = some p → p.frame = some f →
    (m.entryAt? o).map Entry.frame = some f
  /-- A resident page is listed among the owners of its frame. -/
  listed : ∀ {o p f}, m.page? o = some p → p.frame = some f → o ∈ m.resident.owners f
  /-- A page that is not resident is not mapped. -/
  unmapped : ∀ {o p}, m.page? o = some p → p.frame = none → m.entryAt? o = none
  /-- A mapping belongs to a resident page. -/
  resident : ∀ {o e}, m.entryAt? o = some e → ∃ p f, m.page? o = some p ∧ p.frame = some f
  /-- A listed owner is a registered page of a space there is, in the frame it is listed for. -/
  housed : ∀ {f c o}, m.resident.get? f = some c → o ∈ c.owners →
    ∃ p, m.page? o = some p ∧ p.frame = some f
  unpinned : ∀ {f c}, m.resident.get? f = some c → c.pinned = false
  /-- A shared frame is mapped writable by nobody. -/
  guarded : ∀ {f c o}, m.resident.get? f = some c → o ∈ c.owners → 1 < c.owners.length →
    m.hasFlag o .writable = false
  counted : m.resident.size + m.frames.free = m.frames.total

/-- Pages are registered under their own numbers. -/
def Numbered (m : Machine) : Prop := ∀ {o p}, m.page? o = some p → p.vpn = o.vpn

/-! ## Reading the audit -/

theorem auditPage_eq_ok {id : SpaceId} {space : AddressSpace} (hspace : m.spaces[id]? = some space) :
    m.auditPage id space p = .ok () ↔
      (∀ f, p.frame = some f → (m.entryAt? ⟨id, p.vpn⟩).map Entry.frame = some f ∧
        ⟨id, p.vpn⟩ ∈ m.resident.owners f) ∧
      (p.frame = none → m.entryAt? ⟨id, p.vpn⟩ = none) := by
  have hentry : m.entryAt? ⟨id, p.vpn⟩ = space.table.lookup? p.vpn := by
    rw [entryAt?_eq, hspace]
    rfl
  rw [hentry]
  unfold auditPage
  cases hf : p.frame with
  | none => cases space.table.lookup? p.vpn <;> simp [disagree]
  | some f =>
    by_cases hmapped : (space.table.lookup? p.vpn).map Entry.frame = some f
    · by_cases hlisted : (⟨id, p.vpn⟩ : Owner) ∈ m.resident.owners f
      · simp [hmapped, hlisted]
      · simp [hmapped, hlisted, disagree]
    · refine iff_of_false (fun h => ?_) fun h => hmapped (h.1 f rfl).1
      simp [hmapped, disagree] at h

theorem auditMapping_eq_ok {id : SpaceId} {space : AddressSpace}
    (hspace : m.spaces[id]? = some space) (v : PageNum) :
    auditMapping space v = .ok () ↔ ∃ p f, m.page? ⟨id, v⟩ = some p ∧ p.frame = some f := by
  have hpage : m.page? ⟨id, v⟩ = space.registry.get? v := by
    rw [page?_eq, hspace]
    rfl
  rw [hpage]
  unfold auditMapping
  cases space.registry.get? v with
  | none => simp [disagree]
  | some p => cases hf : p.frame <;> simp [disagree, hf]

theorem auditOwner_eq_ok {shared : Bool} :
    m.auditOwner f shared o = .ok () ↔
      (∃ p, m.page? o = some p ∧ p.frame = some f) ∧
        (shared = true → m.hasFlag o .writable = false) := by
  unfold auditOwner hasFlag
  rw [page?_eq, entryAt?_eq]
  cases m.spaces[o.space]? with
  | none => simp [disagree]
  | some space =>
    simp only [Option.bind_some]
    by_cases hframe : (space.registry.get? o.vpn).bind Page.frame = some f
    · have hpage := Option.bind_eq_some_iff.mp hframe
      cases shared with
      | false => simp [hframe, hpage]
      | true => cases hw : space.table.has o.vpn .writable <;> simp_all [disagree, PageTable.has]
    · have hpage : ¬∃ p, space.registry.get? o.vpn = some p ∧ p.frame = some f :=
        fun h => hframe (Option.bind_eq_some_iff.mpr h)
      simp [hframe, hpage, disagree]

theorem auditFrame_eq_ok :
    m.auditFrame f c = .ok () ↔ c.pinned = false ∧ ∀ o ∈ c.owners,
      (∃ p, m.page? o = some p ∧ p.frame = some f) ∧
        (1 < c.owners.length → m.hasFlag o .writable = false) := by
  unfold auditFrame
  cases c.pinned with
  | true => simp [disagree]
  | false =>
    simp only [Bool.false_eq_true, if_false, true_and, Except.forM_eq_ok, auditOwner_eq_ok,
      decide_eq_true_eq]

/-- **The audit passes exactly what it should.** -/
theorem audit_eq_ok (hm : m.Numbered) : m.audit = .ok () ↔ m.Audited := by
  have hread : m.audit = .ok () ↔
      (∀ id space, m.spaces[id]? = some space →
        (∀ v p, space.registry.get? v = some p → m.auditPage id space p = .ok ()) ∧
        ∀ v e, space.table.lookup? v = some e → auditMapping space v = .ok ()) ∧
      (∀ f c, m.resident.get? f = some c → m.auditFrame f c = .ok ()) ∧
      m.resident.size + m.frames.free = m.frames.total := by
    have hcount : (if m.resident.size + m.frames.free ≠ m.frames.total then
        disagree "frame pool leaked a frame" else .ok ()) = .ok () ↔
        m.resident.size + m.frames.free = m.frames.total := by
      by_cases h : m.resident.size + m.frames.free = m.frames.total <;> simp [h, disagree]
    refine Except.seq_eq_ok.trans (and_congr ?_ (Except.seq_eq_ok.trans (and_congr ?_ hcount)))
    · rw [Except.forM_eq_ok]
      simp only [Prod.forall, Std.ExtTreeMap.mem_toList_iff_getElem?_eq_some]
      refine forall_congr' fun id => forall_congr' fun space => imp_congr_right fun _ => ?_
      refine Except.seq_eq_ok.trans (and_congr ?_ ?_)
      · rw [Except.forM_eq_ok]
        simp only [Registry.mem_toList, forall_exists_index]
        exact forall_comm
      · rw [Except.forM_eq_ok]
        simp only [Prod.forall, PageTable.mem_toList]
    · rw [Except.forM_eq_ok]
      simp only [Prod.forall, FrameTable.mem_toList]
  rw [hread]
  constructor
  · rintro ⟨hspaces, hframes, hcounted⟩
    have hpages : ∀ {o p}, m.page? o = some p →
        (∀ f, p.frame = some f → (m.entryAt? o).map Entry.frame = some f ∧
          o ∈ m.resident.owners f) ∧ (p.frame = none → m.entryAt? o = none) := by
      intro o p hp
      obtain ⟨space, hspace, hget⟩ := floorAt?_of_page? hp
      have := (auditPage_eq_ok hspace).mp ((hspaces _ _ hspace).1 _ _ hget)
      rwa [hm hp] at this
    exact {
      mapped := fun hp hf => ((hpages hp).1 _ hf).1
      listed := fun hp hf => ((hpages hp).1 _ hf).2
      unmapped := fun hp hf => (hpages hp).2 hf
      resident := fun he => by
        obtain ⟨space, hspace, hlookup⟩ := Option.bind_eq_some_iff.mp he
        exact (auditMapping_eq_ok hspace _).mp ((hspaces _ _ hspace).2 _ _ hlookup)
      housed := fun hc ho => ((auditFrame_eq_ok.mp (hframes _ _ hc)).2 _ ho).1
      unpinned := fun hc => (auditFrame_eq_ok.mp (hframes _ _ hc)).1
      guarded := fun hc ho => ((auditFrame_eq_ok.mp (hframes _ _ hc)).2 _ ho).2
      counted := hcounted }
  · intro h
    refine ⟨fun id space hspace => ⟨fun v p hget => ?_, fun v e hlookup => ?_⟩, fun f c hc => ?_,
      h.counted⟩
    · have hp : m.page? ⟨id, v⟩ = some p := by
        rw [page?_eq, hspace]
        exact hget
      rw [auditPage_eq_ok hspace, hm hp]
      exact ⟨fun f hf => ⟨h.mapped hp hf, h.listed hp hf⟩, h.unmapped hp⟩
    · rw [auditMapping_eq_ok hspace]
      refine h.resident (o := ⟨id, v⟩) (e := e) ?_
      rw [entryAt?_eq, hspace]
      exact hlookup
    · exact auditFrame_eq_ok.mpr ⟨h.unpinned hc, fun o ho => ⟨h.housed hc ho, h.guarded hc ho⟩⟩

/-! ## The audit of a machine in order -/

variable {lax : Tolerance}

theorem Sound.numbered (hm : Sound lax m none none) : m.Numbered := fun {_ p} hp =>
  hm.books.numbered (p := p.located m.backing.files) (page_ledger_of_page? hp)

/-- The frames in the table and the free ones make up the pool. -/
theorem Sound.size_add_free (hm : Sound lax m none none) :
    m.resident.size + m.frames.free = m.frames.total := by
  have hsize : m.resident.size = m.resident.frames.keys.length := Std.ExtTreeMap.length_keys.symm
  rw [hsize]
  refine hm.kept.frames.length_add_free Std.ExtTreeMap.nodup_keys fun f => ?_
  rw [Std.ExtTreeMap.mem_keys, Std.ExtTreeMap.mem_iff_isSome_getElem?]
  have hholds : m.frames.Held f ↔ _ := hm.books.holds f
  rw [hholds]
  exact (or_iff_left nofun).symm

/-- **The audit finds nothing in a machine in order.** -/
theorem Sound.audit_agrees (hm : Sound lax m none none) : m.Audited := by
  have hframe : ∀ {o p f}, m.page? o = some p → p.frame = some f → m.frameOf o = some f :=
    fun hp hf => (frameOf_of_page? hp).trans hf
  have hmapped := hm.frame_entryAt?
  constructor
  case mapped => exact fun hp hf => (hmapped _).trans (hframe hp hf)
  case listed =>
    intro o p f hp hf
    exact FrameTable.mem_owners.mpr (hm.exists_crew hp hf)
  case unmapped =>
    intro o p hp hf
    have := hmapped o
    rw [frameOf, hp, Option.bind_some, hf] at this
    exact Option.map_eq_none_iff.mp this
  case resident =>
    intro o e he
    have := hmapped o
    rw [he, Option.map_some] at this
    obtain ⟨p, hp, hf⟩ := Option.bind_eq_some_iff.mp this.symm
    exact ⟨p, e.frame, hp, hf⟩
  case housed => exact fun hc ho => Option.bind_eq_some_iff.mp ((hm.mem_owners hc _).mp ho)
  case unpinned =>
    intro f c hc
    exact Bool.eq_false_iff.mpr fun hpinned => by cases (hm.books.pinned hc).mp hpinned
  case guarded =>
    intro f c o hc ho hshared
    obtain ⟨p, hp, hf⟩ := Option.bind_eq_some_iff.mp ((hm.mem_owners hc o).mp ho)
    have hentry := (hmapped o).trans (hframe hp hf)
    obtain ⟨e, he, rfl⟩ := Option.map_eq_some_iff.mp hentry
    rw [hasFlag, he]
    refine Bool.eq_false_iff.mpr fun hw => ?_
    have hgrant : (m.ledger none none).grant o = some e.grant := grant_ledger_of_entryAt? he
    obtain ⟨-, halone⟩ := (hm.books.writes (page_ledger_of_page? hp) hgrant).mp hw
    have halone : (m.resident.get? e.frame).map Frame.owners = some [o] := halone
    rw [hc] at halone
    rw [Option.some.inj halone] at hshared
    exact Nat.lt_irrefl 1 hshared
  case counted => exact hm.size_add_free

end Machine

/-- **The audit passes every machine on a run**: whatever was asked of it and refused, pages, page
tables and the frame table agree, no frame is pinned and none is lost. -/
theorem Reachable.audited {m : Machine} (h : Reachable .all m) : m.audit = .ok () ∧ m.Audited :=
  ⟨(Machine.audit_eq_ok h.sound.numbered).mpr h.sound.audit_agrees, h.sound.audit_agrees⟩

theorem Reachable.audited_crowded :
    ∃ m, Reachable .all m ∧ m.groups.size = 1 ∧ m.audit = .ok () ∧ m.Audited := by
  have h : ((Machine.start { userFrames := 2 } (.blank 16)).carry Operation.crowding).any
      (fun r => decide (r.2.groups.size = 1)) = true := by decide +kernel
  obtain ⟨r, -, hm, hgroups⟩ := Reachable.exists_of_carry (by decide) h
  exact ⟨r.2, hm, of_decide_eq_true hgroups, hm.audited⟩

end DemandPaging
