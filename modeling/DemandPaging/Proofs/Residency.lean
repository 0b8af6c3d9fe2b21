import DemandPaging.Proofs.Ledger.Plain
import DemandPaging.Proofs.Legality

/-!
# How much memory is left

One space has all the pages there are, and all of them are plain memory. Then no frame and no slot is
shared: every page that was loaded has a frame or a slot of its own, so the pages that were loaded can be
counted by their frames and slots (`Laden.residents_add_evicted`). An access brings one more page into a
frame, for which it needs a slot before it gives the slot of the page back. So it goes through exactly if
there is one place more than pages were loaded, unless the page is resident (`Laden.meets_access`).
-/

namespace DemandPaging

namespace Page.Plain

variable {p : Page}

theorem located (h : p.Plain) (files : FileStore) : p.located files = p := by
  unfold Page.located
  rcases h.content with hc | ⟨a, hc⟩
  all_goals
    rw [hc]
    exact congrArg (fun c => { p with content := c }) hc.symm

/-- A page is plain if it is plain with a file in place of its handle. -/
theorem of_located {files : FileStore} (h : (p.located files).Plain) : p.Plain := by
  refine ⟨h.writable, ?_⟩
  rcases h.content with hc | ⟨a, hc⟩
  · obtain ⟨g, hg, -⟩ := Content.located_eq_uninit files p.content hc
    cases g with
    | zero => exact Or.inl hg
    | custom | file =>
      rw [Page.located, hg] at hc
      cases hc
  · exact Or.inr ⟨a, (Content.located_eq_anon files p.content).mp hc⟩

/-- Nothing can go wrong when plain memory is loaded. -/
theorem not_isFallible (h : p.Plain) : ¬p.IsFallible := by
  rintro (hw | ⟨t, n, hc'⟩)
  · rw [h.window?] at hw
    cases hw
  · rcases h.content with hc | ⟨a, hc⟩
    all_goals
      rw [hc] at hc'
      cases hc'

end Page.Plain

namespace Machine

/-- Every page is plain memory of one space, and `os` are those that were loaded. -/
structure Laden (m : Machine) (id : SpaceId) (os : List Owner) : Prop where
  nodup : os.Nodup
  there : ∀ o ∈ os, (m.page? o).isSome
  lone : ∀ {x p}, m.page? x = some p → x.space = id
  plain : ∀ {x p}, m.page? x = some p → p.Plain
  loaded : ∀ {x p}, m.page? x = some p → (x ∈ os ↔ p.IsLoaded)

/-- How many pages of a list are resident. -/
def residents (m : Machine) (os : List Owner) : Nat := os.countP fun o => (m.frameOf o).isSome

/-- How many pages of a list hold a slot. -/
def evicted (m : Machine) (os : List Owner) : Nat := os.countP fun o => (m.slotOf o).isSome

/-- There is a place for more than `n` pages, counting frames and slots, and a frame to use. -/
def Fits (m : Machine) (n : Nat) : Prop :=
  0 < m.frames.total ∧ n < m.frames.total + m.backing.swap.capacity

/-- What a machine that is full is short of. -/
def shortage (m : Machine) : Refusal := if m.frames.total = 0 then .outOfFrames else .outOfSwap

variable {lax : Tolerance} {m m' : Machine} {id : SpaceId} {os : List Owner} {o x y : Owner} {p : Page}
  {f : FrameNum} {s : Nat} {cause : Refusal} {va : Address} {write : Bool}

namespace Laden

/-- Pages that are the same are one. -/
theorem eq_of_page (h : m.Laden id os) (hm : Sound lax m none none) (hp : m.page? x = some p)
    (hq : (m.ledger none none).page x = (m.ledger none none).page y) : x = y := by
  have hx := @page_ledger_of_page? _ none none _ _ hp
  obtain ⟨q, hy, hqp⟩ := Option.map_eq_some_iff.mp (hq.symm.trans hx)
  have hspace := (h.lone hp).trans (h.lone hy).symm
  have hvpn := (hm.books.numbered hx).symm.trans (hm.books.numbered (hq ▸ hx))
  cases x
  cases y
  exact congrArg₂ Owner.mk hspace hvpn

/-- No frame is shared. -/
theorem frameOf_inj (h : m.Laden id os) (hm : Sound lax m none none) (hx : m.frameOf x = some f)
    (hy : m.frameOf y = some f) : x = y := by
  obtain ⟨p, hp, -⟩ := Option.bind_eq_some_iff.mp hx
  rw [← @frame_ledger _ none none] at hx hy
  exact h.eq_of_page hm hp (hm.books.crewAlike hx hy)

/-- No slot is shared. -/
theorem slotOf_inj (h : m.Laden id os) (hm : Sound lax m none none) (hx : m.slotOf x = some s)
    (hy : m.slotOf y = some s) : x = y := by
  obtain ⟨p, hp, -⟩ := Option.bind_eq_some_iff.mp hx
  rw [← @slot_ledger _ none none] at hx hy
  rcases hm.books.single hx hy with rfl | ⟨g, hg, hg'⟩
  · rfl
  · exact h.eq_of_page hm hp (hm.books.teamAlike hg hg')

/-- A page with a frame or a slot was loaded. -/
theorem mem_of_frameOf (h : m.Laden id os) (hm : Sound lax m none none) (hx : m.frameOf x = some f) :
    x ∈ os := by
  obtain ⟨p, hp, hf⟩ := Option.bind_eq_some_iff.mp hx
  exact (h.loaded hp).mpr ((h.plain hp).isLoaded (hm.shaped hp) hf)

theorem mem_of_slotOf (h : m.Laden id os) (hx : m.slotOf x = some s) : x ∈ os := by
  obtain ⟨p, hp, hs⟩ := Option.bind_eq_some_iff.mp hx
  refine (h.loaded hp).mpr ((h.plain hp).content.resolve_left fun hc => ?_)
  rw [Page.slot, hc] at hs
  cases hs

/-! ### Counting -/

/-- **A page that was loaded has either a frame or a slot.** -/
theorem residents_add_evicted (h : m.Laden id os) (hm : Sound lax m none none) :
    m.residents os + m.evicted os = os.length := by
  rw [List.length_eq_countP_add_countP fun o => (m.frameOf o).isSome]
  refine congrArg _ (List.countP_congr fun o ho => ?_)
  obtain ⟨p, hp⟩ := Option.isSome_iff_exists.mp (h.there o ho)
  obtain ⟨a, ha⟩ := (h.loaded hp).mp ho
  have hhoused := (hm.shaped hp).housed ha
  simp only [slotOf, frameOf, hp, Option.bind_some, Page.slot, ha]
  cases hs : a.slot <;> cases hf : p.frame <;> simp_all

/-- The frames that are not free are those of resident pages. -/
theorem residents_add_free (h : m.Laden id os) (hm : Sound lax m none none) :
    m.residents os + m.frames.free = m.frames.total := by
  unfold residents
  rw [← List.length_filterMap_eq_countP]
  refine hm.kept.frames.length_add_free (h.nodup.filterMap fun x y f hx hy =>
    h.frameOf_inj hm hx hy) fun f => ?_
  rw [List.mem_filterMap]
  constructor
  · rintro ⟨x, -, hx⟩
    obtain ⟨p, hp, hf⟩ := Option.bind_eq_some_iff.mp hx
    exact hm.books.held_of_frame (page_ledger_of_page? hp) hf
  · intro hf
    obtain ⟨c, hc⟩ := Option.isSome_iff_exists.mp (((hm.books.holds f).mp hf).resolve_right nofun)
    obtain ⟨x, hx⟩ := List.exists_mem_of_ne_nil _ (hm.books.crewed (owners_ledger_of_get? hc))
    have hframe := (hm.mem_owners hc x).mp hx
    exact ⟨x, h.mem_of_frameOf hm hframe, hframe⟩

/-- The slots that pages hold, each once. -/
theorem slots (h : m.Laden id os) (hm : Sound lax m none none) :
    (os.filterMap m.slotOf).length = m.evicted os ∧ (os.filterMap m.slotOf).Nodup ∧
      ∀ s, s ∈ os.filterMap m.slotOf ↔ m.backing.swap.occupied s = true := by
  refine ⟨List.length_filterMap_eq_countP, h.nodup.filterMap fun x y s hx hy =>
    h.slotOf_inj hm hx hy, fun s => ?_⟩
  rw [List.mem_filterMap]
  refine Iff.trans ?_ (hm.books.taken s).symm
  simp only [slot_ledger]
  exact ⟨fun ⟨x, _, hx⟩ => ⟨x, hx⟩, fun ⟨x, hx⟩ => ⟨x, h.mem_of_slotOf hx, hx⟩⟩

/-- There are slots enough for the evicted pages. -/
theorem evicted_le (h : m.Laden id os) (hm : Sound lax m none none) :
    m.evicted os ≤ m.backing.swap.capacity := by
  obtain ⟨hlength, hnodup, hmem⟩ := h.slots hm
  have hin : os.filterMap m.slotOf ⊆ List.range m.backing.swap.capacity := fun s hs =>
    List.mem_range.mpr (hm.kept.swap.lt_capacity ((hmem s).mp hs))
  have hsub := (List.subperm_of_subset hnodup hin).length_le
  rwa [hlength, List.length_range] at hsub

/-- A slot that is free is one more than the evicted pages need. -/
theorem evicted_lt (h : m.Laden id os) (hm : Sound lax m none none) (hs : s < m.backing.swap.capacity)
    (hfree : m.backing.swap.occupied s = false) : m.evicted os < m.backing.swap.capacity := by
  obtain ⟨hlength, hnodup, hmem⟩ := h.slots hm
  have hnot : s ∉ os.filterMap m.slotOf := fun h => by
    rw [(hmem s).mp h] at hfree
    cases hfree
  have hin : s :: os.filterMap m.slotOf ⊆ List.range m.backing.swap.capacity := fun t ht => by
    rcases List.mem_cons.mp ht with rfl | ht
    · exact List.mem_range.mpr hs
    · exact List.mem_range.mpr (hm.kept.swap.lt_capacity ((hmem t).mp ht))
  have hsub := (List.subperm_of_subset (List.nodup_cons.mpr ⟨hnot, hnodup⟩) hin).length_le
  rwa [List.length_cons, hlength, List.length_range] at hsub

/-- Evicted pages hold all slots once swap is full. -/
theorem le_evicted (h : m.Laden id os) (hm : Sound lax m none none) (hfull : m.backing.swap.Full) :
    m.backing.swap.capacity ≤ m.evicted os := by
  obtain ⟨hlength, hnodup, hmem⟩ := h.slots hm
  have hin : List.range m.backing.swap.capacity ⊆ os.filterMap m.slotOf := fun s hs =>
    (hmem s).mpr (hfull s (List.mem_range.mp hs))
  have hsub := (List.subperm_of_subset List.nodup_range hin).length_le
  rwa [hlength, List.length_range] at hsub

/-! ### Shortage -/

/-- **A machine that can give no frame is full**: it has as many pages as there is memory for. -/
theorem exhausted (h : m.Laden id os) (hm : Sound lax m none none) (hx : Exhausted m cause) :
    ¬m.Fits os.length ∧ cause = m.shortage ∧ m.residents os = m.frames.total := by
  have hlength := h.residents_add_evicted hm
  have htotal := h.residents_add_free hm
  unfold Fits shortage
  cases hx with
  | frames hfree hpinned =>
    have hnone : ∀ f, m.resident.get? f = none := fun f => by
      refine Option.eq_none_iff_forall_ne_some.mpr fun c hc => ?_
      cases (hm.books.pinned hc).mp (hpinned f c hc)
    have hresidents : m.residents os = 0 := by
      refine List.countP_eq_zero.mpr fun o _ hf => ?_
      obtain ⟨f, hf⟩ := Option.isSome_iff_exists.mp hf
      obtain ⟨p, hp, hpf⟩ := Option.bind_eq_some_iff.mp hf
      obtain ⟨c, hc, -⟩ := hm.exists_crew hp hpf
      rw [hnone f] at hc
      cases hc
    have hzero : m.frames.total = 0 := by omega
    exact ⟨fun hfits => absurd hzero (Nat.ne_of_gt hfits.1), (if_pos hzero).symm, by omega⟩
  | swap hfree hvictim hfull =>
    obtain ⟨f, c, hc⟩ := hvictim
    have hsome : m.frames.total ≠ 0 := Nat.ne_zero_of_lt (hm.kept.frames.lt_total (hm.held hc))
    have hfilled := h.le_evicted hm hfull
    refine ⟨fun hfits => ?_, (if_neg hsome).symm, by omega⟩
    have := hfits.2
    omega

/-- A page that was loaded and is not resident holds a slot. -/
theorem exists_slot (h : m.Laden id os) (hm : Sound lax m none none) (hp : m.page? o = some p)
    (ho : o ∈ os) (haway : p.frame = none) : ∃ s, p.slot = some s := by
  obtain ⟨a, ha⟩ := (h.loaded hp).mp ho
  rw [Page.slot, ha]
  refine Option.ne_none_iff_exists'.mp fun hnone => ?_
  have hresident := ((hm.shaped hp).housed ha).mp hnone
  rw [haway] at hresident
  cases hresident

/-- **Shifts that load a page** load no other but those that were loaded. -/
theorem shifts (h : m.Laden id os) (hm : Sound lax m none none)
    (hreach : Reaches lax Ledger.Shifts m m') (hresident : m'.frameOf o = some f)
    (hall : ∀ {x p}, m.page? x = some p → x = o ∨ x ∈ os) : m'.Laden id (os.insert o) := by
  have hm' := hreach.sound hm
  have hsome : ∀ x, (m'.page? x).isSome = (m.page? x).isSome := fun x => by
    have hlayout := congrFun (congrArg Layout.registered (hreach.told.layout hm.books)) x
    rw [registered_ledger] at hlayout
    exact hlayout.trans registered_ledger
  have hbefore : ∀ {x q}, m'.page? x = some q → ∃ p, m.page? x = some p := fun {x q} hq =>
    Option.isSome_iff_exists.mp ((hsome x).symm.trans (by rw [hq]; rfl))
  have hplain : ∀ {x q}, m'.page? x = some q → q.Plain ∧ (x ∈ os → q.IsLoaded) := fun {x q} hq => by
    obtain ⟨p, hp⟩ := hbefore hq
    have hshows : (m.ledger none none).Shows x (decide (x ∈ os)) ((m.ledger none none).contentOf p) :=
      ⟨p, by rw [page_ledger_of_page? hp, (h.plain hp).located], h.plain hp,
        fun hx => (h.loaded hp).mp (of_decide_eq_true hx), rfl⟩
    obtain ⟨q', hq', hplain, hloaded, -⟩ := hshows.shifts hm.books hreach.told
    obtain rfl := Option.some.inj ((page_ledger_of_page? hq).symm.trans hq')
    have hq := hplain.of_located
    rw [hq.located] at hloaded
    exact ⟨hq, fun hx => hloaded (decide_eq_true hx)⟩
  refine ⟨h.nodup.insert, fun x hx => ?_, fun {x q} hq => ?_, fun hq => (hplain hq).1,
    fun {x q} hq => ?_⟩
  · rcases List.mem_insert_iff.mp hx with rfl | hx
    · obtain ⟨q, hq, -⟩ := Option.bind_eq_some_iff.mp hresident
      rw [hq]
      rfl
    · rw [hsome]
      exact h.there x hx
  · obtain ⟨p, hp⟩ := hbefore hq
    exact h.lone hp
  · rw [List.mem_insert_iff]
    constructor
    · rintro (rfl | hx)
      · rw [frameOf, hq] at hresident
        exact (hplain hq).1.isLoaded (hm'.shaped hq) hresident
      · exact (hplain hq).2 hx
    · intro _
      obtain ⟨p, hp⟩ := hbefore hq
      exact hall hp

/-- **A resident page may be written.** -/
theorem exists_entry (h : m.Laden id os) (hm : Sound lax m none none) (hf : m.frameOf o = some f) :
    ∃ e, m.entryAt? o = some e ∧ e.has .writable = true := by
  obtain ⟨p, hp, hpf⟩ := Option.bind_eq_some_iff.mp hf
  obtain ⟨e, c, he, -, hc, hiff⟩ := hm.guards.writable hp hpf
  have hcrew := @owners_ledger_of_get? m none none f c hc
  refine ⟨e, he, hiff.mpr ⟨(h.plain hp).writable, ?_⟩⟩
  refine List.perm_singleton.mp ((List.perm_ext_iff_of_nodup (hm.books.crews.nodup hcrew)
    (List.nodup_singleton o)).mpr fun x => ?_)
  rw [hm.mem_owners hc, List.mem_singleton]
  exact ⟨fun hx => h.frameOf_inj hm hx hf, fun hx => hx ▸ hf⟩

end Laden

/-! ## Accesses -/

/-- Why an access to `o` that needs a frame is refused, where `os` were loaded: the machine is full. -/
structure Starved (m : Machine) (os : List Owner) (o : Owner) (cause : Refusal) : Prop where
  full : ¬m.Fits os.length
  cause : cause = m.shortage
  /-- A page that was loaded before has lost its frame to another. -/
  crowded : o ∈ os → m.frames.total < os.length

/-- An access to `o` went through, where `os` were loaded: there was a place for one page more, or the
page was resident and none has moved. -/
def Accommodated (m m' : Machine) (os : List Owner) (o : Owner) : Prop :=
  m.Fits os.length ∨ (m.frameOf o).isSome ∧ ∀ x, m'.frameOf x = m.frameOf x

namespace Laden

/-- **Claiming a page that is not resident** needs a place for one page more. -/
theorem meets_claim (h : m.Laden id os) (hm : Sound lax m none none) (hp : m.page? o = some p)
    (haway : p.frame = none) (hall : ∀ {x p}, m.page? x = some p → x = o ∨ x ∈ os) :
    Action.Meets (fun _ _ => True) (claim o) m
      (fun _ m' => m.Fits os.length ∧ ∃ e, m'.entryAt? o = some e ∧ e.has .writable = true)
      (fun cause _ => m.Starved os o cause) := by
  refine (((meets_claim_of_page hm hp).and (leaves_claim o m)).relax fun _ _ _ => trivial).mono
    (fun f m' h' => ?_) fun cause m' h' => ?_
  · obtain ⟨⟨hclaims, hslot⟩, hstanding⟩ := h'
    have hreach := hclaims.shifts_of_claims
    have hframe := hclaims.frameOf_of_claims
    have hm' := hreach.sound hm
    have hladen := h.shifts hm hreach hframe hall
    have htotal : m'.frames.total = m.frames.total := congrArg Standing.frames hstanding
    have hcapacity : m'.backing.swap.capacity = m.backing.swap.capacity :=
      congrArg Standing.slots hstanding
    have hlength := hladen.residents_add_evicted hm'
    have hresidents := hladen.residents_add_free hm'
    have hevicted := hladen.evicted_le hm'
    have hpositive : 0 < m'.residents (os.insert o) :=
      List.countP_pos_iff.mpr ⟨o, List.mem_insert_self, by rw [hframe]; rfl⟩
    refine ⟨⟨by omega, ?_⟩, hladen.exists_entry hm' hframe⟩
    by_cases ho : o ∈ os
    · obtain ⟨s, hs⟩ := h.exists_slot hm hp ho haway
      have hbelow := hm.kept.swap.lt_capacity
        (hm.books.occupied_of_slot (page_ledger_of_page? hp) ((Page.slot_located _ _).trans hs))
      have hfree := hladen.evicted_lt hm' (hcapacity ▸ hbelow) (hslot s hs)
      rw [List.insert_of_mem ho] at *
      omega
    · rw [List.length_insert_of_not_mem ho] at hlength
      omega
  · obtain ⟨⟨-, ⟨hexhausted, -⟩ | ⟨-, hfallible, -⟩⟩, -⟩ := h'
    · obtain ⟨hfull, hcause, hresidents⟩ := h.exhausted hm hexhausted
      refine ⟨hfull, hcause, fun ho => ?_⟩
      obtain ⟨s, hs⟩ := h.exists_slot hm hp ho haway
      have hpositive : 0 < m.evicted os :=
        List.countP_pos_iff.mpr ⟨o, ho, by rw [slotOf, hp, Option.bind_some, hs]; rfl⟩
      have hlength := h.residents_add_evicted hm
      omega
    · exact absurd hfallible (h.plain hp).not_isFallible

/-- Which pages were loaded stays while nothing changes. -/
theorem idle (h : m.Laden id os) (hidle : Idle m m') : m'.Laden id os where
  nodup := h.nodup
  there o ho := by
    rw [hidle.page]
    exact h.there o ho
  lone hp := h.lone ((hidle.page _).symm.trans hp)
  plain hp := h.plain ((hidle.page _).symm.trans hp)
  loaded hp := h.loaded ((hidle.page _).symm.trans hp)

/-- A claim is made where nothing has changed yet. -/
theorem meets_claim_of_idle (h : m.Laden id os) (hm : Sound lax m none none) (hidle : Idle m m')
    (hp : m.page? o = some p) (haway : p.frame = none)
    (hall : ∀ {x p}, m.page? x = some p → x = o ∨ x ∈ os) :
    Action.Meets (fun _ _ => True) (claim o) m'
      (fun _ m' => m.Fits os.length ∧ ∃ e, m'.entryAt? o = some e ∧ e.has .writable = true)
      (fun cause _ => m.Starved os o cause) := by
  have hfits : ∀ n, m'.Fits n ↔ m.Fits n := fun n => by
    unfold Fits
    rw [hidle.frames, hidle.backing]
  refine ((h.idle hidle).meets_claim (hidle.sound hm) ((hidle.page o).trans hp) haway
    fun hq => hall ((hidle.page _).symm.trans hq)).mono (fun f m'' h' => ?_) fun cause m'' h' => ?_
  · exact ⟨(hfits _).mp h'.1, h'.2⟩
  · refine ⟨fun hno => h'.full ((hfits _).mpr hno), h'.cause.trans ?_, fun ho => ?_⟩
    · unfold shortage
      rw [hidle.frames]
    · exact hidle.frames ▸ h'.crowded ho

/-- **A fault on a page that is not resident** needs a place for one page more. -/
theorem meets_resolveFault (h : m.Laden id os) (hm : Sound lax m none none)
    (hp : m.page? ⟨id, va.page⟩ = some p) (haway : p.frame = none) (hva : ¬m.config.Bars va)
    (hall : ∀ {x p}, m.page? x = some p → x = ⟨id, va.page⟩ ∨ x ∈ os) :
    Action.Meets (fun _ _ => True) (resolveFault id (.missing va write)) m
      (fun _ m' => m.Fits os.length ∧
        ∃ e, m'.entryAt? ⟨id, va.page⟩ = some e ∧ e.has .writable = true)
      (fun cause _ => m.Starved os ⟨id, va.page⟩ cause) := by
  obtain ⟨space, hspace, hget⟩ := floorAt?_of_page? hp
  unfold resolveFault dispatchFault count
  simp only [Action.meets_bind, Action.meets_modify, Action.meets_attempt, Action.meets_get]
  rw [Action.meets_ite]
  refine ⟨fun hbars => absurd ?_ hva, fun _ => ?_⟩
  · rwa [show (PageFault.missing va write).user = true from rfl, Bool.true_and, Bool.or_eq_true,
      decide_eq_true_eq] at hbars
  have hcounted : { m with
      counters := { m.counters with faults := m.counters.faults + 1 } }.spaces[id]? = some space := hspace
  refine (Action.meets_bind_of_ok (space_eq id hcounted)).mpr ?_
  rw [show space.registry.find? (PageFault.missing va write).va = some p from hget]
  dsimp only
  unfold faultOnPage
  rw [Action.meets_ite]
  refine ⟨fun hrefused => ?_, fun _ => ?_⟩
  · rw [(h.plain hp).writable] at hrefused
    simp at hrefused
  rw [if_pos (Option.isNone_iff_eq_none.mpr haway)]
  unfold note
  simp only [Action.meets_bind, Action.meets_modify]
  have hidle := (Idle.count m { m.counters with faults := m.counters.faults + 1 }
    (Nat.le_refl m.nextMapping)).trans (.note _ (.faultClaims ⟨id, va.page⟩) rfl)
  exact h.meets_claim_of_idle hm hidle hp haway hall

/-- **An access** needs a place for one page more, unless the page is resident. -/
theorem meets_access (h : m.Laden id os) (hm : Sound lax m none none)
    (hp : m.page? ⟨id, va.page⟩ = some p) (hva : ¬m.config.Bars va)
    (hall : ∀ {x p}, m.page? x = some p → x = ⟨id, va.page⟩ ∨ x ∈ os) :
    Action.Meets (fun _ _ => True) (access id va write) m
      (fun _ m' => m.Accommodated m' os ⟨id, va.page⟩)
      (fun cause _ => m.Starved os ⟨id, va.page⟩ cause) := by
  have hgrants : ∀ {e : Entry}, e.has .writable = true → grants e write = true := fun hw => by
    unfold grants
    rw [hw, Bool.or_true]
  cases hf : p.frame with
  | some f =>
    have hframe : m.frameOf ⟨id, va.page⟩ = some f := by rw [frameOf, hp]; exact hf
    obtain ⟨e, he, hw⟩ := h.exists_entry hm hframe
    refine (meets_access_of_grants he (hgrants hw)).mono ?_ fun _ _ h => h
    rintro _ _ ⟨-, change, rfl⟩
    refine Or.inr ⟨by rw [hframe]; rfl, fun x => ?_⟩
    rw [frameOf, page?_modifyTable, frameOf]
  | none =>
    obtain ⟨space, hspace, -⟩ := floorAt?_of_page? hp
    have hentry : m.entryAt? ⟨id, va.page⟩ = none := by
      rw [← Option.not_isSome_iff_eq_none, hm.entryAt?_isSome, frameOf, hp, Option.bind_some, hf]
      exact Bool.false_ne_true
    show Action.Meets _ (accessWithin id va write (3 + 1)) m _ _
    unfold accessWithin
    rw [Action.meets_bind_of_ok (space_eq id hspace),
      ← entryAt?_eq_lookup? (o := ⟨id, va.page⟩) hspace, hentry]
    refine (h.meets_resolveFault hm hp hf hva hall).bind (fun _ m₁ h₁ => ?_) fun _ _ h => h
    obtain ⟨hfits, e, he, hw⟩ := h₁
    obtain ⟨space₁, hspace₁, hlookup⟩ := Option.bind_eq_some_iff.mp he
    unfold accessWithin
    rw [Action.meets_bind_of_ok (space_eq id hspace₁), hlookup]
    dsimp only
    rw [if_pos (hgrants hw)]
    exact Or.inl hfits

variable {n : Nat} {bytes : Bytes}

/-- **Reading inside a page** tells why it stopped, if it did. -/
theorem meets_read {R : Refusal → Machine → Prop} (h : m.Laden id os) (hm : Sound lax m none none)
    (hp : m.page? ⟨id, va.page⟩ = some p) (hva : ¬m.config.Bars va) (hn : 0 < n)
    (hfits : va.offset + n ≤ pageSize) (hall : ∀ {x p}, m.page? x = some p → x = ⟨id, va.page⟩ ∨ x ∈ os) :
    Action.Meets (fun _ _ => True) (read id va n) m
      (fun r m' => (r.stopped = none → m.Accommodated m' os ⟨id, va.page⟩) ∧
        ∀ cause, r.stopped = some cause → m.Starved os ⟨id, va.page⟩ cause) R := by
  unfold read
  rw [spans_of_fits hn hfits]
  unfold readSpans
  rw [Action.meets_bind, Action.meets_attempt]
  refine (h.meets_access hm hp hva hall).mono (fun f m₁ h₁ => ?_) fun cause m₁ h₁ => ?_
  · dsimp only
    rw [Action.meets_bind]
    cases hb : m₁.frames.bytes? f with
    | none =>
      unfold frameBytes
      simp only [Action.meets_bind, Action.meets_get]
      rw [hb]
      trivial
    | some b =>
      refine Action.Meets.ok (frameBytes_eq hb) ?_
      exact ⟨fun _ => h₁, fun _ hcause => by cases hcause⟩
  · exact ⟨fun hall => (by cases hall), fun _ hcause => Option.some.inj hcause ▸ h₁⟩

/-- **Writing inside a page.** -/
theorem meets_write (h : m.Laden id os) (hm : Sound lax m none none)
    (hp : m.page? ⟨id, va.page⟩ = some p) (hva : ¬m.config.Bars va) (hn : 0 < bytes.size)
    (hfits : va.offset + bytes.size ≤ pageSize)
    (hall : ∀ {x p}, m.page? x = some p → x = ⟨id, va.page⟩ ∨ x ∈ os) :
    Action.Meets (fun _ _ => True) (Machine.write id va bytes) m
      (fun _ m' => m.Accommodated m' os ⟨id, va.page⟩)
      (fun cause _ => m.Starved os ⟨id, va.page⟩ cause) := by
  unfold Machine.write
  rw [spans_of_fits hn hfits]
  unfold writeSpans
  refine (h.meets_access hm hp hva hall).bind (fun f m₁ h₁ => ?_) fun _ _ h => h
  simp only [Action.meets_bind, Action.meets_get]
  rw [Action.meets_assert]
  exact ⟨fun frames _ => h₁, fun _ _ => trivial⟩

end Laden

end Machine

end DemandPaging
