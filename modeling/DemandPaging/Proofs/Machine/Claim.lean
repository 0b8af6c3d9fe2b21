import DemandPaging.Machine.Claim
import DemandPaging.Proofs.Machine.Eviction

/-!
# Claiming keeps the books
-/

namespace DemandPaging

/-! ## Loading a page -/

/-- What loading a page, or failing to, did to the backing stores. -/
structure Backing.Loaded (b b' : Backing) (p : Page) : Prop where
  swap : b'.swap.Valid
  occupied : ∀ s, b'.swap.occupied s = (b.swap.occupied s && !decide (p.slot = some s))
  content : ∀ s, b'.swap.content s = b.swap.content s
  files : b.files.Extends b'.files
  file : b'.files.file = b.files.file
  initial : ∀ n : Nat, b'.initializers[n]?.map Initializer.content =
    b.initializers[n]?.map Initializer.content

/-- Why a page that is registered cannot be loaded. -/
inductive Refusal.IsLoading : Refusal → Prop
  | short (expected actual : Nat) : IsLoading (.shortRead expected actual)
  | initializer : IsLoading (.invalidArgument "page initializer failed")

theorem Refusal.IsLoading.not_isInternal {cause : Refusal} (h : cause.IsLoading) :
    ¬cause.isInternal = true := by
  cases h <;> exact Bool.false_ne_true

/-- A page is loaded from a file or by an initializer, which may fail. -/
def Page.IsFallible (p : Page) : Prop :=
  p.window?.isSome = true ∨ ∃ t n, p.content = .uninit t (.custom n)

/-- A page that may fail to load holds no slot. -/
theorem Page.IsFallible.slot_eq_none {p : Page} (h : p.IsFallible) : p.slot = none := by
  unfold Page.slot
  rcases h with h | ⟨t, n, h⟩
  · unfold Page.window? at h
    cases hc : p.content with
    | anon a =>
      rw [hc] at h
      cases h
    | uninit t g => rfl
    | file w => rfl
  · rw [h]

/-- The backing stores are in order for loading a page. -/
structure Backing.Ready (lax : Tolerance) (b : Backing) (p : Page) : Prop where
  swap : b.swap.Valid
  slot : ∀ s, p.slot = some s → b.swap.occupied s = true
  window : ∀ w, p.window? = some w → w.Usable lax b.files
  initializers : lax .outOfBounds ∨ ∀ (n : Nat) (i : Initializer), b.initializers[n]? = some i →
    i.content.size ≤ pageSize

/-- What the backing stores give for a page that is loaded into a zeroed frame. -/
def Backing.backed (b : Backing) (p : Page) : PageBytes :=
  match p.content with
  | .uninit _ .zero => .zero
  | .uninit _ (.custom n) => .ofBytes ((b.initializers[n]?.map Initializer.content).getD #[])
  | .uninit _ (.file w) => (b.files.fileOf w.handle).windowBytes w
  | .anon a => (a.slot.map b.swap.content).getD .zero
  | .file w => (b.files.fileOf w.handle).windowBytes w

section

variable {lax : Tolerance} {b : Backing} {p : Page}

/-- Nothing was loaded from swap. -/
theorem Backing.Loaded.of_files {b' : Backing} (h : b.swap.Valid) (hslot : p.slot = none)
    (hswap : b'.swap = b.swap) (hfiles : b.files.Extends b'.files)
    (hfile : b'.files.file = b.files.file)
    (hinitial : ∀ n : Nat, b'.initializers[n]?.map Initializer.content =
      b.initializers[n]?.map Initializer.content) : b.Loaded b' p :=
  ⟨hswap ▸ h, fun s => by simp [hswap, hslot], fun s => by rw [hswap], hfiles, hfile, hinitial⟩

theorem Transfer.meets_loadWindow {w : FileWindow} (hb : b.swap.Valid) (hslot : p.slot = none)
    (hw : w.Usable lax b.files) {frame : PageBytes} :
    Action.Meets (Oversized lax (w.readBytes ≤ pageSize)) (Transfer.loadWindow w) ⟨frame, b⟩
      (fun _ t => w.GivenBy (b.files.fileOf w.handle) ∧
        t.frame = (b.files.fileOf w.handle).windowBytes w ∧ b.Loaded t.backing p)
      (fun cause t => cause.IsLoading ∧ b.Loaded t.backing p) := by
  unfold loadWindow
  rw [Action.meets_within]
  refine (FileWindow.meets_load hw.opened fun hlong =>
    ⟨rfl, hw.small.resolve_right (Nat.not_le.mpr hlong), Nat.not_le.mpr hlong⟩).mono
    (fun _ t h => ?_) fun cause t h => ?_
  · exact ⟨h.1, h.2.1, .of_files hb hslot rfl h.2.2.1 h.2.2.2 fun _ => rfl⟩
  · obtain ⟨⟨n, rfl⟩, hext, hfile⟩ := h
    exact ⟨.short _ _, .of_files hb hslot rfl hext hfile fun _ => rfl⟩

theorem Transfer.meets_runInitializer {n : Nat} (hb : b.Ready lax p) (hslot : p.slot = none) :
    Action.Meets (Oversized lax (∀ i, b.initializers[n]? = some i → i.content.size ≤ pageSize))
      (Transfer.runInitializer n) ⟨.zero, b⟩
      (fun _ t => t.frame = .ofBytes ((b.initializers[n]?.map Initializer.content).getD #[]) ∧
        b.Loaded t.backing p)
      (fun cause t => cause.IsLoading ∧ b.Loaded t.backing p) := by
  have hcontent : (b.initializers[n]?.getD {}).content =
      (b.initializers[n]?.map Initializer.content).getD #[] := by
    cases b.initializers[n]? <;> rfl
  unfold runInitializer
  simp only [Action.meets_bind, Action.meets_get, Action.meets_ite, Action.meets_abort,
    Action.meets_pure, Action.meets_modify, Action.meets_refuse]
  refine ⟨fun hbig => ?_, fun _ => ⟨fun _ => ⟨.initializer, ?_⟩, fun _ => ⟨?_, ?_⟩⟩⟩
  · have hlong : ¬∀ i, b.initializers[n]? = some i → i.content.size ≤ pageSize := fun hsmall => by
      cases hi : b.initializers[n]? with
      | none =>
        rw [hi] at hbig
        cases hbig
      | some i =>
        rw [hi] at hbig
        exact absurd (hsmall i hi) (Nat.not_le.mpr hbig)
    exact ⟨rfl, hb.initializers.resolve_right fun hsmall => hlong (hsmall n), hlong⟩
  · refine .of_files hb.swap hslot rfl (.refl _) rfl fun k => ?_
    rw [Array.getElem?_modify]
    split
    · cases b.initializers[k]? <;> rfl
    · rfl
  · rw [← hcontent]
    rfl
  · exact .of_files hb.swap hslot rfl (.refl _) rfl fun _ => rfl

theorem Transfer.meets_loadAnon {F : Violation → Transfer → Prop} {a : AnonPage}
    {R : Refusal → Transfer → Prop} (hb : b.Ready lax p) (hc : p.content = .anon a) :
    Action.Meets F (Transfer.loadAnon a) ⟨.zero, b⟩
      (fun a' t => a' = {} ∧ t.frame = (a.slot.map b.swap.content).getD .zero ∧
        b.Loaded t.backing p) R := by
  have hpslot : p.slot = a.slot := by rw [Page.slot, hc]
  unfold loadAnon
  simp only [Action.meets_bind, Action.meets_get, Action.meets_set, Action.meets_pure]
  rw [Action.meets_assert]
  cases hs : a.slot with
  | none =>
    have hload : a.load b.swap .zero = .ok (a, b.swap, .zero) := by
      simp only [AnonPage.load, hs]
    rw [hload]
    refine ⟨fun r hr => ?_, fun _ hr => by cases hr⟩
    obtain rfl := Except.ok.inj hr
    have ha : a = {} := by
      obtain ⟨slot⟩ := a
      rw [show slot = none from hs]
    refine ⟨ha, ?_, .of_files hb.swap (hpslot.trans hs) rfl (.refl _) rfl fun _ => rfl⟩
    simp only [Option.map_none, Option.getD_none]
  | some s =>
    obtain ⟨swap, hfetch, hvalid, hocc, hcontent⟩ := hb.swap.fetch (hb.slot s (hpslot.trans hs))
    have hload : a.load b.swap .zero = .ok ({}, swap, b.swap.content s) := by
      simp only [AnonPage.load, hs, hfetch]
    rw [hload]
    refine ⟨fun r hr => ?_, fun _ hr => by cases hr⟩
    obtain rfl := Except.ok.inj hr
    refine ⟨rfl, ?_, hvalid, fun t => ?_, hcontent, .refl _, rfl, fun _ => rfl⟩
    · rw [Option.map_some, Option.getD_some]
    · rw [hocc t, hpslot, hs]
      by_cases ht : t = s
      · simp [ht]
      · simp [ht, Ne.symm ht]

/-- A page whose window was given whole. -/
theorem Page.GivenBy.of_window {w : FileWindow} (h : w.GivenBy (b.files.fileOf w.handle))
    (hc : (∃ t, p.content = .uninit t (.file w)) ∨ p.content = .file w) :
    (p.located b.files).GivenBy b.files.file := by
  have hw : (p.located b.files).window? = some (w.located b.files) := by
    rcases hc with ⟨t, hc⟩ | hc <;>
      simp [window?, located, Content.located, Content.window?, hc]
  intro w' hw'
  rw [← Option.some.inj (hw.symm.trans hw')]
  exact h

/-- What the initializers of the backing stores write. -/
def Backing.initial (b : Backing) (n : Nat) : Option Bytes :=
  b.initializers[n]?.map Initializer.content

/-- **Loading a page** into a zeroed frame. Nothing is refused that is in swap or starts as zeros, and
nothing breaks that fits. -/
theorem Page.meets_load (hb : b.Ready lax p) :
    Action.Meets (Oversized lax (p.Fits b.initial)) p.load ⟨.zero, b⟩
      (fun p' t => p' = { p with content := p.content.loaded } ∧ t.frame = b.backed p ∧
        (p.located b.files).GivenBy b.files.file ∧ b.Loaded t.backing p)
      (fun cause t => cause.IsLoading ∧ p.IsFallible ∧ b.Loaded t.backing p) := by
  unfold load
  split
  · rename_i t g hc
    have hslot : p.slot = none := by rw [slot, hc]
    rw [Action.meets_bind]
    have hdone : { p with content := Content.initialized t g } =
        { p with content := p.content.loaded } := by rw [hc]; rfl
    cases g with
    | zero =>
      refine ⟨hdone, ?_, fun w hw => ?_, .of_files hb.swap hslot rfl (.refl _) rfl fun _ => rfl⟩
      · rw [Backing.backed, hc]
      · simp [window?, located, Content.located, Content.window?, hc] at hw
    | file w =>
      have hw : p.window? = some w := by rw [window?, hc]; rfl
      refine ((Transfer.meets_loadWindow hb.swap hslot (hb.window w hw)).relax
        fun _ _ h => ⟨h.1, h.2.1, mt (fun hfits => hfits.window hw) h.2.2⟩).mono
        (fun _ s h => ⟨hdone, ?_, .of_window h.1 (Or.inl ⟨t, hc⟩), h.2.2⟩)
        fun _ _ h => ⟨h.1, Or.inl (by rw [hw]; rfl), h.2⟩
      rw [h.2.1, Backing.backed, hc]
    | custom n =>
      refine ((Transfer.meets_runInitializer hb hslot).relax fun _ _ h => ⟨h.1, h.2.1,
        mt (fun hfits i hi => hfits.content hc (by rw [Backing.initial, hi]; rfl)) h.2.2⟩).mono
        (fun _ s h => ⟨hdone, ?_, fun w hw => ?_, h.2⟩)
        fun _ _ h => ⟨h.1, Or.inr ⟨t, n, hc⟩, h.2⟩
      · rw [h.1, Backing.backed, hc]
      · simp [window?, located, Content.located, Content.window?, hc] at hw
  · rename_i a hc
    rw [Action.meets_bind]
    refine (Transfer.meets_loadAnon hb hc).mono (fun a' s h => ?_) fun _ _ h => h
    obtain ⟨rfl, hframe, hloaded⟩ := h
    refine ⟨by rw [hc]; rfl, ?_, fun w hw => ?_, hloaded⟩
    · rw [hframe, Backing.backed, hc]
    · simp [window?, located, Content.located, Content.window?, hc] at hw
  · rename_i w hc
    have hslot : p.slot = none := by rw [slot, hc]
    rw [Action.meets_bind]
    have hw : p.window? = some w := by rw [window?, hc]; rfl
    refine ((Transfer.meets_loadWindow hb.swap hslot (hb.window w hw)).relax
      fun _ _ h => ⟨h.1, h.2.1, mt (fun hfits => hfits.window hw) h.2.2⟩).mono
      (fun _ s h => ⟨?_, ?_, .of_window h.1 (Or.inr hc), h.2.2⟩)
      fun _ _ h => ⟨h.1, Or.inl (by rw [hw]; rfl), h.2⟩
    · rw [hc]
      show p = { p with content := .file w }
      rw [← hc]
    · rw [h.2.1, Backing.backed, hc]

end

/-- Whether a page may fail to load does not depend on the handle it uses. -/
theorem Page.isFallible_located {files : FileStore} {p : Page} :
    (p.located files).IsFallible ↔ p.IsFallible := by
  unfold IsFallible window? located Content.located Content.window?
  cases p.content with
  | anon a => rfl
  | file w => simp
  | uninit t g => cases g <;> simp

namespace Machine

variable {lax : Tolerance} {m m' : Machine} {hand pin : Option FrameNum} {o : Owner} {p : Page}
  {f : FrameNum}

/-- A machine in order can load its pages. -/
theorem Sound.ready (hm : Sound lax m hand pin) (hp : m.page? o = some p) :
    m.backing.Ready lax p := by
  refine ⟨hm.kept.swap, fun s hs => ?_, fun w hw => hm.kept.windows hp hw, hm.kept.initializers⟩
  refine (hm.books.taken s).mpr ⟨o, ?_⟩
  rw [slot_ledger, slotOf, hp]
  exact hs

/-- What the backing stores give is what the ledger says they hold. -/
theorem backed_ledger (p : Page) :
    (m.ledger hand pin).backed (p.located m.backing.files) = m.backing.backed p := by
  unfold Ledger.backed Backing.backed
  cases hc : p.content with
  | anon a => simp only [Page.located, Content.located, hc]; rfl
  | file w => simp only [Page.located, Content.located, hc]; rfl
  | uninit t g => cases g <;> simp only [Page.located, Content.located, hc] <;> rfl

/-! ## Loading into a frame -/

/-- What loading a page into a frame did to the machine. -/
structure LoadedInto (m m' : Machine) (o : Owner) (p : Page) (f : FrameNum) : Prop where
  rest : ∃ spaces b counters journal, m' = { m with
    spaces, backing := b, counters, journal, frames := m.frames.setBytes f (m.backing.backed p) }
  page : ∀ x, m'.page? x = if x = o
    then some { p with content := p.content.loaded, frame := some f, group := none }
    else m.page? x
  entry : ∀ x, m'.entryAt? x = m.entryAt? x
  floor : ∀ id, m'.floorAt? id = m.floorAt? id
  loaded : m.backing.Loaded m'.backing p
  given : (p.located m.backing.files).GivenBy m.backing.files.file
  log : Event.placings m'.journal = Event.placings m.journal

/-- What failing to load a page into a frame did to the machine. -/
structure LoadFailed (m m' : Machine) (p : Page) (f : FrameNum) : Prop where
  rest : ∃ b frame, m' = { m with backing := b, frames := m.frames.setBytes f frame }
  fallible : p.IsFallible
  loaded : m.backing.Loaded m'.backing p

theorem meets_loadInto (hm : Sound lax m hand pin) (hp : m.page? o = some p)
    (hzero : m.frames.bytes? f = some .zero) :
    Action.Meets (Oversized lax (p.Fits m.backing.initial)) (loadInto o f) m
      (fun group m' => group = p.group ∧ LoadedInto m m' o p f)
      (fun cause m' => cause.IsLoading ∧ LoadFailed m m' p f) := by
  have hload : Action.Meets (Oversized lax (p.Fits m.backing.initial)) (onFrame f p.load) m
      (fun p' m' => p' = { p with content := p.content.loaded } ∧
        (p.located m.backing.files).GivenBy m.backing.files.file ∧ ∃ b, m.backing.Loaded b p ∧
        m' = { m with backing := b, frames := m.frames.setBytes f (m.backing.backed p) })
      (fun cause m' => cause.IsLoading ∧ LoadFailed m m' p f) := by
    unfold onFrame
    rw [Action.meets_bind_of_ok (frameBytes_eq hzero), Action.meets_within]
    refine (Page.meets_load (hm.ready hp)).mono (fun p' t h => ?_) fun cause t h => ?_
    · exact ⟨h.1, h.2.2.1, t.backing, h.2.2.2, by rw [← h.2.1]⟩
    · exact ⟨h.1, ⟨t.backing, t.frame, rfl⟩, h.2.1, h.2.2⟩
  unfold loadInto
  rw [Action.meets_bind_of_ok (registeredPage_eq hp)]
  refine hload.bind ?_ fun _ _ h => h
  rintro p' m₁ ⟨rfl, hgiven, b, hb, rfl⟩
  have hdone : ∀ counters journal, Event.placings journal = Event.placings m.journal → LoadedInto m
      { (({ m with backing := b, frames := m.frames.setBytes f (m.backing.backed p) } :
        Machine).modifyPage o fun _ =>
          { p with content := p.content.loaded, frame := some f, group := none }) with
        counters, journal } o p f := fun counters journal hlog => by
    refine ⟨⟨_, b, counters, journal, rfl⟩, fun x => ?_, fun x => ?_, fun id => ?_, hb, hgiven,
      hlog⟩
    · refine (page?_modifyPage { m with backing := b } o x _).trans ?_
      by_cases hx : x = o
      · subst hx
        rw [if_pos rfl, if_pos rfl,
          show ({ m with backing := b } : Machine).page? x = some p from hp]
        rfl
      · rw [if_neg (Ne.symm hx), if_neg hx]
        rfl
    · exact entryAt?_modifyPage { m with backing := b } o x _
    · exact floorAt?_modifyPage { m with backing := b } id o _
  simp only [Action.meets_bind, Action.meets_modify]
  split
  · simp only [note, count, Action.meets_bind, Action.meets_modify, Action.meets_pure]
    exact ⟨trivial, hdone _ _ ((Event.placings_push ..).trans (List.append_nil _))⟩
  · simp only [Action.meets_pure]
    exact ⟨trivial, hdone _ _ rfl⟩

/-! ## Bringing the group back -/

/-- All members of a group that are in no frame rejoin. -/
theorem meets_rejoinMembers {F : Violation → Machine → Prop} {gid : Nat}
    {R : Refusal → Machine → Prop} :
    ∀ {l : List Owner} {m : Machine}, l.Nodup →
      (∀ x ∈ l, ∃ p, m.page? x = some p ∧ p.group = some gid ∧ p.frame = none) →
      Action.Meets F (rejoinMembers gid f l) m
        (fun others m' => others = l ∧
          Respaced m m' l (fun p => { p.attach f with group := none }) fun _ e => e) R
  | [], m, _, _ => ⟨rfl, Respaced.nil⟩
  | x :: l, m, hl, hpages => by
    obtain ⟨hx, hl⟩ := List.nodup_cons.mp hl
    obtain ⟨p, hp, hgroup, hframe⟩ := hpages x List.mem_cons_self
    have hstep := respaced_modifyPage hp fun p : Page => { p.attach f with group := none }
    have hrest := @meets_rejoinMembers F gid R l
      (m.modifyPage x fun _ => { p.attach f with group := none }) hl fun y hy => by
        have hne : y ≠ x := fun h => hx (h ▸ hy)
        rw [hstep.page, if_neg (by simpa using hne)]
        exact hpages y (List.mem_cons_of_mem x hy)
    unfold rejoinMembers
    rw [Action.meets_bind_of_ok (ownedPage_eq hp), if_pos ⟨hgroup, hframe⟩]
    simp only [Action.meets_bind, Action.meets_modify, Action.meets_pure]
    refine hrest.mono (fun others m' h => ?_) fun _ _ h => h
    obtain ⟨rfl, hrespaced⟩ := h
    exact ⟨rfl, hstep.cons hrespaced hx⟩

/-- What the page and its group look like in the frame. -/
abbrev housed (f : FrameNum) (q : Page) : Page :=
  { q with content := q.content.loaded, frame := some f, group := none }

theorem housed_attach (q : Page) (hq : ∀ t g, q.content ≠ .uninit t g) :
    ({ q.attach f with group := none } : Page) = housed f q := by
  unfold housed Page.attach
  cases hc : q.content with
  | uninit t g => exact absurd hc (hq t g)
  | anon a => rfl
  | file w => rfl

/-- What loading a page and bringing its group back did to the machine. -/
structure Gathered (m m' : Machine) (f : FrameNum) (l : List Owner) (p : Page) : Prop where
  rest : ∃ spaces b counters journal groups groupIds, m' = { m with
    spaces, backing := b, counters, journal, groups, groupIds,
    frames := m.frames.setBytes f (m.backing.backed p) }
  page : ∀ x, m'.page? x = if x ∈ l then (m.page? x).map (housed f) else m.page? x
  entry : ∀ x, m'.entryAt? x = m.entryAt? x
  floor : ∀ id, m'.floorAt? id = m.floorAt? id
  groups : ∀ g, m'.groups[g]? = if p.group = some g then none else m.groups[g]?
  groupIds : m'.groupIds.Valid
  live : ∀ g, m'.groupIds.Live g ↔ m.groupIds.Live g ∧ p.group ≠ some g
  loaded : m.backing.Loaded m'.backing p
  given : (p.located m.backing.files).GivenBy m.backing.files.file
  log : Event.placings m'.journal = Event.placings m.journal

/-- A page in no group comes alone. -/
theorem LoadedInto.gathered (h : LoadedInto m m' o p f) (hk : m.Kept lax) (hp : m.page? o = some p)
    (hgroup : p.group = none) : Gathered m m' f [o] p := by
  have hpage := h.page
  have hentry := h.entry
  have hfloor := h.floor
  have hloaded := h.loaded
  have hlog := h.log
  obtain ⟨spaces, b, counters, journal, rfl⟩ := h.rest
  refine ⟨⟨_, _, _, _, _, _, rfl⟩, fun x => ?_, hentry, hfloor, fun g => ?_, hk.groupIds,
    fun g => ?_, hloaded, h.given, hlog⟩
  · rw [hpage]
    by_cases hx : x = o
    · subst hx
      simp [hp]
    · simp [hx]
  · simp [hgroup]
  · simp [hgroup]

/-- The members of a group are evicted, and were loaded before. -/
theorem Sound.evicted_of_member {gid : Nat} {G : EvictionGroup} (hm : Sound lax m hand pin)
    (hG : m.groups[gid]? = some G) {x : Owner} (hx : x ∈ G.members) :
    ∃ q, m.page? x = some q ∧ q.group = some gid ∧ q.frame = none ∧
      ∀ t g, q.content ≠ .uninit t g := by
  obtain ⟨q, hq, hqg⟩ := Option.bind_eq_some_iff.mp ((hm.mem_members hG x).mp hx)
  have hshape := hm.shaped hq
  refine ⟨q, hq, hqg, hshape.apart (by rw [hqg]; rfl), fun t g hc => ?_⟩
  rw [(hshape.waits hc).2] at hqg
  cases hqg

/-- The page that was loaded and the others that rejoined it are in the frame. -/
theorem LoadedInto.page_rejoined {m₂ : Machine} {others : List Owner} (h : LoadedInto m m' o p f)
    (hp : m.page? o = some p)
    (hothers : ∀ x ∈ others, x ≠ o ∧ ∃ q, m.page? x = some q ∧ ∀ t g, q.content ≠ .uninit t g)
    (h₂ : ∀ x, m₂.page? x =
      if x ∈ others then (m'.page? x).map fun q => { q.attach f with group := none } else m'.page? x)
    (x : Owner) :
    m₂.page? x = if x ∈ o :: others then (m.page? x).map (housed f) else m.page? x := by
  rw [h₂, h.page]
  by_cases hxl : x ∈ others
  · obtain ⟨hxo, q, hq, hqc⟩ := hothers x hxl
    rw [if_pos hxl, if_neg hxo, if_pos (List.mem_cons_of_mem o hxl), hq, Option.map_some,
      Option.map_some, housed_attach q hqc]
  · rw [if_neg hxl]
    by_cases hx : x = o
    · rw [if_pos hx, if_pos (hx ▸ List.mem_cons_self), hx, hp]
      rfl
    · rw [if_neg hx, if_neg (by simp [hx, hxl])]

/-- **Bringing a group back.** -/
theorem meets_rejoin {F : Violation → Machine → Prop} {gid : Nat}
    {R : Refusal → Machine → Prop} (hm : Sound lax m hand pin)
    (hp : m.page? o = some p) (hgroup : p.group = some gid) (h : LoadedInto m m' o p f) :
    Action.Meets F (rejoin gid o f) m'
      (fun l m'' => l = (m.ledger hand pin).company o ∧ Gathered m m'' f l p) R := by
  have hog : (m.ledger hand pin).group o = some gid := (group_ledger_of_page? hp).trans hgroup
  obtain ⟨s, hs⟩ := hm.books.teams.listed hog
  obtain ⟨G, hG, rfl⟩ := Option.map_eq_some_iff.mp hs
  have hcompany : (m.ledger hand pin).company o = o :: G.members.filter (· ≠ o) := by
    unfold Ledger.company
    rw [hog]
    simp only [hs, Option.getD_some]
  have hlive : m.groupIds.Live gid := (hm.kept.groups gid).mpr (by
    rw [show m.groups[gid]? = some G from hG]
    rfl)
  obtain ⟨groupIds, hrelease, hvalid, hliveAfter⟩ := hm.kept.groupIds.release hlive
  -- the members besides `o` are still evicted
  have hothers : ∀ x ∈ G.members.filter (· ≠ o), x ≠ o ∧ ∃ q, m.page? x = some q ∧
      q.group = some gid ∧ q.frame = none ∧ ∀ t g, q.content ≠ .uninit t g := fun x hx => by
    obtain ⟨hx, hxo⟩ := List.mem_filter.mp hx
    exact ⟨by simpa using hxo, hm.evicted_of_member hG hx⟩
  have hnodup : (G.members.filter (· ≠ o)).Nodup := (hm.books.teams.nodup hs).filter _
  rw [hcompany]
  clear hcompany hog hs
  have hpage := h.page
  have hentry := h.entry
  have hfloor := h.floor
  have hloaded := h.loaded
  have hlog := h.log
  obtain ⟨spaces, b, counters, journal, rfl⟩ := h.rest
  unfold rejoin
  simp only [Action.meets_bind, Action.meets_get]
  rw [Action.meets_require]
  refine ⟨fun G' hG' => ?_, fun hnone => by cases hnone.symm.trans hG⟩
  obtain rfl : G = G' := Option.some.inj (hG.symm.trans hG')
  simp only [Action.meets_set]
  generalize G.members.filter (· ≠ o) = others at hothers hnodup
  refine (meets_rejoinMembers hnodup fun x hx => ?_).mono ?_ fun _ _ h => h
  · obtain ⟨hxo, q, hq, hqg, hqf, -⟩ := hothers x hx
    exact ⟨q, (hpage x).trans ((if_neg hxo).trans hq), hqg, hqf⟩
  rintro l m₂ ⟨hl, h₂⟩
  rw [hl]
  have hpage₂ := h₂.page
  have hentry₂ := h₂.entry
  have hfloor₂ := h₂.floor
  obtain ⟨spaces₂, rfl⟩ := h₂.rest
  rw [show ({ m with groupIds := m.groupIds } : Machine).groupIds.release gid = .ok groupIds from
    hrelease]
  simp only [note, Action.meets_modify, Action.meets_pure]
  refine ⟨trivial, ⟨⟨_, _, _, _, _, _, rfl⟩, fun x => ?_, fun x => ?_, fun id => ?_, fun g => ?_,
    hvalid, fun g => ?_, hloaded, h.given,
    ((Event.placings_push ..).trans (List.append_nil _)).trans hlog⟩⟩
  · refine h.page_rejoined hp (fun x hx => ?_) hpage₂ x
    obtain ⟨hxo, q, hq, -, -, hqc⟩ := hothers x hx
    exact ⟨hxo, q, hq, hqc⟩
  · exact (hentry₂ x).trans ((ite_self _).trans (hentry x))
  · exact (hfloor₂ id).trans (hfloor id)
  · show (m.groups.erase gid)[g]? = _
    rw [Std.ExtTreeMap.getElem?_erase, hgroup]
    simp only [Nat.compare_eq_eq, Option.some.injEq]
  · rw [hgroup]
    refine (hliveAfter g).trans (and_congr_right fun _ => ?_)
    rw [Ne, Ne, Option.some.injEq, eq_comm]

/-- What filling a frame did to the machine: everyone on the list is in it. -/
structure FilledWith (m m' : Machine) (o : Owner) (f : FrameNum) (l : List Owner) (p : Page) : Prop where
  config : m'.config = m.config
  page : ∀ x, m'.page? x = if x ∈ l then (m.page? x).map (housed f) else m.page? x
  entry : ∀ x, m'.entryAt? x = if x ∈ l
    then some (.make f ((userFlags ((m.page? x).any Page.writable && !decide (1 < l.length))).put
      .valid true))
    else m.entryAt? x
  floor : ∀ id, m'.floorAt? id = m.floorAt? id
  crew : ∀ x, m'.resident.get? x = if x = f then some ⟨l, false⟩ else m.resident.get? x
  frames : m'.frames = m.frames.setBytes f (m.backing.backed p)
  groups : ∀ g, m'.groups[g]? = if p.group = some g then none else m.groups[g]?
  groupIds : m'.groupIds.Valid
  live : ∀ g, m'.groupIds.Live g ↔ m.groupIds.Live g ∧ p.group ≠ some g
  spaceIds : m'.spaceIds = m.spaceIds
  loaded : m.backing.Loaded m'.backing p
  given : (p.located m.backing.files).GivenBy m.backing.files.file
  log : Event.placings m'.journal = Event.placings m.journal ++ [.claimed o f]
  numbers : m'.nextMapping = m.nextMapping

/-- A frame that is not resident can be recorded. -/
theorem meets_recordFrame {F : Violation → Machine → Prop} {l : List Owner}
    {R : Refusal → Machine → Prop}
    (hf : m.resident.get? f = none) :
    Action.Meets F (recordFrame f l) m
      (fun _ m' => ∃ resident, m' = { m with resident } ∧
        ∀ x, resident.get? x = if x = f then some ⟨l, false⟩ else m.resident.get? x) R := by
  obtain ⟨resident, hinsert, hcrew⟩ := FrameTable.insert_ok hf l
  unfold recordFrame
  simp only [Action.meets_bind, Action.meets_get, hinsert]
  exact ⟨resident, rfl, hcrew⟩

/-- Mapping everyone who is in the frame, and recording it. -/
theorem Gathered.meets_map {F : Violation → Machine → Prop} {R : Refusal → Machine → Prop}
    (hm : Sound lax m (some f) pin)
    (hp : m.page? o = some p) (hframe : p.frame = none)
    (h : Gathered m m' f ((m.ledger (some f) pin).company o) p) :
    Action.Meets F (do
      ((m.ledger (some f) pin).company o).forM
        (mapResident f (1 < ((m.ledger (some f) pin).company o).length))
      recordFrame f ((m.ledger (some f) pin).company o)
      note (.claimed o f)) m'
      (fun _ m'' => FilledWith m m'' o f ((m.ledger (some f) pin).company o) p) R := by
  have hpages : ∀ x ∈ (m.ledger (some f) pin).company o,
      ∃ q, m.page? x = some q ∧ m.entryAt? x = none := by
    intro x hx
    have hxp := hm.books.page_of_company (page_ledger_of_page? hp) hx
    obtain ⟨q, hq, hqp⟩ := Option.map_eq_some_iff.mp hxp
    have hmapped := hm.books.mapped x
    rw [Ledger.frame, hxp, Option.bind_some, Page.frame_located, hframe] at hmapped
    exact ⟨q, hq, Option.map_eq_none_iff.mp (Option.map_eq_none_iff.mp hmapped)⟩
  have hnodup := hm.books.nodup_company (o := o)
  have hspare : m.resident.get? f = none := hm.books.spare rfl
  generalize (m.ledger (some f) pin).company o = l at *
  have hloop : Action.Meets F (l.forM (mapResident f (1 < l.length))) m'
      (fun _ m'' => Respaced m' m'' l (fun q => q) fun x _ => some (.make f
        ((userFlags ((m.page? x).any Page.writable && !decide (1 < l.length))).put
          .valid true))) R :=
    Respaced.forM hnodup fun x hx s hpage hentry => by
      obtain ⟨q, hq, he⟩ := hpages x hx
      have hq' : s.page? x = some (housed f q) := by
        rw [hpage, h.page, if_pos hx, hq]
        rfl
      have hfloor : (s.floorAt? x.space).isSome := by
        obtain ⟨space, hspace, -⟩ := floorAt?_of_page? hq'
        rw [floorAt?, hspace]
        rfl
      unfold mapResident
      rw [Action.meets_bind_of_ok (ownedPage_eq hq')]
      refine (meets_mapOwner hfloor (hentry.trans ((h.entry x).trans he))).mono
        (fun _ s' hs' => hs'.entry_congr ?_) fun _ _ h => h
      simp only [hq, Option.any_some]
  rw [Action.meets_bind]
  refine hloop.mono (fun _ m₂ h₂ => ?_) fun _ _ h => h
  have hpage := h.page
  have hentry := h.entry
  have hfloor := h.floor
  have hlog := h.log
  obtain ⟨spaces, b, counters, journal, groups, groupIds, rfl⟩ := h.rest
  have hpage₂ := h₂.page
  have hentry₂ := h₂.entry
  have hfloor₂ := h₂.floor
  obtain ⟨spaces₂, rfl⟩ := h₂.rest
  rw [Action.meets_bind]
  refine (meets_recordFrame ?_).mono ?_ fun _ _ h => h
  · exact hspare
  rintro _ _ ⟨resident, rfl, hcrew⟩
  unfold note
  rw [Action.meets_modify]
  refine ⟨rfl, fun x => ?_, fun x => ?_, fun id => ?_, hcrew, rfl, h.groups, h.groupIds, h.live,
    rfl, h.loaded, h.given, (Event.placings_push ..).trans (congrArg (· ++ _) hlog), rfl⟩
  · exact (hpage₂ x).trans (((ite_congr rfl (fun _ => Option.map_id') fun _ => rfl).trans
      (ite_self _)).trans (hpage x))
  · refine (hentry₂ x).trans ?_
    rw [hentry x]
  · exact (hfloor₂ id).trans (hfloor id)

theorem meets_populate_machine (hm : Sound lax m (some f) pin) (hp : m.page? o = some p)
    (hframe : p.frame = none) (hzero : m.frames.bytes? f = some .zero) :
    Action.Meets (Oversized lax (p.Fits m.backing.initial)) (populate o f) m
      (fun _ m' => FilledWith m m' o f ((m.ledger (some f) pin).company o) p)
      (fun cause m' => cause.IsLoading ∧ LoadFailed m m' p f) := by
  unfold populate
  rw [Action.meets_bind]
  refine (meets_loadInto hm hp hzero).mono (fun group m₁ h₁ => ?_) fun _ _ h => h
  obtain ⟨rfl, h₁⟩ := h₁
  cases hgroup : p.group with
  | some gid =>
    refine (meets_rejoin hm hp hgroup h₁).bind ?_ fun _ _ h => h
    rintro l m₂ ⟨rfl, h₂⟩
    exact h₂.meets_map hm hp hframe
  | none =>
    have hcompany : (m.ledger (some f) pin).company o = [o] := by
      unfold Ledger.company
      rw [group_ledger, groupOf, hp, Option.bind_some, hgroup]
    have h₂ := h₁.gathered hm.kept hp hgroup
    rw [← hcompany] at h₂
    have := h₂.meets_map (F := Oversized lax (p.Fits m.backing.initial))
      (R := fun cause m' => cause.IsLoading ∧ LoadFailed m m' p f) hm hp hframe
    rw [hcompany] at this ⊢
    exact this

/-! ## The ledger of a filled frame -/

theorem has_userFlags (w : Bool) :
    (userFlags w).has .writable = w ∧ (userFlags w).has .dirty = false := by
  cases w <;> decide

/-- What a new user mapping grants. -/
theorem grant_make (hf : f < Entry.frameLimit) (w : Bool) :
    (Entry.make f ((userFlags w).put .valid true)).grant = ⟨f, w, false⟩ := by
  simp [Entry.grant, Entry.frame_make hf, Flags.has_put, has_userFlags]

/-- What is in the file of a window is in the file of the window once it is loaded. -/
theorem window?_loaded {c : Content} {w : FileWindow} (h : c.loaded.window? = some w) :
    c.window? = some w := by
  cases c with
  | anon a => cases h
  | file w' => exact h
  | uninit t g => cases t <;> cases g <;> first | exact h | cases h

/-- The frame numbers of the pool fit an entry. -/
theorem Kept.lt_frameLimit (hk : m.Kept lax) (hf : m.frames.Held f) : f < Entry.frameLimit :=
  Nat.lt_of_lt_of_le (hk.frames.lt_total hf) hk.fits

theorem FilledWith.ledger (h : FilledWith m m' o f ((m.ledger (some f) pin).company o) p)
    (hm : Sound lax m (some f) pin) (hp : m.page? o = some p) :
    m'.ledger none pin = ((m.ledger (some f) pin).fill f ((m.ledger (some f) pin).company o)
      (p.located m.backing.files)).note (.claimed o f) := by
  have hall := fun x => hm.books.page_of_company (o := o) (x := x) (page_ledger_of_page? hp)
  have hheld := hm.held_of_hand
  have hstay : ∀ x, _ = (m.ledger (some f) pin).page x :=
    hm.kept.page_ledger_of_extends h.loaded.files
  generalize (m.ledger (some f) pin).company o = l at *
  apply Ledger.ext
  case config => exact h.config
  case page =>
    funext x
    show (m'.page? x).map (Page.located m'.backing.files) = _
    have hstay := hstay x
    rw [h.page]
    by_cases hx : x ∈ l
    · obtain ⟨q, hq, hqp⟩ := Option.map_eq_some_iff.mp (hall x hx)
      rw [hq, hall x hx] at hstay
      rw [if_pos hx, hq]
      simp only [Option.map_some, Ledger.note, Ledger.fill, if_pos hx, Option.some.injEq] at hstay ⊢
      rw [← hstay]
      unfold Page.located Page.loadedInto
      simp only [Content.located_loaded]
    · rw [if_neg hx, hstay]
      simp only [Ledger.note, Ledger.fill, if_neg hx]
  case grant =>
    funext x
    show (m'.entryAt? x).map Entry.grant = _
    rw [h.entry]
    by_cases hx : x ∈ l
    · obtain ⟨q, hq, hqp⟩ := Option.map_eq_some_iff.mp (hall x hx)
      have hw : q.writable = p.writable := congrArg (·.writable) hqp
      simp only [Ledger.note, Ledger.fill, if_pos hx, hq, Option.any_some, Option.map_some, hw,
        grant_make (hm.kept.lt_frameLimit hheld)]
      rfl
    · simp only [Ledger.note, Ledger.fill, if_neg hx]
      rfl
  case crew => exact funext h.crew
  case team => exact funext h.groups
  case held =>
    show m'.frames.Held = m.frames.Held
    rw [h.frames]
    exact funext fun x => propext (FramePool.held_setBytes _ _ _ _)
  case bytes =>
    funext x
    show (m'.frames.bytes? x).getD .zero = if x = f then (m.ledger (some f) pin).backed _
      else (m.frames.bytes? x).getD .zero
    rw [h.frames, FramePool.bytes?_setBytes, backed_ledger]
    by_cases hx : x = f
    · subst hx
      rw [if_pos ⟨rfl, hm.kept.frames.lt_total hheld⟩, if_pos rfl, Option.getD_some]
    · rw [if_neg fun hc => hx hc.1.symm, if_neg hx]
  case occupied =>
    funext s
    refine (h.loaded.occupied s).trans ?_
    simp only [Ledger.note, Ledger.fill, Page.slot_located]
    rfl
  case swapped => exact funext h.loaded.content
  case file => exact h.loaded.file
  case initial => exact funext h.loaded.initial
  case floor => exact funext h.floor
  case hand => rfl
  case pin => rfl
  case log => exact h.log

/-- What loading did to the backing stores leaves the machine in order. -/
theorem Kept.initializers_of_loaded {b : Backing} (hk : m.Kept lax) (h : m.backing.Loaded b p) :
    lax .outOfBounds ∨ ∀ (n : Nat) (i : Initializer), b.initializers[n]? = some i →
      i.content.size ≤ pageSize := by
  refine hk.initializers.imp_right fun hsmall n i hi => ?_
  have := h.initial n
  rw [hi, Option.map_some] at this
  obtain ⟨j, hj, hji⟩ := Option.map_eq_some_iff.mp this.symm
  rw [← hji]
  exact hsmall n j hj

theorem FilledWith.kept {l : List Owner} (h : FilledWith m m' o f l p) (hk : m.Kept lax) :
    m'.Kept lax where
  frames := h.frames ▸ hk.frames.setBytes _ _
  fits := by
    rw [h.frames, FramePool.total_setBytes]
    exact hk.fits
  groupIds := h.groupIds
  groups g := by
    rw [h.live, h.groups, hk.groups]
    by_cases hg : p.group = some g <;> simp [hg]
  spaceIds := h.spaceIds ▸ hk.spaceIds
  spaces id := by
    rw [h.spaceIds, h.floor]
    exact hk.spaces id
  floors hv := hk.floors (h.floor _ ▸ hv)
  swap := h.loaded.swap
  windows {x q w} hx hw := by
    rw [h.page] at hx
    split at hx
    · obtain ⟨q', hq', rfl⟩ := Option.map_eq_some_iff.mp hx
      exact (hk.windows hq' (window?_loaded hw)).extends h.loaded.files
    · exact (hk.windows hx hw).extends h.loaded.files
  initializers := hk.initializers_of_loaded h.loaded
  numbers := h.numbers ▸ hk.numbers

/-- A page that could not be loaded holds no slot, so only the frame in the hand has changed. -/
theorem LoadFailed.ledger (h : LoadFailed m m' p f) (hm : Sound lax m (some f) pin) :
    ∃ b, m'.ledger (some f) pin = (m.ledger (some f) pin).overwrite f b := by
  have hslot := h.fallible.slot_eq_none
  have hloaded := h.loaded
  have hstay : ∀ x, _ = (m.ledger (some f) pin).page x :=
    hm.kept.page_ledger_of_extends hloaded.files
  obtain ⟨b, frame, rfl⟩ := h.rest
  refine ⟨frame, ?_⟩
  rw [← ledger_setBytes (hm.kept.frames.lt_total hm.held_of_hand)]
  apply Ledger.ext
  case page => exact funext hstay
  case occupied =>
    funext s
    refine (hloaded.occupied s).trans ?_
    simp only [hslot]
    exact Bool.and_true _
  case swapped => exact funext hloaded.content
  case file => exact hloaded.file
  case initial => exact funext hloaded.initial
  all_goals rfl

theorem LoadFailed.kept (h : LoadFailed m m' p f) (hk : m.Kept lax) : m'.Kept lax := by
  have hloaded := h.loaded
  obtain ⟨b, frame, rfl⟩ := h.rest
  exact { hk.setBytes f frame with
    swap := hloaded.swap
    windows := fun {x q w} hx hw => (hk.windows (o := x) hx hw).extends hloaded.files
    initializers := hk.initializers_of_loaded hloaded }

/-! ## Claiming -/

/-- **Filling a frame.** The slot of the page becomes free. -/
theorem meets_populate (hm : Sound lax m (some f) none) (hp : m.page? o = some p)
    (hframe : p.frame = none) (hzero : m.frames.bytes? f = some .zero) :
    Action.Meets (Oversized lax (p.Fits m.backing.initial)) (populate o f) m
      (fun _ m' => (m'.Kept lax ∧ (p.located m.backing.files).GivenBy m.backing.files.file ∧
        m'.ledger none none = ((m.ledger (some f) none).fill f ((m.ledger (some f) none).company o)
          (p.located m.backing.files)).note (.claimed o f)) ∧
        ∀ s, p.slot = some s → m'.backing.swap.occupied s = false)
      (fun cause m' => cause.IsLoading ∧ p.IsFallible ∧ m'.Kept lax ∧
        (∃ b, m'.ledger (some f) none = (m.ledger (some f) none).overwrite f b) ∧
        m'.page? = m.page?) := by
  refine (meets_populate_machine hm hp hframe hzero).mono (fun _ m' h => ?_) fun cause m' h => ?_
  · exact ⟨⟨h.kept hm.kept, h.given, h.ledger hm hp⟩, fun s hs => by simp [h.loaded.occupied, hs]⟩
  · obtain ⟨b, frame, heq⟩ := h.2.rest
    exact ⟨h.1, h.2.fallible, h.2.kept hm.kept, h.2.ledger hm, by rw [heq]; rfl⟩

/-- Giving back a frame that is handed out. -/
theorem meets_releaseFrame {F : Violation → Machine → Prop} {R : Refusal → Machine → Prop}
    (hk : m.Kept lax)
    (hf : m.frames.Held f) :
    Action.Meets F (releaseFrame f) m
      (fun _ m' => ∃ frames, m' = { m with frames } ∧ m'.Kept lax ∧
        (∀ x, frames.Held x ↔ m.frames.Held x ∧ x ≠ f) ∧
        ∀ x, frames.bytes? x = m.frames.bytes? x) R := by
  obtain ⟨frames, hrelease, hvalid, hheld, htotal, hbytes⟩ := hk.frames.release hf
  unfold releaseFrame
  simp only [Action.meets_bind, Action.meets_get, hrelease]
  exact ⟨frames, rfl, { hk with frames := hvalid, fits := htotal ▸ hk.fits }, hheld, hbytes⟩

/-- Giving back the frame in the hand. -/
theorem ledger_giveBack {frames : FramePool} (hheld : ∀ x, frames.Held x ↔ m.frames.Held x ∧ x ≠ f)
    (hbytes : ∀ x, frames.bytes? x = m.frames.bytes? x) :
    ({ m with frames } : Machine).ledger none pin = (m.ledger (some f) pin).giveBack f := by
  apply Ledger.ext
  case held => exact funext fun x => propext (hheld x)
  case bytes => exact funext fun x => congrArg (Option.getD · _) (hbytes x)
  all_goals rfl

theorem meets_registeredPage {F : Violation → Machine → Prop} (m : Machine) (o : Owner) :
    Action.Meets F (registeredPage o) m (fun p m' => m' = m ∧ m.page? o = some p)
      (fun cause m' => m' = m ∧ (cause.isInternal = true → m.floorAt? o.space = none)) := by
  unfold registeredPage space
  simp only [Action.meets_bind, Action.meets_get]
  rw [Action.meets_require]
  refine ⟨fun space hspace => ?_, fun hnone => ⟨rfl, fun _ => by rw [floorAt?, hnone]; rfl⟩⟩
  rw [Action.meets_require]
  refine ⟨fun p hp => ⟨rfl, ?_⟩, fun _ => ⟨rfl, fun hinternal => by cases hinternal⟩⟩
  rw [page?_eq, hspace]
  exact hp

/-- Claiming a page moves contents only. -/
theorem Reaches.shifts_of_claims (h : Reaches lax (Ledger.Claims · o f) m m') :
    Reaches lax Ledger.Shifts m m' := h.mono fun _ _ => Ledger.Claims.trace

/-- A page that was claimed is in its frame. -/
theorem Reaches.frameOf_of_claims (h : Reaches lax (Ledger.Claims · o f) m m') :
    m'.frameOf o = some f := by
  rw [← @frame_ledger _ none none]
  exact h.told.frame

/-- A violation that is allowed, and leaves the machine in order unless accesses may go out of
bounds. -/
def BreaksOff (lax : Tolerance) (v : Violation) (m : Machine) : Prop :=
  lax v ∧ (lax .outOfBounds ∨ Sound lax m none none)

/-- The frame `f` was acquired for the page of `o`, which could not be loaded, and given back. -/
structure Forgone (lax : Tolerance) (m m' : Machine) (o : Owner) (f : FrameNum) : Prop where
  acquired : ∃ m₁, acquireFrame m = .ok f m₁
  reaches : Reaches lax (Ledger.Forgoes · f ·) m m'
  victim : m.frames.Held f ↔ m.frames.free = 0
  page : m'.page? o = m.page? o

/-- **Claiming a page that is registered.** It is refused for want of a frame, or because the page
cannot be loaded. No page changes as its space sees it, also if the claim is refused. It goes out of
bounds only if the page does not fit in a frame. -/
theorem meets_claim_of_page (hm : Sound lax m none none) (hp : m.page? o = some p) :
    Action.Meets (fun v m' => Overrun lax ((m.ledger none none).Admits o) v ∧ BreaksOff lax v m')
      (claim o) m
      (fun f m' => Reaches lax (Ledger.Claims · o f) m m' ∧
        ∀ s, p.slot = some s → m'.backing.swap.occupied s = false)
      (fun cause m' => Reaches lax Ledger.Shifts m m' ∧
        (Exhausted m cause ∧ Scanned m m' ∨
          cause.IsLoading ∧ p.IsFallible ∧ ∃ f, Forgone lax m m' o f)) := by
  unfold claim
  rw [Action.meets_bind_of_ok (registeredPage_eq hp)]
  cases hframe : p.frame with
  | some f =>
    refine ⟨⟨hm.kept, .stays ?_⟩, fun s hs => ?_⟩
    · exact (frame_ledger_of_page? hp).trans hframe
    · rw [(hm.shaped hp).slot_eq_none hframe] at hs
      cases hs
  | none =>
    have hnone : (m.ledger none none).frame o = none := (frame_ledger_of_page? hp).trans hframe
    simp only [Action.meets_bind, Action.meets_get, Action.meets_ite]
    refine ⟨fun hmapped => ?_, fun _ => ?_⟩
    · have hentry := (hm.frame_entryAt? o).trans ((frameOf_of_page? hp).trans hframe)
      rw [Option.map_eq_none_iff.mp hentry] at hmapped
      cases hmapped
    refine ((meets_acquireFrame hm).named.relax
      fun v m₁ h => ⟨h.1.mono Ledger.Admits.fitted, h.1.allowed, Or.inr h.2⟩).mono
      (fun f m₁ h₁ => ?_) fun cause m₁ h₁ => ⟨.of_idle hm h₁.2.idle, Or.inl h₁⟩
    obtain ⟨⟨⟨hkept, hacq⟩, hvictim, hpages⟩, hacquired⟩ := h₁
    have hm₁ : Sound lax m₁ (some f) none := ⟨hacq.trace.sound hm.books, hkept⟩
    have hpage := hacq.page hm.books hnone
    rw [page_ledger_of_page? hp] at hpage
    obtain ⟨q, hq, hqp⟩ := Option.map_eq_some_iff.mp hpage
    have hqframe : q.frame = none := (congrArg Page.frame hqp).trans hframe
    obtain ⟨b, hb⟩ := hm₁.exists_bytes? hm₁.held_of_hand
    have hzero : b = .zero := (bytes_ledger hb).symm.trans hacq.bytes
    rw [Action.meets_attempt]
    have hfits : (m.ledger none none).Admits o → q.Fits m₁.backing.initial := fun h =>
      Page.fits_located.mp ((h.shifts hacq.trace hm.books).fits _ (page_ledger_of_page? hq))
    refine ((meets_populate hm₁ hq hqframe (hzero ▸ hb)).relax fun v m₂ h =>
      ⟨h.1 ▸ .long h.2.1 (mt hfits h.2.2), h.1 ▸ h.2.1, Or.inl h.2.1⟩).mono
      (fun _ m₂ h₂ => ?_) fun cause m₂ h₂ => ?_
    · obtain ⟨⟨hkept₂, hgiven, hledger⟩, hslot⟩ := h₂
      refine ⟨⟨hkept₂, hledger ▸ .fills hacq (page_ledger_of_page? hq) hqframe rfl hgiven⟩,
        fun s hs => hslot s ?_⟩
      rw [← Page.slot_located m₁.backing.files, hqp, Page.slot_located, hs]
    · obtain ⟨hloading, hfallible, hkept₂, ⟨b, hledger⟩, hpages₂⟩ := h₂
      have hheld : (m₂.ledger (some f) none).held f := by
        rw [hledger]
        exact hm₁.held_of_hand
      rw [Action.meets_bind]
      refine (meets_releaseFrame hkept₂ hheld).mono ?_ fun _ _ h => h
      rintro _ _ ⟨frames, rfl, hkept₃, hafter, hbytes⟩
      have hforgoes : Reaches lax (Ledger.Forgoes · f ·) m { m₂ with frames } := by
        refine ⟨hkept₃, ?_⟩
        rw [ledger_giveBack hafter hbytes, hledger]
        exact .intro b hacq
      refine ⟨hforgoes.mono fun _ _ h => h.trace, Or.inr ⟨hloading, ?_, f, ⟨m₁, hacquired⟩, hforgoes,
        hvictim, ?_⟩⟩
      · exact (Page.isFallible_located.mp (hqp ▸ Page.isFallible_located.mpr hfallible))
      · refine (congrFun hpages₂ o).trans (hpages o ?_)
        rw [frameOf, hp]
        exact hframe

/-- **Claiming a page.** No page changes as its space sees it, also if the claim is refused. -/
theorem meets_claim (hm : Sound lax m none none) (o : Owner) :
    Action.Meets (BreaksOff lax) (claim o) m
      (fun f m' => Reaches lax Ledger.Shifts m m' ∧ m'.frameOf o = some f)
      (fun cause m' => Reaches lax Ledger.Shifts m m' ∧
        (cause.isInternal = true → m.floorAt? o.space = none)) := by
  cases hp : m.page? o with
  | some p =>
    refine ((meets_claim_of_page hm hp).relax fun _ _ h => h.2).mono
      (fun _ _ h => ⟨h.1.shifts_of_claims, h.1.frameOf_of_claims⟩) fun cause m' h => ⟨h.1, ?_⟩
    intro hinternal
    rcases h.2 with ⟨hexhausted, -⟩ | ⟨hloading, -⟩
    · exact absurd hinternal (Refusal.not_isInternal_of_isExhaustion hexhausted.isExhaustion)
    · exact absurd hinternal hloading.not_isInternal
  | none =>
    unfold claim
    rw [Action.meets_bind]
    refine (meets_registeredPage m o).mono ?_ ?_
    · rintro p m ⟨rfl, hp'⟩
      rw [hp] at hp'
      cases hp'
    · rintro cause m ⟨rfl, h⟩
      exact ⟨.refl hm, h⟩

end Machine

end DemandPaging
