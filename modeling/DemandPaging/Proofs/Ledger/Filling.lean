import DemandPaging.Proofs.Ledger.Eviction

/-!
# Filling a frame, in the ledger

The page that is loaded and the members of its eviction group come into one frame together
(`company`). What they had on the backing store is given up: the group is dissolved and the slot is
freed.
-/

namespace DemandPaging

/-- What a content becomes when it is loaded. -/
def Content.loaded : Content → Content
  | .uninit t g => .initialized t g
  | .anon _ => .anon {}
  | .file w => .file w

namespace Page

/-- The page loaded into a frame. -/
def loadedInto (p : Page) (f : FrameNum) : Page :=
  { p with frame := some f, content := p.content.loaded, group := none }

/-- The file of the page gives all of its window, if it has one. -/
def GivenBy (p : Page) (file : Nat → File) : Prop :=
  ∀ w, p.window? = some w → w.GivenBy (file w.handle)

variable {p : Page} {f : FrameNum}

@[simp]
theorem frame_loadedInto : (p.loadedInto f).frame = some f := rfl

@[simp]
theorem group_loadedInto : (p.loadedInto f).group = none := rfl

@[simp]
theorem writable_loadedInto : (p.loadedInto f).writable = p.writable := rfl

/-- What is loaded is loaded for good. -/
theorem content_loadedInto_ne {t : PageType} {g : Origin} :
    (p.loadedInto f).content ≠ .uninit t g := by
  unfold loadedInto
  cases p.content with
  | uninit t' g' => cases t' <;> cases g' <;> nofun
  | anon a => nofun
  | file w => nofun

/-- A loaded page holds no slot. -/
@[simp]
theorem slot_loadedInto : (p.loadedInto f).slot = none := by
  unfold loadedInto Page.slot
  cases p.content with
  | uninit t g => cases t <;> cases g <;> rfl
  | anon a => rfl
  | file w => rfl

theorem shaped_loadedInto : (p.loadedInto f).Shaped := by
  refine ⟨fun hc => absurd hc content_loadedInto_ne, fun hc => absurd hc content_loadedInto_ne,
    fun {a} hc => ?_, nofun⟩
  have hslot := slot_loadedInto (p := p) (f := f)
  rw [Page.slot, hc] at hslot
  simp [hslot]

end Page

namespace Ledger

/-- What is loaded for a page: what it was evicted with, or its first content. -/
def backed (L : Ledger) (p : Page) : PageBytes :=
  match p.content with
  | .uninit _ .zero => .zero
  | .uninit _ (.custom n) => .ofBytes ((L.initial n).getD #[])
  | .uninit _ (.file w) => (L.file w.handle).windowBytes w
  | .anon a => (a.slot.map L.swapped).getD .zero
  | .file w => (L.file w.handle).windowBytes w

/-- The owners that come back together with `o`, who comes first. -/
def company (L : Ledger) (o : Owner) : List Owner :=
  match L.group o with
  | some g => o :: ((L.members g).getD []).filter (· ≠ o)
  | none => [o]

/-- The ledger after `p`, the page of all of `l`, was loaded into the frame `f`. -/
def fill (L : Ledger) (f : FrameNum) (l : List Owner) (p : Page) : Ledger :=
  { L with
    page := fun o => if o ∈ l then some (p.loadedInto f) else L.page o
    grant := fun o =>
      if o ∈ l then some ⟨f, p.writable && !decide (1 < l.length), false⟩ else L.grant o
    crew := fun x => if x = f then some ⟨l, false⟩ else L.crew x
    team := fun g => if p.group = some g then none else L.team g
    bytes := fun x => if x = f then L.backed p else L.bytes x
    occupied := fun s => L.occupied s && !decide (p.slot = some s)
    hand := none }

section

variable {L : Ledger} {f : FrameNum} {l : List Owner} {o : Owner} {p : Page}

theorem mem_company_self : o ∈ L.company o := by
  unfold company
  split <;> simp

/-- The company of a page is its group, if it has one. -/
theorem Sound.mem_company (h : L.Sound) {x : Owner} :
    x ∈ L.company o ↔ x = o ∨ ∃ g, L.group o = some g ∧ L.group x = some g := by
  unfold company
  cases hg : L.group o with
  | none => simp
  | some g =>
    obtain ⟨s, hs⟩ := h.teams.listed hg
    simp only [List.mem_cons, hs, Option.getD_some, List.mem_filter, decide_eq_true_eq,
      h.teams.mem hs x, Option.some.injEq]
    grind

theorem Sound.nodup_company (h : L.Sound) : (L.company o).Nodup := by
  unfold company
  cases hg : L.group o with
  | none => simp
  | some g =>
    obtain ⟨s, hs⟩ := h.teams.listed hg
    simp only [hs, Option.getD_some]
    exact List.nodup_cons.mpr ⟨by simp, (h.teams.nodup hs).filter _⟩

/-- All who come back together have the same page. -/
theorem Sound.page_of_company (h : L.Sound) (hp : L.page o = some p) {x : Owner}
    (hx : x ∈ L.company o) : L.page x = some p := by
  rcases h.mem_company.mp hx with rfl | ⟨g, ho, hx⟩
  · exact hp
  · rw [← hp]
    exact h.teamAlike hx ho

theorem frame_fill (x : Owner) :
    (L.fill f l p).frame x = if x ∈ l then some f else L.frame x := by
  by_cases hx : x ∈ l <;> simp [frame, fill, hx]

theorem group_fill (x : Owner) :
    (L.fill f l p).group x = if x ∈ l then none else L.group x := by
  by_cases hx : x ∈ l <;> simp [group, fill, hx]

theorem slot_fill (x : Owner) :
    (L.fill f l p).slot x = if x ∈ l then none else L.slot x := by
  by_cases hx : x ∈ l <;> simp [Ledger.slot, fill, hx]

theorem owners_fill (x : FrameNum) :
    (L.fill f l p).owners x = if x = f then some l else L.owners x := by
  by_cases hx : x = f <;> simp [owners, fill, hx]

theorem members_fill (g : Nat) :
    (L.fill f l p).members g = if p.group = some g then none else L.members g := by
  by_cases hg : p.group = some g <;> simp [members, fill, hg]

/-- The group of the page is dissolved, as all its members are loaded. -/
theorem Sound.teams_fill (h : L.Sound) (hp : L.page o = some p) :
    Roster (L.fill f (L.company o) p).members (L.fill f (L.company o) p).group := by
  have hgroup : L.group o = p.group := group_of_page hp
  cases hpg : p.group with
  | none =>
    refine h.teams.congr (fun g => ?_) (fun x => ?_)
    · rw [members_fill, hpg]
      simp
    · rw [group_fill]
      split
      · rename_i hx
        exact (hpg.symm.trans (group_of_page (h.page_of_company hp hx)).symm)
      · rfl
  | some g =>
    obtain ⟨s, hs⟩ := h.teams.listed (hgroup.trans hpg)
    refine (h.teams.dissolve hs).congr (fun g' => ?_) (fun x => ?_)
    · rw [members_fill, hpg]
      simp [eq_comm]
    · have hiff : x ∈ L.company o ↔ x ∈ s := by
        rw [h.mem_company, h.teams.mem hs x, hgroup, hpg]
        constructor
        · rintro (rfl | ⟨g', hg', hx⟩)
          · exact hgroup.trans hpg
          · rw [hx, hg']
        · exact fun hx => Or.inr ⟨g, rfl, hx⟩
      rw [group_fill]
      simp only [hiff]

/-- The slot of the page is free, as nobody else held it. -/
theorem Sound.taken_fill (h : L.Sound) (hp : L.page o = some p) (s : Nat) :
    (L.fill f (L.company o) p).occupied s = true ↔
      ∃ x, (L.fill f (L.company o) p).slot x = some s := by
  have hslot : ∀ x ∈ L.company o, L.slot x = p.slot := fun x hx =>
    slot_of_page (h.page_of_company hp hx)
  simp only [slot_fill]
  simp only [Ledger.fill, Bool.and_eq_true, h.taken s, Bool.not_eq_true', decide_eq_false_iff_not]
  constructor
  · rintro ⟨⟨x, hx⟩, hne⟩
    exact ⟨x, by rw [if_neg fun hxl => hne (hslot x hxl ▸ hx), hx]⟩
  · rintro ⟨x, hx⟩
    obtain ⟨hxl, hx⟩ := Option.ite_none_left_eq_some.mp hx
    refine ⟨⟨x, hx⟩, fun hs => hxl (h.mem_company.mpr ?_)⟩
    rcases h.single hx ((slot_of_page hp).trans hs) with rfl | ⟨g, hxg, hog⟩
    · exact Or.inl rfl
    · exact Or.inr ⟨g, hog, hxg⟩

/-- The books accept the loaded pages. -/
theorem Sound.enrolled_fill (h : L.Sound) (hp : L.page o = some p) (x : Owner) (q : Page) :
    (L.fill f (L.company o) p).page x = some q → (L.fill f (L.company o) p).Enrolled x q := by
  intro hx
  simp only [Ledger.fill] at hx
  split at hx
  · rename_i hxl
    have hwas := h.enrolled (h.page_of_company hp hxl)
    obtain rfl := Option.some.inj hx
    exact ⟨hwas.numbered, Page.shaped_loadedInto, fun hc => absurd hc Page.content_loadedInto_ne,
      hwas.living⟩
  · exact (h.enrolled hx).congr rfl rfl

/-- Filling keeps what the books say of frames. The frame goes from the hand into the frame table. -/
theorem Sound.lodged_fill (h : L.Sound) (hp : L.page o = some p) (hframe : p.frame = none)
    (hhand : L.hand = some f) (hpin : L.pin ≠ some f) : (L.fill f (L.company o) p).Lodged := by
  have hout : ∀ x ∈ L.company o, L.frame x = none := fun x hx =>
    (frame_of_page (h.page_of_company hp hx)).trans hframe
  have hempty : L.owners f = none := by rw [owners, h.spare hhand]; rfl
  have hoff := h.frame_ne_hand hhand
  have hself := @mem_company_self L o
  constructor
  case crews => exact (h.crews.form hempty h.nodup_company hout).congr owners_fill frame_fill
  case crewed =>
    have := @h.crewed
    grind [owners_fill]
  case crewAlike =>
    have := @h.crewAlike
    grind [frame_fill, Ledger.fill]
  case mapped =>
    have := h.mapped
    grind [frame_fill, Ledger.fill]
  case writes =>
    intro x q e hx he
    rw [owners_fill]
    by_cases hxl : x ∈ L.company o
    · simp only [Ledger.fill, hxl, if_true, Option.some.injEq] at hx he
      subst hx he
      simp [Roster.eq_singleton_iff hxl]
    · simp only [Ledger.fill, hxl, if_false] at hx he
      have hne : e.frame ≠ f := fun hef => hoff x (hef ▸ h.frame_of_grant he)
      rw [if_neg hne]
      exact h.writes hx he
  case dirties =>
    have := @h.dirties
    grind [Ledger.fill]
  case pinned =>
    have := @h.pinned
    grind [Ledger.fill]
  case holds =>
    have := @h.holds
    grind [Ledger.fill]
  case spare => grind [Ledger.fill]

/-- Filling keeps what the books say of groups and slots. Everyone who was evicted together comes back
together. -/
theorem Sound.stowed_fill (h : L.Sound) (hp : L.page o = some p) :
    (L.fill f (L.company o) p).Stowed := by
  constructor
  case teams => exact h.teams_fill hp
  case teamed =>
    have := @h.teamed
    grind [members_fill]
  case teamAlike =>
    have := @h.teamAlike
    grind [group_fill, Ledger.fill]
  case teamSlot =>
    have := @h.teamSlot
    grind [group_fill, slot_fill, Ledger.fill]
  case taken => exact h.taken_fill hp
  case single =>
    intro x y s hx hy
    rw [slot_fill] at hx hy
    rw [group_fill, group_fill]
    have := @h.single
    grind

/-- **Filling keeps the books.** The frame is the one in the hand. -/
theorem Sound.fill (h : L.Sound) (hp : L.page o = some p) (hframe : p.frame = none)
    (hhand : L.hand = some f) (hpin : L.pin ≠ some f) :
    (L.fill f (L.company o) p).Sound :=
  .of_parts (h.enrolled_fill hp) (h.lodged_fill hp hframe hhand hpin) (h.stowed_fill hp)

end

end Ledger

end DemandPaging
