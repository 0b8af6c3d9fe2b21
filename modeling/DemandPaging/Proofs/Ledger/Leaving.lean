import DemandPaging.Proofs.Ledger.Basic

/-!
# Leaving, in the ledger

A page that is unregistered leaves the frame or the group it is in. Who is left alone in a frame may
write again if the page is writable; who is left alone in a group is in no group any more.
-/

namespace DemandPaging.Ledger

/-- What `x` is granted once only `rest`, whose page is `p`, are left in a frame. -/
def regrant (L : Ledger) (rest : List Owner) (p : Page) (x : Owner) : Option Grant :=
  if rest = [x] then (L.grant x).map fun e => { e with writable := e.writable || p.writable }
  else L.grant x

/-- The ledger after `o`, whose page is `p`, left the frame `f`, in which `rest` stay. The last one
takes the frame along. -/
def leaveFrame (L : Ledger) (o : Owner) (p : Page) (f : FrameNum) (rest : List Owner) : Ledger :=
  { L with
    page := fun x => if x = o then none else L.page x
    grant := fun x => if x = o then none else L.regrant rest p x
    crew := fun x =>
      if x = f then
        (if rest = [] then none else (L.crew f).map fun c => { c with owners := rest })
      else L.crew x
    held := fun x => L.held x ∧ ¬(rest = [] ∧ x = f) }

/-- The ledger after `o` left the group `g`, in which `rest` stay. -/
def leaveTeam (L : Ledger) (o : Owner) (g : Nat) (rest : List Owner) : Ledger :=
  { L with
    page := fun x =>
      if x = o then none
      else if rest = [x] then (L.page x).map fun p => { p with group := none }
      else L.page x
    team := fun x =>
      if x = g then
        (if 1 < rest.length then (L.team g).map fun G => { G with members := rest } else none)
      else L.team x }

/-- The ledger after `o` left, whose page `p` was in no frame and in no group. -/
def leaveAlone (L : Ledger) (o : Owner) (p : Page) : Ledger :=
  { L with
    page := fun x => if x = o then none else L.page x
    occupied := fun s => L.occupied s && !decide (p.slot = some s) }

section

variable {L L' : Ledger} {o : Owner} {p : Page} {f : FrameNum} {rest l : List Owner} {g : Nat}

/-- The books accept all pages but the one that left, if they did before. -/
theorem Sound.enrolled_of_left (h : L.Sound)
    (hpage : ∀ x, L'.page x = if x = o then none else L.page x) (hinitial : L'.initial = L.initial)
    (hfloor : L'.floor = L.floor) (x : Owner) (q : Page) :
    L'.page x = some q → L'.Enrolled x q := by
  intro hq
  rw [hpage] at hq
  exact (h.enrolled (Option.ite_none_left_eq_some.mp hq).2).congr hinitial hfloor

/-! ### A frame -/

theorem frame_leaveFrame (x : Owner) :
    (L.leaveFrame o p f rest).frame x = if x = o then none else L.frame x := by
  by_cases hx : x = o <;> simp [frame, leaveFrame, hx]

theorem group_leaveFrame (x : Owner) :
    (L.leaveFrame o p f rest).group x = if x = o then none else L.group x := by
  by_cases hx : x = o <;> simp [group, leaveFrame, hx]

theorem slot_leaveFrame (x : Owner) :
    (L.leaveFrame o p f rest).slot x = if x = o then none else L.slot x := by
  by_cases hx : x = o <;> simp [Ledger.slot, leaveFrame, hx]

theorem owners_leaveFrame (hl : L.owners f = some l) (x : FrameNum) :
    (L.leaveFrame o p f rest).owners x =
      if x = f then (if rest = [] then none else some rest) else L.owners x := by
  obtain ⟨c, hc, -⟩ := Option.map_eq_some_iff.mp hl
  by_cases hx : x = f
  · by_cases hr : rest = [] <;> simp [owners, leaveFrame, hx, hr, hc]
  · simp [owners, leaveFrame, hx]

/-- Who stays is mapped to the frame it was mapped to, and may write if left alone. -/
theorem regrant_eq_some {x : Owner} {e : Grant} (he : L.regrant rest p x = some e) :
    ∃ d, L.grant x = some d ∧ e.frame = d.frame ∧ e.dirty = d.dirty ∧
      e.writable = (d.writable || (decide (rest = [x]) && p.writable)) := by
  unfold regrant at he
  split at he
  · rename_i hone
    obtain ⟨d, hd, rfl⟩ := Option.map_eq_some_iff.mp he
    exact ⟨d, hd, rfl, rfl, by simp [hone]⟩
  · rename_i hone
    exact ⟨e, he, rfl, rfl, by simp [hone]⟩

theorem frame_regrant (x : Owner) :
    (L.regrant rest p x).map Grant.frame = (L.grant x).map Grant.frame := by
  unfold regrant
  split
  · cases L.grant x <;> rfl
  · rfl

/-- Who stays in a frame stays listed for it, and the last one takes the list along. -/
theorem Sound.crews_leaveFrame (h : L.Sound) (hof : L.frame o = some f)
    (hl : L.owners f = some l) :
    Roster (L.leaveFrame o p f (l.filter (· ≠ o))).owners
      (L.leaveFrame o p f (l.filter (· ≠ o))).frame := by
  by_cases hnil : l.filter (· ≠ o) = []
  · refine (h.crews.dissolve hl).congr (fun x => ?_) (fun x => ?_)
    · rw [owners_leaveFrame hl, if_pos hnil]
    · have hiff : x ∈ l ↔ x = o := by
        refine ⟨fun hx => ?_, fun hx => hx ▸ (h.crews.mem hl o).mpr hof⟩
        by_cases hxo : x = o
        · exact hxo
        · have hmem : x ∈ l.filter (· ≠ o) := by simp [hx, hxo]
          rw [hnil] at hmem
          cases hmem
      rw [frame_leaveFrame]
      simp only [hiff]
  · refine (h.crews.leave hl hof).congr (fun x => ?_) frame_leaveFrame
    rw [owners_leaveFrame hl, if_neg hnil]

/-- Who stays in a frame may write if the page is writable and nobody else stays. -/
theorem Sound.writes_leaveFrame (h : L.Sound) (hp : L.page o = some p) (hf : p.frame = some f)
    (hl : L.owners f = some l) {x : Owner} {q : Page} {e : Grant} (hxo : x ≠ o)
    (hx : L.page x = some q) (he : L.regrant (l.filter (· ≠ o)) p x = some e) :
    e.writable = true ↔ q.writable = true ∧
      (L.leaveFrame o p f (l.filter (· ≠ o))).owners e.frame = some [x] := by
  have hof : L.frame o = some f := (frame_of_page hp).trans hf
  have ho : o ∈ l := (h.crews.mem hl o).mpr hof
  have hrest : ∀ x, x ∈ l.filter (· ≠ o) ↔ x ∈ l ∧ x ≠ o := fun x => by simp
  generalize l.filter (· ≠ o) = rest at hrest he
  obtain ⟨d, hd, hef, -, hew⟩ := regrant_eq_some he
  have hxd := h.frame_of_grant hd
  have hw := h.writes hx hd
  rw [owners_leaveFrame hl, hef]
  by_cases hdf : d.frame = f
  · rw [hdf] at hxd hw
    have hxl : x ∈ l := (h.crews.mem hl x).mpr hxd
    have hxr : x ∈ rest := (hrest x).mpr ⟨hxl, hxo⟩
    obtain rfl : q = p := by
      have := h.crewAlike hxd hof
      rw [hx, hp] at this
      exact Option.some.inj this
    have hshared : l ≠ [x] := by
      rintro rfl
      exact hxo (List.mem_singleton.mp ho).symm
    rw [hl, Option.some.injEq, iff_false_right (fun hc => hshared hc.2)] at hw
    rw [if_pos hdf, if_neg (List.ne_nil_of_mem hxr), Option.some.injEq]
    simp [hew, hw, and_comm]
  · rw [if_neg hdf]
    have hone : rest ≠ [x] := by
      rintro rfl
      have := (h.crews.mem hl x).mp ((hrest x).mp List.mem_cons_self).1
      rw [hxd] at this
      exact hdf (Option.some.inj this)
    simpa [hew, hone] using hw

/-- Leaving a frame keeps what the books say of frames. -/
theorem Sound.lodged_leaveFrame (h : L.Sound) (hp : L.page o = some p) (hf : p.frame = some f)
    (hl : L.owners f = some l) : (L.leaveFrame o p f (l.filter (· ≠ o))).Lodged := by
  have hcrews := h.crews_leaveFrame (p := p) ((frame_of_page hp).trans hf) hl
  have hwrites := @Sound.writes_leaveFrame _ _ _ _ _ h hp hf hl
  obtain ⟨c, hc, -⟩ := Option.map_eq_some_iff.mp hl
  generalize l.filter (· ≠ o) = rest at hcrews hwrites
  constructor
  case crews => exact hcrews
  case crewed =>
    have := @h.crewed
    intro x s hx
    rw [owners_leaveFrame hl] at hx
    grind
  case crewAlike =>
    have := @h.crewAlike
    grind [frame_leaveFrame, Ledger.leaveFrame]
  case mapped =>
    intro x
    rw [frame_leaveFrame]
    by_cases hx : x = o
    · simp [Ledger.leaveFrame, hx]
    · simp only [Ledger.leaveFrame, hx, if_false]
      rw [frame_regrant, h.mapped]
  case writes =>
    intro x q e hx he
    by_cases hxo : x = o
    · simp [Ledger.leaveFrame, hxo] at hx
    · exact hwrites hxo ((if_neg hxo).symm.trans hx) ((if_neg hxo).symm.trans he)
  case dirties =>
    intro x q e hx he hdirty
    by_cases hxo : x = o
    · simp [Ledger.leaveFrame, hxo] at hx
    · simp only [Ledger.leaveFrame, hxo, if_false] at hx he
      obtain ⟨d, hd, -, hed, -⟩ := regrant_eq_some he
      exact h.dirties hx hd (hed ▸ hdirty)
  case pinned =>
    have := @h.pinned
    grind [Ledger.leaveFrame]
  case holds =>
    have := h.holds
    have := @h.spare f
    grind [Ledger.leaveFrame]
  case spare =>
    have := @h.spare
    grind [Ledger.leaveFrame]

/-- **Leaving a frame keeps the books.** A page in a frame is in no group and holds no slot. -/
theorem Sound.leaveFrame (h : L.Sound) (hp : L.page o = some p) (hf : p.frame = some f)
    (hl : L.owners f = some l) :
    (L.leaveFrame o p f (l.filter (· ≠ o))).Sound := by
  have hslot : L.slot o = none := (slot_of_page hp).trans ((h.shaped hp).slot_eq_none hf)
  have hgroup : L.group o = none := (group_of_page hp).trans ((h.shaped hp).group_eq_none hf)
  refine .of_parts (h.enrolled_of_left (fun _ => rfl) rfl rfl) (h.lodged_leaveFrame hp hf hl)
    (h.stowed.congr rfl rfl (fun x => ?_) (fun x => ?_) fun {x g} hx => if_neg ?_)
  · rw [group_leaveFrame]
    split
    · rename_i hx
      rw [hx, hgroup]
    · rfl
  · rw [slot_leaveFrame]
    split
    · rename_i hx
      rw [hx, hslot]
    · rfl
  · rintro rfl
    rw [hgroup] at hx
    cases hx

/-! ### A group -/

theorem frame_leaveTeam (hout : L.frame o = none) (x : Owner) :
    (L.leaveTeam o g rest).frame x = L.frame x := by
  unfold frame at hout
  unfold frame leaveTeam
  by_cases hx : x = o
  · simp [hx, hout]
  · by_cases hr : rest = [x] <;> simp only [hx, hr, if_true, if_false]
    cases L.page x <;> rfl

theorem group_leaveTeam (x : Owner) :
    (L.leaveTeam o g rest).group x =
      if x = o ∨ rest = [x] then none else L.group x := by
  unfold group leaveTeam
  by_cases hx : x = o
  · simp [hx]
  · by_cases hr : rest = [x] <;> simp only [hx, hr, if_true, if_false, or_self, or_true]
    cases L.page x <;> rfl

theorem slot_leaveTeam (x : Owner) :
    (L.leaveTeam o g rest).slot x = if x = o then none else L.slot x := by
  unfold Ledger.slot leaveTeam
  by_cases hx : x = o
  · simp [hx]
  · by_cases hr : rest = [x] <;> simp only [hx, hr, if_true, if_false]
    cases L.page x <;> rfl

theorem members_leaveTeam (hl : L.members g = some l) (x : Nat) :
    (L.leaveTeam o g rest).members x =
      if x = g then (if 1 < rest.length then some rest else none) else L.members x := by
  obtain ⟨G, hG, -⟩ := Option.map_eq_some_iff.mp hl
  by_cases hx : x = g
  · by_cases hr : 1 < rest.length <;> simp [members, leaveTeam, hx, hr, hG]
  · simp [members, leaveTeam, hx]

/-- A page that stays is the page it was, if not in the group any more. -/
theorem page_leaveTeam {x : Owner} {q : Page} (hq : (L.leaveTeam o g rest).page x = some q) :
    ∃ q', L.page x = some q' ∧ (q = q' ∨ q = { q' with group := none }) := by
  unfold leaveTeam at hq
  obtain ⟨-, hq⟩ := Option.ite_none_left_eq_some.mp hq
  split at hq
  · obtain ⟨q', hq', rfl⟩ := Option.map_eq_some_iff.mp hq
    exact ⟨q', hq', Or.inr rfl⟩
  · exact ⟨q, hq, Or.inl rfl⟩

theorem page_leaveTeam_of_ne {x : Owner} (hx : ¬(x = o ∨ rest = [x])) :
    (L.leaveTeam o g rest).page x = L.page x := by
  rw [not_or] at hx
  simp [leaveTeam, hx]

/-- Who stays in a group stays listed for it, and a single one is in no group any more. -/
theorem Sound.teams_leaveTeam (h : L.Sound) (hog : L.group o = some g)
    (hl : L.members g = some l) :
    Roster (L.leaveTeam o g (l.filter (· ≠ o))).members
      (L.leaveTeam o g (l.filter (· ≠ o))).group := by
  by_cases hmany : 1 < (l.filter (· ≠ o)).length
  · refine (h.teams.leave hl hog).congr (fun x => ?_) (fun x => ?_)
    · rw [members_leaveTeam hl, if_pos hmany]
    · have hx : l.filter (· ≠ o) ≠ [x] := fun hx => by
        rw [hx] at hmany
        exact Nat.lt_irrefl 1 hmany
      rw [group_leaveTeam]
      simp only [hx, or_false]
  · refine (h.teams.dissolve hl).congr (fun x => ?_) (fun x => ?_)
    · rw [members_leaveTeam hl, if_neg hmany]
    · have hiff : x = o ∨ l.filter (· ≠ o) = [x] ↔ x ∈ l := by
        constructor
        · rintro (rfl | hx)
          · exact (h.teams.mem hl x).mpr hog
          · have hmem : x ∈ l.filter (· ≠ o) := hx ▸ List.mem_cons_self
            exact (List.mem_filter.mp hmem).1
        · intro hx
          by_cases hxo : x = o
          · exact Or.inl hxo
          · have hmem : x ∈ l.filter (· ≠ o) := by simp [hx, hxo]
            exact Or.inr ((Roster.eq_singleton_iff hmem).mpr hmany)
      rw [group_leaveTeam]
      simp only [hiff]

/-- Two that hold one slot are still in one group: a group of which one alone stays had no other. -/
theorem Sound.single_leaveTeam (h : L.Sound) (hl : L.members g = some l) {x x' : Owner} {s : Nat}
    (hx : (L.leaveTeam o g (l.filter (· ≠ o))).slot x = some s)
    (hx' : (L.leaveTeam o g (l.filter (· ≠ o))).slot x' = some s) :
    x = x' ∨ ∃ g', (L.leaveTeam o g (l.filter (· ≠ o))).group x = some g' ∧
      (L.leaveTeam o g (l.filter (· ≠ o))).group x' = some g' := by
  rw [slot_leaveTeam] at hx hx'
  obtain ⟨hxo, hx⟩ := Option.ite_none_left_eq_some.mp hx
  obtain ⟨hxo', hx'⟩ := Option.ite_none_left_eq_some.mp hx'
  rw [group_leaveTeam, group_leaveTeam]
  have hrest : ∀ z, z ∈ l.filter (· ≠ o) ↔ L.group z = some g ∧ z ≠ o := fun z => by
    rw [← h.teams.mem hl z]
    simp
  generalize l.filter (· ≠ o) = rest at hrest
  rcases h.single hx hx' with heq | ⟨g', hxg, hxg'⟩
  · exact Or.inl heq
  · by_cases hgg : g' = g
    · subst hgg
      have hmem := (hrest x).mpr ⟨hxg, hxo⟩
      have hmem' := (hrest x').mpr ⟨hxg', hxo'⟩
      by_cases hmany : 1 < rest.length
      · have hn : ∀ z, rest ≠ [z] := by
          rintro z rfl
          exact Nat.lt_irrefl 1 hmany
        exact Or.inr ⟨g', by simp [hxo, hn, hxg], by simp [hxo', hn, hxg']⟩
      · exact Or.inl (Roster.eq_of_mem_of_short hmany hmem hmem')
    · have hn : ∀ {z}, L.group z = some g' → rest ≠ [z] := by
        rintro z hz rfl
        have hzg := ((hrest z).mp List.mem_cons_self).1
        exact hgg (Option.some.inj (hz.symm.trans hzg))
      exact Or.inr ⟨g', by simp [hxo, hn hxg, hxg], by simp [hxo', hn hxg', hxg']⟩

/-- A slot stays occupied while somebody in the group holds it. -/
theorem Sound.taken_leaveTeam (h : L.Sound) (hog : L.group o = some g) (hl : L.members g = some l)
    (s : Nat) :
    L.occupied s = true ↔ ∃ x, (L.leaveTeam o g (l.filter (· ≠ o))).slot x = some s := by
  rw [h.taken s]
  simp only [slot_leaveTeam]
  constructor
  · rintro ⟨x, hx⟩
    by_cases hxo : x = o
    · obtain ⟨y, hy⟩ :=
        List.exists_mem_of_ne_nil _ (Roster.filter_ne_nil o (h.teams.nodup hl) (h.teamed hl))
      obtain ⟨hyl, hyo⟩ : y ∈ l ∧ y ≠ o := by simpa using hy
      have hyg := (h.teams.mem hl y).mp hyl
      refine ⟨y, ?_⟩
      rw [if_neg hyo, Ledger.slot, h.teamAlike hyg hog, ← hxo]
      exact hx
    · exact ⟨x, by rw [if_neg hxo, hx]⟩
  · rintro ⟨x, hx⟩
    exact ⟨x, (Option.ite_none_left_eq_some.mp hx).2⟩

/-- Leaving a group keeps what the books say of groups and slots. -/
theorem Sound.stowed_leaveTeam (h : L.Sound) (hog : L.group o = some g)
    (hl : L.members g = some l) : (L.leaveTeam o g (l.filter (· ≠ o))).Stowed := by
  constructor
  case teams => exact h.teams_leaveTeam hog hl
  case teamed =>
    intro x s hx
    rw [members_leaveTeam hl] at hx
    have := @h.teamed
    grind
  case teamAlike =>
    intro x x' g' hx hx'
    rw [group_leaveTeam] at hx hx'
    obtain ⟨hn, hx⟩ := Option.ite_none_left_eq_some.mp hx
    obtain ⟨hn', hx'⟩ := Option.ite_none_left_eq_some.mp hx'
    rw [page_leaveTeam_of_ne hn, page_leaveTeam_of_ne hn']
    exact h.teamAlike hx hx'
  case teamSlot =>
    intro x g' G' hG' hx
    rw [group_leaveTeam] at hx
    obtain ⟨hn, hx⟩ := Option.ite_none_left_eq_some.mp hx
    rw [slot_leaveTeam, if_neg fun hxo => hn (Or.inl hxo)]
    unfold Ledger.leaveTeam at hG'
    by_cases hgg : g' = g
    · simp only [hgg, if_true] at hG' hx
      obtain ⟨-, hG'⟩ := Option.ite_none_right_eq_some.mp hG'
      obtain ⟨G, hG, rfl⟩ := Option.map_eq_some_iff.mp hG'
      exact h.teamSlot (G := G) hG hx
    · simp only [hgg, if_false] at hG'
      exact h.teamSlot hG' hx
  case taken => exact h.taken_leaveTeam hog hl
  case single => exact h.single_leaveTeam hl

/-- **Leaving a group keeps the books.** Nobody in a group is in a frame. -/
theorem Sound.leaveTeam (h : L.Sound) (hp : L.page o = some p) (hg : p.group = some g)
    (hl : L.members g = some l) :
    (L.leaveTeam o g (l.filter (· ≠ o))).Sound := by
  have hog : L.group o = some g := (group_of_page hp).trans hg
  have hout : ∀ {x}, L.group x = some g → L.frame x = none := fun {x} hx => by
    rw [frame, h.teamAlike hx hog, hp]
    exact (h.shaped hp).apart (by rw [hg]; rfl)
  refine .of_parts (fun x q hq => ?_)
    (h.lodged.congr rfl rfl rfl rfl rfl (frame_leaveTeam (hout hog)) fun {x f} hx =>
      page_leaveTeam_of_ne ?_)
    (h.stowed_leaveTeam hog hl)
  · obtain ⟨q', hq', rfl | rfl⟩ := page_leaveTeam hq
    · exact (h.enrolled hq').congr rfl rfl
    · exact (h.enrolled hq').ungrouped.congr rfl rfl
  · intro hor
    have hxg : L.group x = some g := by
      rcases hor with rfl | hr
      · exact hog
      · have hmem : x ∈ l.filter (· ≠ o) := hr ▸ List.mem_cons_self
        exact (h.teams.mem hl x).mp (List.mem_filter.mp hmem).1
    rw [hout hxg] at hx
    cases hx

/-! ### Neither -/

theorem slot_leaveAlone (x : Owner) :
    (L.leaveAlone o p).slot x = if x = o then none else L.slot x := by
  by_cases hx : x = o <;> simp [Ledger.slot, leaveAlone, hx]

theorem group_leaveAlone (hog : L.group o = none) (x : Owner) :
    (L.leaveAlone o p).group x = L.group x := by
  by_cases hx : x = o
  · rw [hx, hog]
    simp [group, leaveAlone]
  · simp [group, leaveAlone, hx]

/-- The slot of a page that is in no group is held by nobody else. -/
theorem Sound.taken_leaveAlone (h : L.Sound) (hp : L.page o = some p) (hog : L.group o = none)
    (s : Nat) :
    (L.leaveAlone o p).occupied s = true ↔ ∃ x, (L.leaveAlone o p).slot x = some s := by
  have hos : L.slot o = p.slot := slot_of_page hp
  simp only [slot_leaveAlone]
  simp only [Ledger.leaveAlone, Bool.and_eq_true, h.taken s, Bool.not_eq_true',
    decide_eq_false_iff_not]
  constructor
  · rintro ⟨⟨x, hx⟩, hne⟩
    have hxo : x ≠ o := by
      rintro rfl
      exact hne (hos ▸ hx)
    exact ⟨x, by rw [if_neg hxo, hx]⟩
  · rintro ⟨x, hx⟩
    obtain ⟨hxo, hx⟩ := Option.ite_none_left_eq_some.mp hx
    refine ⟨⟨x, hx⟩, fun hs => ?_⟩
    rcases h.single hx (hos.trans hs) with heq | ⟨g', -, hg'⟩
    · exact hxo heq
    · rw [hog] at hg'
      cases hg'

/-- Leaving from neither keeps what the books say of groups and slots. -/
theorem Sound.stowed_leaveAlone (h : L.Sound) (hp : L.page o = some p) (hog : L.group o = none) :
    (L.leaveAlone o p).Stowed := by
  constructor
  case teams => exact h.teams.congr (fun _ => rfl) (group_leaveAlone hog)
  case teamed => exact h.teamed
  case teamAlike =>
    have := @h.teamAlike
    grind [group_leaveAlone, Ledger.leaveAlone]
  case teamSlot =>
    have := @h.teamSlot
    grind [group_leaveAlone, slot_leaveAlone, Ledger.leaveAlone]
  case taken => exact h.taken_leaveAlone hp hog
  case single =>
    have := @h.single
    grind [group_leaveAlone, slot_leaveAlone]

/-- **Leaving from neither keeps the books.** -/
theorem Sound.leaveAlone (h : L.Sound) (hp : L.page o = some p) (hf : p.frame = none)
    (hg : p.group = none) : (L.leaveAlone o p).Sound := by
  have hof : L.frame o = none := (frame_of_page hp).trans hf
  refine .of_parts (h.enrolled_of_left (fun _ => rfl) rfl rfl)
    (h.lodged.congr rfl rfl rfl rfl rfl (fun x => ?_) fun {x f} hx => if_neg ?_)
    (h.stowed_leaveAlone hp ((group_of_page hp).trans hg))
  · by_cases hx : x = o
    · rw [hx, hof]
      simp [frame, Ledger.leaveAlone]
    · simp [frame, Ledger.leaveAlone, hx]
  · rintro rfl
    rw [hof] at hx
    cases hx

end

end DemandPaging.Ledger
