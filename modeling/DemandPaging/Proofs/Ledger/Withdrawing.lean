import Mathlib.Data.List.Basic
import DemandPaging.Proofs.Ledger.Moves

/-!
# Removing pages in turn, in the ledger

What a list of pages leaves behind that were removed one after the other, in one step for all of them
(`Ledger.Withdrawn`): frames and groups keep their other owners, a frame without owners and a group with
fewer than two members are gone, and what was dirty is in the files.
-/

namespace DemandPaging

/-- A frame without some of its owners. -/
def Frame.leftBy (gone : List Owner) (c : Frame) : Frame :=
  { c with owners := c.owners.filter (· ∉ gone) }

/-- A group without some of its members. -/
def EvictionGroup.leftBy (gone : List Owner) (G : EvictionGroup) : EvictionGroup :=
  { G with members := G.members.filter (· ∉ gone) }

/-- The page, in its group as long as there is such a group. -/
def Page.inTeams (team : Nat → Option EvictionGroup) (p : Page) : Page :=
  { p with group := p.group.filter fun g => (team g).isSome }

theorem Page.inTeams_eq_self {team : Nat → Option EvictionGroup} {p : Page}
    (h : ∀ g, p.group = some g → (team g).isSome) : p.inTeams team = p := by
  have hgroup : p.group.filter (fun g => (team g).isSome) = p.group := by
    cases hg : p.group with
    | none => rfl
    | some g => rw [Option.filter_some, if_pos (h g hg)]
  rw [inTeams, hgroup]

namespace Ledger

variable {L A L' : Ledger} {o x : Owner} {p : Page} {f : FrameNum} {g : Nat} {gone as bs : List Owner}

/-- What is lost when the page of an owner goes unless it is written back: its window and the bytes of
its frame. -/
def unsaved? (L : Ledger) (o : Owner) : Option (FileWindow × PageBytes) :=
  if L.isDirty o then
    (L.page o).bind fun p => p.frame.bind fun f => p.window?.map fun w => (w, L.bytes f)
  else none

/-- The files after bytes were written back to a window. -/
def save (file : Nat → File) (s : FileWindow × PageBytes) : Nat → File := fun i =>
  if i = s.1.handle then ((file i).writeAt s.1.offset (s.2.slice 0 s.1.readBytes)).2 else file i

/-- **Pages were withdrawn** from a ledger. -/
structure Withdrawn (gone : List Owner) (L L' : Ledger) : Prop where
  page : ∀ x, L'.page x = if x ∈ gone then none else (L.page x).map (Page.inTeams L'.team)
  dirty : ∀ x, L'.isDirty x = (decide (x ∉ gone) && L.isDirty x)
  crew : ∀ f, L'.crew f = ((L.crew f).map (Frame.leftBy gone)).filter fun c => c.owners ≠ []
  team : ∀ g, L'.team g =
    ((L.team g).map (EvictionGroup.leftBy gone)).filter fun G => 1 < G.members.length
  file : L'.file = (gone.filterMap L.unsaved?).foldl save L.file
  rest : ∃ page grant crew team held occupied file,
    L' = { L with page, grant, crew, team, held, occupied, file }

/-! ## Who is not concerned -/

/-- A page is in a group that is there. -/
theorem Sound.team_isSome (hL : L.Sound) (hx : L.group x = some g) : (L.team g).isSome := by
  obtain ⟨l, hl⟩ := hL.teams.listed hx
  obtain ⟨G, hG, -⟩ := Option.map_eq_some_iff.mp hl
  rw [hG]
  rfl

theorem Sound.inTeams (hL : L.Sound) (hx : L.group x = p.group) : p.inTeams L.team = p :=
  Page.inTeams_eq_self fun _ hg => hL.team_isSome (hx.trans hg)

/-- A frame none of whose owners goes stays as it is. -/
theorem Sound.crew_leftBy (hL : L.Sound) (hf : ∀ x ∈ gone, L.frame x ≠ some f) :
    ((L.crew f).map (Frame.leftBy gone)).filter (fun c => c.owners ≠ []) = L.crew f := by
  cases hc : L.crew f with
  | none => rfl
  | some c =>
    have hsame : c.leftBy gone = c := by
      have hfilter : c.owners.filter (· ∉ gone) = c.owners := List.filter_eq_self.mpr fun x hx =>
        decide_eq_true fun hgone => hf x hgone ((hL.mem_owners hc x).mp hx)
      rw [Frame.leftBy, hfilter]
    rw [Option.map_some, hsame, Option.filter_some, if_pos (decide_eq_true (hL.crewed (owners_of_crew hc)))]

/-- A group none of whose members goes stays as it is. -/
theorem Sound.team_leftBy (hL : L.Sound) (hg : ∀ x ∈ gone, L.group x ≠ some g) :
    ((L.team g).map (EvictionGroup.leftBy gone)).filter (fun G => 1 < G.members.length) = L.team g := by
  cases hG : L.team g with
  | none => rfl
  | some G =>
    have hsame : G.leftBy gone = G := by
      have hfilter : G.members.filter (· ∉ gone) = G.members := List.filter_eq_self.mpr fun x hx =>
        decide_eq_true fun hgone => hg x hgone ((hL.mem_members hG x).mp hx)
      rw [EvictionGroup.leftBy, hfilter]
    have hmany : 1 < G.members.length := hL.teamed (members_of_team hG)
    rw [Option.map_some, hsame, Option.filter_some, if_pos (decide_eq_true hmany)]

theorem Withdrawn.nil (hL : L.Sound) : Withdrawn [] L L := by
  have hnone : ∀ {P : Owner → Prop}, ∀ x ∈ ([] : List Owner), P x := fun x hx =>
    absurd hx List.not_mem_nil
  refine ⟨fun x => ?_, fun x => by simp, fun f => (hL.crew_leftBy hnone).symm,
    fun g => (hL.team_leftBy hnone).symm, rfl, _, _, _, _, _, _, _, rfl⟩
  rw [if_neg List.not_mem_nil]
  cases hp : L.page x with
  | none => rfl
  | some p => exact congrArg some (hL.inTeams (group_of_page hp)).symm

/-! ## One page -/

theorem filter_notMem_singleton (l : List Owner) (o : Owner) :
    l.filter (· ∉ [o]) = l.filter (· ≠ o) := by simp only [List.mem_singleton]

/-- What is lost of a resident page. -/
theorem unsaved?_eq (hp : L.page o = some p) (hframe : p.frame = some f) :
    L.unsaved? o = if L.isDirty o then p.window?.map fun w => (w, L.bytes f) else none := by
  rw [unsaved?, hp, Option.bind_some, hframe, Option.bind_some]

/-- A page that is not resident is not dirty. -/
theorem Sound.isDirty_eq_false (hL : L.Sound) (ho : L.frame o = none) : L.isDirty o = false := by
  have hgrant : L.grant o = none := Option.map_eq_none_iff.mp ((hL.mapped o).trans ho)
  rw [isDirty, hgrant]
  rfl

theorem Sound.isDirty_of_away (hL : L.Sound) (ho : L.frame o = none) (x : Owner) :
    L.isDirty x = (decide (x ∉ [o]) && L.isDirty x) := by
  by_cases hx : x = o
  · rw [hx, hL.isDirty_eq_false ho, Bool.and_false]
  · simp [hx]

/-- Of a page that is not resident nothing is lost. -/
theorem Sound.unsaved?_eq_none (hL : L.Sound) (ho : L.frame o = none) : L.unsaved? o = none := by
  rw [unsaved?, hL.isDirty_eq_false ho]
  rfl

/-- What is written back of a resident page. -/
theorem Sound.saved (hL : L.Sound) (hp : L.page o = some p) (hframe : p.frame = some f) :
    (if L.isDirty o then L.flush p f else L.file) = ([o].filterMap L.unsaved?).foldl save L.file := by
  rw [List.filterMap_cons, List.filterMap_nil, unsaved?_eq hp hframe]
  cases L.isDirty o with
  | false => rfl
  | true =>
    have hloaded := (hL.shaped hp).content_ne_uninit hframe
    rw [if_pos rfl, if_pos rfl, flush, Page.flushed, Page.window?]
    cases hc : p.content with
    | uninit t g => exact absurd hc (hloaded t g)
    | anon a => rfl
    | file w => rfl

/-- Removing a page concerns one frame at most. -/
theorem Sound.withdrawn_leaveFrame {l : List Owner} (hL : L.Sound) (hp : L.page o = some p)
    (hframe : p.frame = some f) (hl : L.owners f = some l) :
    Withdrawn [o] L { L.leaveFrame o p f (l.filter (· ≠ o)) with
      file := if L.isDirty o then L.flush p f else L.file } := by
  have hof : L.frame o = some f := (frame_of_page hp).trans hframe
  have hog : L.group o = none := (group_of_page hp).trans ((hL.shaped hp).group_eq_none hframe)
  obtain ⟨c, hc, rfl⟩ := Option.map_eq_some_iff.mp hl
  refine ⟨fun x => ?_, fun x => ?_, fun f' => ?_, fun g => ?_, ?_, _, _, _, _, _, _, _, rfl⟩
  · simp only [List.mem_singleton]
    show (if x = o then none else L.page x) = if x = o then none else (L.page x).map (Page.inTeams L.team)
    split
    · rfl
    · cases hx : L.page x with
      | none => rfl
      | some q => exact congrArg some (hL.inTeams (group_of_page hx)).symm
  · show (if x = o then none else L.regrant _ p x).any Grant.dirty = _
    by_cases hx : x = o
    · simp [hx]
    · rw [if_neg hx, regrant]
      simp only [List.mem_singleton, hx, not_false_eq_true, decide_true, Bool.true_and]
      unfold isDirty
      split
      · cases L.grant x <;> rfl
      · rfl
  · by_cases hf : f' = f
    · subst hf
      show (if f' = f' then _ else _) = _
      have hleft : c.leftBy [o] = { c with owners := c.owners.filter (· ≠ o) } := by
        rw [← filter_notMem_singleton]
        rfl
      rw [if_pos rfl, hc, Option.map_some, Option.map_some, hleft, Option.filter_some]
      by_cases hnil : c.owners.filter (· ≠ o) = []
      · rw [if_pos hnil, if_neg fun h => of_decide_eq_true (p := ¬_ = []) h hnil]
      · rw [if_neg hnil, if_pos (decide_eq_true hnil)]
    · refine (if_neg hf).trans (hL.crew_leftBy fun x hx => ?_).symm
      rw [List.mem_singleton.mp hx, hof]
      exact fun h => hf (Option.some.inj h).symm
  · exact (hL.team_leftBy fun x hx => by
      rw [List.mem_singleton.mp hx, hog]
      exact (Option.some_ne_none _).symm).symm
  · exact hL.saved hp hframe

/-- Who stays is in the group if it is there still. -/
theorem Sound.inTeams_leaveTeam {G : EvictionGroup} {rest : List Owner} (hL : L.Sound)
    (hgroup : L.group x = p.group) (hx : x ≠ o) (hG : L.team g = some G)
    (hrest : ∀ x, x ∈ rest ↔ L.group x = some g ∧ x ≠ o) :
    (if rest = [x] then { p with group := none } else p) =
      p.inTeams (L.leaveTeam o g rest).team := by
  have hteam : ∀ g', (L.leaveTeam o g rest).team g' = if g' = g then
      (if 1 < rest.length then (L.team g).map fun G => { G with members := rest } else none)
      else L.team g' := fun _ => rfl
  by_cases hone : rest = [x]
  · -- `x` is left alone, and the group is gone
    have hxg : p.group = some g :=
      hgroup.symm.trans ((hrest x).mp (hone ▸ List.mem_singleton_self x)).1
    have hgone : (L.leaveTeam o g rest).team g = none := by
      rw [hteam, if_pos rfl, hone, if_neg (by simp)]
    rw [if_pos hone, Page.inTeams, hxg, Option.filter_some, hgone, if_neg (by simp)]
  · rw [if_neg hone, Page.inTeams_eq_self fun g' hg' => ?_]
    rw [hteam]
    split
    · rename_i hgg
      have hmem : x ∈ rest := (hrest x).mpr ⟨by rw [hgroup, hg', hgg], hx⟩
      have hmany : 1 < rest.length := by
        by_contra hfew
        exact hone ((Roster.eq_singleton_iff hmem).mpr hfew)
      rw [if_pos hmany, hG]
      rfl
    · exact hL.team_isSome (hgroup.trans hg')

/-- Removing a page concerns one group at most. -/
theorem Sound.withdrawn_leaveTeam {l : List Owner} (hL : L.Sound) (hp : L.page o = some p)
    (hg : p.group = some g) (hl : L.members g = some l) :
    Withdrawn [o] L (L.leaveTeam o g (l.filter (· ≠ o))) := by
  have hog : L.group o = some g := (group_of_page hp).trans hg
  have hof : L.frame o = none :=
    (frame_of_page hp).trans ((hL.shaped hp).apart (by rw [hg]; rfl))
  obtain ⟨G, hG, rfl⟩ := Option.map_eq_some_iff.mp hl
  have hrest : ∀ x, x ∈ G.members.filter (· ≠ o) ↔ L.group x = some g ∧ x ≠ o := fun x => by
    rw [← hL.mem_members hG x]
    simp
  refine ⟨fun x => ?_, fun x => ?_, fun f => ?_, fun g' => ?_, ?_, _, _, _, _, _, _, _, rfl⟩
  · simp only [List.mem_singleton]
    refine ite_congr rfl (fun _ => rfl) fun hx => ?_
    cases hq : L.page x with
    | none => exact ite_self none
    | some q =>
      refine (apply_ite some _ _ _).symm.trans (congrArg some ?_)
      exact hL.inTeams_leaveTeam (group_of_page hq) hx hG hrest
  · exact hL.isDirty_of_away hof x
  · exact (hL.crew_leftBy fun x hx => by
      rw [List.mem_singleton.mp hx, hof]
      exact (Option.some_ne_none _).symm).symm
  · by_cases hgg : g' = g
    · subst hgg
      have hleft : G.leftBy [o] = { G with members := G.members.filter (· ≠ o) } := by
        rw [← filter_notMem_singleton]
        rfl
      show (if g' = g' then _ else _) = _
      rw [if_pos rfl, hG, Option.map_some, Option.map_some, hleft, Option.filter_some]
      by_cases hmany : 1 < (G.members.filter (· ≠ o)).length
      · rw [if_pos hmany, if_pos (decide_eq_true hmany)]
      · rw [if_neg hmany, if_neg fun h => hmany (of_decide_eq_true h)]
    · refine (if_neg hgg).trans (hL.team_leftBy fun x hx => ?_).symm
      rw [List.mem_singleton.mp hx, hog]
      exact fun h => hgg (Option.some.inj h).symm
  · rw [List.filterMap_cons, hL.unsaved?_eq_none hof]
    rfl

/-- Removing a page that is in neither concerns no other. -/
theorem Sound.withdrawn_leaveAlone (hL : L.Sound) (hp : L.page o = some p) (hframe : p.frame = none)
    (hgroup : p.group = none) : Withdrawn [o] L (L.leaveAlone o p) := by
  have hof : L.frame o = none := (frame_of_page hp).trans hframe
  have hog : L.group o = none := (group_of_page hp).trans hgroup
  refine ⟨fun x => ?_, fun x => ?_, fun f => ?_, fun g => ?_, ?_, _, _, _, _, _, _, _, rfl⟩
  · simp only [List.mem_singleton]
    refine ite_congr rfl (fun _ => rfl) fun _ => ?_
    cases hx : L.page x with
    | none => rfl
    | some q => exact congrArg some (hL.inTeams (group_of_page hx)).symm
  · exact hL.isDirty_of_away hof x
  · exact (hL.crew_leftBy fun x hx => by
      rw [List.mem_singleton.mp hx, hof]
      exact (Option.some_ne_none _).symm).symm
  · exact (hL.team_leftBy fun x hx => by
      rw [List.mem_singleton.mp hx, hog]
      exact (Option.some_ne_none _).symm).symm
  · rw [List.filterMap_cons, hL.unsaved?_eq_none hof]
    rfl

/-- **A page that is removed** is withdrawn. -/
theorem Move.withdrawn (h : Move (.leave o true) L L') (hL : L.Sound) : Withdrawn [o] L L' := by
  cases h with
  | leaveFrame hp hframe hl => exact hL.withdrawn_leaveFrame hp hframe hl
  | leaveTeam hp hg hl => exact hL.withdrawn_leaveTeam hp hg hl
  | leaveAlone hp hframe hgroup => exact hL.withdrawn_leaveAlone hp hframe hgroup

/-! ## Pages in turn -/

/-- Writing back leaves no file shorter. -/
theorem extends_save (file : Nat → File) (s : FileWindow × PageBytes) (i : Nat) :
    (file i).Extends (save file s i) := by
  unfold save
  split
  · exact File.extends_writeAt _ _ _
  · exact .refl _

theorem extends_foldl_save (i : Nat) : ∀ (saves : List (FileWindow × PageBytes)) (file : Nat → File),
    (file i).Extends (saves.foldl save file i)
  | [], _ => .refl _
  | s :: saves, file => (extends_save file s i).trans (extends_foldl_save i saves _)

theorem filter_notMem_append (l as bs : List Owner) :
    (l.filter (· ∉ as)).filter (· ∉ bs) = l.filter (· ∉ as ++ bs) := by
  rw [List.filter_filter]
  exact List.filter_congr fun x _ => by simp [Bool.and_comm]

theorem Frame.leftBy_leftBy (c : Frame) :
    (c.leftBy as).leftBy bs = c.leftBy (as ++ bs) := by
  unfold Frame.leftBy
  rw [filter_notMem_append]

theorem EvictionGroup.leftBy_leftBy (G : EvictionGroup) :
    (G.leftBy as).leftBy bs = G.leftBy (as ++ bs) := by
  unfold EvictionGroup.leftBy
  rw [filter_notMem_append]

/-- What is dropped in between is dropped in the end. -/
theorem filter_map_filter {α : Type} {P Q : α → Bool} {step : α → α}
    (h : ∀ a, Q (step a) = true → P a = true) (v : Option α) :
    ((v.filter P).map step).filter Q = (v.map step).filter Q := by
  cases v with
  | none => rfl
  | some a =>
    rw [Option.filter_some]
    by_cases hP : P a = true
    · rw [if_pos hP]
    · have hQ : ¬Q (step a) = true := fun hQ => hP (h a hQ)
      rw [if_neg hP, Option.map_some, Option.filter_some, if_neg hQ]
      rfl

/-- A page that stays may be lost as before. -/
theorem Withdrawn.unsaved?_of_stays (h : Withdrawn gone L L') (hx : x ∉ gone) :
    L'.unsaved? x = L.unsaved? x := by
  have hbytes : L'.bytes = L.bytes := by
    obtain ⟨_, _, _, _, _, _, _, rfl⟩ := h.rest
    rfl
  rw [unsaved?, unsaved?, h.dirty, h.page, if_neg hx, decide_eq_true hx, Bool.true_and, hbytes]
  cases L.page x <;> rfl

/-- A group that is there in the end was there before. -/
theorem Withdrawn.team_isSome (h : Withdrawn gone L L') (hg : (L'.team g).isSome) :
    (L.team g).isSome := by
  rw [h.team] at hg
  cases hG : L.team g with
  | none =>
    rw [hG] at hg
    cases hg
  | some G => rfl

/-- Pages that stay are in the groups that are there in the end. -/
theorem Withdrawn.page_trans {page₀ page₁ page₂ : Owner → Option Page} (h : Withdrawn bs A L')
    (h₁ : ∀ x, page₁ x = if x ∈ as then none else (page₀ x).map (Page.inTeams A.team))
    (h₂ : ∀ x, page₂ x = if x ∈ bs then none else (page₁ x).map (Page.inTeams L'.team)) (x : Owner) :
    page₂ x = if x ∈ as ++ bs then none else (page₀ x).map (Page.inTeams L'.team) := by
  have hteams : ∀ p : Page, (p.inTeams A.team).inTeams L'.team = p.inTeams L'.team := fun p => by
    unfold Page.inTeams
    dsimp only
    rw [Option.filter_filter]
    refine congrArg (fun F => { p with group := p.group.filter F }) (funext fun g => ?_)
    cases hg : (L'.team g).isSome with
    | true => rw [h.team_isSome hg]; rfl
    | false => rw [Bool.and_false]
  rw [h₂, h₁]
  by_cases hb : x ∈ bs
  · rw [if_pos hb, if_pos (List.mem_append_right as hb)]
  · rw [if_neg hb]
    by_cases ha : x ∈ as
    · rw [if_pos ha, if_pos (List.mem_append_left bs ha)]
      rfl
    · rw [if_neg ha, if_neg (by simp [ha, hb]), Option.map_map]
      exact congrArg (fun F => (page₀ x).map F) (funext hteams)

/-- **Pages are withdrawn in turn.** -/
theorem Withdrawn.trans (h : Withdrawn as L A) (h' : Withdrawn bs A L') (hdisjoint : ∀ x ∈ bs, x ∉ as) :
    Withdrawn (as ++ bs) L L' := by
  refine ⟨h'.page_trans h.page h'.page, fun x => ?_, fun f => ?_, fun g => ?_, ?_, ?_⟩
  · rw [h'.dirty, h.dirty, ← Bool.and_assoc]
    simp [Bool.and_comm]
  · rw [h'.crew, h.crew, filter_map_filter, Option.map_map]
    · exact congrArg (fun F => ((L.crew f).map F).filter _) (funext Frame.leftBy_leftBy)
    · intro c hc
      refine decide_eq_true fun hnil => of_decide_eq_true hc ?_
      show c.owners.filter _ = []
      rw [hnil]
      rfl
  · rw [h'.team, h.team, filter_map_filter, Option.map_map]
    · exact congrArg (fun F => ((L.team g).map F).filter _) (funext EvictionGroup.leftBy_leftBy)
    · intro G hG
      exact decide_eq_true (Nat.lt_of_lt_of_le (of_decide_eq_true hG) (List.length_filter_le _ _))
  · rw [h'.file, h.file, List.filterMap_append, List.foldl_append]
    congr 1
    exact List.filterMap_congr fun x hx => h.unsaved?_of_stays (hdisjoint x hx)
  · obtain ⟨_, _, _, _, _, _, _, rfl⟩ := h.rest
    obtain ⟨_, _, _, _, _, _, _, rfl⟩ := h'.rest
    exact ⟨_, _, _, _, _, _, _, rfl⟩

end Ledger

end DemandPaging
