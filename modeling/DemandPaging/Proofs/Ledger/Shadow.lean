import DemandPaging.Proofs.Ledger.Fates

/-!
# A half-made copy of a space

While a space is copied, its copy shares frames with it and nothing else: no slot, no group and no dirty
mapping is the copy's own (`Shadowed`). So the ledger from before can be read off the one with the copy,
and taking the pages of the copy out again, in any order, gives it back (`Shadowed.restored`).
-/

namespace DemandPaging

/-- The frame without the owners in a space. -/
def Frame.without (c : Frame) (id : SpaceId) : Frame :=
  { c with owners := c.owners.filter (·.space ≠ id) }

/-- What of a mapping sharing does not change. -/
def Grant.core (e : Grant) : FrameNum × Bool := (e.frame, e.dirty)

namespace Ledger

/-- The ledger `A` is `L` with the space `child` beside it, whose pages are in frames of `L` or hold
nothing. -/
structure Shadowed (child : SpaceId) (L A : Ledger) : Prop where
  page : ∀ {o}, o.space ≠ child → A.page o = L.page o
  mapping : ∀ {o}, o.space ≠ child → (A.grant o).map Grant.core = (L.grant o).map Grant.core
  clean : ∀ {o}, o.space = child → A.isDirty o = false
  apart : ∀ {o p}, o.space = child → A.page o = some p → p.group = none ∧ p.slot = none
  crew : ∀ f, (A.crew f).map (·.without child) = L.crew f
  floor : ∀ {id}, id ≠ child → A.floor id = L.floor id
  rest : { A with page := L.page, grant := L.grant, crew := L.crew, floor := L.floor } = L

variable {child : SpaceId} {L A B : Ledger} {o src : Owner} {p : Page} {f : FrameNum}

/-- A space without pages is in no frame. -/
theorem Sound.without_eq (hL : L.Sound) (hgone : ∀ o, o.space = child → L.page o = none) {c : Frame}
    (hc : L.crew f = some c) : c.without child = c := by
  have hall : ∀ x ∈ c.owners, decide (x.space ≠ child) = true := fun x hx => by
    have hx : L.frame x = some f := (hL.mem_owners hc x).mp hx
    refine decide_eq_true fun hspace => ?_
    rw [frame, hgone x hspace] at hx
    cases hx
  unfold Frame.without
  rw [List.filter_eq_self.mpr hall]

namespace Shadowed

/-- A new space shadows nothing. -/
theorem setFloor (hL : L.Sound) (hnew : L.floor child = none) (v : PageNum) :
    Shadowed child L (L.setFloor child (some v)) where
  page _ := rfl
  mapping _ := rfl
  clean {o} ho := by
    show (L.grant o).any Grant.dirty = false
    rw [hL.grant_eq_none (hL.page_of_space hnew ho)]
    rfl
  apart {o p} ho hp := by
    have hnone := hL.page_of_space hnew ho
    rw [show L.page o = some p from hp] at hnone
    cases hnone
  crew f := by
    show (L.crew f).map _ = _
    cases hc : L.crew f with
    | none => rfl
    | some c => rw [Option.map_some, hL.without_eq (fun o => hL.page_of_space hnew) hc]
  floor hid := if_neg hid
  rest := rfl

/-- The mapping of an owner may lose and gain the right to write. -/
theorem core_map (e : Option Grant) (g : Grant → Bool) :
    (e.map fun e => { e with writable := g e }).map Grant.core = e.map Grant.core := by
  cases e <;> rfl

theorem isDirty_of_core {e e' : Option Grant} (h : e'.map Grant.core = e.map Grant.core) :
    e'.any Grant.dirty = e.any Grant.dirty := by
  cases e <;> cases e' <;> simp_all [Grant.core]

/-- **Copying a page to the new space.** -/
theorem copy (h : Shadowed child L A) (hA : A.Sound) (hm : Move (.copy src o) A B)
    (ho : o.space = child) : Shadowed child L B := by
  have hne : ∀ {x : Owner}, x.space ≠ child → x ≠ o := fun hx hxo => hx (hxo ▸ ho)
  cases hm with
  | join hfree hvpn hp hframe hliving =>
    rename_i p f
    have hshaped := hA.shaped hp
    have hcore : ∀ {x : Owner}, x ≠ o →
        ((A.join o p src f).grant x).map Grant.core = (A.grant x).map Grant.core := fun {x} hx => by
      show (if x = o then _ else if x = src then _ else A.grant x).map Grant.core = _
      rw [if_neg hx]
      split
      · exact core_map _ fun _ => false
      · rfl
    refine ⟨fun hx => (if_neg (hne hx)).trans (h.page hx), fun hx => (hcore (hne hx)).trans (h.mapping hx),
      fun {x} hx => ?_, fun {x q} hx hq => ?_, fun x => ?_, h.floor, h.rest⟩
    · by_cases hxo : x = o
      · show (if x = o then some ⟨f, false, false⟩ else _ : Option Grant).any Grant.dirty = false
        rw [if_pos hxo]
        rfl
      · exact (isDirty_of_core (hcore hxo)).trans (h.clean hx)
    · by_cases hxo : x = o
      · obtain rfl := Option.some.inj ((if_pos hxo).symm.trans hq)
        exact ⟨hshaped.group_eq_none hframe, hshaped.slot_eq_none hframe⟩
      · exact h.apart hx ((if_neg hxo).symm.trans hq)
    · refine Eq.trans ?_ (h.crew x)
      show (if x = f then _ else A.crew x).map _ = _
      split
      · rename_i hx
        rw [hx, Option.map_map]
        refine congrArg (Option.map · (A.crew f)) (funext fun c => ?_)
        simp [Frame.without, ho]
      · rfl
  | duplicate hfree hvpn hp hframe hcontent hliving =>
    rename_i p
    refine ⟨fun hx => (if_neg (hne hx)).trans (h.page hx), h.mapping, h.clean, fun {x q} hx hq => ?_,
      h.crew, h.floor, h.rest⟩
    by_cases hxo : x = o
    · obtain rfl := Option.some.inj ((if_pos hxo).symm.trans hq)
      refine ⟨rfl, ?_⟩
      show p.slot = none
      unfold Page.slot
      split
      · exact absurd ‹_› (hcontent _)
      · rfl
    · exact h.apart hx ((if_neg hxo).symm.trans hq)

/-- Leaving a frame takes the right to write from nobody and gives it to one at most. -/
theorem core_leaveFrame {rest : List Owner} {x : Owner} (hx : x ≠ o) :
    ((A.leaveFrame o p f rest).grant x).map Grant.core = (A.grant x).map Grant.core := by
  show (if x = o then none else A.regrant rest p x).map Grant.core = _
  rw [if_neg hx]
  unfold regrant
  split
  · exact core_map _ fun e => e.writable || p.writable
  · rfl

/-- **Taking a page of the new space out again.** -/
theorem leave {writeBack : Bool} (h : Shadowed child L A) (hL : L.Sound)
    (hm : Move (.leave o writeBack) A B) (ho : o.space = child) : Shadowed child L B := by
  have hne : ∀ {x : Owner}, x.space ≠ child → x ≠ o := fun hx hxo => hx (hxo ▸ ho)
  cases hm with
  | leaveFrame hp hframe hl htaken =>
    rename_i p f l
    obtain ⟨c, hc, rfl⟩ := Option.map_eq_some_iff.mp hl
    -- The frame is one of `L` too, where others are in it.
    have hstays : c.owners.filter (· ≠ o) ≠ [] := by
      have hcrew := h.crew f
      rw [hc, Option.map_some] at hcrew
      have hsome := hL.crewed (f := f) (l := (c.without child).owners) (by rw [owners, ← hcrew]; rfl)
      intro hnil
      refine hsome (List.filter_eq_nil_iff.mpr fun x hx hspace => ?_)
      have hgone := List.filter_eq_nil_iff.mp hnil x hx
      exact hgone (decide_eq_true (hne (of_decide_eq_true hspace)))
    refine ⟨fun hx => (if_neg (hne hx)).trans (h.page hx),
      fun hx => (core_leaveFrame (f := f) (hne hx)).trans (h.mapping hx), fun {x} hx => ?_, fun {x q} hx hq => ?_,
      fun x => ?_, h.floor, ?_⟩
    · by_cases hxo : x = o
      · show (if x = o then none else _ : Option Grant).any Grant.dirty = false
        rw [if_pos hxo]
        rfl
      · exact (isDirty_of_core (core_leaveFrame (f := f) hxo)).trans (h.clean hx)
    · by_cases hxo : x = o
      · cases (if_pos hxo).symm.trans hq
      · exact h.apart hx ((if_neg hxo).symm.trans hq)
    · refine Eq.trans ?_ (h.crew x)
      show (if x = f then (if _ then none else _) else A.crew x).map _ = _
      rw [if_neg hstays]
      split
      · rename_i hx
        rw [hx, hc, Option.map_some, Option.map_some, Option.map_some]
        refine congrArg some (?_ : Frame.without _ _ = Frame.without _ _)
        simp only [Frame.without, List.filter_filter]
        refine congrArg (Frame.mk · c.pinned) (List.filter_congr fun x _ => ?_)
        by_cases hx : x.space = child
        · simp [hx]
        · simp [hx, hne hx]
      · rfl
    · have hheld : (fun x => A.held x ∧ ¬(c.owners.filter (· ≠ o) = [] ∧ x = f)) = A.held :=
        funext fun x => propext ⟨And.left, fun hx => ⟨hx, fun hno => hstays hno.1⟩⟩
      have hfile : (if writeBack && A.isDirty o then A.flush p f else A.file) = A.file := by
        rw [h.clean ho, Bool.and_false]
        rfl
      rw [hfile]
      refine Eq.trans ?_ h.rest
      exact congrArg (fun held => ({ A with
        held, page := L.page, grant := L.grant, crew := L.crew, floor := L.floor } : Ledger)) hheld
  | leaveTeam hp hg hl =>
    rw [(h.apart ho hp).1] at hg
    cases hg
  | leaveAlone hp hframe hgroup =>
    rename_i p
    refine ⟨fun hx => (if_neg (hne hx)).trans (h.page hx), h.mapping, h.clean, fun {x q} hx hq => ?_,
      h.crew, h.floor, ?_⟩
    · by_cases hxo : x = o
      · cases (if_pos hxo).symm.trans hq
      · exact h.apart hx ((if_neg hxo).symm.trans hq)
    · have hoccupied : (fun s => A.occupied s && !decide (p.slot = some s)) = A.occupied := by
        rw [(h.apart ho hp).2]
        exact funext fun s => Bool.and_true _
      refine Eq.trans ?_ h.rest
      exact congrArg (fun occupied => ({ A with
        occupied, page := L.page, grant := L.grant, crew := L.crew, floor := L.floor } : Ledger))
        hoccupied

/-- **Without its pages, the new space leaves no trace.** -/
theorem restored (h : Shadowed child L A) (hL : L.Sound) (hA : A.Sound) (hnew : L.floor child = none)
    (hgone : ∀ o, o.space = child → A.page o = none) : A.setFloor child none = L := by
  have hpage : A.page = L.page := funext fun o => by
    by_cases ho : o.space = child
    · rw [hgone o ho, hL.page_of_space hnew ho]
    · exact h.page ho
  have hcrew : A.crew = L.crew := funext fun f => by
    rw [← h.crew f]
    cases hc : A.crew f with
    | none => rfl
    | some c => rw [Option.map_some, hA.without_eq hgone hc]
  have hgrant : A.grant = L.grant := funext fun o => by
    by_cases ho : o.space = child
    · rw [hA.grant_eq_none (hgone o ho), hL.grant_eq_none (hL.page_of_space hnew ho)]
    · have hcore := h.mapping ho
      cases he : A.grant o with
      | none =>
        rw [he] at hcore
        exact (Option.map_eq_none_iff.mp hcore.symm).symm
      | some e =>
        rw [he] at hcore
        obtain ⟨e', he', heq⟩ := Option.map_eq_some_iff.mp hcore.symm
        obtain ⟨hframe, hdirty⟩ := Prod.mk.inj heq
        obtain ⟨p, hp, -⟩ := hA.page_of_grant he
        -- The right to write is told by the page and its frame, which are the same.
        have hwrites := hA.writes hp he
        have hwrites' := hL.writes (hpage ▸ hp) he'
        rw [owners, hcrew, ← hframe] at hwrites
        have hwritable : e'.writable = e.writable :=
          Bool.eq_iff_iff.mpr (hwrites'.trans hwrites.symm)
        rw [he']
        cases e
        cases e'
        simp_all
  have hfloor : (A.setFloor child none).floor = L.floor := funext fun id => by
    by_cases hid : id = child
    · exact (if_pos hid).trans (hid ▸ hnew.symm)
    · exact (if_neg hid).trans (h.floor hid)
  have hrest := h.rest
  rw [← hpage, ← hgrant, ← hcrew, ← hfloor] at hrest
  exact hrest

end Shadowed

end Ledger

end DemandPaging
