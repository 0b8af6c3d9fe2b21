import DemandPaging.Proofs.Ledger.Moves

/-!
# What shifts leave alone

A shift moves contents. It registers and removes no page, and changes neither the number nor the
type of one, nor whether it may be written, nor the window a file page is kept in (`Shift.face`);
spaces and initializers stay what they are.
-/

namespace DemandPaging

namespace Page

/-- What stays of a page while its content is moved. -/
def face (p : Page) : PageNum × Bool × PageType × Option FileWindow :=
  (p.vpn, p.writable, p.type, p.home?)

variable {p q : Page}

theorem writable_of_face (h : p.face = q.face) : p.writable = q.writable := congrArg (·.2.1) h

theorem type_of_face (h : p.face = q.face) : p.type = q.type := congrArg (·.2.2.1) h

theorem home?_of_face (h : p.face = q.face) : p.home? = q.home? := congrArg (·.2.2.2) h

theorem face_evictedTo (slot group : Option Nat) : (p.evictedTo slot group).face = p.face := by
  unfold face evictedTo home? window? Page.type
  cases p.content <;> rfl

theorem face_loadedInto (hp : p.Shaped) (f : FrameNum) : (p.loadedInto f).face = p.face := by
  unfold face loadedInto home? window? Page.type
  cases hc : p.content with
  | anon a => rfl
  | file w => rfl
  | uninit t g =>
    cases t with
    | anon => cases g <;> rfl
    | file =>
      obtain ⟨w, rfl⟩ := hp.typed hc
      rfl

theorem mapping_evictedTo (slot group : Option Nat) : (p.evictedTo slot group).mapping = p.mapping := by
  unfold evictedTo mapping
  cases p.content with
  | anon a => rfl
  | file w => rfl
  | uninit t g => cases g <;> rfl

theorem type_of_anon (h : ∃ a, p.content = .anon a) : p.type = .anon := by
  obtain ⟨a, h⟩ := h
  rw [type, h]
  rfl

/-- A page that is loaded keeps its mapping, or becomes anonymous memory. -/
theorem mapping_loadedInto (f : FrameNum) :
    (p.loadedInto f).mapping = p.mapping ∨ (p.loadedInto f).mapping = 0 := by
  unfold loadedInto mapping
  cases p.content with
  | anon a => exact Or.inl rfl
  | file w => exact Or.inl rfl
  | uninit t g =>
    cases t with
    | anon => exact Or.inr rfl
    | file => cases g <;> exact Or.inl rfl

/-- What becomes of a page in a shift: it is evicted or loaded, or copied to another frame. -/
inductive Shifted (file : Nat → File) (p : Page) : Page → Prop
  | stays : Shifted file p p
  | evicted (slot group : Option Nat) : Shifted file p (p.evictedTo slot group)
  | loaded (hgiven : p.GivenBy file) (f : FrameNum) : Shifted file p (p.loadedInto f)
  | unshared {f : FrameNum} (hf : p.frame = some f) (f' : FrameNum) :
      Shifted file p { p with frame := some f' }

theorem Shifted.face {file : Nat → File} (h : p.Shifted file q) (hp : p.Shaped) : q.face = p.face := by
  cases h with
  | stays => rfl
  | evicted slot group => exact face_evictedTo slot group
  | loaded hgiven f => exact face_loadedInto hp f
  | unshared hf f' => rfl

theorem Shifted.mapping {file : Nat → File} (h : p.Shifted file q) :
    q.mapping = p.mapping ∨ q.mapping = 0 := by
  cases h with
  | stays => exact Or.inl rfl
  | evicted slot group => exact Or.inl (mapping_evictedTo slot group)
  | loaded hgiven f => exact mapping_loadedInto f
  | unshared hf f' => exact Or.inl rfl

end Page

namespace Ledger

variable {L L' : Ledger} {x : Owner} {p q : Page}

/-- **A shift registers no page.** -/
theorem Shift.page_eq_none (h : Shift L L') (hL : L.Sound) (hx : L.page x = none) :
    L'.page x = none := by
  cases h with
  | take | giveBack | scrub | pin | unpin => exact hx
  | evict h =>
    obtain ⟨hf, ho, hp, -, -, -, -, -, -⟩ := h
    refine (if_neg fun hmem => ?_).trans hx
    rw [hL.page_of_mem hf ho hp hmem] at hx
    cases hx
  | fill hp hframe hhand hpin =>
    refine (if_neg fun hmem => ?_).trans hx
    rw [hL.page_of_company hp hmem] at hx
    cases hx
  | unshare hp hsrc hl hshared hw hhand hpin =>
    rename_i o p src copy l
    have hxo : x ≠ o := by
      rintro rfl
      rw [hp] at hx
      cases hx
    simp only [note, Ledger.unshare, settle, leaveFrame, if_neg hxo, hx]

/-- **A shift removes no page.** -/
theorem Shift.shifted (h : Shift L L') (hL : L.Sound) (hx : L.page x = some p) :
    ∃ q, L'.page x = some q ∧ p.Shifted L.file q := by
  cases h with
  | take | giveBack | scrub | pin | unpin => exact ⟨p, hx, .stays⟩
  | evict h =>
    obtain ⟨hf, ho, hp, -, -, -, -, -, -⟩ := h
    dsimp only [Ledger.evict]
    split
    · rename_i hmem
      obtain rfl := Option.some.inj ((hL.page_of_mem hf ho hp hmem).symm.trans hx)
      exact ⟨_, rfl, .evicted _ _⟩
    · exact ⟨p, hx, .stays⟩
  | fill hp hframe hhand hpin hgiven =>
    dsimp only [note, Ledger.fill]
    split
    · rename_i hmem
      obtain rfl := Option.some.inj ((hL.page_of_company hp hmem).symm.trans hx)
      exact ⟨_, rfl, .loaded hgiven _⟩
    · exact ⟨p, hx, .stays⟩
  | unshare hp hsrc hl hshared hw hhand hpin =>
    rename_i o q src copy l
    by_cases hxo : x = o
    · subst hxo
      obtain rfl := Option.some.inj (hp.symm.trans hx)
      simp only [note, Ledger.unshare, settle, if_pos]
      exact ⟨_, rfl, .unshared hsrc copy⟩
    · simp only [note, Ledger.unshare, settle, leaveFrame, if_neg hxo]
      exact ⟨p, hx, .stays⟩

/-- What is registered after a shift was registered before. -/
theorem Shift.shifted_of_page (h : Shift L L') (hL : L.Sound) (hq : L'.page x = some q) :
    ∃ p, L.page x = some p ∧ p.Shifted L.file q := by
  cases hx : L.page x with
  | none =>
    rw [h.page_eq_none hL hx] at hq
    cases hq
  | some p =>
    obtain ⟨q', hq', hs⟩ := h.shifted hL hx
    obtain rfl := Option.some.inj (hq'.symm.trans hq)
    exact ⟨p, rfl, hs⟩

/-- **A shift changes no page as its space sees it.** -/
theorem Shift.face (h : Shift L L') (hL : L.Sound) (x : Owner) :
    (L'.page x).map Page.face = (L.page x).map Page.face := by
  cases hx : L.page x with
  | none => rw [h.page_eq_none hL hx]
  | some p =>
    obtain ⟨q, hq, hs⟩ := h.shifted hL hx
    rw [hq, Option.map_some, Option.map_some, hs.face (hL.shaped hx)]

/-- A shift puts no page into a mapping. -/
theorem Shift.mapping (h : Shift L L') (hL : L.Sound) (hq : L'.page x = some q) :
    ∃ p, L.page x = some p ∧ (q.mapping = p.mapping ∨ q.mapping = 0) := by
  obtain ⟨p, hp, hs⟩ := h.shifted_of_page hL hq
  exact ⟨p, hp, hs.mapping⟩

theorem Shift.floor (h : Shift L L') : L'.floor = L.floor := by
  cases h with
  | evict h => cases h; rfl
  | _ => rfl

theorem Shift.config (h : Shift L L') : L'.config = L.config := by
  cases h with
  | evict h => cases h; rfl
  | _ => rfl

theorem Shift.initial (h : Shift L L') : L'.initial = L.initial := by
  cases h with
  | evict h => cases h; rfl
  | _ => rfl

/-- What every shift keeps, a sequence of them keeps. -/
theorem Shifts.induction {P : Ledger → Prop} (h : Shifts L L') (hL : L.Sound) (hP : P L)
    (hstep : ∀ {A B}, A.Sound → Shift A B → P A → P B) : P L' := by
  suffices h' : L'.Sound ∧ P L' from h'.2
  unfold Shifts at h
  generalize hks : ([] : List Kind) = ks at h
  induction h with
  | refl => exact ⟨hL, hP⟩
  | shift _ hs ih =>
    obtain ⟨hA, hPA⟩ := ih hL hP hks
    exact ⟨hs.sound hA, hstep hA hs hPA⟩
  | move => exact absurd hks.symm (by simp)

theorem Shifts.face (h : Shifts L L') (hL : L.Sound) (x : Owner) :
    (L'.page x).map Page.face = (L.page x).map Page.face :=
  h.induction (P := fun A => (A.page x).map Page.face = (L.page x).map Page.face) hL rfl
    fun hA hs hx => (hs.face hA x).trans hx

/-- Shifts register and remove no page. -/
theorem Shifts.page_eq_none (h : Shifts L L') (hL : L.Sound) (x : Owner) :
    L'.page x = none ↔ L.page x = none := by
  have := h.face hL x
  rw [← Option.map_eq_none_iff (f := Page.face), this, Option.map_eq_none_iff]

theorem Shifts.floor (h : Shifts L L') (hL : L.Sound) : L'.floor = L.floor :=
  h.induction (P := fun A => A.floor = L.floor) hL rfl fun _ hs hx => hs.floor.trans hx

end Ledger

end DemandPaging
