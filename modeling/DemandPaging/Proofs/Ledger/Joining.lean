import DemandPaging.Proofs.Ledger.Keeping
import DemandPaging.Proofs.Ledger.Stashing

/-!
# Pages that are joined

Two pages are `Joined` while they are in one frame or come back together. Only copying a page joins
pages (`Shift.joined`, `Move.joined`, `Trace.joined`). Two joined pages hold the same, and neither can
be written; what is known of a page stays known as long as no page that is joined to it is loaded but
together with the other (`Apart`).
-/

namespace DemandPaging.Ledger

variable {L L' : Ledger} {x y z o src : Owner} {p q : Page} {f g : FrameNum} {k : Kind}
  {ks : List Kind}

/-- Two pages are in one frame, or come back together. -/
def Joined (L : Ledger) (x y : Owner) : Prop :=
  (∃ f, L.frame x = some f ∧ L.frame y = some f) ∨ ∃ g, L.group x = some g ∧ L.group y = some g

theorem Joined.symm (h : L.Joined x y) : L.Joined y x :=
  h.imp (fun ⟨f, hx, hy⟩ => ⟨f, hy, hx⟩) fun ⟨g, hx, hy⟩ => ⟨g, hy, hx⟩

/-- Joined pages are alike. -/
theorem Sound.page_eq_of_joined (hL : L.Sound) (h : L.Joined x y) : L.page x = L.page y := by
  rcases h with ⟨f, hx, hy⟩ | ⟨g, hx, hy⟩
  · obtain ⟨p, hp, hf⟩ := Option.bind_eq_some_iff.mp hx
    obtain ⟨c, hc, hmem⟩ := hL.exists_crew hp hf
    have hy := (hL.mem_owners hc y).mpr hy
    rw [hp, hL.page_of_mem hc hmem hp hy]
  · exact hL.teamAlike hx hy

/-- A page is joined to those that would come back with it. -/
theorem Sound.joined_of_company (hL : L.Sound) (h : x ∈ L.company o) : x = o ∨ L.Joined x o :=
  (hL.mem_company.mp h).imp_right fun ⟨g, ho, hx⟩ => Or.inr ⟨g, hx, ho⟩

/-- A page that may be written through its mapping is joined to no other. -/
theorem Sound.eq_of_joined (hL : L.Sound) {e : Grant} (he : L.grant x = some e)
    (hw : e.writable = true) (h : L.Joined x y) : y = x := by
  obtain ⟨p, hp, hf⟩ := hL.page_of_grant he
  exact hL.eq_of_writable he hw ((hL.page_eq_of_joined h).symm.trans hp) hf

/-! ## Only copying joins pages -/

/-- Who come back together are joined. -/
theorem Sound.joined_of_mem_company (hL : L.Sound) (hne : x ≠ y) (hx : x ∈ L.company o)
    (hy : y ∈ L.company o) : L.Joined x y := by
  rcases hL.mem_company.mp hx with rfl | ⟨g, hog, hxg⟩
  · rcases hL.mem_company.mp hy with rfl | ⟨g, hog, hyg⟩
    · exact absurd rfl hne
    · exact Or.inr ⟨g, hog, hyg⟩
  · rcases hL.mem_company.mp hy with rfl | ⟨g', hog', hyg⟩
    · exact Or.inr ⟨g, hxg, hog⟩
    · obtain rfl := Option.some.inj (hog.symm.trans hog')
      exact Or.inr ⟨g, hxg, hyg⟩

/-- The members of a group that is formed were in one frame. -/
theorem Evicts.joined (h : Evicts L f L') (hL : L.Sound) (hj : L'.Joined x y) : L.Joined x y := by
  obtain ⟨hc, ho, hp, -, -, hgid, -, -, -⟩ := h
  rename_i c o p slot gid
  have hmem := hL.mem_owners hc
  have hnew := hL.group_ne_of_team hgid
  rcases hj with ⟨g, hx, hy⟩ | ⟨g, hx, hy⟩
  · rw [frame_evict] at hx hy
    exact Or.inl ⟨g, (Option.ite_none_left_eq_some.mp hx).2, (Option.ite_none_left_eq_some.mp hy).2⟩
  · rw [group_evict] at hx hy
    by_cases hxc : x ∈ c.owners <;> by_cases hyc : y ∈ c.owners
    · exact Or.inl ⟨f, (hmem x).mp hxc, (hmem y).mp hyc⟩
    · rw [if_pos hxc] at hx
      rw [if_neg hyc, ← (Option.ite_none_right_eq_some.mp hx).2] at hy
      exact absurd hy (hnew y)
    · rw [if_pos hyc] at hy
      rw [if_neg hxc, ← (Option.ite_none_right_eq_some.mp hy).2] at hx
      exact absurd hx (hnew x)
    · rw [if_neg hxc] at hx
      rw [if_neg hyc] at hy
      exact Or.inr ⟨g, hx, hy⟩

/-- The pages of a frame that is filled come back together. -/
theorem Sound.joined_of_fill (hL : L.Sound) (hhand : L.hand = some f) (hne : x ≠ y)
    (hj : (L.fill f (L.company o) p).Joined x y) : L.Joined x y := by
  have hempty := hL.frame_ne_hand hhand
  rcases hj with ⟨g, hx, hy⟩ | ⟨g, hx, hy⟩
  · rw [frame_fill] at hx hy
    by_cases hxc : x ∈ L.company o <;> by_cases hyc : y ∈ L.company o
    · exact hL.joined_of_mem_company hne hxc hyc
    · rw [if_pos hxc] at hx
      rw [if_neg hyc, ← hx] at hy
      exact absurd hy (hempty y)
    · rw [if_pos hyc] at hy
      rw [if_neg hxc, ← hy] at hx
      exact absurd hx (hempty x)
    · rw [if_neg hxc] at hx
      rw [if_neg hyc] at hy
      exact Or.inl ⟨g, hx, hy⟩
  · rw [group_fill] at hx hy
    exact Or.inr ⟨g, (Option.ite_none_left_eq_some.mp hx).2, (Option.ite_none_left_eq_some.mp hy).2⟩

/-- A page that gets a copy of its own is joined to no other. -/
theorem Sound.joined_of_unshare {l : List Owner} (hL : L.Sound) (hp : L.page o = some p)
    (hsrc : p.frame = some f) (hhand : L.hand = some g) (hne : x ≠ y)
    (hj : (L.unshare o p f l g).Joined x y) : L.Joined x y := by
  have hpage : ∀ z, z ≠ o → (L.unshare o p f l g).page z = L.page z := fun z hz =>
    (if_neg hz).trans (if_neg hz)
  have halone : ∀ z, z ≠ o → ¬(L.unshare o p f l g).Joined o z := by
    have ho : (L.unshare o p f l g).page o = some { p with frame := some g } := if_pos rfl
    rintro z hz (⟨f', hof, hzf⟩ | ⟨g', hog, hzg⟩)
    · rw [Ledger.frame, ho] at hof
      rw [Ledger.frame, hpage z hz, ← hof] at hzf
      exact hL.frame_ne_hand hhand z hzf
    · cases ((group_of_page ho).trans ((hL.shaped hp).group_eq_none hsrc)).symm.trans hog
  by_cases hx : x = o
  · subst hx
    exact absurd hj (halone y (Ne.symm hne))
  · by_cases hy : y = o
    · subst hy
      exact absurd hj.symm (halone x hx)
    · unfold Joined Ledger.frame group at hj ⊢
      rwa [hpage x hx, hpage y hy] at hj

/-- **Shifts join no pages.** -/
theorem Shift.joined (h : Shift L L') (hL : L.Sound) (hne : x ≠ y) (hj : L'.Joined x y) :
    L.Joined x y := by
  cases h with
  | take | giveBack | scrub | pin | unpin => exact hj
  | evict h => exact h.joined hL hj
  | fill hp hframe hhand hpin hgiven => exact hL.joined_of_fill hhand hne hj
  | unshare hp hsrc hl hshared hw hhand hpin => exact hL.joined_of_unshare hp hsrc hhand hne hj

/-- **Moves join no pages** but by copying one of them. -/
theorem Move.joined (h : Move k L L') (hL : L.Sound) (hx : L.page x = some p)
    (hj : L'.Joined x y) : L.Joined x y ∨ ∃ src, k = .copy src y := by
  have hcopy := (h.not_into hx).2
  rcases hj with ⟨f, hxf, hyf⟩ | ⟨g, hxg, hyg⟩
  · rcases h.frame_eq hxf with hxf | ⟨src, hk⟩
    · exact (h.frame_eq hyf).imp_left fun hyf => Or.inl ⟨f, hxf, hyf⟩
    · exact absurd hk (hcopy src)
  · exact Or.inl (Or.inr ⟨g, h.group_eq hL hxg, h.group_eq hL hyg⟩)

/-- **Pages that are joined after a trace** were joined before, if they were there and stayed. -/
theorem Trace.joined (h : Trace ks L L') (hL : L.Sound) (hx : L.page x = some p)
    (hy : L.page y = some q) (hne : x ≠ y) (hxks : ∀ writeBack, .leave x writeBack ∉ ks)
    (hyks : ∀ writeBack, .leave y writeBack ∉ ks) (hj : L'.Joined x y) : L.Joined x y := by
  induction h with
  | refl => exact hj
  | shift h hs ih => exact ih hL hx hy hxks hyks (hs.joined (h.sound hL) hne hj)
  | move h hm ih =>
    have hxleft := fun b hb => hxks b (List.mem_append_left _ hb)
    have hyleft := fun b hb => hyks b (List.mem_append_left _ hb)
    obtain ⟨_, hx', -⟩ := h.face_of_page hL hx hxleft
    obtain ⟨_, hy', -⟩ := h.face_of_page hL hy hyleft
    rcases hm.joined (h.sound hL) hx' hj with hj | ⟨src, hk⟩
    · exact ih hL hx hy hxleft hyleft hj
    · exact absurd hk ((hm.not_into hy').2 src)

/-! ## Copying a file page -/

/-- Who is still in a frame after another was evicted is there with all that were. -/
theorem Evicts.frame_eq (h : Evicts L g L') (hL : L.Sound) (hx : L'.frame x = some f) :
    L.frame x = some f ∧ ∀ y, L.frame y = some f → L'.frame y = some f := by
  obtain ⟨hc, ho, hp, -, -, -, -, -, -⟩ := h
  have hmem := hL.mem_owners hc
  rw [frame_evict] at hx
  obtain ⟨hout, hx⟩ := Option.ite_none_left_eq_some.mp hx
  refine ⟨hx, fun y hy => ?_⟩
  rw [frame_evict, if_neg]
  · exact hy
  · rw [hmem, hy]
    rwa [hmem, hx] at hout

theorem Acquires.frame_eq (h : Acquires L g L') (hL : L.Sound) (hx : L'.frame x = some f) :
    L.frame x = some f ∧ ∀ y, L.frame y = some f → L'.frame y = some f := by
  cases h with
  | fresh => exact ⟨hx, fun _ hy => hy⟩
  | evicted h => exact h.frame_eq hL hx

/-- **While other pages are copied**, a file page that is still in its frame is there with all that
were. -/
theorem Copies.frame_eq (h : Copies src o L L') (hL : L.Sound) (hp : L.page x = some p)
    (hfile : p.type = .file) (hx : L'.frame x = some f) :
    L.frame x = some f ∧ ∀ y, L.frame y = some f → L'.frame y = some f := by
  have hmoved : ∀ {A : Ledger} {q : Page}, A.Sound → A.page x = some q → Move (.copy src o) A L' →
      A.frame x = some f ∧ ∀ y, A.frame y = some f → L'.frame y = some f := by
    intro A q hA hq hm
    have hstays : ∀ y r, A.page y = some r → L'.frame y = A.frame y := fun y r hr => by
      have hleave : ∀ writeBack, Kind.copy src o ≠ .leave y writeBack := fun _ h => by cases h
      have hwrite : ∀ start bytes, Kind.copy src o ≠ .write y start bytes := fun _ _ h => by cases h
      rcases (hm.remains hA hr hleave hwrite).1 with h | h
      · rw [Ledger.frame, h, Ledger.frame, hr]
      · rw [Ledger.frame, h, Ledger.frame, hr]
        rfl
    refine ⟨(hstays x q hq).symm.trans hx, fun y hy => ?_⟩
    obtain ⟨r, hr, -⟩ := Option.bind_eq_some_iff.mp hy
    exact (hstays y r hr).trans hy
  cases h with
  | shared hm => exact hmoved hL hp hm
  | claimed hsrc hanon hc hm =>
    cases hc with
    | stays => exact hmoved hL hp hm
    | fills hacq hr hframe hpin hgiven =>
      rename_i r g B q
      have hB := hacq.trace.sound hL
      obtain ⟨p', hp', hface⟩ := hacq.trace.face_of_page hL hp fun _ => List.not_mem_nil
      obtain ⟨q', hq', hqface⟩ := hacq.trace.face_of_page hL hsrc fun _ => List.not_mem_nil
      obtain rfl := Option.some.inj (hr.symm.trans hq')
      -- who comes back with an anonymous page is anonymous
      have hout : x ∉ B.company src := fun hmem => by
        obtain rfl := Option.some.inj (hp'.symm.trans (hB.page_of_company hr hmem))
        have hfiled := (Page.type_of_face hface).trans hfile
        cases hfiled.symm.trans ((Page.type_of_face hqface).trans (Page.type_of_anon hanon))
      have hfilled : ((B.fill g (B.company src) q).note (.claimed src g)).page x = some p' :=
        (if_neg hout).trans hp'
      have hA := (Shift.fill hr hframe hacq.hand hpin hgiven).sound hB
      obtain ⟨hxA, hall⟩ := hmoved hA hfilled hm
      have hxB : B.frame x = some f := Eq.trans ((frame_fill x).trans (if_neg hout)).symm hxA
      obtain ⟨hxL, hstay⟩ := hacq.frame_eq hL hxB
      refine ⟨hxL, fun y hy => hall y (Eq.trans ((frame_fill y).trans (if_neg fun hmem => ?_)) (hstay y hy))⟩
      have haway := hstay y hy
      rw [Ledger.frame, hB.page_of_company hr hmem] at haway
      cases hframe.symm.trans haway

end DemandPaging.Ledger
