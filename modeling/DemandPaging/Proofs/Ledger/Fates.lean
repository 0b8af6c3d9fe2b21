import DemandPaging.Proofs.Ledger.Shifting

/-!
# What happens to one page

A shift leaves a page where it is, or evicts its frame, or loads it, or moves it to a copy of the frame
it shared; `Fate` lists what is then known of the page (`Shift.fate`). A move that is not made to a page
leaves it where it is (`Move.remains`).
-/

namespace DemandPaging.Ledger

variable {L L' : Ledger} {x o : Owner} {p : Page} {f : FrameNum}

/-! ## Frames and slots of pages -/

/-- A resident page is listed for its frame. -/
theorem Sound.exists_crew (hL : L.Sound) (hp : L.page x = some p) (hf : p.frame = some f) :
    ∃ c, L.crew f = some c ∧ x ∈ c.owners := by
  have hframe : L.frame x = some f := (frame_of_page hp).trans hf
  obtain ⟨l, hl⟩ := hL.crews.listed hframe
  obtain ⟨c, hc, rfl⟩ := Option.map_eq_some_iff.mp hl
  exact ⟨c, hc, (hL.mem_owners hc x).mpr hframe⟩

/-- A resident page is in a frame that is handed out. -/
theorem Sound.held_of_frame (hL : L.Sound) (hp : L.page x = some p) (hf : p.frame = some f) :
    L.held f := by
  obtain ⟨c, hc, -⟩ := hL.exists_crew hp hf
  exact (hL.holds f).mpr (Or.inl (by rw [hc]; rfl))

/-- A resident page is not in the frame in the hand. -/
theorem Sound.ne_hand (hL : L.Sound) (hp : L.page x = some p) (hf : p.frame = some f)
    {g : FrameNum} (hg : L.hand = some g) : f ≠ g := by
  rintro rfl
  exact hL.frame_ne_hand hg x ((frame_of_page hp).trans hf)

/-- A slot that a page holds is occupied. -/
theorem Sound.occupied_of_slot (hL : L.Sound) (hp : L.page x = some p) {s : Nat}
    (hs : p.slot = some s) : L.occupied s = true :=
  (hL.taken s).mpr ⟨x, (slot_of_page hp).trans hs⟩

/-- A mapped page is resident. -/
theorem Sound.page_of_grant (hL : L.Sound) {e : Grant} (he : L.grant o = some e) :
    ∃ p, L.page o = some p ∧ p.frame = some e.frame :=
  Option.bind_eq_some_iff.mp (hL.frame_of_grant he)

/-- A page that may be written through its mapping is alone in its frame. -/
theorem Sound.eq_of_writable (hL : L.Sound) {e : Grant} (he : L.grant o = some e)
    (hw : e.writable = true) (hp : L.page x = some p) (hf : p.frame = some e.frame) : x = o := by
  obtain ⟨q, hq, -⟩ := hL.page_of_grant he
  have hone := ((hL.writes hq he).mp hw).2
  exact List.mem_singleton.mp (hL.mem_of_page hone hp hf)

/-! ## Dirty pages -/

theorem isDirty_eq_true : L.isDirty x = true ↔ ∃ e, L.grant x = some e ∧ e.dirty = true :=
  Option.any_eq_true ..

/-- A page that is mapped nowhere is not dirty. -/
theorem isDirty_of_grant_eq_none (h : L.grant x = none) : L.isDirty x = false := by
  rw [isDirty, h]
  rfl

/-- A page that is not resident is not dirty. -/
theorem Sound.isDirty_of_frame (hL : L.Sound) (h : L.frame x = none) : L.isDirty x = false :=
  isDirty_of_grant_eq_none (Option.map_eq_none_iff.mp ((hL.mapped x).trans h))

/-- Who is mapped alike is as dirty. -/
theorem isDirty_congr (h : L'.grant x = L.grant x) : L'.isDirty x = L.isDirty x := by
  rw [isDirty, h, isDirty]

/-- Who stays in a frame stays as dirty as it was. -/
theorem isDirty_leaveFrame (rest : List Owner) (hx : x ≠ o) :
    (L.leaveFrame o p f rest).isDirty x = L.isDirty x := by
  have hgrant : (L.leaveFrame o p f rest).grant x = L.regrant rest p x := if_neg hx
  rw [isDirty, hgrant, isDirty, regrant]
  split
  · cases L.grant x <;> rfl
  · rfl

/-- Who is joined stays as dirty as it was. -/
theorem isDirty_join {src : Owner} (hx : x ≠ o) :
    (L.join o p src f).isDirty x = L.isDirty x := by
  have hgrant : (L.join o p src f).grant x =
      if x = src then (L.grant x).map fun e => { e with writable := false } else L.grant x :=
    if_neg hx
  rw [isDirty, hgrant, isDirty]
  split
  · cases L.grant x <;> rfl
  · rfl

/-! ## Fates -/

/-- What a shift does to the page `p` of `x`. -/
inductive Fate (L L' : Ledger) (x : Owner) (p : Page) : Prop
  /-- It stays where it is. -/
  | stays (hp : L'.page x = some p) (hbytes : ∀ f, p.frame = some f → L'.bytes f = L.bytes f)
      (hswapped : ∀ s, p.slot = some s → L'.swapped s = L.swapped s)
      (hdirty : L'.isDirty x = L.isDirty x)
  /-- Its frame is evicted, with all pages in it. -/
  | evicted {f : FrameNum} {l : List Owner} {slot : Option Nat} {gid : Nat}
      (hf : p.frame = some f) (hl : L.owners f = some l) (hgid : L.team gid = none)
      (hp : ∀ y ∈ l, L'.page y = some (p.evictedTo slot (if 1 < l.length then some gid else none)))
      (hslot : (∃ a, p.content = .anon a) ↔ slot.isSome)
      (hswapped : ∀ s, slot = some s → L'.swapped s = L.bytes f)
      (htaken : l.any L.isDirty = true → p.TakenBy L.file (L.bytes f))
      (hfile : L'.file = if l.any L.isDirty then L.flush p f else L.file)
      (hdirty : ∀ y ∈ l, L'.isDirty y = false)
  /-- It is loaded, with all pages of its group. -/
  | loaded {o : Owner} {f : FrameNum} (hf : p.frame = none) (hx : x ∈ L.company o)
      (hhand : L.hand = some f) (hp : ∀ y ∈ L.company o, L'.page y = some (p.loadedInto f))
      (hbytes : L'.bytes f = L.backed p) (hgiven : p.GivenBy L.file) (hfile : L'.file = L.file)
      (hdirty : ∀ y ∈ L.company o, L'.isDirty y = false) (hlog : L'.log = L.log ++ [.claimed o f])
  /-- It leaves a frame it shared for a copy. -/
  | copied {src copy : FrameNum} {l : List Owner} (hf : p.frame = some src)
      (hl : L.owners src = some l) (hshared : 1 < l.length) (hhand : L.hand = some copy)
      (hp : L'.page x = some { p with frame := some copy }) (hbytes : L'.bytes copy = L.bytes src)
      (hfile : L'.file = L.file) (hdirty : L'.isDirty x = L.isDirty x)
      (hlog : L'.log = L.log ++ [.unshared x src copy])

/-- **A shift does one of four things to a page.** -/
theorem Shift.fate (h : Shift L L') (hL : L.Sound) (hp : L.page x = some p) : L.Fate L' x p := by
  cases h with
  | take hfree =>
    refine .stays hp (fun f hf => if_neg ?_) (fun _ _ => rfl) rfl
    rintro rfl
    exact hfree (hL.held_of_frame hp hf)
  | giveBack | pin | unpin => exact .stays hp (fun _ _ => rfl) (fun _ _ => rfl) rfl
  | scrub b hhand =>
    exact .stays hp (fun f hf => if_neg (hL.ne_hand hp hf hhand)) (fun _ _ => rfl) rfl
  | evict h =>
    rename_i f
    obtain ⟨hc, ho, hq, -, -, hgid, hslot, hfree, htaken⟩ := h
    rename_i c o q slot gid
    by_cases hx : x ∈ c.owners
    · obtain rfl := Option.some.inj ((hL.page_of_mem hc ho hq hx).symm.trans hp)
      have hf : q.frame = some f := (frame_of_page hp).symm.trans ((hL.mem_owners hc x).mp hx)
      exact .evicted hf (owners_of_crew hc) hgid (fun y hy => if_pos hy) hslot (fun s hs => if_pos hs) htaken rfl
        fun y hy => isDirty_of_grant_eq_none (if_pos hy)
    · refine .stays ((if_neg hx).trans hp) (fun _ _ => rfl) (fun s hs => if_neg fun hslot => ?_)
        (isDirty_congr (if_neg hx))
      have hoccupied := hL.occupied_of_slot hp hs
      rw [hfree s hslot] at hoccupied
      cases hoccupied
  | fill hq hframe hhand hpin hgiven =>
    rename_i f o q
    by_cases hx : x ∈ L.company o
    · obtain rfl := Option.some.inj ((hL.page_of_company hq hx).symm.trans hp)
      refine .loaded hframe hx hhand (fun y hy => if_pos hy) (if_pos rfl) hgiven rfl
        (fun y hy => ?_) rfl
      have hgrant : ((L.fill f (L.company o) q).note (.claimed o f)).grant y =
          some ⟨f, q.writable && !decide (1 < (L.company o).length), false⟩ := if_pos hy
      rw [Ledger.isDirty, hgrant]
      rfl
    · exact .stays ((if_neg hx).trans hp) (fun g hg => if_neg (hL.ne_hand hp hg hhand))
        (fun _ _ => rfl) (isDirty_congr (if_neg hx))
  | unshare hq hsrc hl hshared hwritable hhand hpin =>
    rename_i o q src copy l
    by_cases hx : x = o
    · subst hx
      obtain rfl := Option.some.inj (hq.symm.trans hp)
      refine .copied hsrc hl hshared hhand (if_pos rfl) (if_pos rfl) rfl ?_ rfl
      have hgrant : ((L.unshare x q src l copy).note (.unshared x src copy)).grant x =
          some ⟨copy, q.writable, L.isDirty x⟩ := if_pos rfl
      rw [Ledger.isDirty, hgrant]
      rfl
    · refine .stays ((if_neg hx).trans ((if_neg hx).trans hp))
        (fun g hg => if_neg (hL.ne_hand hp hg hhand)) (fun _ _ => rfl) ?_
      have hgrant : ((L.unshare o q src l copy).note (.unshared o src copy)).grant x =
          (L.leaveFrame o q src (l.filter (· ≠ o))).grant x := if_neg hx
      rw [isDirty_congr hgrant]
      exact isDirty_leaveFrame _ hx

/-- **A move that is not made to a page** leaves it where it is, and as dirty as it is. It may be the
last of its group. -/
theorem Move.remains {k : Kind} (h : Move k L L') (hL : L.Sound) (hp : L.page x = some p)
    (hleave : ∀ writeBack, k ≠ .leave x writeBack)
    (hwrite : ∀ start bytes, k ≠ .write x start bytes) :
    (L'.page x = some p ∨ L'.page x = some { p with group := none }) ∧
      (∀ f, p.frame = some f → L'.bytes f = L.bytes f) ∧ L'.swapped = L.swapped ∧
      L'.isDirty x = L.isDirty x := by
  have hne : ∀ {o}, L.page o = none → x ≠ o := fun ho hx => by
    rw [hx, ho] at hp
    cases hp
  cases h with
  | enter ho => exact ⟨Or.inl ((if_neg (hne ho)).trans hp), fun _ _ => rfl, rfl, rfl⟩
  | duplicate ho => exact ⟨Or.inl ((if_neg (hne ho)).trans hp), fun _ _ => rfl, rfl, rfl⟩
  | join ho =>
    exact ⟨Or.inl ((if_neg (hne ho)).trans hp), fun _ _ => rfl, rfl, isDirty_join (hne ho)⟩
  | leaveFrame =>
    rename_i o q f l writeBack _ _ _ _
    have hx : x ≠ o := fun hx => hleave _ (by rw [hx])
    have hdirty : (L.leaveFrame o q f (l.filter (· ≠ o))).isDirty x = L.isDirty x :=
      isDirty_leaveFrame _ hx
    exact ⟨Or.inl ((if_neg hx).trans hp), fun _ _ => rfl, rfl, hdirty⟩
  | leaveTeam hq hg hl =>
    rename_i o q g l writeBack
    have hx : x ≠ o := fun hx => hleave _ (by rw [hx])
    refine ⟨?_, fun _ _ => rfl, rfl, rfl⟩
    by_cases hlast : l.filter (· ≠ o) = [x]
    · exact Or.inr ((if_neg hx).trans ((if_pos hlast).trans (by rw [hp]; rfl)))
    · exact Or.inl ((if_neg hx).trans ((if_neg hlast).trans hp))
  | leaveAlone =>
    exact ⟨Or.inl ((if_neg fun hx => hleave _ (by rw [hx])).trans hp), fun _ _ => rfl, rfl, rfl⟩
  | write he hwritable =>
    rename_i o e start bytes
    have hx : x ≠ o := fun hx => hwrite _ _ (by rw [hx])
    refine ⟨Or.inl hp, fun f hf => if_neg ?_, rfl, isDirty_congr (if_neg hx)⟩
    rintro rfl
    exact hx (hL.eq_of_writable he hwritable hp hf)
  | supply | floor | outside => exact ⟨Or.inl hp, fun _ _ => rfl, rfl, rfl⟩

end DemandPaging.Ledger
