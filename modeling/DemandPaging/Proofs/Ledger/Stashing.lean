import DemandPaging.Proofs.Ledger.Fates

/-!
# What an eviction leaves behind

The pages of a frame that is evicted are `Stashed`: they have one content, wait for each other, and
nobody else comes back with them. They stay so while contents are moved and other pages are used, as
long as none of them is loaded (`Stashed.trace`); a page that leaves is waited for no more. When one of
them is claimed, all that are still there come into one frame, with what was evicted (`Stashed.claims`).
-/

namespace DemandPaging

/-- The event tells that a page, and its company with it, came into a frame. -/
def Event.claims (o : Owner) : Event → Bool
  | .claimed x _ => decide (x = o)
  | _ => false

namespace Ledger

variable {L L' : Ledger} {R : Owner → Prop} {q p : Page} {b : PageBytes} {k : Kind} {ks : List Kind}
  {x y o : Owner} {f : FrameNum} {g : Nat}

/-! ## How often a page was loaded -/

/-- How often a page was claimed while it was not resident. -/
def loads (L : Ledger) (o : Owner) : Nat := L.log.countP (Event.claims o)

/-- No shift is taken back. -/
theorem Shift.loads_le (h : Shift L L') (o : Owner) : L.loads o ≤ L'.loads o := by
  have hnote : ∀ event, L.loads o ≤ (L.log ++ [event]).countP (Event.claims o) := fun event => by
    rw [List.countP_append]
    exact Nat.le_add_right _ _
  cases h with
  | evict h =>
    cases h
    exact Nat.le_refl _
  | fill => exact hnote _
  | unshare => exact hnote _
  | take | giveBack | scrub | pin | unpin => exact Nat.le_refl _

/-- A claim is counted. -/
theorem loads_of_claimed (h : L'.log = L.log ++ [.claimed o f]) : L'.loads o = L.loads o + 1 := by
  rw [loads, h, List.countP_append]
  simp [Event.claims, loads]

/-- Moves load nothing. -/
theorem Move.log (h : Move k L L') : L'.log = L.log := by
  cases h <;> rfl

theorem Trace.loads_le (h : Trace ks L L') (o : Owner) : L.loads o ≤ L'.loads o := by
  induction h with
  | refl => exact Nat.le_refl _
  | shift _ hs ih => exact Nat.le_trans ih (hs.loads_le o)
  | move _ hm ih => exact Nat.le_trans ih (Nat.le_of_eq (by rw [loads, loads, hm.log]))

/-- Acquiring a frame loads nothing. -/
theorem Acquires.loads (h : Acquires L f L') (o : Owner) : L'.loads o = L.loads o := by
  cases h with
  | fresh => rfl
  | evicted h =>
    cases h
    rfl

/-! ## Groups -/

/-- No page joins a group there is. -/
theorem Shift.group_eq (h : Shift L L') (hL : L.Sound) (hx : L.group x = some g)
    (hy : L'.group y = some g) : L.group y = some g := by
  obtain ⟨p', hp', hg⟩ := Option.bind_eq_some_iff.mp hy
  obtain ⟨p, hp⟩ : ∃ p, L.page y = some p := Option.ne_none_iff_exists'.mp fun hnone => by
    rw [(h.trace.page_eq_none hL y).mpr hnone] at hp'
    cases hp'
  rw [group_of_page hp]
  cases h.fate hL hp with
  | stays hp'' =>
    obtain rfl := Option.some.inj (hp'.symm.trans hp'')
    exact hg
  | evicted hf hl hgid hp'' =>
    have hmem := hL.mem_of_page hl hp hf
    obtain rfl := Option.some.inj (hp'.symm.trans (hp'' y hmem))
    -- the group of an evicted frame is new
    rw [Page.group_evictedTo] at hg
    split at hg
    · obtain rfl := Option.some.inj hg
      exact absurd hx (hL.group_ne_of_team hgid x)
    · cases hg
  | loaded hf hmem hhand hp'' =>
    obtain rfl := Option.some.inj (hp'.symm.trans (hp'' y hmem))
    cases hg
  | copied hf hl hshared hhand hp'' =>
    obtain rfl := Option.some.inj (hp'.symm.trans hp'')
    exact hg

/-- A page is in the group it was in, if it was not replaced by one that is in none. -/
theorem group_of_ite {c : Prop} [Decidable c] {r : Option Page} (hr : r.bind Page.group = none)
    (h : (if c then r else L.page y).bind Page.group = some g) : L.group y = some g := by
  split at h
  · rw [hr] at h
    cases h
  · exact h

theorem group_ite_of_not {c : Prop} [Decidable c] {r : Option Page} (hc : ¬c) :
    (if c then r else L.page y).bind Page.group = L.group y := by
  rw [if_neg hc, group]

/-- No move puts a page into a group. -/
theorem Move.group_eq (h : Move k L L') (hL : L.Sound) (hy : L'.group y = some g) :
    L.group y = some g := by
  cases h with
  | enter | duplicate => exact group_of_ite rfl hy
  | join ho hvpn hp hframe =>
    exact group_of_ite (r := some _) ((hL.shaped hp).group_eq_none hframe) hy
  | leaveFrame | leaveAlone => exact group_of_ite rfl hy
  | leaveTeam =>
    rw [group_leaveTeam] at hy
    split at hy
    · cases hy
    · exact hy
  | write | supply | floor | outside => exact hy

/-- Two pages that stay keep each other in their group. -/
theorem Move.group_stays (h : Move k L L') (hL : L.Sound) (hx : L.group x = some g)
    (hy : L.group y = some g) (hne : y ≠ x) (hleaveX : ∀ writeBack, k ≠ .leave x writeBack)
    (hleaveY : ∀ writeBack, k ≠ .leave y writeBack) : L'.group x = some g := by
  have hnew : ∀ {o}, L.page o = none → x ≠ o := fun ho hxo => by
    rw [group, hxo, ho] at hx
    cases hx
  have hother : ∀ {o writeBack}, k = .leave o writeBack → x ≠ o ∧ y ≠ o := fun hk =>
    ⟨fun hxo => hleaveX _ (hxo ▸ hk), fun hyo => hleaveY _ (hyo ▸ hk)⟩
  cases h with
  | enter ho | duplicate ho | join ho => exact (group_ite_of_not (hnew ho)).trans hx
  | leaveFrame | leaveAlone => exact (group_ite_of_not (hother rfl).1).trans hx
  | leaveTeam hp hg hl =>
    rename_i o q g' l writeBack
    obtain ⟨hxo, hyo⟩ := hother rfl
    rw [group_leaveTeam, if_neg]
    · exact hx
    rintro (rfl | hlast)
    · exact hxo rfl
    · have hmem : x ∈ l.filter (· ≠ o) := by rw [hlast]; exact List.mem_singleton_self x
      have hxg := (hL.teams.mem hl x).mp (List.mem_filter.mp hmem).1
      obtain rfl := Option.some.inj (hxg.symm.trans hx)
      have hyl : y ∈ l.filter (· ≠ o) :=
        List.mem_filter.mpr ⟨(hL.teams.mem hl y).mpr hy, decide_eq_true hyo⟩
      rw [hlast, List.mem_singleton] at hyl
      exact hne hyl
  | write | supply | floor | outside => exact hx

/-! ## Pages that wait for each other -/

/-- The pages of `R` are those that come back together, all like `q` but for their group, and what they
hold on the swap device is `b`. -/
structure Stashed (L : Ledger) (R : Owner → Prop) (q : Page) (b : PageBytes) : Prop where
  away : q.frame = none
  page : ∀ {x}, R x → ∃ group, L.page x = some { q with group }
  company : ∀ {x y}, R x → (y ∈ L.company x ↔ R y)
  stored : ∀ {x s}, R x → q.slot = some s → L.swapped s = b

namespace Stashed

theorem congr {R' : Owner → Prop} (h : L.Stashed R q b) (hR : ∀ x, R x ↔ R' x) :
    L.Stashed R' q b := by
  obtain rfl : R = R' := funext fun x => propext (hR x)
  exact h

/-- A page that waits is in no frame. -/
theorem frame (h : L.Stashed R q b) (hx : R x) : L.frame x = none := by
  obtain ⟨group, hp⟩ := h.page hx
  exact (frame_of_page hp).trans h.away

/-- A page that waits stays where it is while none of those that wait with it is loaded. -/
theorem stays (h : L.Stashed R q b) (hL : L.Sound) (hs : Shift L L')
    (hquiet : ∀ x, R x → L'.loads x = L.loads x) (hx : R x) :
    L'.page x = L.page x ∧ ∀ s, q.slot = some s → L'.swapped s = L.swapped s := by
  obtain ⟨group, hp⟩ := h.page hx
  cases hs.fate hL hp with
  | stays hp' _ hswapped => exact ⟨hp'.trans hp.symm, hswapped⟩
  | evicted hf | copied hf =>
    rw [show ({ q with group } : Page).frame = none from h.away] at hf
    cases hf
  | @loaded o _ _ hmem _ _ _ _ _ _ hlog =>
    -- whoever was claimed waited with `x`
    have ho : R o := (h.company hx).mp ((hL.mem_company).mpr <| by
      rcases hL.mem_company.mp hmem with rfl | ⟨g, hog, hxg⟩
      · exact Or.inl rfl
      · exact Or.inr ⟨g, hxg, hog⟩)
    have hloads := loads_of_claimed hlog
    rw [hquiet o ho] at hloads
    exact absurd hloads (Nat.ne_of_lt (Nat.lt_succ_self _))

/-- **Shifts** load none of the pages that wait, or change nothing of them. -/
theorem shift (h : L.Stashed R q b) (hL : L.Sound) (hs : Shift L L')
    (hquiet : ∀ x, R x → L'.loads x = L.loads x) : L'.Stashed R q b := by
  have hL' := hs.sound hL
  have hstays := fun {x} hx => h.stays (x := x) hL hs hquiet hx
  have hgroup : ∀ {x}, R x → L'.group x = L.group x := fun hx => by
    rw [group, (hstays hx).1, group]
  refine ⟨h.away, fun hx => ?_, fun {x y} hx => ?_, fun hx hs => ?_⟩
  · rw [(hstays hx).1]
    exact h.page hx
  · rw [← h.company hx, hL'.mem_company, hL.mem_company, hgroup hx]
    refine or_congr_right (exists_congr fun g => and_congr_right fun hxg => ⟨hs.group_eq hL hxg, ?_⟩)
    intro hyg
    have hy := (h.company hx).mp (hL.mem_company.mpr (Or.inr ⟨g, hxg, hyg⟩))
    rw [hgroup hy]
    exact hyg
  · rw [(hstays hx).2 _ hs]
    exact h.stored hx hs

/-- **Moves** change nothing of the pages that wait, and those that leave are not waited for. -/
theorem move (h : L.Stashed R q b) (hL : L.Sound) (hm : Move k L L') :
    L'.Stashed (fun x => R x ∧ ∀ writeBack, k ≠ .leave x writeBack) q b := by
  have hL' := hm.sound hL
  have hwrite : ∀ {x}, R x → ∀ start bytes, k ≠ .write x start bytes := fun {x} hx start bytes hk => by
    subst hk
    cases hm with
    | write he => cases (h.frame hx).symm.trans (hL.frame_of_grant he)
  refine ⟨h.away, fun hx => ?_, fun {x y} hx => ?_, fun hx hs => ?_⟩
  · obtain ⟨group, hp⟩ := h.page hx.1
    rcases (hm.remains hL hp hx.2 (hwrite hx.1)).1 with hp' | hp'
    · exact ⟨group, hp'⟩
    · exact ⟨none, hp'⟩
  · rw [hL'.mem_company]
    constructor
    · rintro (rfl | ⟨g, hxg, hyg⟩)
      · exact hx
      · have hxg := hm.group_eq hL hxg
        refine ⟨(h.company hx.1).mp (hL.mem_company.mpr (Or.inr ⟨g, hxg, hm.group_eq hL hyg⟩)), ?_⟩
        intro writeBack hk
        rw [group, hm.page_leave hk] at hyg
        cases hyg
    · intro hy
      by_cases hne : y = x
      · exact Or.inl hne
      obtain ⟨g, hxg, hyg⟩ :=
        (hL.mem_company.mp ((h.company hx.1).mpr hy.1)).resolve_left hne
      exact Or.inr ⟨g, hm.group_stays hL hxg hyg hne hx.2 hy.2,
        hm.group_stays hL hyg hxg (Ne.symm hne) hy.2 hx.2⟩
  · obtain ⟨group, hp⟩ := h.page hx.1
    rw [(hm.remains hL hp hx.2 (hwrite hx.1)).2.2.1]
    exact h.stored hx.1 hs

/-- **The pages that wait**, and do not leave, wait on until one of them is loaded. -/
theorem trace (h : L.Stashed R q b) (hL : L.Sound) (htrace : Trace ks L L')
    (hquiet : ∀ x, R x → L'.loads x = L.loads x) :
    L'.Stashed (fun x => R x ∧ ∀ writeBack, .leave x writeBack ∉ ks) q b := by
  induction htrace with
  | refl => exact h.congr fun x => by simp
  | shift htrace hs ih =>
    rename_i L A B ks
    -- claims are not taken back, so none is made on the way either
    have hA : ∀ x, R x → A.loads x = L.loads x := fun x hx =>
      Nat.le_antisymm (Nat.le_trans (hs.loads_le x) (Nat.le_of_eq (hquiet x hx))) (htrace.loads_le x)
    exact (ih h hL hA).shift (htrace.sound hL) hs fun x hx => (hquiet x hx.1).trans (hA x hx.1).symm
  | move htrace hm ih =>
    rename_i L A B ks k
    have hloads : ∀ x, B.loads x = A.loads x := fun x => by rw [loads, loads, hm.log]
    refine ((ih h hL fun x hx => (hloads x).symm.trans (hquiet x hx)).move (htrace.sound hL) hm).congr
      fun x => ?_
    simp only [List.mem_append, List.mem_singleton, not_or, forall_and, and_assoc, ne_eq, eq_comm]

/-- Acquiring a frame changes nothing of the pages that wait. -/
theorem acquire (h : L.Stashed R q b) (hL : L.Sound) (hacq : Acquires L f L') :
    L'.Stashed R q b :=
  (h.trace hL hacq.trace fun x _ => hacq.loads x).congr fun x => by simp

end Stashed

/-- **The pages of a frame that is evicted** wait for each other. -/
theorem Sound.stashed_evict {c : Frame} {slot : Option Nat} {gid : Nat} {file : Nat → File}
    (hL : L.Sound) (hL' : (L.evict f c.owners p slot gid file).Sound)
    (hgid : L.team gid = none) (hslot : (∃ a, p.content = .anon a) ↔ slot.isSome) :
    (L.evict f c.owners p slot gid file).Stashed (· ∈ c.owners) (p.evictedTo slot none) (L.bytes f) := by
  have hnew := hL.group_ne_of_team hgid
  refine ⟨rfl, fun hx => ⟨_, if_pos hx⟩, fun {x y} hx => ?_, fun {x s} hx hs => ?_⟩
  · rw [hL'.mem_company]
    simp only [group_evict, if_pos hx]
    by_cases hmany : 1 < c.owners.length
    · simp only [if_pos hmany, Option.some.injEq, exists_eq_left']
      constructor
      · rintro (rfl | hy)
        · exact hx
        · by_cases hmem : y ∈ c.owners
          · exact hmem
          · rw [if_neg hmem] at hy
            exact absurd hy (hnew y)
      · exact fun hy => Or.inr (if_pos hy)
    · simp only [if_neg hmany, reduceCtorEq, false_and, exists_false, or_false]
      exact ⟨fun hyx => hyx ▸ hx, fun hy => Roster.eq_of_mem_of_short hmany hy hx⟩
  · rw [Page.slot_evictedTo hslot] at hs
    exact if_pos hs

/-- An owner is alone in its frame if no other page is in it. -/
theorem Sound.owners_eq_singleton (hL : L.Sound) (hx : L.frame x = some f) :
    L.owners f = some [x] ↔ ∀ y, L.frame y = some f → y = x := by
  obtain ⟨l, hl⟩ := hL.crews.listed hx
  have hmem := hL.crews.mem hl
  rw [hl, Option.some.injEq]
  constructor
  · rintro rfl y hy
    exact List.mem_singleton.mp ((hmem y).mpr hy)
  · intro hall
    refine List.perm_singleton.mp ((List.perm_ext_iff_of_nodup (hL.crews.nodup hl)
      (List.pairwise_singleton _ x)).mpr fun y => ?_)
    rw [hmem, List.mem_singleton]
    exact ⟨hall y, fun hy => hy ▸ hx⟩

/-- The pages of `R`, which were like `q`, are in the frame `f` and nobody else is. -/
structure Unstashed (L : Ledger) (R : Owner → Prop) (q : Page) (b : PageBytes) (f : FrameNum) :
    Prop where
  together : ∀ x, L.frame x = some f ↔ R x
  page : ∀ {x}, R x → L.page x = some (q.loadedInto f)
  swapped : ∀ {s}, q.slot = some s → L.bytes f = b ∧ L.occupied s = false
  window : ∀ {w}, q.content = .file w →
    w.GivenBy (L.file w.handle) ∧ L.bytes f = (L.file w.handle).windowBytes w

/-- **A page that waits brings the others back**, with what they were evicted with. -/
theorem Stashed.claims (h : L.Stashed R q b) (hL : L.Sound) (hc : Claims L o f L') (ho : R o) :
    L'.Unstashed R q b f := by
  cases hc with
  | stays hf =>
    rw [h.frame ho] at hf
    cases hf
  | fills hacq hp hframe hpin hgiven =>
    rename_i A p
    have hA := h.acquire hL hacq
    have hsound := hacq.trace.sound hL
    obtain ⟨group, hp'⟩ := hA.page ho
    obtain rfl := Option.some.inj (hp.symm.trans hp')
    have hempty := hsound.frame_ne_hand hacq.hand
    have hbytes : ((A.fill f (A.company o) { q with group }).note (.claimed o f)).bytes f =
        A.backed { q with group } := if_pos rfl
    refine ⟨fun x => ?_, fun hx => if_pos ((hA.company ho).mpr hx), fun {s} hs => ⟨?_, ?_⟩,
      fun {w} hw => ?_⟩
    · rw [← hA.company ho]
      refine Iff.trans (Eq.to_iff (congrArg (· = some f) (frame_fill x))) ?_
      by_cases hx : x ∈ A.company o
      · rw [if_pos hx]
        exact iff_of_true rfl hx
      · rw [if_neg hx]
        exact iff_of_false (hempty x) hx
    · rw [hbytes]
      unfold Page.slot at hs
      split at hs
      · rename_i a ha
        rw [backed, show ({ q with group } : Page).content = _ from ha]
        dsimp only
        rw [hs]
        exact hA.stored ho (by rw [Page.slot, ha]; exact hs)
      · cases hs
    · show (A.occupied s && !decide (q.slot = some s)) = false
      rw [hs, decide_eq_true rfl]
      exact Bool.and_false _
    · refine ⟨hgiven w (by rw [Page.window?, show ({ q with group } : Page).content = _ from hw]; rfl), ?_⟩
      rw [hbytes, backed, show ({ q with group } : Page).content = _ from hw]
      rfl

end Ledger

end DemandPaging
