import DemandPaging.Proofs.Ledger.Basic

/-!
# Entering, in the ledger

A page that is registered is in no frame yet (`enter`), or it shares the frame of the page it is a
copy of (`join`), or it has the frame in the hand to itself (`settle`).
-/

namespace DemandPaging.Ledger

/-- The ledger with one more page. -/
def enter (L : Ledger) (o : Owner) (p : Page) : Ledger :=
  { L with page := fun x => if x = o then some p else L.page x }

/-- The ledger with `o` in the frame `f`, which `src` is in, as another owner of its page `p`. -/
def join (L : Ledger) (o : Owner) (p : Page) (src : Owner) (f : FrameNum) : Ledger :=
  { L with
    page := fun x => if x = o then some p else L.page x
    grant := fun x =>
      if x = o then some ⟨f, false, false⟩
      else if x = src then (L.grant x).map fun e => { e with writable := false }
      else L.grant x
    crew := fun x =>
      if x = f then (L.crew f).map fun c => { c with owners := c.owners ++ [o] } else L.crew x }

/-- The ledger with `o` alone in the frame in the hand, which now holds `bytes`. -/
def settle (L : Ledger) (o : Owner) (p : Page) (f : FrameNum) (bytes : PageBytes) (dirty : Bool) :
    Ledger :=
  { L with
    page := fun x => if x = o then some { p with frame := some f } else L.page x
    grant := fun x => if x = o then some ⟨f, p.writable, dirty⟩ else L.grant x
    crew := fun x => if x = f then some ⟨[o], false⟩ else L.crew x
    bytes := fun x => if x = f then bytes else L.bytes x
    hand := none }

section

variable {L L' : Ledger} {o src : Owner} {p : Page} {f : FrameNum} {l : List Owner}

/-- An owner without a page is mapped to nothing. -/
theorem Sound.grant_eq_none (h : L.Sound) (ho : L.page o = none) : L.grant o = none := by
  have := h.mapped o
  rw [frame, ho] at this
  exact Option.map_eq_none_iff.mp this

/-- A space that is not there has no page. -/
theorem Sound.page_of_space (h : L.Sound) {id : SpaceId} (hnew : L.floor id = none)
    (ho : o.space = id) : L.page o = none := by
  rw [← Option.not_isSome_iff_eq_none]
  intro hsome
  obtain ⟨p, hp⟩ := Option.isSome_iff_exists.mp hsome
  have hliving := h.living hp
  rw [ho, hnew] at hliving
  cases hliving

/-- The books accept every page if they accept the one that enters. -/
theorem Sound.enrolled_of_entered (h : L.Sound)
    (hpage : ∀ x, L'.page x = if x = o then some p else L.page x) (hinitial : L'.initial = L.initial)
    (hfloor : L'.floor = L.floor) (hp : L.Enrolled o p) (x : Owner) (q : Page) :
    L'.page x = some q → L'.Enrolled x q := by
  intro hq
  rw [hpage] at hq
  split at hq
  · rename_i hx
    obtain rfl : p = q := Option.some.inj hq
    exact (hx ▸ hp).congr hinitial hfloor
  · exact (h.enrolled hq).congr hinitial hfloor

/-- A page that enters without a group and a slot leaves groups and slots as they are. -/
theorem Sound.stowed_of_entered (h : L.Sound) (ho : L.page o = none)
    (hpage : ∀ x, L'.page x = if x = o then some p else L.page x) (hgroup : p.group = none)
    (hslot : p.slot = none) (hteam : L'.team = L.team) (hoccupied : L'.occupied = L.occupied) :
    L'.Stowed := by
  refine h.stowed.congr hteam hoccupied (fun x => ?_) (fun x => ?_) fun {x g} hx => ?_
  · by_cases hx : x = o <;> simp [group, hpage, hx, ho, hgroup]
  · by_cases hx : x = o <;> simp [Ledger.slot, hpage, hx, ho, hslot]
  · rw [hpage, if_neg]
    rintro rfl
    rw [group, ho] at hx
    cases hx

/-- **Entering keeps the books.** The page is in no frame, in no group and in no slot. -/
theorem Sound.enter (h : L.Sound) (ho : L.page o = none) (hvpn : p.vpn = o.vpn)
    (hframe : p.frame = none) (hgroup : p.group = none) (hcontent : ∀ a, p.content ≠ .anon a)
    (htyped : ∀ g, p.content = .uninit .file g → ∃ w, g = .file w)
    (hliving : (L.floor o.space).isSome)
    (hsupplied : ∀ t n, p.content = .uninit t (.custom n) → (L.initial n).isSome) :
    (L.enter o p).Sound := by
  have hslot : p.slot = none := by
    cases hc : p.content with
    | anon a => exact absurd hc (hcontent a)
    | uninit t g => rw [Page.slot, hc]
    | file w => rw [Page.slot, hc]
  have hshaped : p.Shaped := ⟨htyped _, fun _ => ⟨hframe, hgroup⟩,
    fun {a} ha => absurd ha (hcontent a), fun _ => hframe⟩
  refine .of_parts (h.enrolled_of_entered (fun _ => rfl) rfl rfl ⟨hvpn, hshaped, hsupplied _ _, hliving⟩)
    (h.lodged.congr rfl rfl rfl rfl rfl (fun x => ?_) fun {x f} hx => ?_)
    (h.stowed_of_entered ho (fun _ => rfl) hgroup hslot rfl rfl)
  · by_cases hx : x = o <;> simp [frame, Ledger.enter, hx, ho, hframe]
  · refine if_neg ?_
    rintro rfl
    rw [frame, ho] at hx
    cases hx

theorem frame_join (hframe : p.frame = some f) (x : Owner) :
    (L.join o p src f).frame x = if x = o then some f else L.frame x := by
  by_cases hx : x = o <;> simp [frame, join, hx, hframe]

theorem owners_join (hl : L.owners f = some l) (x : FrameNum) :
    (L.join o p src f).owners x = if x = f then some (l ++ [o]) else L.owners x := by
  obtain ⟨c, hc, rfl⟩ := Option.map_eq_some_iff.mp hl
  by_cases hx : x = f <;> simp [owners, join, hx, hc]

/-- Nobody may write who is in the frame that one more page shares, and all others may as before. -/
theorem Sound.writes_join (h : L.Sound) (hsf : L.frame src = some f) (hl : L.owners f = some l)
    {x : Owner} {q : Page} {e : Grant} (hx : (L.join o p src f).page x = some q)
    (he : (L.join o p src f).grant x = some e) :
    e.writable = true ↔ q.writable = true ∧ (L.join o p src f).owners e.frame = some [x] := by
  have hsl : src ∈ l := (h.crews.mem hl src).mpr hsf
  rw [owners_join hl]
  by_cases hxo : x = o
  · simp only [Ledger.join, hxo, if_true, Option.some.injEq] at hx he
    subst hx he
    have hne : l ++ [o] ≠ [o] := fun heq =>
      List.ne_nil_of_mem hsl (List.append_left_eq_self.mp heq)
    simp [hxo, hne]
  · simp only [Ledger.join, hxo, if_false] at hx he
    have hlong : l ++ [o] ≠ [x] := fun heq => by
      have hmem : o ∈ l ++ [o] := by simp
      rw [heq, List.mem_singleton] at hmem
      exact hxo hmem.symm
    by_cases hxs : x = src
    · simp only [hxs, if_true] at he
      obtain ⟨d, hd, rfl⟩ := Option.map_eq_some_iff.mp he
      have hdf : d.frame = f := Option.some.inj ((h.frame_of_grant hd).symm.trans hsf)
      simp [hdf, hlong]
    · simp only [hxs, if_false] at he
      rw [h.writes hx he]
      by_cases hef : e.frame = f
      · have hother : l ≠ [x] := by
          rintro rfl
          exact hxs (List.mem_singleton.mp hsl).symm
        simp [hef, hl, hother, hlong]
      · rw [if_neg hef]

/-- A mapping of the source may lose the permission to write, and nothing else. -/
theorem grant_join {x : Owner} {e : Grant} (hxo : x ≠ o) (he : (L.join o p src f).grant x = some e) :
    ∃ d, L.grant x = some d ∧ e.frame = d.frame ∧ e.dirty = d.dirty := by
  simp only [join, hxo, if_false] at he
  split at he
  · obtain ⟨d, hd, rfl⟩ := Option.map_eq_some_iff.mp he
    exact ⟨d, hd, rfl, rfl⟩
  · exact ⟨e, he, rfl, rfl⟩

/-- The new owner is mapped to the frame, and the source stays mapped to it. -/
theorem Sound.mapped_join (h : L.Sound) (hframe : p.frame = some f) (x : Owner) :
    ((L.join o p src f).grant x).map Grant.frame = (L.join o p src f).frame x := by
  rw [frame_join hframe]
  simp only [Ledger.join]
  split
  · rfl
  · rw [← h.mapped x]
    split
    · cases L.grant x <;> rfl
    · rfl

/-- Sharing keeps what the books say of frames. -/
theorem Sound.lodged_join (h : L.Sound) (ho : L.page o = none) (hp : L.page src = some p)
    (hframe : p.frame = some f) (hl : L.owners f = some l) : (L.join o p src f).Lodged := by
  have hsf : L.frame src = some f := (frame_of_page hp).trans hframe
  have hfo : L.frame o = none := by rw [frame, ho]; rfl
  obtain ⟨c, hc, -⟩ := Option.map_eq_some_iff.mp hl
  constructor
  case crews => exact (h.crews.join hl hfo).congr (owners_join hl) (frame_join hframe)
  case crewed =>
    intro x s hx
    rw [owners_join hl] at hx
    split at hx
    · rw [← Option.some.inj hx]
      exact List.append_ne_nil_of_right_ne_nil l (List.cons_ne_nil o [])
    · exact h.crewed hx
  case crewAlike =>
    intro x y f' hx hy
    rw [frame_join hframe] at hx hy
    have := @h.crewAlike
    grind [Ledger.join]
  case mapped => exact h.mapped_join hframe
  case writes => exact h.writes_join hsf hl
  case dirties =>
    intro x q e hx he hdirty
    by_cases hxo : x = o
    · simp only [Ledger.join, hxo, if_true, Option.some.injEq] at he
      subst he
      cases hdirty
    · obtain ⟨d, hd, -, hed⟩ := grant_join hxo he
      simp only [Ledger.join, hxo, if_false] at hx
      exact h.dirties hx hd (hed ▸ hdirty)
  case pinned =>
    have := @h.pinned
    grind [Ledger.join]
  case holds =>
    have := h.holds
    grind [Ledger.join]
  case spare =>
    have := @h.spare
    grind [Ledger.join]

/-- **Sharing keeps the books.** -/
theorem Sound.join (h : L.Sound) (ho : L.page o = none) (hvpn : src.vpn = o.vpn)
    (hp : L.page src = some p) (hframe : p.frame = some f) (hl : L.owners f = some l)
    (hliving : (L.floor o.space).isSome) : (L.join o p src f).Sound := by
  have hsrc := h.enrolled hp
  have hentered : L.Enrolled o p := ⟨hsrc.numbered.trans hvpn, hsrc.shaped, hsrc.supplied, hliving⟩
  exact .of_parts (h.enrolled_of_entered (fun _ => rfl) rfl rfl hentered)
    (h.lodged_join ho hp hframe hl)
    (h.stowed_of_entered ho (fun _ => rfl) (hsrc.shaped.group_eq_none hframe)
      (hsrc.shaped.slot_eq_none hframe) rfl rfl)

section

variable {b : PageBytes} {d : Bool}

theorem owners_settle (x : FrameNum) :
    (L.settle o p f b d).owners x = if x = f then some [o] else L.owners x := by
  by_cases hx : x = f <;> simp [owners, settle, hx]

theorem frame_settle (x : Owner) :
    (L.settle o p f b d).frame x = if x = o then some f else L.frame x := by
  by_cases hx : x = o <;> simp [frame, settle, hx]

/-- The page may be written, if it is writable, in a frame of its own; nobody else was in that frame. -/
theorem Sound.writes_settle (h : L.Sound) (hhand : L.hand = some f) {x : Owner} {q : Page} {e : Grant}
    (hx : (L.settle o p f b d).page x = some q) (he : (L.settle o p f b d).grant x = some e) :
    e.writable = true ↔ q.writable = true ∧ (L.settle o p f b d).owners e.frame = some [x] := by
  rw [owners_settle]
  by_cases hxo : x = o
  · simp only [Ledger.settle, hxo, if_true, Option.some.injEq] at hx he
    subst hx he
    simp [hxo]
  · simp only [Ledger.settle, hxo, if_false] at hx he
    have hne : e.frame ≠ f := fun hef => h.frame_ne_hand hhand x (hef ▸ h.frame_of_grant he)
    rw [if_neg hne]
    exact h.writes hx he

/-- Settling keeps what the books say of frames. -/
theorem Sound.lodged_settle (h : L.Sound) (ho : L.page o = none) (hhand : L.hand = some f)
    (hpin : L.pin ≠ some f) (hdirty : d = true → p.writable = true) :
    (L.settle o p f b d).Lodged := by
  have hfo : L.frame o = none := by rw [frame, ho]; rfl
  have hempty : L.owners f = none := by rw [owners, h.spare hhand]; rfl
  have hoff := h.frame_ne_hand hhand
  constructor
  case crews =>
    refine (h.crews.form hempty (by simp) (l := [o]) ?_).congr owners_settle (fun x => ?_)
    · simpa using hfo
    · rw [frame_settle]
      simp
  case crewed =>
    have := @h.crewed
    grind [owners_settle]
  case crewAlike =>
    have := @h.crewAlike
    grind [frame_settle, Ledger.settle]
  case mapped =>
    intro x
    rw [frame_settle]
    have := h.mapped x
    by_cases hx : x = o <;> simp_all [Ledger.settle]
  case writes => exact h.writes_settle hhand
  case dirties =>
    have := @h.dirties
    grind [Ledger.settle]
  case pinned =>
    have := @h.pinned
    grind [Ledger.settle]
  case holds =>
    have := h.holds
    grind [Ledger.settle]
  case spare => grind [Ledger.settle]

/-- **Settling keeps the books.** The page was loaded and holds no slot and no group. -/
theorem Sound.settle (h : L.Sound) (ho : L.page o = none) (hvpn : p.vpn = o.vpn)
    (hgroup : p.group = none) (hslot : p.slot = none) (hloaded : ∀ t g, p.content ≠ .uninit t g)
    (hliving : (L.floor o.space).isSome) (hhand : L.hand = some f) (hpin : L.pin ≠ some f)
    (hdirty : d = true → p.writable = true) : (L.settle o p f b d).Sound := by
  have hshaped : ({ p with frame := some f } : Page).Shaped := by
    refine ⟨fun hc => absurd hc (hloaded _ _), fun hc => absurd hc (hloaded _ _),
      fun {a} hc => ?_, fun hsome => ?_⟩
    · have hslot' : p.slot = a.slot := by rw [Page.slot, show p.content = .anon a from hc]
      simp [← hslot', hslot]
    · simp [hgroup] at hsome
  exact .of_parts
    (h.enrolled_of_entered (fun _ => rfl) rfl rfl
      ⟨hvpn, hshaped, fun hc => absurd hc (hloaded _ _), hliving⟩)
    (h.lodged_settle ho hhand hpin hdirty)
    (h.stowed_of_entered ho (fun _ => rfl) hgroup hslot rfl rfl)

end

end

end DemandPaging.Ledger
