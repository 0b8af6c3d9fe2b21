import DemandPaging.Proofs.Ledger.Fates

/-!
# What a page holds

The space of a page finds in it what its frame holds, or what it would be loaded with
(`Ledger.contentOf`). A page that depends on no file, or only on files that stay what they are, is
found as it was after any shift (`Shift.contentOf`), and after any move that is not made to it
(`Move.contentOf`).
-/

namespace DemandPaging

namespace Page

variable {p : Page} {fixed : Nat → Prop}

/-- The page depends on no file, unless it is anonymous and waits to be loaded from one of `fixed`. -/
def Detached (fixed : Nat → Prop) (p : Page) : Prop :=
  ∀ w, p.window? = some w → p.type = .anon ∧ fixed w.handle

theorem detached_of_window? (h : p.window? = none) : p.Detached fixed := fun w hw => by
  rw [h] at hw
  cases hw

/-- A page that depends on nothing has no window. -/
theorem Detached.window? (h : p.Detached fun _ => False) : p.window? = none :=
  Option.eq_none_iff_forall_ne_some.mpr fun w hw => (h w hw).2

/-- Who has the content and number of another page depends on what that one depends on. -/
theorem Detached.congr {q : Page} (h : p.Detached fixed) (hwindow : q.window? = p.window?)
    (htype : q.type = p.type) : q.Detached fixed := fun w hw => by
  rw [htype]
  exact h w (hwindow.symm.trans hw)

/-- Eviction leaves a page the window it has. -/
theorem Detached.evictedTo (h : p.Detached fixed) (slot group : Option Nat) :
    (p.evictedTo slot group).Detached fixed := by
  refine h.congr ?_ ?_
  · unfold Page.evictedTo Page.window?
    cases p.content <;> rfl
  · unfold Page.evictedTo Page.type
    cases p.content <;> rfl

/-- An anonymous page that was loaded depends on no file any more. -/
theorem Detached.loadedInto (h : p.Detached fixed) (f : FrameNum) :
    (p.loadedInto f).window? = none := by
  unfold Detached Page.window? Page.type at h
  unfold Page.loadedInto Page.window?
  cases hc : p.content with
  | anon a => rfl
  | file w =>
    rw [hc] at h
    cases (h w rfl).1
  | uninit t g =>
    rw [hc] at h
    cases t with
    | anon => rfl
    | file =>
      cases g with
      | file w => cases (h w rfl).1
      | zero | custom => rfl

/-- A resident page that depends on no file that changes is anonymous. -/
theorem Detached.exists_anon (h : p.Detached fixed) (hp : p.Shaped) {f : FrameNum}
    (hf : p.frame = some f) : ∃ a, p.content = .anon a := by
  cases hc : p.content with
  | anon a => exact ⟨a, rfl⟩
  | uninit t g => exact absurd hc (hp.content_ne_uninit hf t g)
  | file w =>
    have htype := (h w (by rw [Page.window?, hc]; rfl)).1
    rw [Page.type, hc] at htype
    cases htype

end Page

namespace Ledger

variable {L L' : Ledger} {x o : Owner} {p : Page} {f : FrameNum}

/-- What the space of a page finds in it: what its frame holds, or what it would be loaded with. -/
def contentOf (L : Ledger) (p : Page) : PageBytes :=
  match p.frame with
  | some f => L.bytes f
  | none => L.backed p

theorem contentOf_resident (h : p.frame = some f) : L.contentOf p = L.bytes f := by
  rw [contentOf, h]

theorem contentOf_away (h : p.frame = none) : L.contentOf p = L.backed p := by
  rw [contentOf, h]

/-- What a page would be loaded with depends on its content alone. -/
theorem backed_content {q : Page} (h : q.content = p.content) : L.backed q = L.backed p := by
  unfold backed
  rw [h]

/-- What is found in a page depends on where it is alone. -/
theorem contentOf_content {q : Page} (hframe : q.frame = p.frame) (h : q.content = p.content) :
    L.contentOf q = L.contentOf p := by
  unfold contentOf
  rw [hframe, backed_content h]

/-- A page is loaded with the same as long as its slot, the initializers and the files it depends on
stay what they are. -/
theorem backed_congr {fixed : Nat → Prop} (hd : p.Detached fixed)
    (hfixed : ∀ i, fixed i → L'.file i = L.file i)
    (hinitial : ∀ n t, p.content = .uninit t (.custom n) → L'.initial n = L.initial n)
    (hslot : ∀ s, p.slot = some s → L'.swapped s = L.swapped s) : L'.backed p = L.backed p := by
  unfold backed
  unfold Page.Detached Page.window? at hd
  unfold Page.slot at hslot
  cases hc : p.content with
  | uninit t g =>
    cases g with
    | zero => rfl
    | custom n => simp only [hinitial n t hc]
    | file w =>
      rw [hc] at hd
      simp only [hfixed _ (hd w rfl).2]
  | file w =>
    rw [hc] at hd
    simp only [hfixed _ (hd w rfl).2]
  | anon a =>
    rw [hc] at hslot
    cases hs : a.slot with
    | none => simp only [hs, Option.map_none]
    | some s => simp only [hs, Option.map_some, hslot s hs]

/-- **A shift changes no page that depends on no file that changes**, as its space sees it. -/
theorem Shift.contentOf {fixed : Nat → Prop} (h : Shift L L') (hL : L.Sound)
    (hp : L.page x = some p) (hd : p.Detached fixed) (hfixed : ∀ i, fixed i → L'.file i = L.file i) :
    ∃ p', L'.page x = some p' ∧ p'.Detached fixed ∧ L'.contentOf p' = L.contentOf p := by
  cases h.fate hL hp with
  | stays hp' hbytes hswapped =>
    refine ⟨p, hp', hd, ?_⟩
    cases hf : p.frame with
    | some f => rw [contentOf_resident hf, contentOf_resident hf, hbytes f hf]
    | none =>
      rw [contentOf_away hf, contentOf_away hf, backed_congr hd hfixed (fun n _ _ => congrFun h.initial n) hswapped]
  | evicted hf hl hgid hp' hslot hswapped =>
    have hx := hL.mem_of_page hl hp hf
    obtain ⟨a, ha⟩ := hd.exists_anon (hL.shaped hp) hf
    obtain ⟨s, hs⟩ := Option.isSome_iff_exists.mp (hslot.mp ⟨a, ha⟩)
    refine ⟨_, hp' x hx, hd.evictedTo _ _, ?_⟩
    rw [contentOf_away Page.frame_evictedTo, contentOf_resident hf, ← hswapped s hs]
    simp [backed, Page.evictedTo, Content.putSlot, ha, hs]
  | loaded hf hx hhand hp' hbytes =>
    refine ⟨_, hp' x hx, Page.detached_of_window? (hd.loadedInto _), ?_⟩
    rw [contentOf_resident Page.frame_loadedInto, contentOf_away hf, hbytes]
  | copied hf hl hshared hhand hp' hbytes =>
    refine ⟨_, hp', hd, ?_⟩
    rw [contentOf_resident hf, contentOf_resident rfl, hbytes]

/-! ## Moves -/

/-- After the last move of a trace there are only shifts. -/
theorem Trace.of_concat {k : Kind} {ks : List Kind} (h : Trace (ks ++ [k]) L L') :
    ∃ A B, Trace ks L A ∧ Move k A B ∧ Shifts B L' := by
  generalize hks : ks ++ [k] = ks' at h
  induction h with
  | refl => simp at hks
  | shift _ hs ih =>
    obtain ⟨A, B, hA, hm, hB⟩ := ih hks
    exact ⟨A, B, hA, hm, hB.shift hs⟩
  | move h hm _ =>
    obtain ⟨rfl, hk⟩ := List.append_inj' hks rfl
    obtain rfl := List.singleton_inj.mp hk
    exact ⟨_, _, h, hm, .refl _⟩

/-- Supplying an initializer changes none that a page waits for. -/
theorem Move.initial_eq {k : Kind} (h : Move k L L') (hL : L.Sound) (hp : L.page x = some p) {n : Nat}
    {t : PageType} (hc : p.content = .uninit t (.custom n)) : L'.initial n = L.initial n := by
  cases h with
  | supply hn =>
    refine if_neg ?_
    rintro rfl
    have hsupplied := hL.supplied hp hc
    rw [hn] at hsupplied
    cases hsupplied
  | enter | join | duplicate | leaveFrame | leaveTeam | leaveAlone | write | floor | outside => rfl

/-- **A move that is not made to a page** leaves what its space finds in it as it is, if it depends
on no file that changes. -/
theorem Move.contentOf {fixed : Nat → Prop} {k : Kind} (h : Move k L L') (hL : L.Sound)
    (hp : L.page x = some p) (hd : p.Detached fixed) (hfixed : ∀ i, fixed i → L'.file i = L.file i)
    (hleave : ∀ writeBack, k ≠ .leave x writeBack)
    (hwrite : ∀ start bytes, k ≠ .write x start bytes) :
    ∃ p', L'.page x = some p' ∧ p'.Detached fixed ∧ L'.contentOf p' = L.contentOf p := by
  obtain ⟨hp', hbytes, hswapped, -⟩ := h.remains hL hp hleave hwrite
  have hsame : L'.contentOf p = L.contentOf p := by
    cases hf : p.frame with
    | some f => rw [contentOf_resident hf, contentOf_resident hf, hbytes f hf]
    | none =>
      rw [contentOf_away hf, contentOf_away hf]
      exact backed_congr hd hfixed (fun n t hc => h.initial_eq hL hp hc) fun s _ => by rw [hswapped]
  rcases hp' with hp' | hp'
  · exact ⟨p, hp', hd, hsame⟩
  · exact ⟨_, hp', hd, (contentOf_content rfl rfl).trans hsame⟩

/-- A page is written in its frame. -/
theorem Move.bytes_write {start : Nat} {bytes : Bytes} (h : Move (.write x start bytes) L L')
    (hL : L.Sound) : ∃ p f, L.page x = some p ∧ p.frame = some f ∧ L'.page x = some p ∧
      L'.bytes f = (L.bytes f).blit start bytes := by
  cases h with
  | write he hw =>
    rename_i e
    obtain ⟨p, hp, hf⟩ := hL.page_of_grant he
    exact ⟨p, e.frame, hp, hf, hp, if_pos rfl⟩

/-- A copy is of the page it was made from, and is found as it is. -/
theorem Move.contentOf_copy {src : Owner} (h : Move (.copy src o) L L') :
    ∃ p q, L.page src = some p ∧ L'.page o = some q ∧ q.face = p.face ∧ q.window? = p.window? ∧
      L'.contentOf q = L.contentOf p := by
  cases h with
  | join ho hvpn hp hframe =>
    exact ⟨_, _, hp, if_pos rfl, rfl, rfl, rfl⟩
  | duplicate ho hvpn hp hframe =>
    rename_i p _ _
    refine ⟨p, { p with group := none }, hp, if_pos rfl, rfl, rfl, ?_⟩
    rw [contentOf_away hframe, contentOf_away (p := { p with group := none }) hframe]
    exact backed_content rfl

/-- A page that was registered is found as it would be loaded. -/
theorem Move.contentOf_enter {writable : Bool} {type : PageType} {origin : Origin}
    (h : Move (.enter o writable type origin) L L') :
    L'.page o = some (.fresh o.vpn writable type origin) ∧
      L'.contentOf (.fresh o.vpn writable type origin) =
        L.backed (.fresh o.vpn writable type origin) := by
  cases h
  exact ⟨if_pos rfl, rfl⟩

end Ledger

end DemandPaging
