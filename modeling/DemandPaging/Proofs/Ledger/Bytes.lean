import DemandPaging.Proofs.Ledger.Keeping

/-!
# Single bytes of spaces

The byte a space has at a place is in the frame of the page there, or where the page would be loaded
from (`Ledger.byteOf`). `Bears` says what it is, and that no one else can change it: the page depends
on no file, or no other page is kept in the byte of the file that it has there. Shifts and the
growth of a stack change no such byte (`Bears.shift`, `Bears.move`), and a page that is written has
what was written (`Bears.write`).
-/

namespace DemandPaging

/-- Anonymous memory that depends on a file waits to be loaded from it. -/
theorem Page.frame_eq_none_of_anon {p : Page} {w : FileWindow} (hp : p.Shaped)
    (hw : p.window? = some w) (htype : p.type = .anon) : p.frame = none := by
  unfold Page.window? at hw
  unfold Page.type at htype
  cases hc : p.content with
  | uninit t g => exact (hp.waits hc).1
  | anon a =>
    rw [hc] at hw
    cases hw
  | file v =>
    rw [hc] at htype
    cases htype

namespace Ledger

variable {L L' : Ledger} {k : Kind} {ks : List Kind} {x y : Owner} {p : Page} {w : FileWindow}
  {q i n : Nat} {b : UInt8} {D : Owner → Prop}

/-- Only pages of `D` are kept in the byte `n` of the file `i`. -/
def UsedBy (L : Ledger) (D : Owner → Prop) (i n : Nat) : Prop :=
  ∀ y p w, L.page y = some p → p.home? = some w → w.Contains i n → D y

theorem UsedBy.cleanedBy (h : L.UsedBy D i n) : L.CleanedBy L' D i n :=
  fun y p w hp hw _ _ hin => h y p w hp hw hin

/-- Shifts keep pages in their files. -/
theorem UsedBy.shift (h : L.UsedBy D i n) (hL : L.Sound) (hs : Shift L L') : L'.UsedBy D i n := by
  intro y p' w hp' hw hin
  obtain ⟨p, hp, hsame⟩ := hs.exists_page hL hp'
  exact h y p w hp ((Page.home?_of_face hsame).trans hw) hin

/-- A move that neither copies pages nor registers any that are kept in a file. -/
def Kind.BringsNone (k : Kind) : Prop :=
  (∀ src o, k ≠ .copy src o) ∧ ∀ o writable origin, k ≠ .enter o writable .file origin

theorem UsedBy.move (h : L.UsedBy D i n) (hm : Move k L L') (hk : k.BringsNone) :
    L'.UsedBy D i n := by
  intro y p' w hp' hw hin
  rcases hm.face hp' with ⟨p, hp, hsame⟩ | ⟨writable, type, origin, rfl, rfl⟩ | ⟨src, p, rfl, -⟩
  · exact h y p w hp ((Page.home?_of_face hsame).symm.trans hw) hin
  · cases type with
    | anon => cases hw
    | file => exact absurd rfl (hk.2 y writable origin)
  · exact absurd rfl (hk.1 src y)

/-! ## What a page bears -/

/-- The page of `x` has the byte `b` at `q`, and no other page can change it. -/
inductive Bears (L : Ledger) (x : Owner) (q : Nat) (b : UInt8) : Prop
  /-- The page depends on no file. -/
  | free {p : Page} (hp : L.page x = some p) (hwindow : p.window? = none)
      (hb : (L.contentOf p)[q]? = some b)
  /-- The page is anonymous memory that waits to be loaded from a file, and is zeros after that. -/
  | waits {p : Page} {w : FileWindow} (hp : L.page x = some p) (hwindow : p.window? = some w)
      (htype : p.type = .anon) (hread : q < w.readBytes →
        L.Keeps (fun _ => False) w q b ∧ L.UsedBy (fun _ => False) w.handle (w.offset + q))
      (hzero : w.readBytes ≤ q → b = 0)
  /-- The page is kept in a file. -/
  | kept {p : Page} {w : FileWindow} (hp : L.page x = some p) (hhome : p.home? = some w)
      (hread : q < w.readBytes) (hb : L.Keeps (· = x) w q b)
      (halone : L.UsedBy (· = x) w.handle (w.offset + q))

namespace Bears

/-- **Shifts change no byte.** -/
theorem shift (h : L.Bears x q b) (hL : L.Sound) (hs : Shift L L') (hq : q < pageSize) :
    L'.Bears x q b := by
  cases h with
  | free hp hwindow hb =>
    have hdetached : Page.Detached (fun _ => False) _ := Page.detached_of_window? hwindow
    obtain ⟨p', hp', hdetached', hsame⟩ := hs.contentOf hL hp hdetached nofun
    exact .free hp' hdetached'.window? (hsame ▸ hb)
  | waits hp hwindow htype hread hzero =>
    rename_i p w
    have haway := Page.frame_eq_none_of_anon (hL.shaped hp) hwindow htype
    cases hs.fate hL hp with
    | stays hp' =>
      refine .waits hp' hwindow htype (fun hin => ?_) hzero
      obtain ⟨hkeeps, halone⟩ := hread hin
      exact ⟨hkeeps.shift hL hs hin halone.cleanedBy fun _ h => h.elim, halone.shift hL hs⟩
    | evicted hf | copied hf =>
      rw [haway] at hf
      cases hf
    | loaded hf hx hhand hp' hbytes hgiven =>
      have hdetached : p.Detached fun _ => True := fun _ _ => ⟨htype, trivial⟩
      refine .free (hp' x hx) (hdetached.loadedInto _) ?_
      rw [contentOf_resident Page.frame_loadedInto, hbytes, backed_of_window? hwindow,
        Vector.getElem?_eq_getElem hq, (hgiven w hwindow).getElem_windowBytes hq]
      split
      · rename_i hin
        exact congrArg some ((hread hin).1.stored fun _ h => h.elim)
      · rename_i hpast
        rw [hzero (Nat.le_of_not_lt hpast)]
  | kept hp hhome hread hb halone =>
    obtain ⟨p', hp', hface⟩ := hs.face_of_page hL hp
    refine .kept hp' ((Page.home?_of_face hface).trans hhome) hread
      (hb.shift hL hs hread halone.cleanedBy ?_) (halone.shift hL hs)
    rintro _ rfl hframe _ rfl
    exact hL.isDirty_of_frame hframe

/-- **A move that is not made to a page** changes none of its bytes. -/
theorem move (h : L.Bears x q b) (hL : L.Sound) (hm : Move k L L') (hk : k.BringsNone)
    (hinside : k ≠ .outside) (hleave : ∀ writeBack, k ≠ .leave x writeBack)
    (hwrite : ∀ start bytes, k ≠ .write x start bytes) : L'.Bears x q b := by
  cases h with
  | free hp hwindow hb =>
    have hdetached : Page.Detached (fun _ => False) _ := Page.detached_of_window? hwindow
    obtain ⟨p', hp', hdetached', hsame⟩ := hm.contentOf hL hp hdetached nofun hleave hwrite
    exact .free hp' hdetached'.window? (hsame ▸ hb)
  | waits hp hwindow htype hread hzero =>
    rename_i p w
    have hafter (hin : q < w.readBytes) : L'.Keeps (fun _ => False) w q b ∧
        L'.UsedBy (fun _ => False) w.handle (w.offset + q) := by
      obtain ⟨hkeeps, halone⟩ := hread hin
      exact ⟨hkeeps.move hL hm hin halone.cleanedBy hinside fun _ h => h.elim, halone.move hm hk⟩
    rcases (hm.remains hL hp hleave hwrite).1 with hp' | hp'
    · exact .waits hp' hwindow htype hafter hzero
    · exact .waits hp' hwindow htype hafter hzero
  | kept hp hhome hread hb halone =>
    obtain ⟨henter, hcopy⟩ := hm.not_into hp
    have hafter := hb.move hL hm hread halone.cleanedBy hinside fun y hy => by
      subst hy
      exact ⟨fun _ _ _ hk => absurd hk (henter _ _ _), hcopy, hleave false, hwrite⟩
    rcases (hm.remains hL hp hleave hwrite).1 with hp' | hp'
    · exact .kept hp' hhome hread hafter (halone.move hm hk)
    · exact .kept hp' hhome hread hafter (halone.move hm hk)

/-- **A page that is written** has what was written. -/
theorem write {start : Nat} {bytes : Bytes} (h : L.Bears x q b) (hL : L.Sound)
    (hm : Move (.write x start bytes) L L') (hq : q < pageSize) :
    L'.Bears x q
      (if start ≤ q ∧ q - start < bytes.size then bytes[q - start]?.getD 0 else b) := by
  obtain ⟨p', f, hp', hf, hafter, hbytes⟩ := hm.bytes_write hL
  cases h with
  | free hp hwindow hb =>
    obtain rfl := Option.some.inj (hp'.symm.trans hp)
    rw [contentOf_resident hf, Vector.getElem?_eq_getElem hq, Option.some.injEq] at hb
    refine .free hafter hwindow ?_
    rw [contentOf_resident hf, hbytes, Vector.getElem?_eq_getElem hq, PageBytes.getElem_blit, hb]
  | waits hp hwindow htype =>
    obtain rfl := Option.some.inj (hp'.symm.trans hp)
    rw [Page.frame_eq_none_of_anon (hL.shaped hp) hwindow htype] at hf
    cases hf
  | kept hp hhome hread hb halone =>
    obtain rfl := Option.some.inj (hp'.symm.trans hp)
    exact .kept hafter hhome hread (hb.write hL hm hq) (halone.move hm ⟨nofun, nofun⟩)

/-- A page that is registered as zeros bears zeros. -/
theorem enter (hm : Move (.enter x true .anon .zero) L L') (hq : q < pageSize) :
    L'.Bears x q 0 := by
  obtain ⟨hp, hcontent⟩ := hm.contentOf_enter
  refine .free hp rfl ?_
  rw [hcontent]
  show PageBytes.zero[q]? = _
  simp [PageBytes.zero, hq]

end Bears

/-! ## What transfers change -/

/-- What `x` has at `q`, if anything, and no other page can change it. -/
inductive Has (L : Ledger) (x : Owner) (q : Nat) : Option UInt8 → Prop
  | nothing (hp : L.page x = none) : Has L x q none
  | byte {b : UInt8} (hb : L.Bears x q b) : Has L x q (some b)

namespace Has

variable {id : SpaceId} {v : Option UInt8}

theorem shift (h : L.Has x q v) (hL : L.Sound) (hs : Shift L L') (hq : q < pageSize) :
    L'.Has x q v := by
  cases h with
  | nothing hp => exact .nothing ((hs.trace.page_eq_none hL x).mpr hp)
  | byte hb => exact .byte (hb.shift hL hs hq)

theorem shifts (h : L.Has x q v) (hL : L.Sound) (hs : Shifts L L') (hq : q < pageSize) :
    L'.Has x q v :=
  hs.induction (P := fun A => A.Has x q v) hL h fun hA hs hx => hx.shift hA hs hq

/-- A stack that grows brings zeros and changes nothing else. -/
theorem grow (h : L.Has x q v) (hL : L.Sound) (hm : Move k L L') (hk : Layout.IsGrowth id k)
    (hq : q < pageSize) : L'.Has x q v ∨ x.space = id ∧ v = none ∧ L'.Has x q (some 0) := by
  have hnone : k.BringsNone := by
    rcases hk with ⟨n, rfl⟩ | ⟨n, rfl⟩
    · exact ⟨nofun, fun o writable origin hk => by cases hk⟩
    · exact ⟨nofun, nofun⟩
  cases h with
  | byte hb =>
    refine .inl (.byte (hb.move hL hm hnone ?_ ?_ ?_))
    all_goals rcases hk with ⟨n, rfl⟩ | ⟨n, rfl⟩ <;> nofun
  | nothing hp =>
    cases hp' : L'.page x with
    | none => exact .inl (.nothing hp')
    | some p' =>
      rcases hm.face hp' with ⟨p, hsome, -⟩ | ⟨writable, type, origin, rfl, -⟩ | ⟨src, p, rfl, -⟩
      · rw [hp] at hsome
        cases hsome
      · rcases hk with ⟨n, hk⟩ | ⟨n, hk⟩
        · obtain ⟨rfl, rfl, rfl, rfl⟩ := Kind.enter.inj hk
          exact .inr ⟨rfl, rfl, .byte (.enter hm hq)⟩
        · cases hk
      · exact absurd rfl (hnone.1 src x)

/-- A page that is written has what was written where it was written, -/
theorem write {start : Nat} {bytes : Bytes} (h : L.Has x q v) (hL : L.Sound)
    (hm : Move (.write x start bytes) L L') (hq : q < pageSize) (hin : start ≤ q ∧ q - start < bytes.size) :
    L'.Has x q bytes[q - start]? := by
  cases h with
  | nothing hp =>
    obtain ⟨p, f, hsome, -⟩ := hm.bytes_write hL
    rw [hp] at hsome
    cases hsome
  | byte hb =>
    have hafter := hb.write hL hm hq
    rw [if_pos hin, Array.getElem?_eq_getElem hin.2, Option.getD_some] at hafter
    rw [Array.getElem?_eq_getElem hin.2]
    exact .byte hafter

end Has

end Ledger

end DemandPaging
