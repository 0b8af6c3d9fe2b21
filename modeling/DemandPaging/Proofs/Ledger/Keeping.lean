import DemandPaging.Proofs.Ledger.Files

/-!
# File pages and their windows

A byte of a file page is in its frame, or in its file, or in both. `Keeps` says where some pages that
are kept in one window have a byte: in every frame one of them is in, and in the file unless one of
them is dirty. Loading a page takes the byte from the file, and writing a dirty page back puts it
there, so shifts keep it (`Keeps.shift`), and so do moves that do not write the pages (`Keeps.move`).
No other page may write the byte back (`SoiledBy`).
-/

namespace DemandPaging

/-- A window contains the byte that is kept at `q` in it. -/
theorem FileWindow.contains_add {w : FileWindow} {q : Nat} (hq : q < w.readBytes) :
    w.Contains w.handle (w.offset + q) :=
  ⟨rfl, Nat.le_add_right _ _, Nat.add_lt_add_left hq _⟩

/-- A resident page that is kept in a file was loaded from its window. -/
theorem Page.content_of_home? {p : Page} {w : FileWindow} {f : FrameNum} (hp : p.Shaped)
    (hf : p.frame = some f) (h : p.home? = some w) : p.content = .file w := by
  unfold home? Page.type window? at h
  cases hc : p.content with
  | uninit t g => exact absurd hc (hp.content_ne_uninit hf t g)
  | anon a =>
    rw [hc] at h
    cases h
  | file v =>
    rw [hc] at h
    cases h
    rfl

/-- A page that is kept in a file has its window. -/
theorem Page.window?_of_home? {p : Page} {w : FileWindow} (h : p.home? = some w) :
    p.type = .file ∧ p.window? = some w := by
  unfold home? at h
  split at h
  · exact ⟨‹_›, h⟩
  · cases h

namespace Ledger

variable {L L' : Ledger} {k : Kind} {x : Owner} {p : Page} {f : FrameNum} {D : Owner → Prop}
  {w : FileWindow} {q : Nat} {b : UInt8}

/-- The pages of `D` that are resident hold the byte `b` at `q`, and so does their window in its file
while they are clean. -/
structure Keeps (L : Ledger) (D : Owner → Prop) (w : FileWindow) (q : Nat) (b : UInt8) : Prop where
  home : ∀ {x p}, D x → L.page x = some p → p.home? = some w
  bytes : ∀ {x p f}, D x → L.page x = some p → p.frame = some f → (L.bytes f)[q]? = some b
  stored : (∀ x, D x → L.isDirty x = false) →
    (L.file w.handle).data.get (w.offset + q) = b

/-- Only pages of `D` are dirty and keep the byte `k` of the file `i`. -/
def SoiledBy (L : Ledger) (D : Owner → Prop) (i k : Nat) : Prop :=
  ∀ y p v, L.page y = some p → p.home? = some v → L.isDirty y = true → v.Contains i k → D y

/-- Only pages of `D` that keep the byte `k` of the file `i` were dirty and are clean in `L'`. -/
def CleanedBy (L L' : Ledger) (D : Owner → Prop) (i k : Nat) : Prop :=
  ∀ y p v, L.page y = some p → p.home? = some v → L.isDirty y = true → L'.isDirty y = false →
    v.Contains i k → D y

theorem SoiledBy.cleanedBy {i n : Nat} (h : L.SoiledBy D i n) : L.CleanedBy L' D i n :=
  fun y p v hp hv hdirty _ => h y p v hp hv hdirty

/-- Writing a page back puts its bytes into its file. -/
theorem get_flush (hp : p.content = .file w) (hq : q < w.readBytes)
    (htaken : p.TakenBy L.file (L.bytes f)) (hb : (L.bytes f)[q]? = some b) :
    (L.flush p f w.handle).data.get (w.offset + q) = b := by
  have hfile : L.flush p f w.handle =
      ((L.file w.handle).writeAt w.offset ((L.bytes f).slice 0 w.readBytes)).2 := by
    unfold flush Page.flushed
    rw [hp]
    exact if_pos rfl
  rw [hfile, (htaken w hp).get_writeAt, if_pos (FileWindow.contains_add hq).2, Nat.add_sub_cancel_left, hb]
  rfl

/-- A page with a window is loaded with its bytes. -/
theorem backed_of_window? (hw : p.window? = some w) :
    L.backed p = (L.file w.handle).windowBytes w := by
  unfold backed
  unfold Page.window? Content.window? at hw
  split at hw
  · obtain rfl := Option.some.inj hw
    rename_i hc
    rw [hc]
  · obtain rfl := Option.some.inj hw
    rename_i hc
    rw [hc]
  · cases hw

/-- The frame of a page that is loaded holds what its file holds. -/
theorem backed_getElem? (hp : p.home? = some w) (hq : q < w.readBytes) (hgiven : p.GivenBy L.file) :
    (L.backed p)[q]? = some ((L.file w.handle).data.get (w.offset + q)) := by
  obtain ⟨-, hwindow⟩ := Page.window?_of_home? hp
  have hw := hgiven w hwindow
  have hpage : q < pageSize := Nat.lt_of_lt_of_le hq hw.1
  rw [backed_of_window? hwindow, Vector.getElem?_eq_getElem hpage, hw.getElem_windowBytes hpage,
    if_pos hq]

/-- A move that leaves alone what is kept in the window `w` for the page of `x`: it does not write the
page, registers it with its window if at all, and removes it after it was written back. -/
structure Kind.Spares (k : Kind) (x : Owner) (w : FileWindow) : Prop where
  enter : ∀ writable type origin, k = .enter x writable type origin →
    type = .file ∧ origin = .file w
  copy : ∀ src, k ≠ .copy src x
  leave : k ≠ .leave x false
  write : ∀ start bytes, k ≠ .write x start bytes

/-- A page that was written is dirty. -/
theorem Move.isDirty_write {start : Nat} {bytes : Bytes} (h : Move (.write x start bytes) L L') :
    L'.isDirty x = true := by
  cases h with
  | write he hw =>
    rename_i e
    have hgrant : ((L.touch x).overwrite e.frame ((L.bytes e.frame).blit start bytes)).grant x =
        some { e with dirty := true } := by
      show (if x = x then (L.grant x).map _ else _) = _
      rw [if_pos rfl, he]
      rfl
    rw [Ledger.isDirty, hgrant]
    rfl

namespace Keeps

/-- Whatever is written back, the byte of the file stays what it is, or becomes the byte that is
kept. -/
theorem get_file (h : L.Keeps D w q b) (hD : L.CleanedBy L' D w.handle (w.offset + q))
    (hfile : L.WritesBackOne L') :
    (L'.file w.handle).data.get (w.offset + q) = (L.file w.handle).data.get (w.offset + q) ∨
      (L'.file w.handle).data.get (w.offset + q) = b := by
  rcases hfile with hsame | ⟨y, p, v, f, ⟨hp, hf, hv, hdirty, htaken, hfile⟩, hclean⟩
  · rw [hsame]
    exact Or.inl rfl
  · rw [hfile]
    dsimp only
    split
    · rename_i hhandle
      rw [hhandle, htaken.get_writeAt]
      split
      · rename_i hin
        have hy := hD y p v hp (Page.home?_of_content hv) hdirty hclean ⟨hhandle.symm, hin⟩
        obtain rfl := Option.some.inj ((h.home hy hp).symm.trans (Page.home?_of_content hv))
        refine Or.inr ?_
        rw [Nat.add_sub_cancel_left, h.bytes hy hp hf]
        rfl
      · exact Or.inl rfl
    · exact Or.inl rfl

/-- While the pages are clean, the file keeps the byte. -/
theorem get_file_of_clean (h : L.Keeps D w q b) (hD : L.CleanedBy L' D w.handle (w.offset + q))
    (hfile : L.WritesBackOne L') (hclean : ∀ x, D x → L.isDirty x = false) :
    (L'.file w.handle).data.get (w.offset + q) = b :=
  (h.get_file hD hfile).elim (fun heq => heq.trans (h.stored hclean)) id

/-- **Shifts keep the byte**, if a page of `D` is loaded only while all of them are clean. -/
theorem shift (h : L.Keeps D w q b) (hL : L.Sound) (hs : Shift L L') (hq : q < w.readBytes)
    (hD : L.CleanedBy L' D w.handle (w.offset + q))
    (haway : ∀ x, D x → L.frame x = none → ∀ y, D y → L.isDirty y = false) :
    L'.Keeps D w q b := by
  have hfile := hs.file hL
  refine ⟨fun {x p'} hx hp' => ?_, fun {x p' g} hx hp' hg => ?_, fun hclean => ?_⟩
  · obtain ⟨p, hp, hface⟩ := hs.exists_page hL hp'
    exact (Page.home?_of_face hface).symm.trans (h.home hx hp)
  · obtain ⟨p, hp, -⟩ := hs.exists_page hL hp'
    cases hs.fate hL hp with
    | stays hp'' hbytes =>
      obtain rfl := Option.some.inj (hp'.symm.trans hp'')
      rw [hbytes g hg]
      exact h.bytes hx hp hg
    | evicted hf hl hgid hp'' =>
      have hmem := hL.mem_of_page hl hp hf
      obtain rfl := Option.some.inj (hp'.symm.trans (hp'' x hmem))
      cases hg
    | loaded hf hmem hhand hp'' hbytes hgiven =>
      obtain rfl := Option.some.inj (hp'.symm.trans (hp'' x hmem))
      obtain rfl := Option.some.inj hg
      have hframe : L.frame x = none := (frame_of_page hp).trans hf
      rw [hbytes, backed_getElem? (h.home hx hp) hq hgiven, h.stored (haway x hx hframe)]
    | copied hf hl hshared hhand hp'' hbytes =>
      obtain rfl := Option.some.inj (hp'.symm.trans hp'')
      obtain rfl := Option.some.inj hg
      rw [hbytes]
      exact h.bytes hx hp hf
  · by_cases hbefore : ∀ x, D x → L.isDirty x = false
    · exact h.get_file_of_clean hD hfile hbefore
    -- A dirty page became clean: it was written back.
    obtain ⟨x, hx, hdirty⟩ : ∃ x, D x ∧ L.isDirty x = true := by simpa using hbefore
    obtain ⟨e, he, -⟩ := isDirty_eq_true.mp hdirty
    obtain ⟨p, hp, hf⟩ := hL.page_of_grant he
    have hafter := hclean x hx
    cases hs.fate hL hp with
    | stays _ _ _ hsame | copied _ _ _ _ _ _ _ hsame =>
      rw [hsame, hdirty] at hafter
      cases hafter
    | loaded hnone => rw [hnone] at hf; cases hf
    | evicted hf' hl hgid hp' hslot hswapped htaken hfile' =>
      obtain rfl := Option.some.inj (hf.symm.trans hf')
      have hmem := hL.mem_of_page hl hp hf
      have hany := List.any_eq_true.mpr ⟨x, hmem, hdirty⟩
      rw [hfile', if_pos hany]
      exact get_flush (Page.content_of_home? (hL.shaped hp) hf (h.home hx hp)) hq (htaken hany)
        (h.bytes hx hp hf)

/-- A dirty page that leaves is written back. -/
theorem get_file_leave (h : L.Keeps D w q b) (hL : L.Sound) (hm : Move (.leave x true) L L')
    (hq : q < w.readBytes) (hx : D x) (hdirty : L.isDirty x = true) :
    (L'.file w.handle).data.get (w.offset + q) = b := by
  obtain ⟨e, he, -⟩ := isDirty_eq_true.mp hdirty
  obtain ⟨p, hp, hf⟩ := hL.page_of_grant he
  cases hm with
  | leaveFrame hp' hf' hl htaken =>
    obtain rfl := Option.some.inj (hp.symm.trans hp')
    obtain rfl := Option.some.inj (hf.symm.trans hf')
    have hback : (true && L.isDirty x) = true := hdirty
    show ((if true && L.isDirty x then L.flush p e.frame else L.file) w.handle).data.get _ = b
    rw [if_pos hback]
    exact get_flush (Page.content_of_home? (hL.shaped hp) hf (h.home hx hp)) hq (htaken hback)
      (h.bytes hx hp hf)
  | leaveTeam hp' hg =>
    obtain rfl := Option.some.inj (hp.symm.trans hp')
    rw [(hL.shaped hp).group_eq_none hf] at hg
    cases hg
  | leaveAlone hp' hnone =>
    obtain rfl := Option.some.inj (hp.symm.trans hp')
    rw [hnone] at hf
    cases hf

/-- **A move keeps the byte** if it neither writes a page of `D` nor copies to one, and a page of `D`
is written back when it leaves. -/
theorem move (h : L.Keeps D w q b) (hL : L.Sound) (hm : Move k L L') (hq : q < w.readBytes)
    (hD : L.CleanedBy L' D w.handle (w.offset + q)) (hk : k ≠ .outside)
    (hspares : ∀ x, D x → k.Spares x w) : L'.Keeps D w q b := by
  have hremains : ∀ {x p'}, D x → L'.page x = some p' →
      p'.home? = some w ∧ p'.frame = none ∨ ∃ p, L.page x = some p ∧
      p'.home? = p.home? ∧ p'.frame = p.frame ∧
      ∀ f, p.frame = some f → L'.bytes f = L.bytes f := fun {x p'} hx hp' => by
    have hspares := hspares x hx
    have hleave : ∀ writeBack, k ≠ .leave x writeBack := fun writeBack hk => by
      rw [hm.page_leave hk] at hp'
      cases hp'
    rcases hm.face hp' with ⟨p, hp, -⟩ | ⟨_, _, _, hk, rfl⟩ | ⟨src, p, hk, -⟩
    · obtain ⟨hpage, hbytes, -⟩ := hm.remains hL hp hleave hspares.write
      rw [hp', Option.some.injEq, Option.some.injEq] at hpage
      rcases hpage with rfl | rfl
      · exact Or.inr ⟨p', hp, rfl, rfl, hbytes⟩
      · exact Or.inr ⟨p, hp, rfl, rfl, hbytes⟩
    · obtain ⟨rfl, rfl⟩ := hspares.enter _ _ _ hk
      exact Or.inl ⟨rfl, rfl⟩
    · exact absurd hk (hspares.copy _)
  refine ⟨fun {x p'} hx hp' => ?_, fun {x p' f} hx hp' hf => ?_, fun hclean => ?_⟩
  · rcases hremains hx hp' with ⟨hhome, -⟩ | ⟨p, hp, hhome, -⟩
    · exact hhome
    · exact hhome.trans (h.home hx hp)
  · rcases hremains hx hp' with ⟨-, hnone⟩ | ⟨p, hp, -, hframe, hbytes⟩
    · rw [hnone] at hf
      cases hf
    · rw [hframe] at hf
      rw [hbytes f hf]
      exact h.bytes hx hp hf
  · by_cases hbefore : ∀ x, D x → L.isDirty x = false
    · exact h.get_file_of_clean hD (hm.file hk) hbefore
    -- A dirty page became clean: it left.
    obtain ⟨x, hx, hdirty⟩ : ∃ x, D x ∧ L.isDirty x = true := by simpa using hbefore
    obtain ⟨e, he, -⟩ := isDirty_eq_true.mp hdirty
    obtain ⟨p, hp, -⟩ := hL.page_of_grant he
    by_cases hleave : k = .leave x true
    · subst hleave
      exact h.get_file_leave hL hm hq hx hdirty
    · have hsame := (hm.remains hL hp (fun writeBack => ?_) (hspares x hx).write).2.2.2
      · rw [hclean x hx, hdirty] at hsame
        cases hsame
      · cases writeBack
        · exact (hspares x hx).leave
        · exact hleave

/-- **A page that is written** keeps what it was written with. -/
theorem write {start : Nat} {bytes : Bytes} {old : UInt8} (h : L.Keeps (· = x) w q old)
    (hL : L.Sound) (hm : Move (.write x start bytes) L L') (hq : q < pageSize) :
    L'.Keeps (· = x) w q
      (if start ≤ q ∧ q - start < bytes.size then bytes[q - start]?.getD 0 else old) := by
  obtain ⟨p, f, hp, hf, hp', hbytes⟩ := hm.bytes_write hL
  refine ⟨?_, ?_, fun hclean => ?_⟩
  · rintro _ p'' rfl hp''
    obtain rfl := Option.some.inj (hp'.symm.trans hp'')
    exact h.home rfl hp
  · rintro _ p'' g rfl hp'' hg
    obtain rfl := Option.some.inj (hp'.symm.trans hp'')
    obtain rfl := Option.some.inj (hf.symm.trans hg)
    have hold := h.bytes rfl hp hf
    rw [Vector.getElem?_eq_getElem hq, Option.some.injEq] at hold
    rw [hbytes, Vector.getElem?_eq_getElem hq, PageBytes.getElem_blit, hold]
  · have hdirty := hm.isDirty_write
    rw [hclean x rfl] at hdirty
    cases hdirty

/-- Changes from outside keep the byte if they leave the file alone. -/
theorem outside (h : L.Keeps D w q b) {file : Nat → File}
    (hfile : file w.handle = L.file w.handle) : Keeps { L with file } D w q b := by
  refine ⟨h.home, h.bytes, fun hclean => ?_⟩
  show (file w.handle).data.get _ = b
  rw [hfile]
  exact h.stored hclean

end Keeps

end Ledger

end DemandPaging
