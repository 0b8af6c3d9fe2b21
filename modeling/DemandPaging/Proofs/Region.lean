import DemandPaging.Proofs.Ledger.Keeping
import DemandPaging.Proofs.Permission
import DemandPaging.Proofs.Refinement

/-!
# Regions of a file

A `Region` is a set of pages that are kept in windows of one file, no two of which share a byte.
While nobody else writes the bytes of the windows, what is known of the pages is in their frames and
in the file (`Mirrors`): shifts keep that, and moves do, as long as the pages stay
(`Mirrors.trace`), and once they are unmapped all of it is in the file (`Mirrors.spared`).
-/

namespace DemandPaging

open Ledger (Kind)

/-- Pages that are kept in one file, and the bytes of the file that nobody else may write. -/
structure Region where
  file : Nat
  /-- The bytes of the file that only pages of the region may change. -/
  own : Nat → Prop
  /-- The window of each page of the region. -/
  window : Owner → Option FileWindow
  small : ∀ {x w}, window x = some w → w.readBytes ≤ pageSize
  onFile : ∀ {x w}, window x = some w → w.handle = file
  owned : ∀ {x w k}, window x = some w → w.Contains file k → own k
  apart : ∀ {x y v w k}, window x = some v → window y = some w → v.Contains file k →
    w.Contains file k → x = y

/-- A move of an operation that only removes pages, and writes them back. -/
def Ledger.Kind.Leaves (k : Kind) : Prop := (∃ y, k = .leave y true) ∨ ∃ id v, k = .floor id v

theorem Ledger.Kind.Leaves.within {k : Kind} (h : k.Leaves) (W : Owner → Prop) : k.Within W := by
  rcases h with ⟨y, rfl⟩ | ⟨id, v, rfl⟩ <;> exact ⟨nofun, nofun, nofun, nofun⟩

theorem Ledger.Kind.Leaves.spares {k : Kind} (h : k.Leaves) (x : Owner) (w : FileWindow) :
    k.Spares x w := by
  rcases h with ⟨y, rfl⟩ | ⟨id, v, rfl⟩
  · exact ⟨nofun, nofun, by simp, nofun⟩
  · exact ⟨nofun, nofun, nofun, nofun⟩

namespace Region

variable {R : Region} {W : Owner → Prop} {known known' : Owner → Nat → Option UInt8}
  {L L' : Ledger} {k : Kind} {ks : List Kind} {x : Owner} {w : FileWindow} {q : Nat} {b : UInt8}
  {S : Reference}

/-- Who is dirty or in `W` is a page of the region, or keeps no byte that is the region's own. -/
def Alone (R : Region) (W : Owner → Prop) (L : Ledger) : Prop :=
  L.Soils W fun y v => ∀ k, R.own k → v.Contains R.file k → R.window y = some v

/-- **What is known of the pages of a region** is in their frames and in the file. -/
structure Mirrors (R : Region) (W : Owner → Prop) (known : Owner → Nat → Option UInt8)
    (L : Ledger) : Prop where
  alone : R.Alone W L
  home : ∀ {x w p}, R.window x = some w → L.page x = some p → p.home? = some w
  keeps : ∀ {x w q b}, R.window x = some w → known x q = some b →
    q < w.readBytes ∧ L.Keeps (· = x) w q b

/-- The byte of a window of the region is its own. -/
theorem contains (hw : R.window x = some w) (hq : q < w.readBytes) :
    w.Contains R.file (w.offset + q) :=
  R.onFile hw ▸ FileWindow.contains_add hq

theorem Alone.soiledBy (h : R.Alone W L) (hL : L.Sound) (hw : R.window x = some w)
    (hq : q < w.readBytes) : L.SoiledBy (· = x) w.handle (w.offset + q) := by
  intro y p v hp hv hdirty hin
  have hin : v.Contains R.file (w.offset + q) := R.onFile hw ▸ hin
  have hmine := R.contains hw hq
  have hy := h y p v hp hv (hL.writable_of_isDirty hp hdirty) (Or.inl hdirty) _
    (R.owned hw hmine) hin
  exact R.apart hy hw hin hmine

namespace Mirrors

/-- A frame of the region holds what is known. -/
theorem bytes (h : R.Mirrors W known L) (hL : L.Sound) (hx : (R.window x).isSome) {e : Grant}
    (he : L.grant x = some e) (hb : known x q = some b) : (L.bytes e.frame)[q]? = some b := by
  obtain ⟨w, hw⟩ := Option.isSome_iff_exists.mp hx
  obtain ⟨p, hp, hf⟩ := hL.page_of_grant he
  exact (h.keeps hw hb).2.bytes rfl hp hf

/-- **Shifts keep what is known.** -/
theorem shift (h : R.Mirrors W known L) (hL : L.Sound) (hs : Ledger.Shift L L') :
    R.Mirrors W known L' := by
  refine ⟨hs.soils hL h.alone, fun {x w p} hw hp => ?_, fun {x w q b} hw hb => ?_⟩
  · obtain ⟨p', hp', hsame⟩ := hs.exists_page hL hp
    exact (Page.home?_of_face hsame).symm.trans (h.home hw hp')
  · obtain ⟨hq, hkeeps⟩ := h.keeps hw hb
    refine ⟨hq, hkeeps.shift hL hs hq (h.alone.soiledBy hL hw hq).cleanedBy ?_⟩
    rintro _ rfl hframe _ rfl
    exact hL.isDirty_of_frame hframe

/-- **Moves keep what is known**: a page of the region is written, and what it is written with is
known, or it is left alone. -/
theorem move (h : R.Mirrors W known L) (hL : L.Sound) (hm : Ledger.Move k L L') (hk : k.Within W)
    (hknown : ∀ x w, R.window x = some w →
      (∃ start bytes, k = .write x start bytes ∧
        known' x = Reference.patch (known x) start bytes) ∨
      k.Spares x w ∧ known' x = known x) : R.Mirrors W known' L' := by
  refine ⟨hm.soils hL h.alone hk, fun {x w p} hw hp => ?_, fun {x w q b} hw hb => ?_⟩
  · rcases hm.face hp with ⟨p', hp', hsame⟩ | ⟨_, _, _, rfl, rfl⟩ | ⟨src, p', rfl, -⟩
    · exact (Page.home?_of_face hsame).trans (h.home hw hp')
    · rcases hknown x w hw with ⟨_, _, hk, -⟩ | ⟨hspares, -⟩
      · cases hk
      · obtain ⟨rfl, rfl⟩ := hspares.enter _ _ _ rfl
        rfl
    · rcases hknown x w hw with ⟨_, _, hk, -⟩ | ⟨hspares, -⟩
      · cases hk
      · exact absurd rfl (hspares.copy _)
  · rcases hknown x w hw with ⟨start, bytes, rfl, hpatch⟩ | ⟨hspares, hsame⟩
    · rw [hpatch] at hb
      obtain ⟨old, hold, rfl⟩ := Option.map_eq_some_iff.mp hb
      obtain ⟨hq, hkeeps⟩ := h.keeps hw hold
      exact ⟨hq, hkeeps.write hL hm (Nat.lt_of_lt_of_le hq (R.small hw))⟩
    · rw [hsame] at hb
      obtain ⟨hq, hkeeps⟩ := h.keeps hw hb
      refine ⟨hq, hkeeps.move hL hm hq (h.alone.soiledBy hL hw hq).cleanedBy hk.inside ?_⟩
      rintro _ rfl
      exact hspares

/-- Changes from outside keep what is known if they leave the file alone. -/
theorem outside (h : R.Mirrors W known L) {file : Nat → File}
    (hfile : file R.file = L.file R.file) : R.Mirrors W known { L with file } := by
  refine ⟨h.alone, h.home, fun {x w q b} hw hb => ?_⟩
  obtain ⟨hq, hkeeps⟩ := h.keeps hw hb
  refine ⟨hq, hkeeps.home, hkeeps.bytes, fun hclean => ?_⟩
  have hstored := hkeeps.stored hclean
  rw [R.onFile hw] at hstored ⊢
  show ((file R.file).data.get _) = b
  rw [hfile]
  exact hstored

/-- **While the pages of the region stay**, what is known of them is what was written to them. -/
theorem trace (h : R.Mirrors W S.memory L) (hL : L.Sound) (htrace : Ledger.Trace ks L L')
    (hks : ∀ k ∈ ks, k.Within W) (hthere : ∀ x, (R.window x).isSome → ∃ p, L.page x = some p)
    (hleave : ∀ x, (R.window x).isSome → ∀ writeBack, .leave x writeBack ∉ ks) :
    R.Mirrors W (S.afterAll ks).memory L' := by
  induction htrace with
  | refl => exact h
  | shift htrace hs ih => exact (ih h hL hks hthere hleave).shift (htrace.sound hL) hs
  | move htrace hm ih =>
    rename_i k
    have hleft := fun x hx b hb => hleave x hx b (List.mem_append_left _ hb)
    have hstays : ∀ x, (R.window x).isSome → ∀ b, k ≠ .leave x b := fun x hx b hb =>
      hleave x hx b (List.mem_append_right _ (List.mem_singleton.mpr hb.symm))
    rw [Reference.afterAll_append]
    refine (ih h hL (fun k hk => hks k (List.mem_append_left _ hk)) hthere hleft).move
      (htrace.sound hL) hm (hks _ (List.mem_append_right _ List.mem_cons_self)) fun x w hw => ?_
    have hx : (R.window x).isSome := by rw [hw]; rfl
    obtain ⟨p, hp⟩ := hthere x hx
    obtain ⟨p', hp', -⟩ := htrace.face_of_page hL hp (hleft x hx)
    obtain ⟨henter, hcopy⟩ := hm.not_into hp'
    by_cases hwritten : ∃ start bytes, k = .write x start bytes
    · obtain ⟨start, bytes, rfl⟩ := hwritten
      exact Or.inl ⟨start, bytes, rfl, Reference.memory_write⟩
    · have hwrite := fun start bytes hk => hwritten ⟨start, bytes, hk⟩
      exact Or.inr ⟨⟨fun _ _ _ hk => absurd hk (henter _ _ _), hcopy, hstays x hx false, hwrite⟩,
        Reference.memory_after henter hcopy (hstays x hx) hwrite⟩

/-- **While no page of the region is written**, the same is known of them, also once they left: they
are registered with their windows, and written back when they leave. -/
theorem spared (h : R.Mirrors W known L) (hL : L.Sound) (htrace : Ledger.Trace ks L L')
    (hks : ∀ k ∈ ks, k.Within W ∧ ∀ x w, R.window x = some w → k.Spares x w) :
    R.Mirrors W known L' := by
  induction htrace with
  | refl => exact h
  | shift htrace hs ih => exact (ih h hL hks).shift (htrace.sound hL) hs
  | move htrace hm ih =>
    obtain ⟨hk, hspares⟩ := hks _ (List.mem_append_right _ List.mem_cons_self)
    exact (ih h hL fun k hk => hks k (List.mem_append_left _ hk)).move (htrace.sound hL) hm hk
      fun x w hw => Or.inr ⟨hspares x w hw, rfl⟩

/-- What is known of a page that is not registered is in the file. -/
theorem get_file (h : R.Mirrors W known L) (hL : L.Sound) (hw : R.window x = some w)
    (hb : known x q = some b) (hp : L.page x = none) :
    (L.file R.file).data.get (w.offset + q) = b := by
  obtain ⟨-, hkeeps⟩ := h.keeps hw hb
  rw [← R.onFile hw]
  refine hkeeps.stored ?_
  rintro _ rfl
  exact Ledger.isDirty_of_grant_eq_none (hL.grant_eq_none hp)

end Mirrors

/-! ## Steps -/

/-- A step during which the pages of the region stay, the file is not changed from outside, and no
other page is written that is kept in bytes of the region's own. -/
structure Undisturbed (R : Region) (m : Machine) (label : Label) (m' : Machine) : Prop where
  stays : ∀ o, (R.window o).isSome → (m'.page? o).isSome
  file : label = .outside → m'.backing.files.file R.file = m.backing.files.file R.file
  written : ∀ o ∈ label.written, ∀ w k, m.homeOf o = some w → R.own k → w.Contains R.file k →
    (R.window o).isSome

/-- A reference knows what the pages of the region hold. -/
structure Followed (R : Region) (S : Reference) (m : Machine) : Prop where
  tracked : m.Tracked (fun x => (R.window x).isSome) S
  mirrors : R.Mirrors (fun _ => False) S.memory (m.ledger none none)
  fixed : S.fixed = fun _ => none

/-- A window that may be written back: it is that of a page of the region, or has no byte of the
region's own. -/
def MayWrite (R : Region) (w : FileWindow) : Prop :=
  w.handle = R.file ∧ ∃ x, ∀ k, R.own k → w.Contains R.file k → R.window x = some w

variable {lax : Tolerance} {m m' : Machine} {label : Label}

/-- What a step writes is kept in windows that may be written back. -/
theorem Mirrors.alone_written (h : R.Mirrors (fun _ => False) known (m.ledger none none))
    (hun : R.Undisturbed m label m') : R.Alone (· ∈ label.written) (m.ledger none none) := by
  rintro x p w hp hw hwritable (hdirty | hx) k hown hin
  · exact h.alone x p w hp hw hwritable (Or.inl hdirty) k hown hin
  · obtain ⟨v, hv⟩ := Option.isSome_iff_exists.mp
      (hun.written x hx w k (Machine.homeOf_of_ledger hp hw) hown hin)
    rw [hv, ← h.home hv hp, hw]

/-- **A step of a machine is one of its reference**, and writes back windows it may write back. -/
theorem Followed.step (h : R.Followed S m) (hs : Step lax m label m')
    (hm : Machine.Sound lax m none none) (hun : R.Undisturbed m label m') :
    ∃ S', S.Step label S' ∧ R.Followed S' m' ∧
      (∀ x i, (R.window x).isSome → (S'.memory x i).isSome = (S.memory x i).isSome) ∧
      (∀ x, (R.window x).isSome → x ∉ label.written → S'.memory x = S.memory x) ∧
      (m.backing.files.file R.file).Rewritten R.MayWrite (m'.backing.files.file R.file) := by
  have hspares : m.Spares S.fixed label m' := h.fixed ▸ m.spares_none label m'
  have hthere : ∀ x, (R.window x).isSome → ∃ p, (m.ledger none none).page x = some p :=
    fun x hx => (h.tracked.present hx).1
  have hstay : ∀ {op : Operation} {outcome ks}, op.Moves outcome (m.ledger none none).layout ks →
      Ledger.Trace ks (m.ledger none none) (m'.ledger none none) →
      ∀ x, (R.window x).isSome → ∀ writeBack, .leave x writeBack ∉ ks := by
    intro op outcome ks hks htrace x hx
    obtain ⟨p, hp⟩ := hthere x hx
    refine hks.leave_notMem (hm.books.living hp) ?_
    rw [← htrace.layout hm.books, Machine.registered_ledger]
    exact hun.stays x hx
  have hrewritten := (hs.rewritten hm (h.mirrors.alone_written hun) hun.file).2
  cases label with
  | ask op outcome =>
    have hmirrors : R.Mirrors (· ∈ op.written) S.memory (m.ledger none none) :=
      { h.mirrors with alone := h.mirrors.alone_written hun }
    obtain ⟨ks, hks, htrace, hstep, htracked⟩ := hs.exists_step hm h.tracked hspares
      fun {op' outcome' ks ks' A} heq hks htrace htrace' => by
        obtain ⟨rfl, rfl⟩ := Label.ask.inj heq
        have hleave := fun x hx b hb =>
          hstay hks (htrace.trans htrace') x hx b (List.mem_append_left _ hb)
        exact ⟨hleave, fun hx he hb => (hmirrors.trace hm.books htrace
          (fun k hk => hks.within k (List.mem_append_left _ hk)) hthere hleave).bytes
            (htrace.sound hm.books) hx he hb⟩
    have hend := hmirrors.trace hm.books htrace hks.within hthere (hstay hks htrace)
    refine ⟨_, hstep, ⟨htracked, { hend with alone := hend.alone.mono nofun }, ?_⟩,
      fun x i hx => ?_, fun x hx hwritten => ?_, hrewritten⟩
    · rw [Reference.fixed_afterAll, h.fixed]
    all_goals obtain ⟨p, hp⟩ := hthere x hx
    · exact Reference.isSome_memory_afterAll htrace hm.books hp (hstay hks htrace x hx) i
    · exact Reference.memory_afterAll htrace hm.books hp (hstay hks htrace x hx) fun start bytes hk =>
        hwritten ((hks.within _ hk).write _ _ _ rfl)
  | outside =>
    obtain ⟨ks, rfl, -, hstep, htracked⟩ := hs.exists_step hm h.tracked hspares nofun
    have hfile := hun.file rfl
    cases hs with
    | outside hchanged =>
      refine ⟨_, hstep, ⟨htracked, ?_, h.fixed⟩, fun _ _ _ => rfl, fun _ _ _ => rfl, hrewritten⟩
      rw [hchanged.ledger hm]
      exact h.mirrors.outside hfile

/-! ## Leaving -/

/-- A window on the file that has no byte of the region's own. -/
def Foreign (R : Region) (w : FileWindow) : Prop :=
  w.handle = R.file ∧ ∀ k, R.own k → ¬w.Contains R.file k

/-- No page is dirty that is kept in bytes of the region's own. -/
abbrev Unsoiled (R : Region) (m : Machine) : Prop :=
  (m.ledger none none).Soils (fun _ => False) fun _ w => ∀ k, R.own k → ¬w.Contains R.file k

/-- **Once its pages are removed**, what was known of the region is in the file. -/
theorem Followed.leave (h : R.Followed S m) (hm : Machine.Sound lax m none none)
    (htrace : Ledger.Trace ks (m.ledger none none) (m'.ledger none none))
    (hks : ∀ k ∈ ks, k.Leaves) (hgone : ∀ x, (R.window x).isSome → m'.page? x = none) :
    (∀ {x w q b}, R.window x = some w → S.memory x q = some b →
      (m'.backing.files.file R.file).data.get (w.offset + q) = b) ∧
      (m.backing.files.file R.file).Rewritten R.MayWrite (m'.backing.files.file R.file) := by
  have hwithin : ∀ k ∈ ks, k.Within fun _ => False := fun k hk => (hks k hk).within _
  have hmirrors := h.mirrors.spared hm.books htrace fun k hk =>
    ⟨hwithin k hk, fun x w _ => (hks k hk).spares x w⟩
  refine ⟨fun {x w q b} hw hb => ?_, (htrace.rewritten hm.books h.mirrors.alone hwithin).2 R.file⟩
  refine hmirrors.get_file (htrace.sound hm.books) hw hb ?_
  rw [Machine.page_ledger, hgone x (by rw [hw]; rfl)]
  rfl

/-- Pages that leave write nothing back to bytes of the region's own, unless one of them is dirty. -/
theorem Unsoiled.leave (h : R.Unsoiled m) (hm : Machine.Sound lax m none none)
    (htrace : Ledger.Trace ks (m.ledger none none) (m'.ledger none none))
    (hks : ∀ k ∈ ks, k.Leaves) :
    (m.backing.files.file R.file).Rewritten R.Foreign (m'.backing.files.file R.file) :=
  ((htrace.rewritten hm.books h fun k hk => (hks k hk).within _).2 R.file).mono
    fun _ ⟨hi, _, hw⟩ => ⟨hi, hw⟩

/-! ## Runs -/

variable {m₁ : Machine} {labels : List Label}

/-- **A run that leaves the region undisturbed** is one of the reference. -/
theorem Followed.run (h : R.Followed S m₁) (hm₁ : Machine.Sound lax m₁ none none)
    (hrun : RunWith R.Undisturbed lax m₁ labels m) :
    ∃ S', Reference.Run S labels S' ∧ R.Followed S' m ∧
      (∀ x i, (R.window x).isSome → (S'.memory x i).isSome = (S.memory x i).isSome) ∧
      (∀ x, (R.window x).isSome → (∀ label ∈ labels, x ∉ label.written) →
        S'.memory x = S.memory x) ∧
      (m₁.backing.files.file R.file).Rewritten R.MayWrite (m.backing.files.file R.file) := by
  induction hrun with
  | refl => exact ⟨S, .refl, h, fun _ _ _ => rfl, fun _ _ _ => rfl, .refl⟩
  | step hrun hs hun ih =>
    obtain ⟨A, hA, hfollowed, hknown, hsame, hfile⟩ := ih
    obtain ⟨S', hstep, hfollowed', hknown', hsame', hfile'⟩ :=
      hfollowed.step hs (hrun.run.sound hm₁) hun
    refine ⟨S', hA.step hstep, hfollowed', fun x i hx => (hknown' x i hx).trans (hknown x i hx),
      fun x hx hlabels => (hsame' x hx ?_).trans (hsame x hx fun label hl => ?_), hfile.trans hfile'⟩
    · exact hlabels _ (List.mem_append_right _ List.mem_cons_self)
    · exact hlabels label (List.mem_append_left _ hl)

/-- **While no page of the region is written**, nothing is written back to bytes of its own. -/
theorem Unsoiled.run (h : R.Unsoiled m₁) (hm₁ : Machine.Sound lax m₁ none none)
    (hrun : RunWith R.Undisturbed lax m₁ labels m)
    (hlabels : ∀ label ∈ labels, ∀ o ∈ label.written, R.window o = none) :
    R.Unsoiled m ∧
      (m₁.backing.files.file R.file).Rewritten R.Foreign (m.backing.files.file R.file) := by
  induction hrun with
  | refl => exact ⟨h, .refl⟩
  | step hrun hs hun ih =>
    rename_i label A B
    obtain ⟨hA, hfile⟩ := ih fun l hl => hlabels l (List.mem_append_left _ hl)
    have hsoils : (A.ledger none none).Soils (· ∈ label.written)
        fun _ w => ∀ k, R.own k → ¬w.Contains R.file k := by
      rintro x p w hp hw hwritable (hdirty | hx) k hown hin
      · exact hA x p w hp hw hwritable (Or.inl hdirty) k hown hin
      · have hmine := hun.written x hx w k (Machine.homeOf_of_ledger hp hw) hown hin
        rw [hlabels label (List.mem_append_right _ List.mem_cons_self) x hx] at hmine
        cases hmine
    obtain ⟨hB, hfile'⟩ := hs.rewritten (hrun.run.sound hm₁) hsoils hun.file
    exact ⟨hB, hfile.trans (hfile'.mono fun _ ⟨hi, _, hw⟩ => ⟨hi, hw⟩)⟩

end Region

end DemandPaging
