import DemandPaging.Proofs.Reference

/-!
# Paging is invisible

A machine with few frames, which evicts, swaps and shares pages, is to its spaces what a machine
without paging is. `Tracks` says that a ledger keeps what a reference knows, wherever it keeps it; every
shift keeps that, and every move takes the reference along (`Tracks.shift`, `Tracks.move`). So every run
is one of the reference, whatever the size of the pool and of the swap device.

Headline: **`RunWith.refines`**.
-/

namespace DemandPaging

open Ledger (Kind)

/-- A move is made to a page in one of four ways, or not at all. -/
theorem Ledger.Kind.cases_at (k : Kind) (x : Owner) :
    (∃ writable type origin, k = .enter x writable type origin) ∨ (∃ src, k = .copy src x) ∨
      (∃ writeBack, k = .leave x writeBack) ∨ (∃ start bytes, k = .write x start bytes) ∨
      ((∀ writable type origin, k ≠ .enter x writable type origin) ∧ (∀ src, k ≠ .copy src x) ∧
        (∀ writeBack, k ≠ .leave x writeBack) ∧ ∀ start bytes, k ≠ .write x start bytes) := by
  cases k with
  | enter o | copy _ o | leave o | write o =>
    by_cases hx : o = x
    · subst hx
      simp
    · simp [hx]
  | supply | floor | outside => simp

/-- **A ledger keeps what a reference knows** of the pages outside `G`, which are file pages that do not
leave, and spares the files that stay what they are: no page that is kept in one is dirty or in `W`. -/
structure Tracks (W G : Owner → Prop) (S : Reference) (L : Ledger) : Prop where
  layout : S.layout = L.layout
  initial : S.initial = L.initial
  file : ∀ {i file}, S.fixed i = some file → L.file i = file
  spared : L.Soils W fun _ w => S.fixed w.handle = none
  plain : ∀ {x}, S.isPlain x = true → ∃ p, L.page x = some p ∧ p.window? = none
  complete : ∀ {x}, S.isPlain x = true → ∀ i < pageSize, (S.memory x i).isSome
  memory : ∀ {x i b}, ¬G x → S.memory x i = some b → ∃ p, L.page x = some p ∧
    p.Detached (fun j => (S.fixed j).isSome) ∧ (L.contentOf p)[i]? = some b
  present : ∀ {x}, G x → (∃ p, L.page x = some p) ∧ S.isAnonymous x = false

namespace Tracks

variable {W G : Owner → Prop} {S : Reference} {L L' : Ledger} {k : Kind} {ks : List Kind}

/-- The frames hold what is known. -/
theorem agrees (h : Tracks W G S L) (hL : L.Sound)
    (hG : ∀ {x e i b}, G x → L.grant x = some e → S.memory x i = some b →
      (L.bytes e.frame)[i]? = some b) : S.Agrees L := by
  refine ⟨h.layout, fun {x e i b} he hb => ?_⟩
  by_cases hx : G x
  · exact hG hx he hb
  · obtain ⟨p, hp, -, hcontent⟩ := h.memory hx hb
    obtain ⟨q, hq, hf⟩ := hL.page_of_grant he
    obtain rfl := Option.some.inj (hp.symm.trans hq)
    rwa [Ledger.contentOf_resident hf] at hcontent

/-- Files that stay what they are are not written back to. -/
theorem file_eq (h : Tracks W G S L) (hL : L.Sound) (hfile : L.WritesBackOne L') {i : Nat}
    (hi : (S.fixed i).isSome) : L'.file i = L.file i := by
  refine (hfile.rewritten hL h.spared i).eq ?_
  rintro w ⟨rfl, _, hw⟩
  rw [hw] at hi
  cases hi

/-- **Shifts keep what is known.** -/
theorem shift (h : Tracks W G S L) (hL : L.Sound) (hs : Ledger.Shift L L') : Tracks W G S L' := by
  have hfixed := fun i (hi : (S.fixed i).isSome) => h.file_eq hL (hs.file hL) hi
  refine ⟨h.layout.trans (hs.layout hL).symm, h.initial.trans hs.initial.symm, fun {i F} hi => ?_,
    hs.soils hL h.spared, fun {x} hx => ?_, h.complete, fun {x i b} hx hb => ?_, fun {x} hx => ?_⟩
  · rw [hfixed i (by rw [hi]; rfl)]
    exact h.file hi
  · obtain ⟨p, hp, hwindow⟩ := h.plain hx
    have hdetached : p.Detached fun _ => False := Page.detached_of_window? hwindow
    obtain ⟨q, hq, hdetached, -⟩ := hs.contentOf hL hp hdetached nofun
    exact ⟨q, hq, hdetached.window?⟩
  · obtain ⟨p, hp, hdetached, hcontent⟩ := h.memory hx hb
    obtain ⟨q, hq, hdetached, hsame⟩ := hs.contentOf hL hp hdetached hfixed
    exact ⟨q, hq, hdetached, by rwa [hsame]⟩
  · obtain ⟨⟨p, hp⟩, hfile⟩ := h.present hx
    obtain ⟨q, hq, -⟩ := hs.face_of_page hL hp
    exact ⟨⟨q, hq⟩, hfile⟩

/-- The first content of a page is what it is loaded with. -/
theorem first_eq (h : Tracks W G S L) {x : Owner} {writable : Bool} {type : PageType} {origin : Origin}
    {content : PageBytes} (hfirst : S.first type origin = some content) :
    (Page.fresh x.vpn writable type origin).Detached (fun j => (S.fixed j).isSome) ∧
      L.backed (.fresh x.vpn writable type origin) = content := by
  cases type with
  | file => cases hfirst
  | anon =>
    cases origin with
    | zero =>
      obtain rfl := Option.some.inj hfirst
      exact ⟨Page.detached_of_window? rfl, rfl⟩
    | custom n =>
      obtain ⟨bytes, hbytes, rfl⟩ := Option.map_eq_some_iff.mp hfirst
      refine ⟨Page.detached_of_window? rfl, ?_⟩
      show PageBytes.ofBytes ((L.initial n).getD #[]) = _
      rw [← h.initial, hbytes]
      rfl
    | file w =>
      obtain ⟨file, hfile, rfl⟩ := Option.map_eq_some_iff.mp hfirst
      refine ⟨fun v hv => ?_, ?_⟩
      · obtain rfl := Option.some.inj (hv : some w = some v)
        exact ⟨rfl, Option.isSome_iff_exists.mpr ⟨_, hfile⟩⟩
      · show (L.file w.handle).windowBytes w = _
        rw [h.file hfile]

/-- All is known of a page that was registered with zeros or with an initializer. -/
theorem first_plain (h : Tracks W G S L) {x : Owner} {writable : Bool} {type : PageType}
    {origin : Origin} (hm : Ledger.Move (.enter x writable type origin) L L')
    (hplain : (S.after (.enter x writable type origin)).isPlain x = true) :
    (Page.fresh x.vpn writable type origin).window? = none ∧
      ∃ content, S.first type origin = some content := by
  rw [Reference.isPlain, Reference.entered_enter] at hplain
  cases type with
  | file => cases hplain
  | anon =>
    cases origin with
    | file => cases hplain
    | zero => exact ⟨rfl, _, rfl⟩
    | custom n =>
      have hsupplied : (L.initial n).isSome := by
        cases hm with
        | enter _ _ _ hsupplied => exact hsupplied n rfl
      obtain ⟨bytes, hbytes⟩ := Option.isSome_iff_exists.mp hsupplied
      refine ⟨rfl, .ofBytes bytes, ?_⟩
      show (S.initial n).map _ = _
      rw [h.initial, hbytes]
      rfl

theorem initial_after (h : S.initial = L.initial) (hm : Ledger.Move k L L') :
    (S.after k).initial = L'.initial := by
  cases hm with
  | supply =>
    funext n
    show (if n = _ then _ else S.initial n) = _
    rw [h]
    rfl
  | enter | join | duplicate | leaveFrame | leaveTeam | leaveAlone | write | floor | outside => exact h

theorem isAnonymous_of_isPlain {x : Owner} (h : S.isPlain x = true) : S.isAnonymous x = true := by
  unfold Reference.isPlain at h
  unfold Reference.isAnonymous
  split at h
  · rename_i heq
    rw [heq]
  · rename_i heq
    rw [heq]
  · cases h

/-- The plain pages after a move. -/
theorem plain_after (h : Tracks W G S L) (hL : L.Sound) (hm : Ledger.Move k L L') {x : Owner}
    (hx : (S.after k).isPlain x = true) :
    (∃ p, L'.page x = some p ∧ p.window? = none) ∧ ∀ i < pageSize, ((S.after k).memory x i).isSome := by
  rcases k.cases_at x with ⟨writable, type, origin, rfl⟩ | ⟨src, rfl⟩ | ⟨writeBack, rfl⟩ |
    ⟨start, bytes, rfl⟩ | ⟨henter, hcopy, hleave, hwrite⟩
  · obtain ⟨hwindow, content, hfirst⟩ := h.first_plain hm hx
    refine ⟨⟨_, hm.contentOf_enter.1, hwindow⟩, fun i hi => ?_⟩
    rw [Reference.memory_enter, hfirst, Option.bind_some, Vector.getElem?_eq_getElem hi]
    rfl
  · have hsrc : S.isPlain src = true := by
      rwa [Reference.isPlain, Reference.entered_copy] at hx
    obtain ⟨p, q, hp, hq, -, hwindow, -⟩ := hm.contentOf_copy
    obtain ⟨p', hp', hnone⟩ := h.plain hsrc
    obtain rfl := Option.some.inj (hp.symm.trans hp')
    rw [Reference.memory_copy, if_pos (isAnonymous_of_isPlain hsrc)]
    exact ⟨⟨q, hq, hwindow.trans hnone⟩, h.complete hsrc⟩
  · rw [Reference.isPlain, Reference.entered_leave] at hx
    cases hx
  · have hplain : S.isPlain x = true := hx
    obtain ⟨p, f, hp, -, hp', -⟩ := hm.bytes_write hL
    obtain ⟨q, hq, hnone⟩ := h.plain hplain
    obtain rfl := Option.some.inj (hp.symm.trans hq)
    refine ⟨⟨p, hp', hnone⟩, fun i hi => ?_⟩
    rw [Reference.memory_write, Reference.patch, Option.isSome_map]
    exact h.complete hplain i hi
  · have hplain : S.isPlain x = true := by
      rwa [Reference.isPlain, Reference.entered_after henter hcopy hleave] at hx
    obtain ⟨p, hp, hnone⟩ := h.plain hplain
    have hdetached : p.Detached fun _ => False := Page.detached_of_window? hnone
    obtain ⟨q, hq, hdetached, -⟩ :=
      hm.contentOf hL hp hdetached (fun _ h => h.elim) hleave hwrite
    refine ⟨⟨q, hq, hdetached.window?⟩, ?_⟩
    rw [Reference.memory_after henter hcopy hleave hwrite]
    exact h.complete hplain

/-- What is known after a move is kept. -/
theorem memory_after (h : Tracks W G S L) (hL : L.Sound) (hm : Ledger.Move k L L')
    (hfixed : ∀ i, (S.fixed i).isSome → L'.file i = L.file i) {x : Owner} {i : Nat} {b : UInt8}
    (hx : ¬G x) (hb : (S.after k).memory x i = some b) : ∃ p, L'.page x = some p ∧
      p.Detached (fun j => (S.fixed j).isSome) ∧ (L'.contentOf p)[i]? = some b := by
  rcases k.cases_at x with ⟨writable, type, origin, rfl⟩ | ⟨src, rfl⟩ | ⟨writeBack, rfl⟩ |
    ⟨start, bytes, rfl⟩ | ⟨henter, hcopy, hleave, hwrite⟩
  · obtain ⟨content, hfirst, hbyte⟩ := Option.bind_eq_some_iff.mp (Reference.memory_enter.symm.trans hb)
    obtain ⟨hdetached, hbacked⟩ := h.first_eq hfirst
    obtain ⟨hp, hcontent⟩ := hm.contentOf_enter
    exact ⟨_, hp, hdetached, by rwa [hcontent, hbacked]⟩
  · rw [Reference.memory_copy] at hb
    split at hb
    case isFalse => cases hb
    rename_i hanonymous
    have hsrc : ¬G src := fun hsrc => by
      rw [(h.present hsrc).2] at hanonymous
      cases hanonymous
    obtain ⟨p, q, hp, hq, hface, hwindow, hcontent⟩ := hm.contentOf_copy
    obtain ⟨p', hp', hdetached, hbyte⟩ := h.memory hsrc hb
    obtain rfl := Option.some.inj (hp.symm.trans hp')
    exact ⟨q, hq, hdetached.congr hwindow (Page.type_of_face hface), by rwa [hcontent]⟩
  · rw [Reference.memory_leave] at hb
    cases hb
  · rw [Reference.memory_write] at hb
    obtain ⟨p, f, hp, hf, hp', hbytes⟩ := hm.bytes_write hL
    obtain ⟨old, hold, -⟩ := Option.map_eq_some_iff.mp hb
    obtain ⟨q, hq, hdetached, -⟩ := h.memory hx hold
    obtain rfl := Option.some.inj (hp.symm.trans hq)
    refine ⟨p, hp', hdetached, ?_⟩
    rw [Ledger.contentOf_resident hf, hbytes]
    refine Reference.patch_of_getElem? (fun old hold => ?_) hb
    obtain ⟨q, hq, -, hbyte⟩ := h.memory hx hold
    obtain rfl := Option.some.inj (hp.symm.trans hq)
    rwa [Ledger.contentOf_resident hf] at hbyte
  · rw [Reference.memory_after henter hcopy hleave hwrite] at hb
    obtain ⟨p, hp, hdetached, hbyte⟩ := h.memory hx hb
    obtain ⟨q, hq, hdetached, hcontent⟩ := hm.contentOf hL hp hdetached hfixed hleave hwrite
    exact ⟨q, hq, hdetached, by rwa [hcontent]⟩

/-- Pages of `G` stay. -/
theorem present_after (h : Tracks W G S L) (hm : Ledger.Move k L L') {x : Owner} (hx : G x)
    (hk : ∀ writeBack, k ≠ .leave x writeBack) :
    (∃ p, L'.page x = some p) ∧ (S.after k).isAnonymous x = false := by
  obtain ⟨⟨p, hp⟩, hfile⟩ := h.present hx
  obtain ⟨q, hq, -⟩ := hm.face_of_page hp hk
  obtain ⟨henter, hcopy⟩ := hm.not_into hp
  refine ⟨⟨q, hq⟩, ?_⟩
  rw [Reference.isAnonymous, Reference.entered_after henter hcopy hk]
  exact hfile

theorem after (h : Tracks W G S L) (hL : L.Sound) (hm : Ledger.Move k L L')
    (hfixed : ∀ i, (S.fixed i).isSome → L'.file i = L.file i)
    (hspared : L'.Soils W fun _ w => S.fixed w.handle = none)
    (hG : ∀ x, G x → ∀ writeBack, k ≠ .leave x writeBack) : Tracks W G (S.after k) L' := by
  refine ⟨by rw [Reference.layout_after, h.layout, hm.layout], initial_after h.initial hm,
    fun {i F} hi => ?_, by rwa [Reference.fixed_after], fun hx => (h.plain_after hL hm hx).1,
    fun hx => (h.plain_after hL hm hx).2, fun {x i b} hx hb => ?_,
    fun {x} hx => h.present_after hm hx (hG x hx)⟩
  · rw [Reference.fixed_after] at hi
    rw [hfixed i (by rw [hi]; rfl)]
    exact h.file hi
  · rw [Reference.fixed_after]
    exact h.memory_after hL hm hfixed hx hb

/-- **Moves take the reference along.** -/
theorem move (h : Tracks W G S L) (hL : L.Sound) (hm : Ledger.Move k L L') (hk : k.Within W)
    (hG : ∀ x, G x → ∀ writeBack, k ≠ .leave x writeBack) : Tracks W G (S.after k) L' :=
  h.after hL hm (fun _ hi => h.file_eq hL (hm.file hk.inside) hi) (hm.soils hL h.spared hk) hG

/-- Changes from outside do, if they leave alone the files that stay what they are. -/
theorem outside (h : Tracks W G S L) (hL : L.Sound) {file : Nat → File}
    (hfixed : ∀ i, (S.fixed i).isSome → file i = L.file i) :
    Tracks W G (S.after .outside) { L with file } :=
  h.after hL (.outside file) hfixed h.spared fun _ _ _ => nofun

/-- **A trace takes the reference along.** -/
theorem trace (h : Tracks W G S L) (hL : L.Sound) (htrace : Ledger.Trace ks L L')
    (hks : ∀ k ∈ ks, k.Within W) (hG : ∀ x, G x → ∀ writeBack, .leave x writeBack ∉ ks) :
    Tracks W G (S.afterAll ks) L' := by
  induction htrace with
  | refl => exact h
  | shift htrace hs ih => exact (ih h hL hks hG).shift (htrace.sound hL) hs
  | move htrace hm ih =>
    rw [Reference.afterAll_append]
    have hbefore := ih h hL (fun k hk => hks k (List.mem_append_left _ hk))
      fun x hx b hb => hG x hx b (List.mem_append_left _ hb)
    refine hbefore.move (htrace.sound hL) hm
      (hks _ (List.mem_append_right _ (List.mem_singleton.mpr rfl))) fun x hx b hb => ?_
    exact hG x hx b (List.mem_append_right _ (List.mem_singleton.mpr hb.symm))

end Tracks

/-! ## Runs -/

/-- A step that spares the files of `fixed`: they are not changed from outside, and no page that is kept
in one is written. -/
def Machine.Spares (fixed : Nat → Option File) (m : Machine) (label : Label) (m' : Machine) : Prop :=
  ∀ i, (fixed i).isSome → (label = .outside → m'.backing.files.file i = m.backing.files.file i) ∧
    ∀ o ∈ label.written, ∀ w, m.homeOf o = some w → w.handle ≠ i

variable {lax : Tolerance} {fixed : Nat → Option File} {m m' : Machine} {label : Label}
  {labels : List Label} {S : Reference} {G : Owner → Prop}

/-- There may be no such file. -/
theorem Machine.spares_none (m : Machine) (label : Label) (m' : Machine) :
    m.Spares (fun _ => none) label m' := fun _ hi => by cases hi

/-- Nothing is written between two operations. -/
abbrev Machine.Tracked (G : Owner → Prop) (S : Reference) (m : Machine) : Prop :=
  Tracks (fun _ => False) G S (m.ledger none none)

/-- **A step of a machine is one of its reference**, if pages of `G` stay, and while one is read its
frame holds what is known of it. -/
theorem Step.exists_step_of_read (hs : Step lax m label m') (hm : Machine.Sound lax m none none)
    (h : m.Tracked G S) (hspares : m.Spares S.fixed label m')
    (hstay : ∀ {ks}, label.Moves (m.ledger none none).layout ks →
      Ledger.Trace ks (m.ledger none none) (m'.ledger none none) →
      ∀ x, G x → ∀ writeBack, .leave x writeBack ∉ ks)
    (hread : ∀ {id va length outcome ks ks' A}, label = .ask (.read id va length) outcome →
      (Operation.read id va length).Moves outcome (m.ledger none none).layout (ks ++ ks') →
      Ledger.Trace ks (m.ledger none none) A → Ledger.Trace ks' A (m'.ledger none none) →
      ∀ {x e i b}, G x → A.grant x = some e → (S.afterAll ks).memory x i = some b →
        (A.bytes e.frame)[i]? = some b) :
    ∃ ks, label.Moves (m.ledger none none).layout ks ∧
      Ledger.Trace ks (m.ledger none none) (m'.ledger none none) ∧
      S.Step label (S.afterAll ks) ∧ m'.Tracked G (S.afterAll ks) := by
  cases label with
  | ask op outcome =>
    have hspared : (m.ledger none none).Soils (· ∈ op.written) fun _ w => S.fixed w.handle = none := by
      rintro x p w hp hw hwritable (hdirty | hx)
      · exact h.spared x p w hp hw hwritable (Or.inl hdirty)
      · refine Option.not_isSome_iff_eq_none.mp fun hfixed => ?_
        exact (hspares w.handle hfixed).2 x hx w (Machine.homeOf_of_ledger hp hw) rfl
    have htracks : Tracks (· ∈ op.written) G S (m.ledger none none) := { h with spared := hspared }
    obtain ⟨ks, hks, htrace, hstep⟩ := Operation.Tells.exists_step (hs.tells hm).told hm.books
      h.layout (fun _ hx => h.plain hx) fun {id va length ks ks' A} hop hks htrace htrace' => by
        have hleave := hstay hks (htrace.trans htrace')
        subst hop
        exact (htracks.trace hm.books htrace (fun k hk => hks.within k (List.mem_append_left _ hk))
          fun x hx b hb => hleave x hx b (List.mem_append_left _ hb)).agrees (htrace.sound hm.books)
          (hread rfl hks htrace htrace')
    have hend := htracks.trace hm.books htrace hks.within (hstay hks htrace)
    exact ⟨ks, hks, htrace, hstep, { hend with spared := hend.spared.mono nofun }⟩
  | outside =>
    cases hs with
    | outside hchanged =>
      have hstep : S.Step .outside (S.afterAll [.outside]) := .intro rfl trivial
      refine ⟨[.outside], rfl, ?_, hstep, ?_⟩
      · rw [hchanged.ledger hm]
        exact .single (.outside _)
      · show Tracks _ _ (S.after .outside) (Machine.ledger _ none none)
        rw [hchanged.ledger hm]
        exact h.outside hm.books fun i hi => (hspares i hi).1 rfl

/-- It is enough that pages of `G` stay, and that their frames hold what is known of them, on the way. -/
theorem Step.exists_step (hs : Step lax m label m') (hm : Machine.Sound lax m none none)
    (h : m.Tracked G S) (hspares : m.Spares S.fixed label m')
    (hG : ∀ {op outcome ks ks' A}, label = .ask op outcome →
      op.Moves outcome (m.ledger none none).layout (ks ++ ks') →
      Ledger.Trace ks (m.ledger none none) A → Ledger.Trace ks' A (m'.ledger none none) →
      (∀ x, G x → ∀ writeBack, .leave x writeBack ∉ ks) ∧ ∀ {x e i b}, G x →
        A.grant x = some e → (S.afterAll ks).memory x i = some b → (A.bytes e.frame)[i]? = some b) :
    ∃ ks, label.Moves (m.ledger none none).layout ks ∧
      Ledger.Trace ks (m.ledger none none) (m'.ledger none none) ∧
      S.Step label (S.afterAll ks) ∧ m'.Tracked G (S.afterAll ks) := by
  refine hs.exists_step_of_read hm h hspares (fun {ks} hks htrace x hx writeBack hmem => ?_)
    fun hlabel hks htrace htrace' => (hG hlabel hks htrace htrace').2
  cases label with
  | ask op outcome => exact (hG rfl ((List.append_nil ks).symm ▸ hks) htrace (.refl _)).1 x hx _ hmem
  | outside =>
    obtain rfl : ks = _ := hks
    cases List.mem_singleton.mp hmem

end DemandPaging
