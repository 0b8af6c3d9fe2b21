import DemandPaging.Proofs.Ledger.Contents
import DemandPaging.Proofs.Ledger.Requests

/-!
# Which files are written

Apart from changes from outside, a file changes only when a dirty page that is kept in it is written
back (`Shift.file`, `Move.file`), and a page becomes dirty only when its space writes it
(`Move.isDirty`). So over a trace a file changes by whole windows of pages that were dirty or are
written on the way (`Trace.rewritten`).
-/

namespace DemandPaging

/-- `b` comes from `a` by writing windows of `P` back in turn. -/
inductive File.Rewritten (P : FileWindow → Prop) (a : File) : File → Prop
  | refl : Rewritten P a a
  | step {b : File} {w : FileWindow} {frame : PageBytes} (h : Rewritten P a b) (hw : P w)
      (htaken : w.TakenBy b frame) :
      Rewritten P a (b.writeAt w.offset (frame.slice 0 w.readBytes)).2

namespace File.Rewritten

variable {P Q : FileWindow → Prop} {a b c : File}

theorem mono (h : Rewritten P a b) (hPQ : ∀ w, P w → Q w) : Rewritten Q a b := by
  induction h with
  | refl => exact .refl
  | step _ hw htaken ih => exact .step ih (hPQ _ hw) htaken

theorem trans (h : Rewritten P a b) (h' : Rewritten P b c) : Rewritten P a c := by
  induction h' with
  | refl => exact h
  | step _ hw htaken ih => exact .step ih hw htaken

/-- A file no window of which is written back stays what it is. -/
theorem eq (h : Rewritten P a b) (hP : ∀ w, ¬P w) : b = a := by
  induction h with
  | refl => rfl
  | step _ hw => exact absurd hw (hP _)

end File.Rewritten

/-- A page that was loaded and is kept in a file is kept in its window. -/
theorem Page.home?_of_content {p : Page} {w : FileWindow} (h : p.content = .file w) :
    p.home? = some w := by
  unfold home? Page.type window?
  rw [h]
  rfl

namespace Ledger

variable {L L' : Ledger} {k : Kind} {ks : List Kind} {x : Owner} {p q : Page}
  {W : Owner → Prop} {P : Owner → FileWindow → Prop}

/-! ## What is dirty -/

/-- **Shifts make no page dirty.** -/
theorem Shift.isDirty (h : Shift L L') (hL : L.Sound) (hx : L'.isDirty x = true) :
    L.isDirty x = true := by
  cases hp : L.page x with
  | none =>
    have hp' : L'.page x = none := (h.trace.page_eq_none hL x).mpr hp
    rw [isDirty_of_grant_eq_none ((h.sound hL).grant_eq_none hp')] at hx
    cases hx
  | some p =>
    cases h.fate hL hp with
    | stays hp' hbytes hswapped hdirty => rwa [← hdirty]
    | evicted hf hl hgid hp' hslot hswapped htaken hfile hdirty =>
      rw [hdirty x (hL.mem_of_page hl hp hf)] at hx
      cases hx
    | loaded hf hmem hhand hp' hbytes hgiven hfile hdirty =>
      rw [hdirty x hmem] at hx
      cases hx
    | copied hf hl hshared hhand hp' hbytes hfile hdirty => rwa [← hdirty]

/-- **A page becomes dirty only when its space writes it.** -/
theorem Move.isDirty (h : Move k L L') (hL : L.Sound) (hx : L'.isDirty x = true) :
    L.isDirty x = true ∨ ∃ start bytes, k = .write x start bytes := by
  by_cases hwritten : ∃ start bytes, k = .write x start bytes
  · exact Or.inr hwritten
  refine Or.inl ?_
  have hwrite : ∀ start bytes, k ≠ .write x start bytes := fun start bytes hk =>
    hwritten ⟨start, bytes, hk⟩
  have hgone : L'.page x = none → L.isDirty x = true := fun hp' => by
    rw [isDirty_of_grant_eq_none ((h.sound hL).grant_eq_none hp')] at hx
    cases hx
  cases hp : L.page x with
  | some p =>
    by_cases hleave : ∃ writeBack, k = .leave x writeBack
    · obtain ⟨writeBack, rfl⟩ := hleave
      refine hgone ?_
      cases h <;> exact if_pos rfl
    · rw [← (h.remains hL hp (fun b hb => hleave ⟨b, hb⟩) hwrite).2.2.2]
      exact hx
  | none =>
    -- Whoever comes is clean.
    have hclean := isDirty_of_grant_eq_none (hL.grant_eq_none hp)
    cases h with
    | enter | duplicate | leaveTeam | leaveAlone | supply | floor | outside => exact hx
    | join =>
      rename_i o src p f _ _ _ _ _
      by_cases hxo : x = o
      · have hgrant : (L.join o p src f).grant x = some ⟨f, false, false⟩ := if_pos hxo
        rw [Ledger.isDirty, hgrant] at hx
        cases hx
      · rwa [isDirty_join hxo] at hx
    | leaveFrame =>
      rename_i o p f l _ _ _ _ _
      by_cases hxo : x = o
      · exact hgone (if_pos hxo)
      · have hsame : (L.leaveFrame o p f (l.filter (· ≠ o))).isDirty x = L.isDirty x :=
          isDirty_leaveFrame _ hxo
        rw [← hsame]
        exact hx
    | write =>
      rename_i o e start bytes _ _
      have hxo : x ≠ o := fun hxo => hwrite _ _ (by rw [hxo])
      have hsame : ((L.touch o).overwrite e.frame ((L.bytes e.frame).blit start bytes)).grant x =
          L.grant x := if_neg hxo
      rwa [← isDirty_congr hsame]

/-- A page that is dirty after a trace was dirty before or is written on the way. -/
theorem Trace.isDirty (h : Trace ks L L') (hL : L.Sound) (hx : L'.isDirty x = true) :
    L.isDirty x = true ∨ ∃ start bytes, .write x start bytes ∈ ks := by
  induction h with
  | refl => exact Or.inl hx
  | shift h hs ih => exact ih hL (hs.isDirty (h.sound hL) hx)
  | move h hm ih =>
    rcases hm.isDirty (h.sound hL) hx with hx | ⟨start, bytes, rfl⟩
    · exact (ih hL hx).imp_right fun ⟨start, bytes, hk⟩ => ⟨start, bytes, List.mem_append_left _ hk⟩
    · exact Or.inr ⟨start, bytes, List.mem_append_right _ List.mem_cons_self⟩

/-! ## Where pages come from -/

/-- What a page that is registered after a move was before: the same, in another group or in none, new,
or the page it is a copy of. -/
inductive Kind.Brings (k : Kind) (L : Ledger) (x : Owner) : Page → Prop
  | stays {p : Page} (hp : L.page x = some p) (group : Option Nat) : Brings k L x { p with group }
  | enters {writable : Bool} {type : PageType} {origin : Origin}
      (hk : k = .enter x writable type origin) : Brings k L x (.fresh x.vpn writable type origin)
  | copies {src : Owner} {p : Page} (hk : k = .copy src x) (hp : L.page src = some p)
      (group : Option Nat) : Brings k L x { p with group }

/-- **A registered page** was registered before, is new, or is a copy. -/
theorem Move.brings (h : Move k L L') (hq : L'.page x = some q) : k.Brings L x q := by
  have hsplit : ∀ {o : Owner} {r : Page}, (if x = o then some r else L.page x) = some q →
      x = o ∧ q = r ∨ L.page x = some q := fun {o r} h => by
    split at h
    · exact Or.inl ⟨‹_›, (Option.some.inj h).symm⟩
    · exact Or.inr h
  have hgone : ∀ {o : Owner}, (if x = o then none else L.page x) = some q →
      L.page x = some q := fun {o} h => by
    split at h
    · cases h
    · exact h
  cases h with
  | enter =>
    rcases hsplit hq with ⟨rfl, rfl⟩ | hq
    · exact .enters rfl
    · exact .stays hq _
  | join ho hvpn hp =>
    rcases hsplit hq with ⟨rfl, rfl⟩ | hq
    · exact .copies rfl hp _
    · exact .stays hq _
  | duplicate ho hvpn hp =>
    rcases hsplit hq with ⟨rfl, rfl⟩ | hq
    · exact .copies rfl hp _
    · exact .stays hq _
  | leaveFrame => exact .stays (hgone hq) _
  | leaveTeam =>
    obtain ⟨p, hp, rfl | rfl⟩ := page_leaveTeam hq
    · exact .stays hp _
    · exact .stays hp _
  | leaveAlone => exact .stays (hgone hq) _
  | write | supply | floor | outside => exact .stays (show L.page x = some q from hq) _

theorem Move.face (h : Move k L L') (hq : L'.page x = some q) :
    (∃ p, L.page x = some p ∧ q.face = p.face) ∨
      (∃ writable type origin, k = .enter x writable type origin ∧
        q = .fresh x.vpn writable type origin) ∨
      ∃ src p, k = .copy src x ∧ L.page src = some p ∧ q.face = p.face := by
  cases h.brings hq with
  | stays hp => exact Or.inl ⟨_, hp, rfl⟩
  | enters hk => exact Or.inr (Or.inl ⟨_, _, _, hk, rfl⟩)
  | copies hk hp => exact Or.inr (Or.inr ⟨_, _, hk, hp, rfl⟩)

/-- **No page comes into a frame in a move** but by being copied. -/
theorem Move.frame_eq {f : FrameNum} (h : Move k L L') (hx : L'.frame x = some f) :
    L.frame x = some f ∨ ∃ src, k = .copy src x := by
  obtain ⟨q, hq, hf⟩ := Option.bind_eq_some_iff.mp hx
  cases h.brings hq with
  | stays hp group => exact Or.inl ((frame_of_page hp).trans hf)
  | enters hk => cases hf
  | copies hk hp group => exact Or.inr ⟨_, hk⟩

/-- A copy is made at the same place. -/
theorem Move.vpn_of_copy {src o : Owner} (h : Move (.copy src o) L L') : src.vpn = o.vpn := by
  cases h <;> assumption

/-- Every page carries a number that may stand at its place, if it did before and those that are
registered do. Any page may be in no mapping. -/
theorem Trace.mapping_of {P : PageNum → Nat → Prop} (h : Trace ks L L') (hL : L.Sound)
    (hzero : ∀ v, P v 0)
    (hks : ∀ o writable type origin, .enter o writable type origin ∈ ks →
      P o.vpn (Page.fresh o.vpn writable type origin).mapping)
    (hpages : ∀ o p, L.page o = some p → P o.vpn p.mapping) (hq : L'.page x = some q) :
    P x.vpn q.mapping := by
  induction h generalizing x q with
  | refl => exact hpages x q hq
  | shift h hs ih =>
    obtain ⟨p, hp, hsame | hnone⟩ := hs.mapping (h.sound hL) hq
    · rw [hsame]
      exact ih hL hks hpages hp
    · rw [hnone]
      exact hzero _
  | move h hm ih =>
    rename_i A B ks k
    have hbefore : ∀ {o p}, A.page o = some p → P o.vpn (Page.mapping p) := fun hp =>
      ih hL (fun o w t g hk => hks o w t g (List.mem_append_left _ hk)) hpages hp
    cases hm.brings hq with
    | stays hp group =>
      have hat := hbefore hp
      exact hat
    | enters hk => exact hks _ _ _ _ (hk ▸ List.mem_append_right _ List.mem_cons_self)
    | copies hk hp group =>
      subst hk
      have hat := hbefore hp
      rw [hm.vpn_of_copy] at hat
      exact hat

/-- A registered page is neither registered again nor copied to. -/
theorem Move.not_into (h : Move k L L') (hp : L.page x = some p) :
    (∀ writable type origin, k ≠ .enter x writable type origin) ∧ ∀ src, k ≠ .copy src x := by
  have hno : L.page x ≠ none := by
    rw [hp]
    nofun
  refine ⟨?_, ?_⟩
  · rintro writable type origin rfl
    exact hno h.page_eq_none
  · rintro src rfl
    cases h <;> exact hno ‹_›

/-- **A page that does not leave** stays registered as it is. -/
theorem Move.face_of_page (h : Move k L L') (hp : L.page x = some p)
    (hk : ∀ writeBack, k ≠ .leave x writeBack) : ∃ q, L'.page x = some q ∧ q.face = p.face := by
  have hthere : L.layout.registered x = true := by
    show (L.page x).isSome = true
    rw [hp]
    rfl
  have hstays : L'.layout.registered x = true := by
    rw [h.layout]
    cases k with
    | enter | copy => exact Bool.or_eq_true_iff.mpr (Or.inr hthere)
    | leave o writeBack =>
      have hne : x ≠ o := fun hxo => hk writeBack (by rw [hxo])
      simp [Layout.after, hne, hthere]
    | write | supply | floor | outside => exact hthere
  obtain ⟨q, hq⟩ := Option.isSome_iff_exists.mp hstays
  refine ⟨q, hq, ?_⟩
  obtain ⟨henter, hcopy⟩ := h.not_into hp
  rcases h.face hq with ⟨p', hp', hface⟩ | ⟨_, _, _, rfl, -⟩ | ⟨src, p', rfl, -⟩
  · rwa [Option.some.inj (hp.symm.trans hp')]
  · exact absurd rfl (henter _ _ _)
  · exact absurd rfl (hcopy _)

theorem Shift.face_of_page (h : Shift L L') (hL : L.Sound) (hp : L.page x = some p) :
    ∃ q, L'.page x = some q ∧ q.face = p.face := by
  have hface := h.face hL x
  rw [hp] at hface
  exact Option.map_eq_some_iff.mp hface

/-- A page that is registered after a shift was before. -/
theorem Shift.exists_page (h : Shift L L') (hL : L.Sound) (hq : L'.page x = some q) :
    ∃ p, L.page x = some p ∧ p.face = q.face := by
  have hface := h.face hL x
  rw [hq] at hface
  exact Option.map_eq_some_iff.mp hface.symm

/-- A page that does not leave stays registered over a trace. -/
theorem Trace.face_of_page (h : Trace ks L L') (hL : L.Sound) (hp : L.page x = some p)
    (hks : ∀ writeBack, .leave x writeBack ∉ ks) : ∃ q, L'.page x = some q ∧ q.face = p.face := by
  induction h with
  | refl => exact ⟨p, hp, rfl⟩
  | shift h hs ih =>
    obtain ⟨q, hq, hface⟩ := ih hL hp hks
    obtain ⟨r, hr, hface'⟩ := hs.face_of_page (h.sound hL) hq
    exact ⟨r, hr, hface'.trans hface⟩
  | move h hm ih =>
    obtain ⟨q, hq, hface⟩ := ih hL hp fun b hb => hks b (List.mem_append_left _ hb)
    obtain ⟨r, hr, hface'⟩ := hm.face_of_page hq fun b hb =>
      hks b (List.mem_append_right _ (List.mem_singleton.mpr hb.symm))
    exact ⟨r, hr, hface'.trans hface⟩

/-- A page stays writable, and becomes no other by the growth of a stack. -/
theorem Trace.writable_of_growth {id : SpaceId} (h : Trace ks L L') (hL : L.Sound)
    (hks : ∀ k ∈ ks, Layout.IsGrowth id k) (hw : ∀ p, L.page x = some p → p.writable = true)
    (hq : L'.page x = some q) : q.writable = true := by
  induction h generalizing q with
  | refl => exact hw q hq
  | shift h hs ih =>
    have hface := hs.face (h.sound hL) x
    rw [hq] at hface
    obtain ⟨p, hp, hpq⟩ := Option.map_eq_some_iff.mp hface.symm
    exact (congrArg (fun face => face.2.1) hpq).symm.trans (ih hL hks hw hp)
  | move h hm ih =>
    have hgrowth := hks _ (List.mem_append_right _ List.mem_cons_self)
    rcases hm.face hq with ⟨p, hp, hpq⟩ | ⟨writable, type, origin, rfl, rfl⟩ | ⟨src, p, rfl, -⟩
    · exact (congrArg (fun face => face.2.1) hpq).trans
        (ih hL (fun k hk => hks k (List.mem_append_left _ hk)) hw hp)
    · rcases hgrowth with ⟨v, hv⟩ | ⟨v, hv⟩
      · exact (Ledger.Kind.enter.inj hv).2.1
      · cases hv
    · rcases hgrowth with ⟨v, hv⟩ | ⟨v, hv⟩ <;> cases hv

/-! ## Writing back -/

/-- A dirty page is written back from its frame. -/
structure WritesBack (L : Ledger) (file : Nat → File) (x : Owner) (p : Page) (w : FileWindow)
    (f : FrameNum) : Prop where
  page : L.page x = some p
  frame : p.frame = some f
  content : p.content = .file w
  dirty : L.isDirty x = true
  taken : w.TakenBy (L.file w.handle) (L.bytes f)
  file : file = fun i =>
    if i = w.handle then ((L.file i).writeAt w.offset ((L.bytes f).slice 0 w.readBytes)).2
    else L.file i

/-- Files are changed by writing a dirty page back, which is clean then, or not at all. -/
def WritesBackOne (L L' : Ledger) : Prop :=
  L'.file = L.file ∨ ∃ x p w f, L.WritesBack L'.file x p w f ∧ L'.isDirty x = false

/-- What writing back a page comes to: nothing if it is kept in no file. -/
theorem writesBackOne_flush {f : FrameNum} (hp : L.page x = some p) (hf : p.frame = some f)
    (hdirty : L.isDirty x = true) (htaken : p.TakenBy L.file (L.bytes f))
    (hclean : L'.isDirty x = false) (hfile : L'.file = L.flush p f) : L.WritesBackOne L' := by
  unfold WritesBackOne
  rw [hfile]
  unfold flush Page.flushed
  split
  · rename_i w hw
    exact Or.inr ⟨x, p, w, f, ⟨hp, hf, hw, hdirty, htaken w hw, rfl⟩, hclean⟩
  · exact Or.inl rfl

theorem writesBackOne_ite {b : Bool} {f : FrameNum}
    (h : b = true → L'.file = L.flush p f → L.WritesBackOne L')
    (hfile : L'.file = if b then L.flush p f else L.file) : L.WritesBackOne L' := by
  cases b with
  | false => exact Or.inl hfile
  | true => exact h rfl hfile

/-- **Files change in a shift** only when a dirty page is written back. -/
theorem Shift.file (h : Shift L L') (hL : L.Sound) : L.WritesBackOne L' := by
  cases h with
  | take | giveBack | scrub | pin | unpin | fill | unshare => exact Or.inl rfl
  | evict h =>
    obtain ⟨hc, ho, hp, -, -, -, -, -, htaken⟩ := h
    refine writesBackOne_ite (fun hdirty => ?_) rfl
    obtain ⟨y, hy, hydirty⟩ := List.any_eq_true.mp hdirty
    have hpage := hL.page_of_mem hc ho hp hy
    have hframe := (frame_of_page hpage).symm.trans ((hL.mem_owners hc y).mp hy)
    exact writesBackOne_flush hpage hframe hydirty (htaken hdirty)
      (isDirty_of_grant_eq_none (if_pos hy))

/-- **Files change in a move** only when a dirty page is written back, or from outside. -/
theorem Move.file (h : Move k L L') (hk : k ≠ .outside) : L.WritesBackOne L' := by
  cases h with
  | enter | join | duplicate | leaveTeam | leaveAlone | write | supply | floor => exact Or.inl rfl
  | outside => exact absurd rfl hk
  | leaveFrame hp hframe hl htaken =>
    refine writesBackOne_ite (fun hdirty => ?_) rfl
    exact writesBackOne_flush hp hframe (Bool.and_eq_true_iff.mp hdirty).2 (htaken hdirty)
      (isDirty_of_grant_eq_none (if_pos rfl))

/-! ## Windows that may be written back -/

/-- The writable pages that are dirty or in `W` are kept in windows `P` allows them. -/
def Soils (W : Owner → Prop) (P : Owner → FileWindow → Prop) (L : Ledger) : Prop :=
  ∀ x p w, L.page x = some p → p.home? = some w → p.writable = true →
    L.isDirty x = true ∨ W x → P x w

theorem Soils.mono {V : Owner → Prop} (h : L.Soils W P) (hV : ∀ x, V x → W x) : L.Soils V P :=
  fun x p w hp hw hwritable hx => h x p w hp hw hwritable (hx.imp_right (hV x))

theorem Sound.writable_of_isDirty (hL : L.Sound) (hp : L.page x = some p)
    (hx : L.isDirty x = true) : p.writable = true := by
  obtain ⟨e, he, hdirty⟩ := isDirty_eq_true.mp hx
  exact hL.dirties hp he hdirty

/-- What is written back is a window of a page that was dirty. -/
theorem WritesBackOne.rewritten (h : L.WritesBackOne L') (hL : L.Sound) (hP : L.Soils W P) (i : Nat) :
    (L.file i).Rewritten (fun w => w.handle = i ∧ ∃ x, P x w) (L'.file i) := by
  rcases h with hfile | ⟨x, p, w, f, ⟨hp, -, hw, hdirty, htaken, hfile⟩, -⟩
  · rw [hfile]
    exact .refl
  · rw [hfile]
    dsimp only
    split
    · rename_i hi
      subst hi
      have hhome := Page.home?_of_content hw
      have hwritable := hL.writable_of_isDirty hp hdirty
      exact .step .refl ⟨rfl, x, hP x p w hp hhome hwritable (Or.inl hdirty)⟩ htaken
    · exact .refl

theorem Shift.soils (h : Shift L L') (hL : L.Sound) (hP : L.Soils W P) : L'.Soils W P := by
  intro x q w hq hw hwritable hx
  obtain ⟨p, hp, hface⟩ := h.exists_page hL hq
  exact hP x p w hp ((Page.home?_of_face hface).trans hw)
    ((Page.writable_of_face hface).trans hwritable) (hx.imp_left (h.isDirty hL))

/-- A move that writes pages of `W` only, and neither copies nor registers a file page as one. -/
structure Kind.Within (W : Owner → Prop) (k : Kind) : Prop where
  enter : ∀ x writable origin, k = .enter x writable .file origin → ¬W x
  copy : ∀ src x, k = .copy src x → ¬W x
  write : ∀ x start bytes, k = .write x start bytes → W x
  inside : k ≠ .outside

theorem Move.soils (h : Move k L L') (hL : L.Sound) (hP : L.Soils W P) (hk : k.Within W) :
    L'.Soils W P := by
  intro x q w hq hw hwritable hx
  -- A page that was not registered is not dirty.
  have hnew : L.page x = none → (∀ start bytes, k ≠ .write x start bytes) → W x := fun hnone hwrite =>
    hx.resolve_left fun hdirty => by
      rcases h.isDirty hL hdirty with hdirty | ⟨start, bytes, hk⟩
      · rw [isDirty_of_grant_eq_none (hL.grant_eq_none hnone)] at hdirty
        cases hdirty
      · exact hwrite start bytes hk
  rcases h.face hq with ⟨p, hp, hface⟩ | ⟨writable, type, origin, rfl, rfl⟩ |
    ⟨src, p, rfl, hp, hface⟩
  · refine hP x p w hp ((Page.home?_of_face hface).symm.trans hw)
      ((Page.writable_of_face hface).symm.trans hwritable) ?_
    rcases hx with hx | hx
    · rcases h.isDirty hL hx with hx | ⟨start, bytes, hwrite⟩
      · exact Or.inl hx
      · exact Or.inr (hk.write x start bytes hwrite)
    · exact Or.inr hx
  · cases type with
    | anon => cases hw
    | file => exact absurd (hnew h.page_eq_none nofun) (hk.enter x writable origin rfl)
  · have hnone : L.page x = none := by cases h <;> assumption
    exact absurd (hnew hnone nofun) (hk.copy src x rfl)

/-- **Over a trace** each file is changed by writing back windows of `P`, if all pages that are dirty
or are written on the way are kept in such windows. -/
theorem Trace.rewritten (h : Trace ks L L') (hL : L.Sound) (hP : L.Soils W P)
    (hks : ∀ k ∈ ks, k.Within W) :
    L'.Soils W P ∧ ∀ i, (L.file i).Rewritten (fun w => w.handle = i ∧ ∃ x, P x w) (L'.file i) := by
  induction h with
  | refl => exact ⟨hP, fun _ => .refl⟩
  | shift h hs ih =>
    obtain ⟨hA, hfile⟩ := ih hL hP hks
    have hsound := h.sound hL
    exact ⟨hs.soils hsound hA, fun i => (hfile i).trans ((hs.file hsound).rewritten hsound hA i)⟩
  | move h hm ih =>
    obtain ⟨hA, hfile⟩ := ih hL hP fun k hk => hks k (List.mem_append_left _ hk)
    have hsound := h.sound hL
    have hk := hks _ (List.mem_append_right _ List.mem_cons_self)
    exact ⟨hm.soils hsound hA hk,
      fun i => (hfile i).trans ((hm.file hk.inside).rewritten hsound hA i)⟩

end Ledger

/-- **An operation writes the pages it addresses**, and copies and registers no file page that it
writes. -/
theorem Operation.Moves.within {op : Operation} {outcome : Except Refusal Reply} {Y : Layout}
    {ks : List Ledger.Kind} (h : op.Moves outcome Y ks) : ∀ k ∈ ks, k.Within (· ∈ op.written) := by
  intro k hk
  have hdoes := h.does k hk
  refine ⟨?_, ?_, ?_, ?_⟩
  · rintro x writable origin rfl hx
    cases hdoes <;> cases hx
  · rintro src x rfl hx
    cases hdoes <;> cases hx
  · rintro x start bytes rfl
    cases hdoes with
    | write written hspan => exact List.mem_map.mpr ⟨_, hspan, rfl⟩
  · rintro rfl
    cases hdoes

end DemandPaging
