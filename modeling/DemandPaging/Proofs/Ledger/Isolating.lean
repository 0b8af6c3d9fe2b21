import DemandPaging.Proofs.Ledger.Joining
import DemandPaging.Proofs.Reference

/-!
# Two pages in one window

A file page and its copy share a frame until one of them is written. From then on each has a frame of
its own, but both are kept in one window. What is known of one of them stays in its frame (`Isolates`)
as long as it is not loaded, or only while the two are joined. It is found in the file again whenever the
page is clean (`Persists`), as long as the other is not written back (`Withholds`) and did not take away,
when the two parted, what only one of them had to write back (`Fair`).
-/

namespace DemandPaging.Ledger

variable {L L' A B : Ledger} {x y z : Owner} {p q r : Page} {w : FileWindow} {W : Owner → Prop}
  {k : Kind} {ks ks' : List Kind} {known known' : Nat → Option UInt8} {S : Reference}

/-- Who is dirty or in `W` is `x` or `y`, or keeps no byte of the window. -/
def SoiledByTwo (L : Ledger) (W : Owner → Prop) (x y : Owner) (w : FileWindow) : Prop :=
  L.Soils W fun o v => ∀ k, w.Contains w.handle k → v.Contains w.handle k → o = x ∨ o = y

theorem SoiledByTwo.soiledBy (h : L.SoiledByTwo W x y w) (hL : L.Sound) {i : Nat}
    (hi : i < w.readBytes) : L.SoiledBy (fun o => o = x ∨ o = y) w.handle (w.offset + i) :=
  fun o p v hp hv hdirty hin =>
    h o p v hp hv (hL.writable_of_isDirty hp hdirty) (Or.inl hdirty) _ (FileWindow.contains_add hi) hin

/-- While the other page stays dirty, only the one is written back. -/
theorem SoiledByTwo.cleanedBy (h : L.SoiledByTwo W x y w) (hL : L.Sound) {i : Nat}
    (hi : i < w.readBytes) (hy : L.isDirty y = true → L'.isDirty y = true) :
    L.CleanedBy L' (· = x) w.handle (w.offset + i) := by
  intro o p v hp hv hdirty hclean hin
  refine (h.soiledBy hL hi o p v hp hv hdirty hin).resolve_right ?_
  rintro rfl
  rw [hy hdirty] at hclean
  cases hclean

/-! ## Being joined -/

/-- Joined pages are in one frame if one of them is resident. -/
theorem Sound.frame_eq_of_joined (hL : L.Sound) (hj : L.Joined x y) : L.frame x = L.frame y :=
  congrArg (Option.bind · Page.frame) (hL.page_eq_of_joined hj)

/-- Joined pages are away together, and clean. -/
theorem Joined.isDirty_of_away (hj : L.Joined x y) (hL : L.Sound) {o o' : Owner} (ho : o = x ∨ o = y)
    (hframe : L.frame o = none) (ho' : o' = x ∨ o' = y) : L.isDirty o' = false := by
  have hsame := hL.frame_eq_of_joined hj
  refine hL.isDirty_of_frame ?_
  rcases ho with rfl | rfl <;> rcases ho' with rfl | rfl
  · exact hframe
  · rwa [← hsame]
  · rwa [hsame]
  · exact hframe

/-- Neither of two joined pages is written. -/
theorem Move.not_write_of_joined (h : Move k L L') (hL : L.Sound) (hne : x ≠ y) (hj : L.Joined x y)
    {o : Owner} (ho : o = x ∨ o = y) (start : Nat) (bytes : Bytes) : k ≠ .write o start bytes := by
  rintro rfl
  cases h with
  | write he hw =>
    rcases ho with rfl | rfl
    · exact hne (hL.eq_of_joined he hw hj).symm
    · exact hne (hL.eq_of_joined he hw hj.symm)

/-- Joined pages are evicted together, and stay joined. -/
theorem Shift.joined_of_evicted (h : Shift L L') (hL : L.Sound) (hne : x ≠ y) (hj : L.Joined x y)
    (hdirty : L.isDirty x = true) :
    L'.isDirty x = true ∨ L'.Joined x y ∧ L'.isDirty y = false := by
  obtain ⟨e, he, -⟩ := isDirty_eq_true.mp hdirty
  obtain ⟨p, hp, hf⟩ := hL.page_of_grant he
  cases h.fate hL hp with
  | stays _ _ _ hsame | copied _ _ _ _ _ _ _ hsame => exact Or.inl (hsame.trans hdirty)
  | loaded hnone =>
    rw [hnone] at hf
    cases hf
  | @evicted f l slot gid hf' hl hgid hp' _ _ _ _ hclean =>
    have hmem := hL.crews.mem hl
    have hx : x ∈ l := hL.mem_of_page hl hp hf'
    have hy : y ∈ l := (hmem y).mpr ((hL.frame_eq_of_joined hj).symm.trans ((hmem x).mp hx))
    have hlong : 1 < l.length := Decidable.byContradiction fun hshort =>
      hne (Roster.eq_of_mem_of_short hshort hx hy)
    have hgroup : ∀ z ∈ l, L'.group z = some gid := fun z hz => by
      rw [group, hp' z hz, Option.bind_some, if_pos hlong]
      rfl
    exact Or.inr ⟨Or.inr ⟨gid, hgroup x hx, hgroup y hy⟩, hclean y hy⟩

/-- If `x` and `y` part, `x` is dirty or has nothing to write back: `y` was not the only one of them
that was dirty. -/
def Fair (L : Ledger) (x y : Owner) : Prop :=
  L.Joined x y → L.isDirty x = true ∨ L.isDirty y = false

theorem Shift.fair (h : Shift L L') (hL : L.Sound) (hne : x ≠ y) (hfair : L.Fair x y) :
    L'.Fair x y := by
  intro hj'
  have hj := h.joined hL hne hj'
  rcases hfair hj with hx | hy
  · exact (h.joined_of_evicted hL hne hj hx).imp_right fun h => h.2
  · refine Or.inr (Bool.eq_false_iff.mpr fun hy' => ?_)
    rw [h.isDirty hL hy'] at hy
    cases hy

theorem Move.fair (h : Move k L L') (hL : L.Sound) (hne : x ≠ y) (hx : L.page x = some p)
    (hy : L.page y = some q) (hxk : ∀ writeBack, k ≠ .leave x writeBack)
    (hyk : ∀ writeBack, k ≠ .leave y writeBack) (hfair : L.Fair x y) : L'.Fair x y := by
  intro hj'
  have hj := (h.joined hL hx hj').resolve_right fun ⟨src, hk⟩ => (h.not_into hy).2 src hk
  rw [(h.remains hL hx hxk (h.not_write_of_joined hL hne hj (Or.inl rfl))).2.2.2,
    (h.remains hL hy hyk (h.not_write_of_joined hL hne hj (Or.inr rfl))).2.2.2]
  exact hfair hj

/-! ## Over a trace -/

/-- Neither `x` nor `y` leaves, nor does a page that is copied to. -/
structure Stay (x y : Owner) (ks : List Kind) : Prop where
  mine : ∀ writeBack, .leave x writeBack ∉ ks
  other : ∀ writeBack, .leave y writeBack ∉ ks
  copied : ∀ src z writeBack, .copy src z ∈ ks → .leave z writeBack ∉ ks

theorem Stay.symm (h : Stay x y ks) : Stay y x ks := ⟨h.other, h.mine, h.copied⟩

/-- Of the pages that are kept in the window none is loaded but `y`. -/
def LoadsOnly (L L' : Ledger) (w : FileWindow) (y : Owner) : Prop :=
  ∀ z, z ≠ y → (∃ r, (L.page z = some r ∨ L'.page z = some r) ∧ r.home? = some w) →
    L'.loads z = L.loads z

/-- **A page is loaded with those it is joined to**: none of them is, if none is that is kept in its
window but `y`. A page that is copied to on the way has to stay. -/
theorem LoadsOnly.loads_eq (h : L.LoadsOnly L' w y) (hL : L.Sound) (htrace : Trace ks L A)
    (hrest : Trace ks' A L') (hx : L.page x = some p) (hhome : p.home? = some w)
    (hstay : Stay x y (ks ++ ks')) (hzy : z ≠ y) (hz : z = x ∨ A.Joined x z) :
    L'.loads z = L.loads z := by
  induction htrace generalizing ks' with
  | refl =>
    refine h z hzy ⟨p, Or.inl ?_, hhome⟩
    rcases hz with rfl | hj
    · exact hx
    · rw [← hL.page_eq_of_joined hj]
      exact hx
  | shift htrace hs ih =>
    refine ih h hL (hs.trace.trans hrest) hx hstay ?_
    by_cases hzx : z = x
    · exact Or.inl hzx
    · exact hz.imp_right fun hj => hs.joined (htrace.sound hL) (Ne.symm hzx) hj
  | @move L A B ks k htrace hm ih =>
    have hA := htrace.sound hL
    have hB := hm.sound hA
    have hsplit : ks ++ [k] ++ ks' = ks ++ ([k] ++ ks') := List.append_assoc ..
    rw [hsplit] at hstay
    have hmid : k ∈ ks ++ ([k] ++ ks') := List.mem_append_right _ List.mem_cons_self
    have hback := ih h hL ((Trace.single hm).trans hrest) hx hstay
    obtain ⟨pA, hxA, hxface⟩ := htrace.face_of_page hL hx fun b hb =>
      hstay.mine b (List.mem_append_left _ hb)
    rcases hz with rfl | hj
    · exact hback (Or.inl rfl)
    rcases hm.joined hA hxA hj with hj' | ⟨src, rfl⟩
    · exact hback (Or.inr hj')
    -- `z` was copied on the way, and stays
    · obtain ⟨pB, hxB, hface⟩ := hm.face_of_page hxA fun b hb => hstay.mine b (hb ▸ hmid)
      have hzB : B.page z = some pB := (hB.page_eq_of_joined hj).symm.trans hxB
      obtain ⟨r, hr, hzface⟩ := hrest.face_of_page hB hzB fun b hb =>
        hstay.copied src z b hmid (List.mem_append_right _ (List.mem_append_right _ hb))
      refine h z hzy ⟨r, Or.inr hr, ?_⟩
      rw [Page.home?_of_face hzface, Page.home?_of_face hface, Page.home?_of_face hxface, hhome]

/-- A page that is away stays away, if none is loaded that it is joined to. -/
theorem Trace.frame_eq_none (htrace : Trace ks L A) (hrest : Trace ks' A L') (hL : L.Sound)
    (hy : L.page y = some q) (hnone : L.frame y = none)
    (hyks : ∀ writeBack, .leave y writeBack ∉ ks)
    (hloads : ∀ {C ks₁ ks₂}, ks₁ ++ ks₂ = ks ++ ks' → Trace ks₁ L C → Trace ks₂ C L' → ∀ z,
      y ∈ C.company z → L'.loads z = C.loads z) : A.frame y = none := by
  induction htrace generalizing ks' with
  | refl => exact hnone
  | @shift L C A ks htrace hs ih =>
    have haway : C.frame y = none := ih (hs.trace.trans hrest) hL hy hnone hyks hloads
    obtain ⟨r, hr, -⟩ := htrace.face_of_page hL hy hyks
    rw [Ledger.frame, hr] at haway
    cases hs.fate (htrace.sound hL) hr with
    | stays hr' => rw [Ledger.frame, hr']; exact haway
    | evicted hf | copied hf =>
      rw [Option.bind_some, hf] at haway
      cases haway
    | loaded hf hmem hhand hp' hbytes hgiven hfile hdirty hlog =>
      have h₁ := hloads rfl htrace (hs.trace.trans hrest) _ hmem
      have h₂ := loads_of_claimed hlog
      have h₃ := hrest.loads_le ‹Owner›
      omega
  | @move L C A ks k htrace hm ih =>
    rw [List.append_assoc] at hloads
    have hleft := fun b hb => hyks b (List.mem_append_left _ hb)
    have haway := ih ((Trace.single hm).trans hrest) hL hy hnone hleft hloads
    obtain ⟨r, hr, -⟩ := htrace.face_of_page hL hy hleft
    refine Option.eq_none_iff_forall_ne_some.mpr fun f hf => ?_
    rcases hm.frame_eq hf with hf | ⟨src, hk⟩
    · rw [haway] at hf
      cases hf
    · exact (hm.not_into hr).2 src hk

/-- **What `y` has to write back is not written back**: it is as often dirty or written as it is dirty in
the end, or it is dirty in the end and was not loaded on the way, nor was a page it was joined to. -/
def Withholds (L : Ledger) (ks : List Kind) (L' : Ledger) (x y : Owner) (w : FileWindow) : Prop :=
  (L.isDirty y).toNat + ks.countP (Kind.writes y) ≤ (L'.isDirty y).toNat ∨
    L'.isDirty y = true ∧ L.LoadsOnly L' w x

/-- A page that is as often dirty or written as it is dirty in the end is dirty from then on. -/
theorem Trace.isDirty_of_countP (htrace : Trace ks L A) (hrest : Trace ks' B L') (hL : L.Sound)
    (hB : B.Sound)
    (hcount : (L.isDirty y).toNat + (ks ++ ks').countP (Kind.writes y) ≤ (L'.isDirty y).toNat)
    (hdirty : A.isDirty y = true) : B.isDirty y = true := by
  rw [List.countP_append] at hcount
  have hbefore : 0 < (L.isDirty y).toNat + ks.countP (Kind.writes y) := by
    rcases htrace.isDirty hL hdirty with h | ⟨start, bytes, hk⟩
    · rw [h]
      exact Nat.lt_of_lt_of_le Nat.one_pos (Nat.le_add_right _ _)
    · exact Nat.lt_of_lt_of_le (Kind.countP_writes_pos hk) (Nat.le_add_left _ _)
  have hle := Bool.toNat_le (L'.isDirty y)
  have hend : L'.isDirty y = true := by
    cases hb : L'.isDirty y
    · rw [hb] at hcount
      exact absurd hcount (by simp only [Bool.toNat_false]; omega)
    · rfl
  rcases hrest.isDirty hB hend with h | ⟨start, bytes, hk⟩
  · exact h
  · have := Kind.countP_writes_pos hk
    omega

/-- While only `x` is loaded, a page that parted from it and is away stays away. -/
theorem LoadsOnly.frame_eq_none (hloads : L.LoadsOnly L' w x) (hL : L.Sound) (hto : Trace ks L B)
    (hrest : Trace ks' B L') (hne : x ≠ y) (hy : L.page y = some q) (hhome : q.home? = some w)
    (hxB : B.page x = some p) (hyB : B.page y = some r) (hstay : Stay x y (ks ++ ks'))
    (hparted : ¬B.Joined x y) (haway : B.frame y = none) : L'.frame y = none := by
  have hB := hto.sound hL
  have hright : ∀ {k}, k ∈ ks' → k ∈ ks ++ ks' := List.mem_append_right _
  refine hrest.frame_eq_none (.refl _) hB hyB haway (fun b hb => hstay.other b (hright hb)) ?_
  intro C ks₁ ks₂ hks h₁ h₂ z hmem
  rw [List.append_nil] at hks
  subst hks
  have hapart : ¬C.Joined x y := fun hj => hparted (h₁.joined hB hxB hyB hne
    (fun b hb => hstay.mine b (hright (List.mem_append_left _ hb)))
    (fun b hb => hstay.other b (hright (List.mem_append_left _ hb))) hj)
  have hz := ((h₁.sound hB).joined_of_company hmem).imp Eq.symm fun h => h
  have hzx : z ≠ x := by
    rintro rfl
    exact hz.elim hne fun hj => hapart hj.symm
  have hsame := hloads.loads_eq hL (hto.trans h₁) h₂ hy hhome (by simpa using hstay.symm) hzx hz
  have h₃ := hto.loads_le z
  have h₄ := h₁.loads_le z
  have h₅ := h₂.loads_le z
  omega

/-- **Once the two have parted** a shift leaves `y` dirty. -/
theorem Withholds.isDirty (h : L.Withholds (ks ++ ks') L' x y w) (hL : L.Sound) (htrace : Trace ks L A)
    (hs : Shift A B) (hrest : Trace ks' B L') (hne : x ≠ y) (hx : L.page x = some p)
    (hy : L.page y = some q) (hhome : q.home? = some w) (hstay : Stay x y (ks ++ ks'))
    (hparted : ¬A.Joined x y) (hdirty : A.isDirty y = true) : B.isDirty y = true := by
  have hA := htrace.sound hL
  have hB := hs.sound hA
  rcases h with hcount | ⟨hend, hloads⟩
  · exact htrace.isDirty_of_countP hrest hL hB hcount hdirty
  obtain ⟨r, hr, -⟩ := htrace.face_of_page hL hy fun b hb => hstay.other b (List.mem_append_left _ hb)
  obtain ⟨s, hsx, -⟩ := htrace.face_of_page hL hx fun b hb => hstay.mine b (List.mem_append_left _ hb)
  obtain ⟨r', hr', -⟩ := hs.face_of_page hA hr
  obtain ⟨s', hsx', -⟩ := hs.face_of_page hA hsx
  by_contra hclean
  -- it was evicted, and would have to be loaded to be dirty in the end
  have haway : B.frame y = none := by
    cases hs.fate hA hr with
    | stays _ _ _ hsame | copied _ _ _ _ _ _ _ hsame => exact absurd (hsame.trans hdirty) hclean
    | loaded hf =>
      rw [hA.isDirty_of_frame ((frame_of_page hr).trans hf)] at hdirty
      cases hdirty
    | evicted hf hl hgid hp' =>
      have hmem := hA.mem_of_page hl hr hf
      rw [Ledger.frame, hp' y hmem]
      rfl
  have hapart : ¬B.Joined x y := fun hj =>
    hparted (hs.trace.joined hA hsx hr hne (fun _ hb => by cases hb) (fun _ hb => by cases hb) hj)
  have hend' : L'.frame y = none :=
    hloads.frame_eq_none hL (htrace.shift hs) hrest hne hy hhome hsx' hr' hstay hapart haway
  rw [(hrest.sound hB).isDirty_of_frame hend'] at hend
  cases hend

/-! ## What is known of a page -/

/-- **What is known of the page of `x`**, which is kept in a window like that of `y`, is in its frame;
while the two are joined it is in the file as well, unless one of them is dirty. -/
structure Isolates (L : Ledger) (x y : Owner) (w : FileWindow) (known : Nat → Option UInt8) :
    Prop where
  inside : ∀ {i b}, known i = some b → i < w.readBytes
  held : ∀ {i b p f}, known i = some b → L.page x = some p → p.frame = some f →
    (L.bytes f)[i]? = some b
  joint : ∀ {i b}, known i = some b → L.Joined x y → L.Keeps (fun o => o = x ∨ o = y) w i b

/-- **It is in the file, too**, unless the page is dirty. -/
structure Persists (L : Ledger) (x y : Owner) (w : FileWindow) (known : Nat → Option UInt8) : Prop
    extends L.Isolates x y w known where
  apart : ∀ {i b}, known i = some b → ¬L.Joined x y → L.Keeps (· = x) w i b

namespace Isolates

/-- A shift keeps what is known of joined pages. -/
theorem joint_shift (h : L.Isolates x y w known) (hL : L.Sound) (hs : Shift L L')
    (hsoils : L.SoiledByTwo W x y w) (hj : L.Joined x y) {i : Nat} {b : UInt8} (hb : known i = some b) :
    L'.Keeps (fun o => o = x ∨ o = y) w i b :=
  (h.joint hb hj).shift hL hs (h.inside hb) (hsoils.soiledBy hL (h.inside hb)).cleanedBy
    fun _ ho hframe _ ho' => hj.isDirty_of_away hL ho hframe ho'

/-- A move keeps what is known of joined pages. -/
theorem joint_move (h : L.Isolates x y w known) (hL : L.Sound) (hm : Move k L L') (hne : x ≠ y)
    (hk : k ≠ .outside) (hsoils : L.SoiledByTwo W x y w) (hx : L.page x = some p)
    (hy : L.page y = some q) (hxk : ∀ writeBack, k ≠ .leave x writeBack)
    (hyk : ∀ writeBack, k ≠ .leave y writeBack) (hj : L.Joined x y) {i : Nat} {b : UInt8}
    (hb : known i = some b) : L'.Keeps (fun o => o = x ∨ o = y) w i b := by
  refine (h.joint hb hj).move hL hm (h.inside hb) (hsoils.soiledBy hL (h.inside hb)).cleanedBy hk
    fun o ho => ?_
  obtain ⟨⟨r, hr⟩, hleave⟩ : (∃ r, L.page o = some r) ∧ ∀ writeBack, k ≠ .leave o writeBack := by
    rcases ho with rfl | rfl
    · exact ⟨⟨p, hx⟩, hxk⟩
    · exact ⟨⟨q, hy⟩, hyk⟩
  obtain ⟨henter, hcopy⟩ := hm.not_into hr
  exact ⟨fun _ _ _ hk => absurd hk (henter _ _ _), hcopy, hleave false,
    hm.not_write_of_joined hL hne hj ho⟩

/-- **Shifts keep what is known**, if the page is loaded only while the two are joined. -/
theorem shift (h : L.Isolates x y w known) (hL : L.Sound) (hs : Shift L L') (hne : x ≠ y)
    (hsoils : L.SoiledByTwo W x y w)
    (hquiet : ¬L.Joined x y → ∀ z, z = x ∨ L.Joined x z → L'.loads z = L.loads z) :
    L'.Isolates x y w known := by
  by_cases hj : L.Joined x y
  · have hkeeps : ∀ {i b}, known i = some b → L'.Keeps (fun o => o = x ∨ o = y) w i b :=
      h.joint_shift hL hs hsoils hj
    exact ⟨h.inside, fun hb hp hf => (hkeeps hb).bytes (Or.inl rfl) hp hf, fun hb _ => hkeeps hb⟩
  · refine ⟨h.inside, fun {i b p' f} hb hp' hf' => ?_, fun _ hj' => absurd (hs.joined hL hne hj') hj⟩
    cases hp : L.page x with
    | none =>
      rw [(hs.trace.page_eq_none hL x).mpr hp] at hp'
      cases hp'
    | some p =>
      cases hs.fate hL hp with
      | stays hp'' hbytes =>
        obtain rfl := Option.some.inj (hp'.symm.trans hp'')
        rw [hbytes f hf']
        exact h.held hb hp hf'
      | evicted hf hl hgid hp'' =>
        have hmem := hL.mem_of_page hl hp hf
        obtain rfl := Option.some.inj (hp'.symm.trans (hp'' x hmem))
        cases hf'
      | loaded hf hmem hhand hp'' hbytes hgiven hfile hdirty hlog =>
        rename_i o g
        have hloads := hquiet hj o ((hL.joined_of_company hmem).imp Eq.symm fun h => h)
        rw [loads_of_claimed hlog] at hloads
        exact absurd hloads (Nat.succ_ne_self _)
      | copied hf hl hshared hhand hp'' hbytes =>
        obtain rfl := Option.some.inj (hp'.symm.trans hp'')
        obtain rfl := Option.some.inj hf'
        rw [hbytes]
        exact h.held hb hp hf

/-- **Moves keep what is known**: the page is written, and what it is written with is known, or it is
left alone. -/
theorem move (h : L.Isolates x y w known) (hL : L.Sound) (hm : Move k L L') (hne : x ≠ y)
    (hk : k ≠ .outside) (hsoils : L.SoiledByTwo W x y w) (hx : L.page x = some p)
    (hy : L.page y = some q) (hxk : ∀ writeBack, k ≠ .leave x writeBack)
    (hyk : ∀ writeBack, k ≠ .leave y writeBack)
    (hknown : (∃ start bytes, k = .write x start bytes ∧ known' = Reference.patch known start bytes) ∨
      (∀ start bytes, k ≠ .write x start bytes) ∧ known' = known) : L'.Isolates x y w known' := by
  have hback : L'.Joined x y → L.Joined x y := fun hj =>
    (hm.joined hL hx hj).resolve_right fun ⟨src, hk⟩ => (hm.not_into hy).2 src hk
  rcases hknown with ⟨start, bytes, rfl, rfl⟩ | ⟨hwrite, rfl⟩
  · refine ⟨fun {i b} hb => ?_, fun {i b p' f} hb hp' hf => ?_, fun _ hj =>
      absurd rfl (hm.not_write_of_joined hL hne (hback hj) (Or.inl rfl) start bytes)⟩
    · obtain ⟨old, hold, -⟩ := Option.map_eq_some_iff.mp hb
      exact h.inside hold
    · obtain ⟨p, g, hp, hg, hp'', hbytes⟩ := hm.bytes_write hL
      obtain rfl := Option.some.inj (hp'.symm.trans hp'')
      obtain rfl := Option.some.inj (hf.symm.trans hg)
      rw [hbytes]
      exact Reference.patch_of_getElem? (fun old hold => h.held hold hp hf) hb
  · refine ⟨h.inside, fun {i b p' f} hb hp' hf => ?_, fun hb hj =>
      h.joint_move hL hm hne hk hsoils hx hy hxk hyk (hback hj) hb⟩
    obtain ⟨hpage, hbytes, -⟩ := hm.remains hL hx hxk hwrite
    have hframe : p.frame = some f := by
      rcases hpage with hpage | hpage
      all_goals
        obtain rfl := Option.some.inj (hp'.symm.trans hpage)
        exact hf
    rw [hbytes f hframe]
    exact h.held hb hx hframe

/-- Changes from outside keep what is known if they leave the file alone. -/
theorem outside (h : L.Isolates x y w known) {file : Nat → File}
    (hfile : file w.handle = L.file w.handle) : Isolates { L with file } x y w known :=
  ⟨h.inside, h.held, fun hb hj => (h.joint hb hj).outside hfile⟩

/-- What is known of a dirty page persists. -/
theorem persists_of_dirty (h : L.Isolates x y w known) (hx : L.page x = some p)
    (hhome : p.home? = some w) (hdirty : L.isDirty x = true) : L.Persists x y w known := by
  refine ⟨h, fun hb _ => ⟨?_, ?_, fun hclean => ?_⟩⟩
  · rintro _ r rfl hr
    rw [← Option.some.inj (hx.symm.trans hr)]
    exact hhome
  · rintro _ r f rfl hr hf
    exact h.held hb hr hf
  · rw [hclean x rfl] at hdirty
    cases hdirty

end Isolates

namespace Persists

/-- **Shifts keep what is known**, if `y` stays dirty unless the two are joined. -/
theorem shift (h : L.Persists x y w known) (hL : L.Sound) (hs : Shift L L') (hne : x ≠ y)
    (hsoils : L.SoiledByTwo W x y w) (hfair : L'.Joined x y ∨ L.Fair x y)
    (hheld : ¬L.Joined x y → L.isDirty y = true → L'.isDirty y = true) : L'.Persists x y w known := by
  by_cases hj : L.Joined x y
  · have hkeeps : ∀ {i b}, known i = some b → L'.Keeps (fun o => o = x ∨ o = y) w i b :=
      h.joint_shift hL hs hsoils hj
    refine ⟨⟨h.inside, fun hb hp hf => (hkeeps hb).bytes (Or.inl rfl) hp hf, fun hb _ => hkeeps hb⟩,
      fun hb hapart => ⟨fun ho => (hkeeps hb).home (Or.inl ho),
        fun ho => (hkeeps hb).bytes (Or.inl ho), fun hclean => (hkeeps hb).stored ?_⟩⟩
    -- the two part, so whoever was dirty is
    have hx : L'.isDirty x = false := hclean x rfl
    rintro _ (rfl | rfl)
    · exact hx
    · rcases (hfair.resolve_left hapart) hj with hdirty | hy
      · rcases hs.joined_of_evicted hL hne hj hdirty with hdirty | ⟨hj', -⟩
        · rw [hx] at hdirty
          cases hdirty
        · exact absurd hj' hapart
      · refine Bool.eq_false_iff.mpr fun hdirty => ?_
        rw [hs.isDirty hL hdirty] at hy
        cases hy
  · have hapart : ¬L'.Joined x y := fun hj' => hj (hs.joined hL hne hj')
    have hkeeps : ∀ {i b}, known i = some b → L'.Keeps (· = x) w i b := fun hb =>
      (h.apart hb hj).shift hL hs (h.inside hb) (hsoils.cleanedBy hL (h.inside hb) (hheld hj)) <| by
        rintro _ rfl hframe _ rfl
        exact hL.isDirty_of_frame hframe
    exact ⟨⟨h.inside, fun hb hp hf => (hkeeps hb).bytes rfl hp hf, fun _ hj' => absurd hj' hapart⟩,
      fun hb _ => hkeeps hb⟩

/-- **Moves keep what is known**: the page is written, and what it is written with is known, or it is
left alone. -/
theorem move (h : L.Persists x y w known) (hL : L.Sound) (hm : Move k L L') (hne : x ≠ y)
    (hk : k ≠ .outside) (hsoils : L.SoiledByTwo W x y w) (hx : L.page x = some p)
    (hy : L.page y = some q) (hxk : ∀ writeBack, k ≠ .leave x writeBack)
    (hyk : ∀ writeBack, k ≠ .leave y writeBack)
    (hknown : (∃ start bytes, k = .write x start bytes ∧ known' = Reference.patch known start bytes) ∨
      (∀ start bytes, k ≠ .write x start bytes) ∧ known' = known)
    (hhome : p.home? = some w) : L'.Persists x y w known' := by
  have hisolates := h.toIsolates.move hL hm hne hk hsoils hx hy hxk hyk hknown
  obtain ⟨p', hx', hface⟩ := hm.face_of_page hx hxk
  rcases hknown with ⟨start, bytes, rfl, rfl⟩ | ⟨hwrite, rfl⟩
  · exact hisolates.persists_of_dirty hx' ((Page.home?_of_face hface).trans hhome) hm.isDirty_write
  have hdirtyx := (hm.remains hL hx hxk hwrite).2.2.2
  refine ⟨hisolates, fun {i b} hb hapart => ?_⟩
  by_cases hj : L.Joined x y
  -- they were in one group, and clean: their frames they would still share
  · have hkeeps := h.joint_move hL hm hne hk hsoils hx hy hxk hyk hj hb
    refine ⟨fun ho => hkeeps.home (Or.inl ho), fun ho => hkeeps.bytes (Or.inl ho),
      fun hclean => hkeeps.stored ?_⟩
    rintro _ (rfl | rfl)
    · exact hclean _ rfl
    · have hywrite := hm.not_write_of_joined hL hne hj (Or.inr rfl)
      rw [(hm.remains hL hy hyk hywrite).2.2.2]
      refine hL.isDirty_of_frame (Option.eq_none_iff_forall_ne_some.mpr fun f hf => hapart ?_)
      have hstays : ∀ {o r}, L.page o = some r → (∀ b, k ≠ .leave o b) →
          (∀ start bytes, k ≠ .write o start bytes) → L'.frame o = L.frame o := fun hr hleave hwrite => by
        rw [Ledger.frame, Ledger.frame, hr]
        rcases (hm.remains hL hr hleave hwrite).1 with hr' | hr'
        · rw [hr']
        · rw [hr']
          rfl
      refine Or.inl ⟨f, ?_, (hstays hy hyk hywrite).trans hf⟩
      exact (hstays hx hxk hwrite).trans ((hL.frame_eq_of_joined hj).trans hf)
  · have hdirtyy : L.isDirty y = true → L'.isDirty y = true := fun hdirty => by
      by_cases hwritten : ∃ start bytes, k = .write y start bytes
      · obtain ⟨start, bytes, rfl⟩ := hwritten
        exact hm.isDirty_write
      · rw [(hm.remains hL hy hyk fun start bytes hk => hwritten ⟨start, bytes, hk⟩).2.2.2]
        exact hdirty
    obtain ⟨henter, hcopy⟩ := hm.not_into hx
    refine (h.apart hb hj).move hL hm (h.inside hb) (hsoils.cleanedBy hL (h.inside hb) hdirtyy) hk ?_
    rintro _ rfl
    exact ⟨fun _ _ _ hk => absurd hk (henter _ _ _), hcopy, hxk false, hwrite⟩

/-- Changes from outside keep what is known if they leave the file alone. -/
theorem outside (h : L.Persists x y w known) {file : Nat → File}
    (hfile : file w.handle = L.file w.handle) : Persists { L with file } x y w known :=
  ⟨h.toIsolates.outside hfile, fun hb hapart => (h.apart hb hapart).outside hfile⟩

end Persists

/-! ## Runs of moves -/

/-- **What the shifts and the moves of a trace keep** of a ledger and a reference, the trace keeps. -/
theorem Trace.keeps {I : Ledger → Reference → Prop} (htrace : Trace ks L A) (hrest : Trace ks' A L')
    (h : I L S)
    (hshift : ∀ {B C R ks₁ ks₂}, ks₁ ++ ks₂ = ks ++ ks' → Trace ks₁ L B → Shift B C → Trace ks₂ C L' →
      I B R → I C R)
    (hmove : ∀ {B C R ks₁ k ks₂}, ks₁ ++ k :: ks₂ = ks ++ ks' → k ∈ ks → Trace ks₁ L B → Move k B C →
      Trace ks₂ C L' → I B R → I C (R.after k)) : I A (S.afterAll ks) := by
  induction htrace generalizing ks' with
  | refl => exact h
  | shift htrace hs ih =>
    exact hshift rfl htrace hs hrest (ih (hs.trace.trans hrest) h hshift hmove)
  | @move L B A ks k htrace hm ih =>
    rw [List.append_assoc] at hshift hmove
    rw [Reference.afterAll_append]
    exact hmove rfl (List.mem_append_right _ List.mem_cons_self) htrace hm hrest
      (ih ((Trace.single hm).trans hrest) h hshift fun heq hk =>
        hmove heq (List.mem_append_left _ hk))

/-- What is known of a page that stays after a move. -/
theorem Move.memory_after (h : Move k L L') (hx : L.page x = some p)
    (hxk : ∀ writeBack, k ≠ .leave x writeBack) :
    (∃ start bytes, k = .write x start bytes ∧
        (S.after k).memory x = Reference.patch (S.memory x) start bytes) ∨
      (∀ start bytes, k ≠ .write x start bytes) ∧ (S.after k).memory x = S.memory x := by
  by_cases hwritten : ∃ start bytes, k = .write x start bytes
  · obtain ⟨start, bytes, rfl⟩ := hwritten
    exact Or.inl ⟨start, bytes, rfl, Reference.memory_write⟩
  · have hwrite := fun start bytes hk => hwritten ⟨start, bytes, hk⟩
    obtain ⟨henter, hcopy⟩ := h.not_into hx
    exact Or.inr ⟨hwrite, Reference.memory_after henter hcopy hxk hwrite⟩

/-- **Over a trace in which both pages stay** what is known of one is what was written to it, if the
two are joined in the end, or nobody is loaded that is kept in the window but the other. -/
theorem Isolates.trace (h : L.Isolates x y w (S.memory x)) (hL : L.Sound) (htrace : Trace ks L A)
    (hrest : Trace ks' A L') (hne : x ≠ y) (hks : ∀ k ∈ ks, k.Within W)
    (hsoils : L.SoiledByTwo W x y w) (hx : L.page x = some p) (hhome : p.home? = some w)
    (hy : L.page y = some q) (hstay : Stay x y (ks ++ ks'))
    (hquiet : L'.Joined x y ∨ L.LoadsOnly L' w y) :
    A.Isolates x y w ((S.afterAll ks).memory x) ∧ A.SoiledByTwo W x y w := by
  refine htrace.keeps (I := fun L S => L.Isolates x y w (S.memory x) ∧ L.SoiledByTwo W x y w) hrest
    ⟨h, hsoils⟩ (fun {B C R ks₁ ks₂} heq h₁ hs h₂ hI => ?_) fun {B C R ks₁ k ks₂} heq hk h₁ hm h₂ hI => ?_
  all_goals
    rw [← heq] at hstay
    have hB := h₁.sound hL
    have hxleft := fun b hb => hstay.mine b (List.mem_append_left _ hb)
    have hyleft := fun b hb => hstay.other b (List.mem_append_left _ hb)
    obtain ⟨r, hr, -⟩ := h₁.face_of_page hL hx hxleft
    obtain ⟨s, hs', -⟩ := h₁.face_of_page hL hy hyleft
    obtain ⟨hisolates, hsoils⟩ := hI
  · refine ⟨hisolates.shift hB hs hne hsoils fun hapart z hz => ?_, hs.soils hB hsoils⟩
    have hrest := hs.trace.trans h₂
    rcases hquiet with hj | hloads
    · exact absurd (hrest.joined hB hr hs' hne (fun b hb => hstay.mine b (List.mem_append_right _ hb))
        (fun b hb => hstay.other b (List.mem_append_right _ hb)) hj) hapart
    · have hzy : z ≠ y := by
        rintro rfl
        exact hz.elim (fun h => hne h.symm) hapart
      have hsame := hloads.loads_eq hL h₁ hrest hx hhome hstay hzy hz
      have := h₁.loads_le z
      have := hs.loads_le z
      have := h₂.loads_le z
      omega
  · have hmid : k ∈ ks₁ ++ k :: ks₂ := List.mem_append_right _ List.mem_cons_self
    have hxk : ∀ writeBack, k ≠ .leave x writeBack := fun b hb => hstay.mine b (hb ▸ hmid)
    exact ⟨hisolates.move hB hm hne (hks k hk).inside hsoils hr hs' hxk
      (fun b hb => hstay.other b (hb ▸ hmid)) (hm.memory_after hr hxk), hm.soils hB hsoils (hks k hk)⟩

/-- **Over a trace in which both pages stay** what is known of one persists, if what the other has to
write back is withheld, and parting from it was fair. -/
theorem Persists.trace (h : L.Persists x y w (S.memory x)) (hL : L.Sound) (htrace : Trace ks L A)
    (hrest : Trace ks' A L') (hne : x ≠ y) (hks : ∀ k ∈ ks, k.Within W)
    (hsoils : L.SoiledByTwo W x y w) (hx : L.page x = some p) (hhomex : p.home? = some w)
    (hy : L.page y = some q) (hhomey : q.home? = some w) (hstay : Stay x y (ks ++ ks'))
    (hfair : L'.Joined x y ∨ L.Fair x y) (hwithheld : L.Withholds (ks ++ ks') L' x y w) :
    A.Persists x y w ((S.afterAll ks).memory x) ∧ A.SoiledByTwo W x y w := by
  suffices hI : A.Persists x y w ((S.afterAll ks).memory x) ∧ A.SoiledByTwo W x y w ∧
      (L'.Joined x y ∨ A.Fair x y) from ⟨hI.1, hI.2.1⟩
  refine htrace.keeps (I := fun A S => A.Persists x y w (S.memory x) ∧ A.SoiledByTwo W x y w ∧
      (L'.Joined x y ∨ A.Fair x y)) hrest ⟨h, hsoils, hfair⟩
    (fun {B C R ks₁ ks₂} heq h₁ hs h₂ hI => ?_) fun {B C R ks₁ k ks₂} heq hk h₁ hm h₂ hI => ?_
  all_goals
    rw [← heq] at hstay hwithheld
    have hB := h₁.sound hL
    have hxleft := fun b hb => hstay.mine b (List.mem_append_left _ hb)
    have hyleft := fun b hb => hstay.other b (List.mem_append_left _ hb)
    obtain ⟨r, hr, hface⟩ := h₁.face_of_page hL hx hxleft
    obtain ⟨s, hs', -⟩ := h₁.face_of_page hL hy hyleft
    obtain ⟨hpersists, hsoils, hfair⟩ := hI
  · refine ⟨hpersists.shift hB hs hne hsoils (hfair.imp_left fun hj => ?_) fun hapart hdirty => ?_,
      hs.soils hB hsoils, hfair.imp_right fun hfair => hs.fair hB hne hfair⟩
    · obtain ⟨r', hr', -⟩ := hs.face_of_page hB hr
      obtain ⟨s', hs'', -⟩ := hs.face_of_page hB hs'
      exact h₂.joined (hs.sound hB) hr' hs'' hne (fun b hb => hstay.mine b (List.mem_append_right _ hb))
        (fun b hb => hstay.other b (List.mem_append_right _ hb)) hj
    · exact hwithheld.isDirty hL h₁ hs h₂ hne hx hy hhomey hstay hapart hdirty
  · have hmid : k ∈ ks₁ ++ k :: ks₂ := List.mem_append_right _ List.mem_cons_self
    have hxk : ∀ writeBack, k ≠ .leave x writeBack := fun b hb => hstay.mine b (hb ▸ hmid)
    have hyk : ∀ writeBack, k ≠ .leave y writeBack := fun b hb => hstay.other b (hb ▸ hmid)
    exact ⟨hpersists.move hB hm hne (hks k hk).inside hsoils hr hs' hxk hyk (hm.memory_after hr hxk)
      ((Page.home?_of_face hface).trans hhomex), hm.soils hB hsoils (hks k hk),
      hfair.imp_right fun hfair => hm.fair hB hne hr hs' hxk hyk hfair⟩

end DemandPaging.Ledger
