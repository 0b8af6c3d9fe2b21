import DemandPaging.Proofs.Ledger.Entering
import DemandPaging.Proofs.Ledger.Filling
import DemandPaging.Proofs.Ledger.Leaving

/-!
# Moves

Whatever a machine does is, in its ledger, a sequence of moves. A `Shift` moves contents between
frames, slots and files and changes no page as its space sees it; a `Move` is a change that was asked
for: a page is registered, shared, written or removed, a space comes or goes, an initializer is
supplied, a file is changed from outside. A `Trace` lists the moves and leaves the shifts between
them out. Each of the three keeps the books (`Shift.sound`, `Move.sound`, `Trace.sound`).
-/

namespace DemandPaging.Ledger

/-! ## The small moves -/

/-- The ledger with a zeroed frame in the hand. -/
def take (L : Ledger) (f : FrameNum) : Ledger :=
  { L with
    held := fun x => L.held x ∨ x = f
    bytes := fun x => if x = f then .zero else L.bytes x
    hand := some f }

/-- The ledger after the frame in the hand was given back. -/
def giveBack (L : Ledger) (f : FrameNum) : Ledger :=
  { L with held := fun x => L.held x ∧ x ≠ f, hand := none }

/-- The ledger with another content in a frame. -/
def overwrite (L : Ledger) (f : FrameNum) (b : PageBytes) : Ledger :=
  { L with bytes := fun x => if x = f then b else L.bytes x }

/-- The ledger with a frame kept from eviction, or not any more. -/
def setPin (L : Ledger) (f : FrameNum) (pinned : Bool) : Ledger :=
  { L with
    crew := fun x => if x = f then (L.crew f).map fun c => { c with pinned } else L.crew x
    pin := if pinned then some f else none }

/-- The ledger with the mapping of an owner dirty. -/
def touch (L : Ledger) (o : Owner) : Ledger :=
  { L with
    grant := fun x =>
      if x = o then (L.grant o).map fun e => { e with dirty := true } else L.grant x }

/-- The ledger with one more entry in its log. -/
def note (L : Ledger) (event : Event) : Ledger := { L with log := L.log ++ [event] }

/-- The ledger with one more initializer. -/
def supply (L : Ledger) (n : Nat) (content : Bytes) : Ledger :=
  { L with initial := fun x => if x = n then some content else L.initial x }

/-- The ledger with the stack floor of a space set. -/
def setFloor (L : Ledger) (id : SpaceId) (floor : Option PageNum) : Ledger :=
  { L with floor := fun x => if x = id then floor else L.floor x }

section

variable {L : Ledger} {f : FrameNum} {o : Owner}

theorem Sound.take (h : L.Sound) (hf : ¬L.held f) (hhand : L.hand = none) : (L.take f).Sound := by
  have hnone : L.crew f = none := by
    cases hc : L.crew f with
    | none => rfl
    | some c => exact absurd ((h.holds f).mpr (Or.inl (by rw [hc]; rfl))) hf
  refine { h with holds := fun x => ?_, spare := fun {x} hx => ?_ }
  · show L.held x ∨ x = f ↔ (L.crew x).isSome ∨ some f = some x
    rw [h.holds x, hhand]
    grind
  · rw [← Option.some.inj hx]
    exact hnone

theorem Sound.giveBack (h : L.Sound) (hhand : L.hand = some f) : (L.giveBack f).Sound := by
  refine { h with holds := fun x => ?_, spare := fun {x} hx => ?_ }
  · show L.held x ∧ x ≠ f ↔ (L.crew x).isSome ∨ none = some x
    rw [h.holds x, hhand]
    have := h.spare hhand
    grind
  · cases hx

theorem Sound.overwrite (h : L.Sound) (b : PageBytes) : (L.overwrite f b).Sound := { h with }

theorem Sound.setPin (h : L.Sound) {b : Bool} (hpin : L.pin = none ∨ L.pin = some f) :
    (L.setPin f b).Sound := by
  have howners : (L.setPin f b).owners = L.owners := funext fun x => by
    by_cases hx : x = f
    · simp only [owners, Ledger.setPin, hx, if_true]
      cases L.crew f <;> rfl
    · simp [owners, Ledger.setPin, hx]
  have hsome : ∀ x, ((L.setPin f b).crew x).isSome = (L.crew x).isSome := fun x => by
    have := congrArg Option.isSome (congrFun howners x)
    simpa [owners] using this
  refine { h with
    crews := ?_, crewed := fun {x l} hx => ?_, writes := fun {x p e} hx he => ?_,
    pinned := fun {x c} hx => ?_, holds := fun x => ?_, spare := fun {x} hx => ?_ }
  · exact h.crews.congr (congrFun howners) fun _ => rfl
  · rw [howners] at hx
    exact h.crewed hx
  · rw [howners]
    exact h.writes hx he
  · by_cases hxf : x = f
    · simp only [Ledger.setPin, hxf, if_true] at hx ⊢
      obtain ⟨d, hd, rfl⟩ := Option.map_eq_some_iff.mp hx
      cases b <;> simp
    · simp only [Ledger.setPin, hxf, if_false] at hx ⊢
      rw [h.pinned hx]
      rcases hpin with hpin | hpin <;> rw [hpin] <;> cases b <;> simp <;> exact Ne.symm hxf
  · rw [hsome]
    exact h.holds x
  · rw [← Option.not_isSome_iff_eq_none, hsome, h.spare hx]
    decide

/-- A page that is written through its mapping becomes dirty. -/
theorem Sound.touch (h : L.Sound) {e : Grant} (he : L.grant o = some e) (hw : e.writable = true) :
    (L.touch o).Sound := by
  have hgrant : ∀ {x d}, (L.touch o).grant x = some d →
      ∃ d', L.grant x = some d' ∧ d.frame = d'.frame ∧ d.writable = d'.writable ∧
        (d = d' ∨ x = o) := fun {x d} hd => by
    by_cases hx : x = o
    · simp only [Ledger.touch, hx, if_true] at hd
      obtain ⟨d', hd', rfl⟩ := Option.map_eq_some_iff.mp hd
      exact ⟨d', hx ▸ hd', rfl, rfl, Or.inr hx⟩
    · simp only [Ledger.touch, hx, if_false] at hd
      exact ⟨d, hd, rfl, rfl, Or.inl rfl⟩
  refine { h with
    mapped := fun x => ?_, writes := fun {x p d} hx hd => ?_,
    dirties := fun {x p d} hx hd hdirty => ?_ }
  · show _ = L.frame x
    rw [← h.mapped x]
    by_cases hx : x = o
    · simp only [Ledger.touch, hx, if_true]
      cases L.grant o <;> rfl
    · simp [Ledger.touch, hx]
  · obtain ⟨d', hd', hf, hw, -⟩ := hgrant hd
    rw [hf, hw]
    exact h.writes hx hd'
  · obtain ⟨d', hd', -, -, rfl | rfl⟩ := hgrant hd
    · exact h.dirties hx hd' hdirty
    · exact ((h.writes hx he).mp hw).1

theorem Sound.note (h : L.Sound) (event : Event) : (L.note event).Sound := { h with }

theorem Sound.supply (h : L.Sound) {n : Nat} {b : Bytes} : (L.supply n b).Sound := by
  refine { h with supplied := fun {x p t k} hx hc => ?_ }
  have := h.supplied hx hc
  unfold Ledger.supply
  dsimp only
  split
  · rfl
  · exact this

/-- A space may be given a floor, and lose it while it has no page. -/
theorem Sound.setFloor (h : L.Sound) {id : SpaceId} {v : Option PageNum}
    (hv : v = none → ∀ o, o.space = id → L.page o = none) : (L.setFloor id v).Sound := by
  refine { h with living := fun {x p} hx => ?_ }
  have := h.living hx
  unfold Ledger.setFloor
  dsimp only
  split
  · rename_i hid
    cases v with
    | some v => rfl
    | none =>
      have hnone := hv rfl x hid
      rw [show L.page x = some p from hx] at hnone
      cases hnone
  · exact this

theorem Sound.withFile (h : L.Sound) (file : Nat → File) : ({ L with file } : Ledger).Sound :=
  { h with }

end

/-! ## Moves -/

/-- The files after the frame `f` of the page `p` was written back. -/
def flush (L : Ledger) (p : Page) (f : FrameNum) : Nat → File := p.flushed (L.bytes f) L.file

/-- Whether an owner is mapped dirty. -/
def isDirty (L : Ledger) (o : Owner) : Bool := (L.grant o).any Grant.dirty

/-- The ledger after `o` left the frame `src`, which it shared, for a copy in the frame in the
hand. -/
def unshare (L : Ledger) (o : Owner) (p : Page) (src : FrameNum) (l : List Owner)
    (copy : FrameNum) : Ledger :=
  (L.leaveFrame o p src (l.filter (· ≠ o))).settle o p copy (L.bytes src) (L.isDirty o)

/-- The frame `f` is evicted: its content is stored, and its owners are unmapped and leave it. -/
inductive Evicts : Ledger → FrameNum → Ledger → Prop
  | intro {L : Ledger} {f : FrameNum} {c : Frame} {o : Owner} {p : Page} {slot : Option Nat}
      {gid : Nat} (hf : L.crew f = some c) (ho : o ∈ c.owners) (hp : L.page o = some p)
      (hpin : c.pinned = false) (hhand : L.hand = none) (hgid : L.team gid = none)
      (hslot : (∃ a, p.content = .anon a) ↔ slot.isSome)
      (hfree : ∀ s, slot = some s → L.occupied s = false)
      (htaken : c.owners.any L.isDirty = true → p.TakenBy L.file (L.bytes f)) :
      Evicts L f (L.evict f c.owners p slot gid
        (if c.owners.any L.isDirty then L.flush p f else L.file))

/-- The frame `f` is taken, zeroed: a free one, or one that is evicted first. -/
inductive Acquires : Ledger → FrameNum → Ledger → Prop
  | fresh {L : Ledger} {f : FrameNum} (hfree : ¬L.held f) (hhand : L.hand = none) :
      Acquires L f (L.take f)
  | evicted {L L' : Ledger} {f : FrameNum} (h : Evicts L f L') : Acquires L f (L'.overwrite f .zero)

/-- Contents move and pages stay as their spaces see them. -/
inductive Shift : Ledger → Ledger → Prop
  | take {L : Ledger} {f : FrameNum} (hfree : ¬L.held f) (hhand : L.hand = none) :
      Shift L (L.take f)
  | giveBack {L : Ledger} {f : FrameNum} (hhand : L.hand = some f) : Shift L (L.giveBack f)
  | scrub {L : Ledger} {f : FrameNum} (b : PageBytes) (hhand : L.hand = some f) :
      Shift L (L.overwrite f b)
  | pin {L : Ledger} {f : FrameNum} (hpin : L.pin = none) : Shift L (L.setPin f true)
  | unpin {L : Ledger} {f : FrameNum} (hpin : L.pin = some f) : Shift L (L.setPin f false)
  | evict {L L' : Ledger} {f : FrameNum} (h : Evicts L f L') : Shift L L'
  | fill {L : Ledger} {f : FrameNum} {o : Owner} {p : Page} (hp : L.page o = some p)
      (hframe : p.frame = none) (hhand : L.hand = some f) (hpin : L.pin = none)
      (hgiven : p.GivenBy L.file) : Shift L ((L.fill f (L.company o) p).note (.claimed o f))
  | unshare {L : Ledger} {o : Owner} {p : Page} {src copy : FrameNum} {l : List Owner}
      (hp : L.page o = some p) (hsrc : p.frame = some src) (hl : L.owners src = some l)
      (hshared : 1 < l.length) (hw : p.writable = true) (hhand : L.hand = some copy)
      (hpin : L.pin = none) : Shift L ((L.unshare o p src l copy).note (.unshared o src copy))

/-- What a move does to the pages of the spaces. -/
inductive Kind where
  /-- A page is registered. -/
  | enter (o : Owner) (writable : Bool) (type : PageType) (origin : Origin)
  /-- A page is copied to another space. -/
  | copy (source target : Owner)
  /-- A page is unregistered, with `writeBack` after it was written back if it is dirty. -/
  | leave (o : Owner) (writeBack : Bool)
  /-- Bytes of a page are written by its space. -/
  | write (o : Owner) (start : Nat) (bytes : Bytes)
  /-- An initializer is supplied. -/
  | supply (number : Nat) (content : Bytes)
  /-- A space comes or goes, or its stack grows. -/
  | floor (id : SpaceId) (floor : Option PageNum)
  /-- Files are changed from outside. -/
  | outside

/-- A move writes the page. -/
def Kind.writes (o : Owner) : Kind → Bool
  | .write x _ _ => x = o
  | _ => false

theorem Kind.countP_writes_pos {o : Owner} {start : Nat} {bytes : Bytes} {ks : List Kind}
    (h : .write o start bytes ∈ ks) : 0 < ks.countP (writes o) :=
  List.countP_pos_iff.mpr ⟨_, h, decide_eq_true rfl⟩

/-- One move. -/
inductive Move : Kind → Ledger → Ledger → Prop
  | enter {L : Ledger} {o : Owner} {writable : Bool} {type : PageType} {origin : Origin}
      (ho : L.page o = none) (htyped : type = .file → ∃ w, origin = .file w)
      (hliving : (L.floor o.space).isSome)
      (hsupplied : ∀ n, origin = .custom n → (L.initial n).isSome) :
      Move (.enter o writable type origin) L (L.enter o (.fresh o.vpn writable type origin))
  | join {L : Ledger} {o src : Owner} {p : Page} {f : FrameNum} (ho : L.page o = none)
      (hvpn : src.vpn = o.vpn) (hp : L.page src = some p) (hframe : p.frame = some f)
      (hliving : (L.floor o.space).isSome) : Move (.copy src o) L (L.join o p src f)
  | duplicate {L : Ledger} {o src : Owner} {p : Page} (ho : L.page o = none)
      (hvpn : src.vpn = o.vpn) (hp : L.page src = some p) (hframe : p.frame = none)
      (hcontent : ∀ a, p.content ≠ .anon a) (hliving : (L.floor o.space).isSome) :
      Move (.copy src o) L (L.enter o { p with group := none })
  | leaveFrame {L : Ledger} {o : Owner} {p : Page} {f : FrameNum} {l : List Owner}
      {writeBack : Bool} (hp : L.page o = some p) (hframe : p.frame = some f)
      (hl : L.owners f = some l)
      (htaken : (writeBack && L.isDirty o) = true → p.TakenBy L.file (L.bytes f)) :
      Move (.leave o writeBack) L { L.leaveFrame o p f (l.filter (· ≠ o)) with
        file := if writeBack && L.isDirty o then L.flush p f else L.file }
  | leaveTeam {L : Ledger} {o : Owner} {p : Page} {g : Nat} {l : List Owner} {writeBack : Bool}
      (hp : L.page o = some p) (hg : p.group = some g) (hl : L.members g = some l) :
      Move (.leave o writeBack) L (L.leaveTeam o g (l.filter (· ≠ o)))
  | leaveAlone {L : Ledger} {o : Owner} {p : Page} {writeBack : Bool} (hp : L.page o = some p)
      (hframe : p.frame = none) (hgroup : p.group = none) :
      Move (.leave o writeBack) L (L.leaveAlone o p)
  | write {L : Ledger} {o : Owner} {e : Grant} {start : Nat} {bytes : Bytes}
      (he : L.grant o = some e) (hw : e.writable = true) :
      Move (.write o start bytes) L
        ((L.touch o).overwrite e.frame ((L.bytes e.frame).blit start bytes))
  | supply {L : Ledger} {n : Nat} {content : Bytes} (hn : L.initial n = none) :
      Move (.supply n content) L (L.supply n content)
  | floor {L : Ledger} {id : SpaceId} {v : Option PageNum}
      (hv : v = none → ∀ o, o.space = id → L.page o = none) :
      Move (.floor id v) L (L.setFloor id v)
  | outside {L : Ledger} (file : Nat → File) : Move .outside L { L with file }

theorem Evicts.sound {L L' : Ledger} {f : FrameNum} (h : Evicts L f L') (hL : L.Sound) :
    L'.Sound := by
  obtain ⟨hf, ho, hp, -, hhand, hgid, hslot, hfree, -⟩ := h
  exact hL.evict hf ho hp hhand hgid hslot hfree

theorem Acquires.sound {L L' : Ledger} {f : FrameNum} (h : Acquires L f L') (hL : L.Sound) :
    L'.Sound := by
  cases h with
  | fresh hfree hhand => exact hL.take hfree hhand
  | evicted h => exact (h.sound hL).overwrite _

/-- **Shifting keeps the books.** -/
theorem Shift.sound {L L' : Ledger} (h : Shift L L') (hL : L.Sound) : L'.Sound := by
  cases h with
  | take hfree hhand => exact hL.take hfree hhand
  | giveBack hhand => exact hL.giveBack hhand
  | scrub b hhand => exact hL.overwrite b
  | pin hpin => exact hL.setPin (Or.inl hpin)
  | unpin hpin => exact hL.setPin (Or.inr hpin)
  | evict h => exact h.sound hL
  | fill hp hframe hhand hpin => exact (hL.fill hp hframe hhand (by rw [hpin]; nofun)).note _
  | unshare hp hsrc hl hshared hw hhand hpin =>
    rename_i o p src copy l
    have hs := hL.shaped hp
    have hleft := hL.leaveFrame hp hsrc hl
    refine (hleft.settle ?_ (hL.numbered hp) (hs.group_eq_none hsrc) (hs.slot_eq_none hsrc)
      (hs.content_ne_uninit hsrc) (hL.living hp) hhand (show L.pin ≠ some copy by rw [hpin]; nofun)
      fun _ => hw).note _
    simp [Ledger.leaveFrame]

/-- **Moves keep the books.** -/
theorem Move.sound {k : Kind} {L L' : Ledger} (h : Move k L L') (hL : L.Sound) : L'.Sound := by
  cases h with
  | enter ho htyped hliving hsupplied =>
    refine hL.enter ho rfl rfl rfl nofun (fun g hg => ?_) hliving fun t n hc => ?_
    · obtain ⟨rfl, rfl⟩ := Content.uninit.inj hg
      exact htyped rfl
    · exact hsupplied n (Content.uninit.inj hc).2
  | join ho hvpn hp hframe hliving =>
    rename_i o src p f
    obtain ⟨l, hl⟩ := hL.crews.listed ((frame_of_page hp).trans hframe)
    exact hL.join ho hvpn hp hframe hl hliving
  | duplicate ho hvpn hp hframe hcontent hliving =>
    exact hL.enter ho ((hL.numbered hp).trans hvpn) hframe rfl hcontent
      (fun g hg => (hL.shaped hp).typed hg) hliving fun t n hc => hL.supplied hp hc
  | leaveFrame hp hframe hl => exact (hL.leaveFrame hp hframe hl).withFile _
  | leaveTeam hp hg hl => exact hL.leaveTeam hp hg hl
  | leaveAlone hp hframe hgroup => exact hL.leaveAlone hp hframe hgroup
  | write he hw => exact (hL.touch he hw).overwrite _
  | supply hn => exact hL.supply
  | floor hv => exact hL.setFloor hv
  | outside file => exact hL.withFile file

/-- A page is registered where there was none. -/
theorem Move.page_eq_none {L L' : Ledger} {o : Owner} {writable : Bool} {type : PageType}
    {origin : Origin} (h : Move (.enter o writable type origin) L L') : L.page o = none := by
  cases h
  assumption

/-- A page that left is not registered. -/
theorem Move.page_leave {L L' : Ledger} {k : Kind} {o : Owner} {writeBack : Bool} (h : Move k L L')
    (hk : k = .leave o writeBack) : L'.page o = none := by
  subst hk
  cases h <;> exact if_pos rfl

/-- Copying a page takes no frame and gives none back. -/
theorem Move.crew_isSome_of_copy {L L' : Ledger} {src o : Owner} (h : Move (.copy src o) L L')
    (f : FrameNum) : (L'.crew f).isSome = (L.crew f).isSome := by
  cases h with
  | duplicate => rfl
  | join =>
    unfold Ledger.join
    dsimp only
    split
    · rename_i hf
      rw [hf, Option.isSome_map]
    · rfl

/-- A sequence of moves, with any shifts before, between and after them. -/
inductive Trace : List Kind → Ledger → Ledger → Prop
  | refl (L : Ledger) : Trace [] L L
  | shift {L L' L'' : Ledger} {ks : List Kind} (h : Trace ks L L') (hs : Shift L' L'') :
      Trace ks L L''
  | move {L L' L'' : Ledger} {ks : List Kind} {k : Kind} (h : Trace ks L L')
      (hm : Move k L' L'') : Trace (ks ++ [k]) L L''

namespace Trace

variable {L L' L'' : Ledger} {ks ks' : List Kind}

/-- **Traces keep the books.** -/
theorem sound (h : Trace ks L L') (hL : L.Sound) : L'.Sound := by
  induction h with
  | refl => exact hL
  | shift _ hs ih => exact hs.sound (ih hL)
  | move _ hm ih => exact hm.sound (ih hL)

theorem trans (h : Trace ks L L') (h' : Trace ks' L' L'') : Trace (ks ++ ks') L L'' := by
  induction h' with
  | refl =>
    rw [List.append_nil]
    exact h
  | shift _ hs ih => exact (ih h).shift hs
  | move _ hm ih =>
    rw [← List.append_assoc]
    exact (ih h).move hm

theorem single {k : Kind} (h : Move k L L') : Trace [k] L L' := .move (.refl L) h

end Trace

/-- A sequence of shifts. -/
abbrev Shifts : Ledger → Ledger → Prop := Trace []

theorem Shift.trace {L L' : Ledger} (h : Shift L L') : Shifts L L' := .shift (.refl L) h

/-- The page of `o` is claimed: it is in the frame `f` already, or a frame is acquired and filled with
the page and its company. -/
inductive Claims : Ledger → Owner → FrameNum → Ledger → Prop
  | stays {L : Ledger} {o : Owner} {f : FrameNum} (hf : L.frame o = some f) : Claims L o f L
  | fills {L A : Ledger} {o : Owner} {f : FrameNum} {p : Page} (hacq : Acquires L f A)
      (hp : A.page o = some p) (hframe : p.frame = none) (hpin : A.pin = none)
      (hgiven : p.GivenBy A.file) :
      Claims L o f ((A.fill f (A.company o) p).note (.claimed o f))

/-- The frame `f` was acquired for a page that could not be loaded, and given back. -/
inductive Forgoes (L : Ledger) (f : FrameNum) : Ledger → Prop
  | intro {A : Ledger} (b : PageBytes) (hacq : Acquires L f A) :
      Forgoes L f ((A.overwrite f b).giveBack f)

/-- The page of `src` is copied to `o`, after it was claimed if it is anonymous memory. -/
inductive Copies (src o : Owner) (L : Ledger) : Ledger → Prop
  | shared {L' : Ledger} (hm : Move (.copy src o) L L') : Copies src o L L'
  | claimed {A L' : Ledger} {p : Page} {f : FrameNum} (hp : L.page src = some p)
      (hanon : ∃ a, p.content = .anon a) (hc : Claims L src f A) (hm : Move (.copy src o) A L') :
      Copies src o L L'

/-! ## Acquiring a frame -/

section

variable {L L' : Ledger} {f : FrameNum} {o : Owner}

theorem Evicts.hand (h : Evicts L f L') : L'.hand = some f := by
  cases h
  rfl

/-- Eviction changes no page that is in another place. -/
theorem Evicts.page (h : Evicts L f L') (hL : L.Sound) (ho : L.frame o ≠ some f) :
    L'.page o = L.page o := by
  obtain ⟨hf, -, -, -, -, -, -, -, -⟩ := h
  exact if_neg fun hmem => ho ((hL.mem_owners hf o).mp hmem)

namespace Acquires

theorem trace (h : Acquires L f L') : Shifts L L' := by
  cases h with
  | fresh hfree hhand => exact (Shift.take hfree hhand).trace
  | evicted h => exact (Shift.evict h).trace.shift (.scrub _ h.hand)

theorem bytes (h : Acquires L f L') : L'.bytes f = .zero := by
  cases h with
  | fresh hfree hhand => exact if_pos rfl
  | evicted h => exact if_pos rfl

/-- No other frame changes its content. -/
theorem bytes_ne (h : Acquires L f L') {x : FrameNum} (hx : x ≠ f) : L'.bytes x = L.bytes x := by
  cases h with
  | fresh hfree hhand => exact if_neg hx
  | evicted h =>
    refine (if_neg hx).trans ?_
    cases h
    rfl

theorem page (h : Acquires L f L') (hL : L.Sound) (ho : L.frame o = none) :
    L'.page o = L.page o := by
  cases h with
  | fresh hfree hhand => rfl
  | evicted h => exact h.page hL (by rw [ho]; nofun)

theorem hand (h : Acquires L f L') : L'.hand = some f := by
  cases h with
  | fresh hfree hhand => rfl
  | evicted h => exact h.hand

/-- A pinned frame is not the one acquired, and stays what it is. -/
theorem stays (h : Acquires L f L') (hL : L.Sound) {x : FrameNum} {c : Frame}
    (hx : L.crew x = some c) (hpin : c.pinned = true) :
    x ≠ f ∧ L'.crew x = some c ∧ L'.pin = L.pin ∧
      ∀ o ∈ c.owners, L'.page o = L.page o ∧ L'.grant o = L.grant o := by
  have hmem := hL.mem_owners hx
  cases h with
  | fresh hfree hhand =>
    refine ⟨?_, hx, rfl, fun _ _ => ⟨rfl, rfl⟩⟩
    rintro rfl
    exact hfree ((hL.holds x).mpr (Or.inl (by rw [hx]; rfl)))
  | evicted h =>
    obtain ⟨hf, -, -, hunpinned, -, -, -, -, -⟩ := h
    have hne : x ≠ f := by
      rintro rfl
      rw [Option.some.inj (hx.symm.trans hf), hunpinned] at hpin
      cases hpin
    refine ⟨hne, (if_neg hne).trans hx, rfl, fun o ho => ?_⟩
    have hout := hL.mem_owners hf o
    rw [(hmem o).mp ho, Option.some.injEq] at hout
    exact ⟨if_neg fun hmem => hne (hout.mp hmem), if_neg fun hmem => hne (hout.mp hmem)⟩

end Acquires

namespace Claims

/-- Claiming a page moves contents only. -/
theorem trace (h : Claims L o f L') : Shifts L L' := by
  cases h with
  | stays => exact .refl _
  | fills hacq hp hframe hpin hgiven =>
    exact hacq.trace.shift (.fill hp hframe hacq.hand hpin hgiven)

/-- A page that was claimed is in its frame. -/
theorem frame (h : Claims L o f L') : L'.frame o = some f := by
  cases h with
  | stays hf => exact hf
  | fills => exact (frame_fill o).trans (if_pos mem_company_self)

end Claims

namespace Forgoes

theorem trace (h : Forgoes L f L') : Shifts L L' := by
  obtain ⟨b, hacq⟩ := h
  exact (hacq.trace.shift (.scrub b hacq.hand)).shift (.giveBack hacq.hand)

/-- **The frame is free again**, and the others are held that were. -/
theorem held (h : Forgoes L f L') (x : FrameNum) : L'.held x ↔ L.held x ∧ x ≠ f := by
  obtain ⟨b, hacq⟩ := h
  refine and_congr_left fun hx => ?_
  cases hacq with
  | fresh => exact or_iff_left hx
  | evicted h => cases h; rfl

/-- Nothing is in the frame. -/
theorem crew (h : Forgoes L f L') (hL : L.Sound) : L'.crew f = none := by
  obtain ⟨b, hacq⟩ := h
  exact (hacq.sound hL).spare hacq.hand

end Forgoes

theorem Copies.trace {src : Owner} (h : Copies src o L L') : Trace [.copy src o] L L' := by
  cases h with
  | shared hm => exact .single hm
  | claimed _ _ hc hm => exact hc.trace.move hm

end

end DemandPaging.Ledger
