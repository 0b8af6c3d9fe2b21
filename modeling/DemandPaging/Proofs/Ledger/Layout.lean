import DemandPaging.Machine.Access
import DemandPaging.Proofs.Address
import DemandPaging.Proofs.Ledger.Shifting

/-!
# What requests come to

A `Layout` tells where pages are registered and how far the stacks reach. Shifts do not change it,
and every kind of move changes it in its own way (`Layout.after`). So the moves a request comes to
can be told from the layout it starts in, without looking at frames, slots and files.
-/

namespace DemandPaging

open Ledger (Kind)

/-- Where pages are registered, and how far the stacks reach. -/
@[ext]
structure Layout where
  config : Config
  registered : Owner → Bool
  floor : SpaceId → Option PageNum

namespace Layout

/-- The layout after a move. -/
def after (Y : Layout) : Kind → Layout
  | .enter o _ _ _ | .copy _ o => { Y with registered := fun x => decide (x = o) || Y.registered x }
  | .leave o _ => { Y with registered := fun x => !decide (x = o) && Y.registered x }
  | .floor id v => { Y with floor := fun x => if x = id then v else Y.floor x }
  | .write _ _ _ | .supply _ _ | .outside => Y

/-- The layout after a sequence of moves. -/
def afterAll (Y : Layout) (ks : List Kind) : Layout := ks.foldl after Y

theorem afterAll_append (Y : Layout) (ks ks' : List Kind) :
    Y.afterAll (ks ++ ks') = (Y.afterAll ks).afterAll ks' := List.foldl_append

/-- No move changes the configuration. -/
theorem config_afterAll (Y : Layout) (ks : List Kind) : (Y.afterAll ks).config = Y.config := by
  induction ks generalizing Y with
  | nil => rfl
  | cons k ks ih =>
    refine (ih (Y.after k)).trans ?_
    cases k <;> rfl

/-! ## Growing a stack -/

/-- The moves that register stack pages where there are none. -/
def stackKinds (Y : Layout) (id : SpaceId) (vs : List PageNum) : List Kind :=
  (vs.filter fun v => !Y.registered ⟨id, v⟩).map fun v => .enter ⟨id, v⟩ true .anon .zero

theorem stackKinds_congr {Y Y' : Layout} {id : SpaceId} {vs : List PageNum}
    (h : ∀ v ∈ vs, Y'.registered ⟨id, v⟩ = Y.registered ⟨id, v⟩) :
    Y'.stackKinds id vs = Y.stackKinds id vs := by
  unfold stackKinds
  rw [List.filter_congr fun v hv => congrArg Bool.not (h v hv)]

theorem stackKinds_append (Y : Layout) (id : SpaceId) (vs vs' : List PageNum) :
    Y.stackKinds id (vs ++ vs') = Y.stackKinds id vs ++ Y.stackKinds id vs' := by
  unfold stackKinds
  rw [List.filter_append, List.map_append]

/-- Registering stack pages moves no floor. -/
theorem floor_stackKinds (Y : Layout) (id : SpaceId) (vs : List PageNum) :
    (Y.afterAll (Y.stackKinds id vs)).floor = Y.floor := by
  unfold stackKinds
  generalize vs.filter _ = l
  induction l generalizing Y with
  | nil => rfl
  | cons v l ih => exact ih (Y.after _)

/-- What a fault at an address comes to: the stack grows to it, or nothing. -/
inductive Grows (id : SpaceId) (va : Address) (Y : Layout) : List Kind → Prop
  | stays : Grows id va Y []
  | grows {top : PageNum} (hfree : Y.registered ⟨id, va.page⟩ = false)
      (htop : Y.floor id = some top) (hbottom : Y.config.stackBottom.toNat ≤ va.toNat)
      (hbelow : va.toNat < (PageNum.base top).toNat) :
      Grows id va Y (Y.stackKinds id (List.range' va.page (top - va.page)) ++
        [.floor id (some va.page)])

/-! ## Copying -/

/-- The moves that copy pages. -/
def copyKinds (source target : SpaceId) (vs : List PageNum) : List Kind :=
  vs.map fun v => .copy ⟨source, v⟩ ⟨target, v⟩

/-- Copying pages moves no stack floor. -/
theorem floor_copyKinds (source target : SpaceId) :
    ∀ (vs : List PageNum) (Y : Layout), (Y.afterAll (copyKinds source target vs)).floor = Y.floor
  | [], _ => rfl
  | _ :: vs, Y => floor_copyKinds source target vs (Y.after _)

theorem registered_copyKinds (source target : SpaceId) (o : Owner) :
    ∀ (vs : List PageNum) (Y : Layout),
      (Y.afterAll (copyKinds source target vs)).registered o =
        (decide (o.space = target ∧ o.vpn ∈ vs) || Y.registered o)
  | [], _ => by simp [copyKinds, afterAll]
  | v :: vs, Y => by
    refine (registered_copyKinds source target o vs
      (Y.after (.copy ⟨source, v⟩ ⟨target, v⟩))).trans ?_
    obtain ⟨s, w⟩ := o
    simp only [after, Owner.mk.injEq, List.mem_cons]
    grind

/-- Every page of `source` is copied, and the stack of `target` reaches as far down. -/
inductive CopiesAll (source target : SpaceId) (Y : Layout) : List Kind → Prop
  | intro {vs : List PageNum} {a b : PageNum}
      (hall : ∀ v, v ∈ vs ↔ Y.registered ⟨source, v⟩ = true) (hs : Y.floor source = some a)
      (ht : Y.floor target = some b) :
      CopiesAll source target Y (copyKinds source target vs ++ [.floor target (some (min b a))])

/-- Some pages of `source` are copied. -/
inductive CopiesSome (source target : SpaceId) (Y : Layout) : List Kind → Prop
  | intro {vs : List PageNum} (hall : ∀ v ∈ vs, Y.registered ⟨source, v⟩ = true) :
      CopiesSome source target Y (copyKinds source target vs)

/-! ## Mapping and unmapping -/

/-- The moves that register the pages of a mapping in turn: the next window starts at `offset` of
the file, and `remaining` bytes of it are left to map. -/
def mapKinds (id : SpaceId) (writable : Bool) (file mapping : Nat) :
    List PageNum → (offset remaining : Nat) → List Kind
  | [], _, _ => []
  | v :: vs, offset, remaining =>
    let here := min remaining pageSize
    .enter ⟨id, v⟩ writable .file (.file
        { handle := file, offset, readBytes := here, zeroBytes := pageSize - here, mapping }) ::
      mapKinds id writable file mapping vs (offset + here) (remaining - here)

/-- The pages from `va` on to `va + length` are mapped, none of which was registered. -/
inductive Maps (id : SpaceId) (va : Address) (length : Nat) (writable : Bool) (offset : Nat)
    (Y : Layout) : List Kind → Prop
  | intro {vs : List PageNum} {file mapping remaining : Nat}
      (hvs : vs = List.range' va.page
        ((Address.ofNat (va.toNat + length)).pageAbove - va.page))
      (hfree : ∀ v ∈ vs, Y.registered ⟨id, v⟩ = false) :
      Maps id va length writable offset Y
        (mapKinds id writable file mapping vs offset remaining)

/-- The moves that remove pages. -/
def leaveKinds (id : SpaceId) (writeBack : Bool) (vs : List PageNum) : List Kind :=
  vs.map fun v => .leave ⟨id, v⟩ writeBack

/-- Removing pages moves no stack floor. -/
theorem floor_leaveKinds (id : SpaceId) (writeBack : Bool) :
    ∀ (vs : List PageNum) (Y : Layout), (Y.afterAll (leaveKinds id writeBack vs)).floor = Y.floor
  | [], _ => rfl
  | _ :: vs, Y => floor_leaveKinds id writeBack vs (Y.after _)

theorem registered_leaveKinds (id : SpaceId) (writeBack : Bool) (o : Owner) :
    ∀ (vs : List PageNum) (Y : Layout), (Y.afterAll (leaveKinds id writeBack vs)).registered o =
      (Y.registered o && !decide (o.space = id ∧ o.vpn ∈ vs))
  | [], _ => by simp [leaveKinds, afterAll]
  | v :: vs, Y => by
    refine (registered_leaveKinds id writeBack o vs
      (Y.after (.leave ⟨id, v⟩ writeBack))).trans ?_
    obtain ⟨s, w⟩ := o
    simp only [after, Owner.mk.injEq, List.mem_cons]
    grind

/-! ## Making and removing spaces -/

/-- The move that makes a space. -/
def createKind (Y : Layout) (id : SpaceId) : Kind :=
  .floor id (some Y.config.stackTop.pageAbove)

/-- An empty space is made, under a number that was free. -/
inductive Creates (id : SpaceId) (Y : Layout) : List Kind → Prop
  | intro (hnew : Y.floor id = none) : Creates id Y [Y.createKind id]

/-- Every page of a space is removed, and then the space, if there is such a space. -/
inductive Destroys (id : SpaceId) (Y : Layout) : List Kind → Prop
  | absent (h : Y.floor id = none) : Destroys id Y []
  | intro {vs : List PageNum} (hlive : (Y.floor id).isSome)
      (hall : ∀ v, v ∈ vs ↔ Y.registered ⟨id, v⟩ = true) :
      Destroys id Y (leaveKinds id true vs ++ [.floor id none])

/-- A space is made and every page of another one copied to it. -/
inductive Forks (parent child : SpaceId) (Y : Layout) : List Kind → Prop
  | intro {ks : List Kind} (hnew : Y.floor child = none)
      (h : CopiesAll parent child (Y.after (Y.createKind child)) ks) :
      Forks parent child Y (Y.createKind child :: ks)

/-- A space is made, some pages are copied to it, and it is removed again. -/
inductive ForksInVain (parent : SpaceId) (Y : Layout) : List Kind → Prop
  | intro {child : SpaceId} {ks ks' : List Kind} (hnew : Y.floor child = none)
      (h : CopiesSome parent child (Y.after (Y.createKind child)) ks)
      (h' : Destroys child ((Y.after (Y.createKind child)).afterAll ks) ks') :
      ForksInVain parent Y (Y.createKind child :: (ks ++ ks'))

/-! ## Registering -/

/-- How an origin comes from a setup, and the moves that take it in. -/
inductive Supplies : Setup → Origin → List Kind → Prop
  | zero : Supplies .zero .zero []
  | file (w : FileWindow) (file : Nat) : Supplies (.file w) (.file { w with handle := file }) []
  | custom (i : Initializer) (n : Nat) : Supplies (.custom i) (.custom n) [.supply n i.content]

/-- A page is registered where there was none. -/
inductive Registers (id : SpaceId) (type : PageType) (va : Address) (writable : Bool)
    (setup : Setup) (Y : Layout) : List Kind → Prop
  | intro {origin : Origin} {ks : List Kind} (h : Supplies setup origin ks)
      (hfree : Y.registered ⟨id, va.page⟩ = false) :
      Registers id type va writable setup Y (ks ++ [.enter ⟨id, va.page⟩ writable type origin])

/-- The first page of every stack. -/
def firstStackPage (Y : Layout) : PageNum := (Y.config.stackTop.retreat pageSize).page

/-- The move that registers the first page of a stack. -/
def stackKind (Y : Layout) (id : SpaceId) : Kind :=
  .enter ⟨id, Y.firstStackPage⟩ true .anon .zero

/-! ## Transfers -/

/-- Spans are accessed in turn. -/
inductive Visits (id : SpaceId) : List Machine.Span → Layout → List Kind → Prop
  | nil (Y : Layout) : Visits id [] Y []
  | cons {Y : Layout} {span : Machine.Span} {spans : List Machine.Span} {ks ks' : List Kind}
      (h : Y.Grows id span.va ks) (hrest : Visits id spans (Y.afterAll ks) ks') :
      Visits id (span :: spans) Y (ks ++ ks')

/-- Spans are written in turn, each with the next bytes after the first `done`. -/
inductive Writes (id : SpaceId) (bytes : Bytes) :
    (done : Nat) → List Machine.Span → Layout → List Kind → Prop
  | nil (done : Nat) (Y : Layout) : Writes id bytes done [] Y []
  | cons {Y : Layout} {span : Machine.Span} {spans : List Machine.Span} {done : Nat}
      {ks ks' : List Kind} (h : Y.Grows id span.va ks)
      (hrest : Writes id bytes (done + span.length) spans (Y.afterAll ks) ks') :
      Writes id bytes done (span :: spans) Y (ks ++ .write ⟨id, span.va.page⟩ span.va.offset
        (bytes.extract done (done + span.length)) :: ks')

/-- Spans are transferred in turn up to one that is refused. -/
inductive Stops (id : SpaceId) (T : List Machine.Span → Layout → List Kind → Prop) :
    List Machine.Span → Layout → List Kind → Prop
  | intro {Y : Layout} {before rest : List Machine.Span} {span : Machine.Span}
      {ks ks' : List Kind} (h : T before Y ks) (hs : (Y.afterAll ks).Grows id span.va ks') :
      Stops id T (before ++ span :: rest) Y (ks ++ ks')

/-- Writing a span before the others. -/
theorem Stops.write {id : SpaceId} {bytes : Bytes} {done : Nat} {span : Machine.Span}
    {spans : List Machine.Span} {Y : Layout} {ks ks' : List Kind}
    (h' : Stops id (Writes id bytes (done + span.length)) spans (Y.afterAll ks) ks')
    (h : Y.Grows id span.va ks) :
    Stops id (Writes id bytes done) (span :: spans) Y (ks ++ .write ⟨id, span.va.page⟩
      span.va.offset (bytes.extract done (done + span.length)) :: ks') := by
  cases h' with
  | intro hT hs =>
    rename_i before rest stop ks₁ ks₂
    show Stops _ _ (span :: before ++ stop :: rest) Y (ks ++ (_ :: ks₁ ++ ks₂))
    rw [← List.append_assoc]
    refine .intro (.cons h hT) ?_
    rw [afterAll_append]
    exact hs

/-! ## The moves of a request -/

/-- A move by which the stack of a space grows. -/
def IsGrowth (id : SpaceId) (k : Kind) : Prop :=
  (∃ v, k = .enter ⟨id, v⟩ true .anon .zero) ∨ ∃ v, k = .floor id v

section

variable {Y : Layout} {id source target : SpaceId} {va : Address} {k : Kind} {ks : List Kind}
  {vs : List PageNum} {bytes : Bytes} {done : Nat} {spans : List Machine.Span}

theorem mem_stackKinds (hk : k ∈ Y.stackKinds id vs) : ∃ v, k = .enter ⟨id, v⟩ true .anon .zero := by
  obtain ⟨v, -, rfl⟩ := List.mem_map.mp hk
  exact ⟨v, rfl⟩

theorem Grows.mem (h : Y.Grows id va ks) (hk : k ∈ ks) : IsGrowth id k := by
  cases h with
  | stays => cases hk
  | grows =>
    rcases List.mem_append.mp hk with hk | hk
    · exact Or.inl (mem_stackKinds hk)
    · exact Or.inr ⟨_, List.mem_singleton.mp hk⟩

theorem Grows.countP_writes (h : Y.Grows id va ks) (x : Owner) : ks.countP (Kind.writes x) = 0 := by
  refine List.countP_eq_zero.mpr fun k hk hx => ?_
  rcases h.mem hk with ⟨v, rfl⟩ | ⟨v, rfl⟩ <;> cases hx

theorem Visits.mem (h : Visits id spans Y ks) (hk : k ∈ ks) : IsGrowth id k := by
  induction h with
  | nil => cases hk
  | cons h _ ih => exact (List.mem_append.mp hk).elim h.mem ih

theorem Writes.mem (h : Writes id bytes done spans Y ks) (hk : k ∈ ks) :
    IsGrowth id k ∨ ∃ span ∈ spans, ∃ written, k = .write ⟨id, span.va.page⟩ span.va.offset written := by
  induction h with
  | nil => cases hk
  | cons h _ ih =>
    rcases List.mem_append.mp hk with hk | hk
    · exact Or.inl (h.mem hk)
    · rcases List.mem_cons.mp hk with rfl | hk
      · exact Or.inr ⟨_, List.mem_cons_self, _, rfl⟩
      · exact (ih hk).imp_right fun ⟨span, hspan, h⟩ => ⟨span, List.mem_cons_of_mem _ hspan, h⟩

theorem Stops.mem_visits (h : Stops id (Visits id) spans Y ks) (hk : k ∈ ks) : IsGrowth id k := by
  obtain ⟨h, hs⟩ := h
  exact (List.mem_append.mp hk).elim h.mem hs.mem

theorem Stops.mem_writes (h : Stops id (Writes id bytes done) spans Y ks) (hk : k ∈ ks) :
    IsGrowth id k ∨ ∃ span ∈ spans, ∃ written, k = .write ⟨id, span.va.page⟩ span.va.offset written := by
  obtain ⟨h, hs⟩ := h
  rcases List.mem_append.mp hk with hk | hk
  · exact (h.mem hk).imp_right fun ⟨span, hspan, h⟩ => ⟨span, List.mem_append_left _ hspan, h⟩
  · exact Or.inl (hs.mem hk)

/-- Each span is written once. -/
theorem Writes.countP_writes (h : Writes id bytes done spans Y ks) (x : Owner) :
    ks.countP (Kind.writes x) = (spans.map fun span => ⟨id, span.va.page⟩ : List Owner).count x := by
  induction h with
  | nil => rfl
  | cons h _ ih =>
    rw [List.countP_append, List.countP_cons, ih, List.map_cons, List.count_cons,
      h.countP_writes, Nat.zero_add]
    simp [Kind.writes]

theorem Stops.countP_writes_le (h : Stops id (Writes id bytes done) spans Y ks) (x : Owner) :
    ks.countP (Kind.writes x) ≤ (spans.map fun span => ⟨id, span.va.page⟩ : List Owner).count x := by
  obtain ⟨h, hs⟩ := h
  rw [List.countP_append, h.countP_writes, hs.countP_writes, Nat.add_zero,
    List.map_append, List.count_append]
  exact Nat.le_add_right _ _

theorem CopiesSome.mem (h : CopiesSome source target Y ks) (hk : k ∈ ks) :
    ∃ v, k = .copy ⟨source, v⟩ ⟨target, v⟩ := by
  cases h
  obtain ⟨v, -, rfl⟩ := List.mem_map.mp hk
  exact ⟨v, rfl⟩

theorem CopiesAll.mem (h : CopiesAll source target Y ks) (hk : k ∈ ks) :
    (∃ v, k = .copy ⟨source, v⟩ ⟨target, v⟩) ∨ ∃ v, k = .floor target v := by
  cases h
  rcases List.mem_append.mp hk with hk | hk
  · obtain ⟨v, -, rfl⟩ := List.mem_map.mp hk
    exact Or.inl ⟨v, rfl⟩
  · exact Or.inr ⟨_, List.mem_singleton.mp hk⟩

theorem Destroys.mem (h : Destroys id Y ks) (hk : k ∈ ks) :
    (∃ v, k = .leave ⟨id, v⟩ true) ∨ k = .floor id none := by
  cases h with
  | absent => cases hk
  | intro =>
    rcases List.mem_append.mp hk with hk | hk
    · obtain ⟨v, -, rfl⟩ := List.mem_map.mp hk
      exact Or.inl ⟨v, rfl⟩
    · exact Or.inr (List.mem_singleton.mp hk)

theorem Supplies.mem {setup : Setup} {origin : Origin} (h : Supplies setup origin ks)
    (hk : k ∈ ks) : ∃ n content, k = .supply n content := by
  cases h with
  | zero | file => cases hk
  | custom => exact ⟨_, _, List.mem_singleton.mp hk⟩

theorem mem_mapKinds {writable : Bool} {file mapping : Nat} :
    ∀ {vs : List PageNum} {offset remaining : Nat},
      k ∈ mapKinds id writable file mapping vs offset remaining →
        ∃ v w, k = .enter ⟨id, v⟩ writable .file (.file w)
  | [], _, _, hk => by cases hk
  | v :: vs, offset, remaining, hk => by
    rcases List.mem_cons.mp hk with rfl | hk
    · exact ⟨v, _, rfl⟩
    · exact mem_mapKinds hk

end

/-! ## The registered pages after a request -/

section

variable {Y : Layout} {id : SpaceId} {va : Address} {ks ks' : List Kind}

theorem registered_enters (Y : Layout) (id : SpaceId) (o : Owner) :
    ∀ vs : List PageNum,
      (Y.afterAll (vs.map fun v => .enter ⟨id, v⟩ true .anon .zero)).registered o =
        (Y.registered o || decide (o.space = id ∧ o.vpn ∈ vs))
  | [] => by simp [afterAll]
  | v :: vs => by
    show (Layout.afterAll (Y.after (.enter ⟨id, v⟩ true .anon .zero)) _).registered o = _
    rw [registered_enters _ id o vs]
    obtain ⟨s, w⟩ := o
    simp only [after, Owner.mk.injEq, List.mem_cons]
    grind

/-- Growing a stack registers the pages on the way. -/
theorem registered_stackKinds (Y : Layout) (id : SpaceId) (vs : List PageNum) (o : Owner) :
    (Y.afterAll (Y.stackKinds id vs)).registered o =
      (Y.registered o || decide (o.space = id ∧ o.vpn ∈ vs)) := by
  unfold stackKinds
  rw [registered_enters, Bool.eq_iff_iff]
  obtain ⟨s, w⟩ := o
  simp only [Bool.or_eq_true, decide_eq_true_eq, List.mem_filter, Bool.not_eq_true']
  grind

/-- Growing a stack makes and removes no space. -/
theorem Grows.floor_eq_none (h : Y.Grows id va ks) (hnone : (Y.afterAll ks).floor id = none) :
    Y.floor id = none := by
  cases h with
  | stays => exact hnone
  | grows hfree htop hbottom hbelow =>
    rw [afterAll_append] at hnone
    simp [afterAll, after] at hnone

/-- A fault on a page that is registered grows no stack. -/
theorem Grows.eq_nil (h : Y.Grows id va ks) (hthere : Y.registered ⟨id, va.page⟩ = true) : ks = [] := by
  cases h with
  | stays => rfl
  | grows hfree =>
    rw [hthere] at hfree
    cases hfree

/-- A registered page that is written in one span is written and nothing else. -/
theorem Writes.eq_of_span {n : Nat} (h : Y.Writes id bytes done [⟨va, n⟩] ks)
    (hthere : Y.registered ⟨id, va.page⟩ = true) :
    ks = [.write ⟨id, va.page⟩ va.offset (bytes.extract done (done + n))] := by
  cases h with
  | cons hg hrest =>
    cases hrest
    rw [hg.eq_nil hthere]
    rfl

/-- The page of a faulting address is registered after the stack grew to it. -/
theorem Grows.registered (h : Y.Grows id va ks) (hks : ks ≠ []) :
    (Y.afterAll ks).registered ⟨id, va.page⟩ = true := by
  cases h with
  | stays => exact absurd rfl hks
  | grows hfree htop hbottom hbelow =>
    rename_i top
    have hlt : va.page < top := PageNum.page_lt_of_lt_base hbelow
    rw [afterAll_append]
    show (Y.afterAll (Y.stackKinds id (List.range' va.page (top - va.page)))).registered _ = true
    rw [registered_stackKinds, Bool.or_eq_true, decide_eq_true_eq]
    refine Or.inr ⟨rfl, List.mem_range'_1.mpr ⟨Nat.le_refl _, ?_⟩⟩
    rw [Nat.add_sub_of_le (Nat.le_of_lt hlt)]
    exact hlt

/-- A stack grows to an address once. -/
theorem Grows.append (h : Y.Grows id va ks) (h' : (Y.afterAll ks).Grows id va ks') :
    Y.Grows id va (ks ++ ks') := by
  by_cases hks : ks = []
  · subst hks
    exact h'
  · cases h' with
    | stays => rwa [List.append_nil]
    | grows hfree => rw [h.registered hks] at hfree; cases hfree

end

end Layout

namespace Ledger

variable {L L' : Ledger} {k : Kind} {ks : List Kind}

/-- The layout of a ledger. -/
def layout (L : Ledger) : Layout where
  config := L.config
  registered o := (L.page o).isSome
  floor := L.floor

theorem Shift.layout (h : Shift L L') (hL : L.Sound) : L'.layout = L.layout := by
  apply Layout.ext
  case config => exact h.config
  case floor => exact h.floor
  case registered =>
    funext x
    have := congrArg Option.isSome (h.face hL x)
    rwa [Option.isSome_map, Option.isSome_map] at this

/-- **A move changes the layout in the way of its kind.** -/
theorem Move.layout (h : Move k L L') : L'.layout = L.layout.after k := by
  have hif : ∀ (x o : Owner) (p : Page), (if x = o then some p else L.page x).isSome =
      (decide (x = o) || (L.page x).isSome) := fun x o p => by
    by_cases hx : x = o <;> simp [hx]
  have hgone : ∀ (x o : Owner), (if x = o then none else L.page x).isSome =
      (!decide (x = o) && (L.page x).isSome) := fun x o => by
    by_cases hx : x = o <;> simp [hx]
  cases h with
  | enter => exact Layout.ext rfl (funext fun x => hif x _ _) rfl
  | join => exact Layout.ext rfl (funext fun x => hif x _ _) rfl
  | duplicate => exact Layout.ext rfl (funext fun x => hif x _ _) rfl
  | leaveFrame => exact Layout.ext rfl (funext fun x => hgone x _) rfl
  | leaveTeam hp hg hl =>
    refine Layout.ext rfl (funext fun x => ?_) rfl
    refine Eq.trans ?_ (hgone x _)
    dsimp only [layout, Ledger.leaveTeam]
    split
    · rfl
    · split
      · exact Option.isSome_map
      · rfl
  | leaveAlone => exact Layout.ext rfl (funext fun x => hgone x _) rfl
  | write | supply | floor | outside => rfl

/-- **A trace changes the layout in the way of its moves.** -/
theorem Trace.layout (h : Trace ks L L') (hL : L.Sound) : L'.layout = L.layout.afterAll ks := by
  induction h with
  | refl => rfl
  | shift h hs ih => exact (hs.layout (h.sound hL)).trans (ih hL)
  | move h hm ih =>
    rw [Layout.afterAll_append, ← ih hL]
    exact hm.layout

/-! ## Telling what happened -/

/-- What happened is one of the sequences of moves `P` allows where it began. -/
def Told (P : Layout → List Kind → Prop) (L L' : Ledger) : Prop :=
  ∃ ks, P L.layout ks ∧ Trace ks L L'

/-- The page at an address is in a mapping that does not start before it. -/
def StartsMapping (L : Ledger) (id : SpaceId) (va : Address) (mapping : Nat) : Prop :=
  mapping ≠ 0 ∧ (∃ p, L.page ⟨id, va.page⟩ = some p ∧ p.mapping = mapping) ∧
    ∀ p, 0 < va.page → L.page ⟨id, va.page - 1⟩ = some p → p.mapping ≠ mapping

/-- The run of pages of a mapping that starts at an address is removed, or nothing happens because
there is none. -/
inductive Unmaps (id : SpaceId) (va : Address) (L L' : Ledger) : Prop
  | stays (hnone : ∀ mapping, ¬L.StartsMapping id va mapping) (h : Shifts L L') : Unmaps id va L L'
  | run {n mapping : Nat} (hstart : L.StartsMapping id va mapping)
      (hrun : ∀ v ∈ List.range' va.page n,
        ∃ p, L.page ⟨id, v⟩ = some p ∧ p.mapping = mapping)
      (hstop : ∀ p, L.page ⟨id, va.page + n⟩ = some p → p.mapping ≠ mapping)
      (h : Trace (Layout.leaveKinds id true (List.range' va.page n)) L L') : Unmaps id va L L'

/-- A page is used through a mapping to the frame `f`: a write makes it dirty. -/
inductive Accesses (id : SpaceId) (va : Address) (write : Bool) (f : FrameNum) :
    Ledger → Ledger → Prop
  | intro {L A : Ledger} {ks : List Kind} {e : Grant} (hg : L.layout.Grows id va ks)
      (h : Trace ks L A) (he : A.grant ⟨id, va.page⟩ = some e) (hf : e.frame = f)
      (hw : write = true → e.writable = true) :
      Accesses id va write f L (if write then A.touch ⟨id, va.page⟩ else A)

/-- An access that reads. -/
theorem Accesses.read {id : SpaceId} {va : Address} {f : FrameNum}
    (h : L.Accesses id va false f L') : ∃ ks e, L.layout.Grows id va ks ∧ Trace ks L L' ∧
      L'.grant ⟨id, va.page⟩ = some e ∧ e.frame = f := by
  generalize hwrite : false = write at h
  cases h with
  | intro hg h he hf =>
    subst hwrite
    exact ⟨_, _, hg, h, he, hf⟩

/-- An access that writes. -/
theorem Accesses.write {id : SpaceId} {va : Address} {f : FrameNum}
    (h : L.Accesses id va true f L') : ∃ ks A e, L.layout.Grows id va ks ∧ Trace ks L A ∧
      A.grant ⟨id, va.page⟩ = some e ∧ e.frame = f ∧ e.writable = true ∧
      L' = A.touch ⟨id, va.page⟩ := by
  generalize hwrite : true = write at h
  cases h with
  | intro hg h he hf hw =>
    subst hwrite
    exact ⟨_, _, _, hg, h, he, hf, hw rfl, rfl⟩

/-- Spans are read in turn, and give these bytes. -/
inductive Reads (id : SpaceId) : List Machine.Span → Bytes → List Kind → Ledger → Ledger → Prop
  | nil (L : Ledger) : Reads id [] #[] [] L L
  | cons {L A L' : Ledger} {span : Machine.Span} {spans : List Machine.Span} {e : Grant}
      {bytes : Bytes} {ks ks' : List Kind} (h : Trace ks L A)
      (hg : L.layout.Grows id span.va ks) (he : A.grant ⟨id, span.va.page⟩ = some e)
      (hrest : Reads id spans bytes ks' A L') :
      Reads id (span :: spans) ((A.bytes e.frame).slice span.va.offset span.length ++ bytes)
        (ks ++ ks') L L'

/-- Spans are read up to one that is refused. -/
inductive ReadsUpTo (id : SpaceId) :
    List Machine.Span → Machine.ReadResult → Ledger → Ledger → Prop
  | all {L L' : Ledger} {spans : List Machine.Span} {bytes : Bytes} {ks : List Kind}
      (h : Reads id spans bytes ks L L') : ReadsUpTo id spans { bytes } L L'
  | part {L A L' : Ledger} {before rest : List Machine.Span} {span : Machine.Span} {bytes : Bytes}
      {ks ks' : List Kind} {cause : Refusal} (h : Reads id before bytes ks L A)
      (hg : A.layout.Grows id span.va ks') (hs : Trace ks' A L') :
      ReadsUpTo id (before ++ span :: rest) { bytes, stopped := some cause } L L'

theorem ReadsUpTo.cons {A : Ledger} {id : SpaceId} {span : Machine.Span}
    {spans : List Machine.Span} {r : Machine.ReadResult} {e : Grant} (h : Trace ks L A)
    (hg : L.layout.Grows id span.va ks) (he : A.grant ⟨id, span.va.page⟩ = some e)
    (hrest : ReadsUpTo id spans r A L') : ReadsUpTo id (span :: spans)
      { r with bytes := (A.bytes e.frame).slice span.va.offset span.length ++ r.bytes } L L' := by
  cases hrest with
  | all hr => exact .all (.cons h hg he hr)
  | part hr hg' hs => exact .part (.cons h hg he hr) hg' hs

theorem Reads.trace {id : SpaceId} {spans : List Machine.Span} {bytes : Bytes}
    (h : Reads id spans bytes ks L L') : Trace ks L L' := by
  induction h with
  | nil => exact .refl _
  | cons h _ _ _ ih => exact h.trans ih

theorem Reads.visits {id : SpaceId} {spans : List Machine.Span} {bytes : Bytes}
    (h : Reads id spans bytes ks L L') (hL : L.Sound) : Layout.Visits id spans L.layout ks := by
  induction h with
  | nil => exact .nil _
  | cons h hg _ _ ih =>
    refine .cons hg ?_
    rw [← h.layout hL]
    exact ih (h.sound hL)

/-- What a read comes to. -/
theorem ReadsUpTo.told {id : SpaceId} {spans : List Machine.Span} {r : Machine.ReadResult}
    (h : ReadsUpTo id spans r L L') (hL : L.Sound) :
    r.stopped = none ∧ Told (Layout.Visits id spans) L L' ∨
      (∃ cause, r.stopped = some cause) ∧ Told (Layout.Stops id (Layout.Visits id) spans) L L' := by
  cases h with
  | all h => exact Or.inl ⟨rfl, _, h.visits hL, h.trace⟩
  | part h hg hs =>
    rw [h.trace.layout hL] at hg
    exact Or.inr ⟨⟨_, rfl⟩, _, .intro (h.visits hL) hg, h.trace.trans hs⟩

end Ledger

end DemandPaging
