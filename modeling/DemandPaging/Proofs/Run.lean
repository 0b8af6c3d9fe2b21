import DemandPaging.Proofs.Operation

/-!
# Runs of a machine

A run starts from a machine with an empty pool. Operations are asked of it one after the other, in
any order and on any spaces; each goes through or is refused, and the run goes on either way. In
between, files may be changed from outside. Every machine on a run is in order
(`Reachable.sound`), and every step comes to what its operation is said to come to (`Step.tells`).

A pool holds all its frames in memory, and an entry of a page table can name `Entry.frameLimit` of
them; a run starts with no more.
-/

namespace DemandPaging

open Machine (Sound)

/-! ## One operation -/

/-- How an operation that is asked of a machine ends. -/
inductive Operation.Ends (op : Operation) (m : Machine) : Except Refusal Reply → Machine → Prop
  /-- It goes through. -/
  | ok {reply : Reply} {m' : Machine} (h : op.perform m = .ok reply m') : Ends op m (.ok reply) m'
  /-- It is refused. -/
  | refused {cause : Refusal} {m' : Machine} (h : op.perform m = .error (.refused cause) m') :
      Ends op m (.error cause) m'
  /-- It is refused, and the refusal is reported. -/
  | reported {cause : Refusal} {m' : Machine} {event : Event}
      (h : op.perform m = .error (.refused cause) m') (hevent : op.refusalEvent? cause = some event) :
      Ends op m (.error cause) { m' with journal := m'.journal.push event }

/-- A reported refusal tells of no page that came into a frame. -/
theorem Operation.isPlacing_refusalEvent {op : Operation} {cause : Refusal} {event : Event}
    (h : op.refusalEvent? cause = some event) : event.isPlacing = false := by
  cases op <;> cases h <;> rfl

/-- A request that is only answered by yes or no ends like the operation it is. -/
theorem Operation.ends_of_succeeds {op : Operation} {m m' : Machine} {yes : Bool}
    (h : op.succeeds m = .ok yes m') :
    ∃ outcome, op.Ends m outcome m' ∧ (yes = true ↔ ∃ reply, outcome = .ok reply) := by
  unfold succeeds at h
  change EStateM.bind (Action.attempt op.perform) _ m = _ at h
  unfold EStateM.bind Action.attempt at h
  cases hx : op.perform m with
  | ok reply m₁ =>
    rw [hx] at h
    obtain ⟨rfl, rfl⟩ := EStateM.Result.ok.inj h
    exact ⟨_, .ok hx, fun _ => ⟨reply, rfl⟩, fun _ => rfl⟩
  | error failure m₁ =>
    rw [hx] at h
    cases failure with
    | fatal broken => cases h
    | refused cause =>
      cases hevent : op.refusalEvent? cause with
      | none =>
        simp only [hevent] at h
        obtain ⟨rfl, rfl⟩ := EStateM.Result.ok.inj h
        exact ⟨_, .refused hx, nofun, fun ⟨_, hreply⟩ => by cases hreply⟩
      | some event =>
        simp only [hevent] at h
        obtain ⟨rfl, rfl⟩ := EStateM.Result.ok.inj h
        exact ⟨_, .reported hx hevent, nofun, fun ⟨_, hreply⟩ => by cases hreply⟩

/-! ## Changes from outside -/

/-- Files changed from outside: the handles there are stay on their files, and no file becomes
shorter or takes less unless it may be written back short. -/
structure FileStore.Changed (lax : Tolerance) (files files' : FileStore) : Prop where
  handles : files.handles.size ≤ files'.handles.size
  stays : ∀ h, h < files.handles.size → (files'.handle h).file = (files.handle h).file
  fits : (∀ inode offset, lax (.shortWriteBack inode offset)) ∨ files.Extends files'

/-! ## Runs -/

/-- A step of a run. -/
inductive Label where
  | ask (op : Operation) (outcome : Except Refusal Reply)
  | outside

/-- One step. -/
inductive Step (lax : Tolerance) (m : Machine) : Label → Machine → Prop
  | ask {op : Operation} {outcome : Except Refusal Reply} {m' : Machine}
      (hop : op.Admissible lax m) (h : op.Ends m outcome m') : Step lax m (.ask op outcome) m'
  | outside {files : FileStore} (h : m.backing.files.Changed lax files) :
      Step lax m .outside { m with backing := { m.backing with files } }

/-- A sequence of steps. -/
inductive Run (lax : Tolerance) (m₀ : Machine) : List Label → Machine → Prop
  | refl : Run lax m₀ [] m₀
  | step {labels : List Label} {label : Label} {m m' : Machine} (h : Run lax m₀ labels m)
      (hs : Step lax m label m') : Run lax m₀ (labels ++ [label]) m'

/-- A sequence of steps that are all as `P` says. -/
inductive RunWith (P : Machine → Label → Machine → Prop) (lax : Tolerance) (m₀ : Machine) :
    List Label → Machine → Prop
  | refl : RunWith P lax m₀ [] m₀
  | step {labels : List Label} {label : Label} {m m' : Machine} (h : RunWith P lax m₀ labels m)
      (hs : Step lax m label m') (hP : P m label m') : RunWith P lax m₀ (labels ++ [label]) m'

/-- A machine some run ends in. -/
def Reachable (lax : Tolerance) (m : Machine) : Prop :=
  ∃ config disk files labels, config.userFrames ≤ Entry.frameLimit ∧
    Run lax (Machine.start config disk files) labels m

variable {lax : Tolerance} {m m' : Machine} {label : Label} {labels : List Label}

/-- What a step did to the ledger. -/
def Label.Tells : Label → Ledger → Ledger → Prop
  | ask op outcome => op.Tells outcome
  | outside => Ledger.Trace [.outside]

/-- The pages a step writes if it goes through. -/
def Label.written : Label → List Owner
  | ask op _ => op.written
  | outside => []

/-- Steps of some kind are steps. -/
theorem RunWith.run {P : Machine → Label → Machine → Prop} {m₀ : Machine}
    (h : RunWith P lax m₀ labels m) : Run lax m₀ labels m := by
  induction h with
  | refl => exact .refl
  | step _ hs _ ih => exact ih.step hs

theorem RunWith.mono {P Q : Machine → Label → Machine → Prop} {m₀ : Machine}
    (h : RunWith P lax m₀ labels m) (hPQ : ∀ m label m', P m label m' → Q m label m') :
    RunWith Q lax m₀ labels m := by
  induction h with
  | refl => exact .refl
  | step _ hs hP ih => exact ih.step hs (hPQ _ _ _ hP)

/-- Handles stay on their files when files change. -/
theorem FileStore.Changed.ledger {files : FileStore} (h : m.backing.files.Changed lax files)
    (hm : Sound lax m none none) :
    Machine.ledger { m with backing := { m.backing with files } } none none =
      { m.ledger none none with file := files.file } := by
  apply Ledger.ext
  case page =>
    have hstay : ∀ o, _ = (m.ledger none none).page o := hm.kept.page_ledger_of_stays h.stays
    exact funext hstay
  all_goals rfl

/-- **A step comes to what it is said to come to**, and keeps the books. -/
theorem Step.tells (h : Step lax m label m') (hm : Sound lax m none none) :
    Machine.Reaches lax label.Tells m m' := by
  cases h with
  | ask hop h =>
    rename_i op outcome
    have hmeets := op.meets_perform hm hop
    cases h with
    | ok h => exact hmeets.of_ok h
    | refused h => exact (hmeets.of_refused h).1
    | reported h hevent =>
      rename_i m' event
      exact (hmeets.of_refused h).1.idle (.note m' _ (Operation.isPlacing_refusalEvent hevent))
  | outside h =>
    rename_i files
    refine .single { hm.kept with windows := fun hp hw => ?_ } (h.ledger hm ▸ .outside files.file)
    have hw := hm.kept.windows hp hw
    refine ⟨Nat.lt_of_lt_of_le hw.opened h.handles, hw.small, ?_⟩
    rcases h.fits with hlax | hext
    · exact Or.inl hlax
    · exact hw.taken.imp_right fun ht => ht.extends hw.opened hext

/-- What a step told is a sequence of moves. -/
theorem Label.Tells.trace {L L' : Ledger} (h : label.Tells L L') (hL : L.Sound) :
    ∃ ks, Ledger.Trace ks L L' := by
  cases label with
  | ask op outcome =>
    obtain ⟨ks, -, htrace⟩ := Operation.Tells.moves h hL
    exact ⟨ks, htrace⟩
  | outside => exact ⟨_, h⟩

/-- A page that is there when a step has ended did not leave on the way. -/
theorem Label.Tells.stays {L L' : Ledger} (h : label.Tells L L') (hL : L.Sound) :
    ∃ ks, Ledger.Trace ks L L' ∧ ∀ x, (L.page x).isSome → (L'.page x).isSome →
      ∀ writeBack, .leave x writeBack ∉ ks := by
  cases label with
  | ask op outcome =>
    obtain ⟨ks, hks, htrace⟩ := Operation.Tells.moves h hL
    refine ⟨ks, htrace, fun x hx hx' => hks.leave_notMem ?_ ?_⟩
    · obtain ⟨p, hp⟩ := Option.isSome_iff_exists.mp hx
      exact hL.living hp
    · rw [← htrace.layout hL]
      exact hx'
  | outside => exact ⟨_, h, fun _ _ _ _ hk => by cases List.mem_singleton.mp hk⟩

theorem Step.sound (h : Step lax m label m') (hm : Sound lax m none none) :
    Sound lax m' none none := by
  obtain ⟨hkept, htold⟩ := h.tells hm
  obtain ⟨ks, htrace⟩ := htold.trace hm.books
  exact ⟨htrace.sound hm.books, hkept⟩

theorem Run.sound {m₀ : Machine} (h : Run lax m₀ labels m) (hm : Sound lax m₀ none none) :
    Sound lax m none none := by
  induction h with
  | refl => exact hm
  | step _ hs ih => exact hs.sound ih

namespace Machine

/-- No page is registered at first. -/
theorem page?_start (config : Config) (disk : Disk) (files : FileStore) (o : Owner) :
    (start config disk files).page? o = none := by
  rw [page?_eq, show (start config disk files).spaces[o.space]? = none from
    Std.ExtTreeMap.getElem?_empty]
  rfl

/-- There is no space at first. -/
theorem floorAt?_start (config : Config) (disk : Disk) (files : FileStore) (id : SpaceId) :
    (start config disk files).floorAt? id = none :=
  Option.map_eq_none_iff.mpr Std.ExtTreeMap.getElem?_empty

/-- An empty machine is in order. -/
theorem sound_start {config : Config} (disk : Disk) (files : FileStore)
    (hframes : config.userFrames ≤ Entry.frameLimit) :
    Sound lax (start config disk files) none none := by
  have hcrew : ∀ f, ((start config disk files).ledger none none).crew f = none :=
    FrameTable.get?_empty
  have hteam : ∀ g, ((start config disk files).ledger none none).team g = none :=
    fun g => Std.ExtTreeMap.getElem?_empty
  have hpage : ∀ o, ((start config disk files).ledger none none).page o = none := by
    intro o
    rw [page_ledger, page?_start]
    rfl
  have hfloor := floorAt?_start config disk files
  refine ⟨Ledger.sound_of_empty hpage ?_ hcrew hteam ?_ ?_ rfl, ?_⟩
  · intro o
    show ((start config disk files).entryAt? o).map Entry.grant = none
    rw [entryAt?_eq, show (start config disk files).spaces[o.space]? = none from
      Std.ExtTreeMap.getElem?_empty]
    rfl
  · exact Swap.occupied_ofDisk disk
  · exact FramePool.not_held_ofSize config.userFrames
  · exact {
      frames := FramePool.valid_ofSize config.userFrames
      fits := hframes
      groupIds := IdPool.valid_empty
      groups := fun g => by
        rw [show (start config disk files).groups[g]? = none from hteam g]
        exact iff_of_false (IdPool.not_live_empty g) Bool.false_ne_true
      spaceIds := IdPool.valid_empty
      spaces := fun id => by
        rw [hfloor]
        exact iff_of_false (IdPool.not_live_empty id) Bool.false_ne_true
      floors := fun hv => by
        rw [hfloor] at hv
        cases hv
      swap := Swap.valid_ofDisk disk
      windows := fun {o p w} hp => by
        have hnone := hpage o
        rw [page_ledger, hp] at hnone
        cases hnone
      initializers := Or.inr fun n i hi => by
        simp [start] at hi
      numbers := Nat.one_pos }

end Machine

/-! ## Carrying requests out -/

/-- Each request is admissible once the handles it names are open. -/
def Operation.Carryable (lax : Tolerance) (ops : List Operation) : Prop :=
  ∀ op ∈ ops, ∀ m : Machine, (∀ k ∈ op.handles, k < m.backing.files.handles.size) → op.Admissible lax m

theorem Operation.carryable_all (ops : List Operation) : Carryable .all ops :=
  fun _ _ _ => admissible_of_handles

/-- The request names no handle and hands nothing over. -/
def Operation.isPlain : Operation → Bool
  | register _ _ _ _ .zero => true
  | register .. | map .. => false
  | _ => true

theorem Operation.carryable_of_isPlain {ops : List Operation} (h : ops.all isPlain = true) :
    Carryable lax ops := by
  intro op hop m _
  have hplain := List.all_eq_true.mp h op hop
  cases op with
  | register id type va writable setup =>
    cases setup with
    | zero => exact ⟨nofun, nofun⟩
    | file w => cases hplain
    | custom i => cases hplain
  | map => cases hplain
  | _ => trivial

/-- Carry requests out one after the other, whether they go through or not, and list how they end.
There is no result if one names a handle that is not open or breaks an assertion, or if a step does
not pass the check. -/
def Machine.carryWith (check : Machine → Label → Machine → Bool) :
    List Operation → Machine → Option (List Label × Machine)
  | [], m => some ([], m)
  | op :: ops, m =>
    let proceed (outcome : Except Refusal Reply) (m' : Machine) : Option (List Label × Machine) :=
      if check m (.ask op outcome) m' then
        (carryWith check ops m').map fun r => (.ask op outcome :: r.1, r.2)
      else none
    if op.handles.all (· < m.backing.files.handles.size) then
      match op.perform m with
      | .ok reply m' => proceed (.ok reply) m'
      | .error (.refused cause) m' => proceed (.error cause) m'
      | .error (.fatal _) _ => none
    else none

/-- What a read gave. -/
def Reply.bytes? : Reply → Option Machine.ReadResult
  | .bytes result => some result
  | _ => none

/-- Carry requests out without a check. -/
def Machine.carry (ops : List Operation) (m : Machine) : Option (List Label × Machine) :=
  m.carryWith (fun _ _ _ => true) ops

theorem RunWith.cons {P : Machine → Label → Machine → Prop} {m₁ : Machine} (hs : Step lax m label m₁)
    (hP : P m label m₁) (h : RunWith P lax m₁ labels m') : RunWith P lax m (label :: labels) m' := by
  induction h with
  | refl => exact .step .refl hs hP
  | step _ hs' hP' ih => exact ih.step hs' hP'

/-- Requests that are carried out make a run of steps that pass the check. -/
theorem Machine.runWith_of_carryWith {check : Machine → Label → Machine → Bool}
    {P : Machine → Label → Machine → Prop} {ops : List Operation}
    (hops : Operation.Carryable lax ops)
    (hcheck : ∀ m op outcome m', check m (.ask op outcome) m' = true → P m (.ask op outcome) m')
    (h : m.carryWith check ops = some (labels, m')) : RunWith P lax m labels m' := by
  induction ops generalizing m labels with
  | nil =>
    obtain ⟨rfl, rfl⟩ := Prod.mk.inj (Option.some.inj h)
    exact .refl
  | cons op ops ih =>
    have hproceed : ∀ {outcome : Except Refusal Reply} {m₁ : Machine}, Step lax m (.ask op outcome) m₁ →
        (if check m (.ask op outcome) m₁ then
          (carryWith check ops m₁).map fun r => (Label.ask op outcome :: r.1, r.2) else none) =
          some (labels, m') → RunWith P lax m labels m' := by
      intro outcome m₁ hs h
      split at h
      · rename_i hpass
        obtain ⟨⟨labels', m''⟩, hrest, heq⟩ := Option.map_eq_some_iff.mp h
        obtain ⟨rfl, rfl⟩ := Prod.mk.inj heq
        exact .cons hs (hcheck _ _ _ _ hpass)
          (ih (fun x hx => hops x (List.mem_cons_of_mem op hx)) hrest)
      · cases h
    unfold carryWith at h
    dsimp only at h
    split at h
    · rename_i hopen
      have hop : op.Admissible lax m :=
        hops op List.mem_cons_self m fun k hk => by simpa using List.all_eq_true.mp hopen k hk
      split at h
      · exact hproceed (.ask hop (.ok ‹_›)) h
      · exact hproceed (.ask hop (.refused ‹_›)) h
      · cases h
    · cases h

/-- Requests that are carried out make a run. -/
theorem Machine.run_of_carry {ops : List Operation}
    (hops : Operation.Carryable lax ops) (h : m.carry ops = some (labels, m')) : Run lax m labels m' :=
  (runWith_of_carryWith (P := fun _ _ _ => True) hops (fun _ _ _ _ _ => trivial) h).run

/-- Requests that are carried out and pass a check make a run that passes it. -/
theorem Machine.exists_runWith {check : Machine → Label → Machine → Bool}
    {P : Machine → Label → Machine → Prop} {ops : List Operation} {test : List Label × Machine → Bool}
    (hops : Operation.Carryable lax ops)
    (hcheck : ∀ m op outcome m', check m (.ask op outcome) m' = true → P m (.ask op outcome) m')
    (h : (m.carryWith check ops).any test = true) :
    ∃ r, RunWith P lax m r.1 r.2 ∧ test r = true := by
  obtain ⟨r, hr, htest⟩ := (Option.any_eq_true _ _).mp h
  exact ⟨r, runWith_of_carryWith hops hcheck hr, htest⟩

theorem Machine.exists_run {ops : List Operation} {test : List Label × Machine → Bool}
    (hops : Operation.Carryable lax ops)
    (h : (m.carry ops).any test = true) : ∃ r, Run lax m r.1 r.2 ∧ test r = true := by
  obtain ⟨r, hr, htest⟩ := (Option.any_eq_true _ _).mp h
  exact ⟨r, run_of_carry hops hr, htest⟩

/-- **Every machine on a run is in order.** -/
theorem Reachable.sound (h : Reachable lax m) : Sound lax m none none := by
  obtain ⟨config, disk, files, labels, hframes, hrun⟩ := h
  exact hrun.sound (Machine.sound_start disk files hframes)

theorem Reachable.step (h : Reachable lax m) (hs : Step lax m label m') : Reachable lax m' := by
  obtain ⟨config, disk, files, labels, hframes, hrun⟩ := h
  exact ⟨config, disk, files, _, hframes, hrun.step hs⟩

/-- Requests that are carried out on an empty machine and pass a check make a run to a machine that passes
it. -/
theorem Reachable.exists_of_carry {config : Config} {disk : Disk} {files : FileStore}
    {ops : List Operation} {test : List Label × Machine → Bool}
    (hframes : config.userFrames ≤ Entry.frameLimit)
    (h : ((Machine.start config disk files).carry ops).any test = true) :
    ∃ r, Run .all (Machine.start config disk files) r.1 r.2 ∧ Reachable .all r.2 ∧ test r = true := by
  obtain ⟨r, hrun, htest⟩ := Machine.exists_run (Operation.carryable_all ops) h
  exact ⟨r, hrun, ⟨_, _, _, r.1, hframes, hrun⟩, htest⟩

/-- Requests that leave a shared page evicted, when there are two frames for three pages. -/
def Operation.crowding : List Operation :=
  [.create, .register 0 .anon ⟨0x1000⟩ true .zero, .write 0 ⟨0x1000⟩ #[7], .fork 0,
    .register 0 .anon ⟨0x2000⟩ true .zero, .write 0 ⟨0x2000⟩ #[8],
    .register 0 .anon ⟨0x3000⟩ true .zero, .write 0 ⟨0x3000⟩ #[9]]

end DemandPaging
