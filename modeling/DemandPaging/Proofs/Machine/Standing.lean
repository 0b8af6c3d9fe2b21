import DemandPaging.Machine.Access
import DemandPaging.Proofs.Action
import DemandPaging.Proofs.Pools
import DemandPaging.Proofs.Storage.Swap

/-!
# What stays while pages are moved

The configuration of a machine, the number of its frames and the number of its slots stay what they
are, only making a mapping uses a number up, and faults are counted where they are resolved and nowhere
else (`Machine.standing`). It does not matter for that whether the machine is in order or how a request
ends.
-/

open DemandPaging.Action (Leaves)

namespace DemandPaging

/-! ## Backing stores -/

/-- The number of slots stays while files are read and written. -/
theorem Backing.leaves_onFiles {α : Type} (x : Action FileStore α) :
    Leaves (·.swap.capacity) (onFiles x) := fun _ =>
  Action.meets_within.mpr ((((Action.meets_trivial x _).mono (fun _ _ _ => rfl) fun _ _ _ => rfl).relax
    fun _ _ _ => rfl))

theorem AnonPage.capacity_load {a a' : AnonPage} {swap swap' : Swap} {frame frame' : PageBytes}
    (h : a.load swap frame = .ok (a', swap', frame')) : swap'.capacity = swap.capacity := by
  unfold load at h
  split at h
  · obtain ⟨-, rfl, -⟩ := Prod.mk.inj (Except.ok.inj h) |>.imp id Prod.mk.inj
    rfl
  · split at h
    · rename_i hf
      obtain ⟨-, rfl, -⟩ := Prod.mk.inj (Except.ok.inj h) |>.imp id Prod.mk.inj
      exact Swap.capacity_fetch hf
    · cases h

theorem AnonPage.capacity_store {a : AnonPage} {swap swap' : Swap} {frame : PageBytes} {slot : Nat}
    (h : store swap frame = .ok (a, slot, swap')) : swap'.capacity = swap.capacity := by
  unfold store at h
  split at h
  · rename_i hs
    obtain ⟨-, -, rfl⟩ := Prod.mk.inj (Except.ok.inj h) |>.imp id Prod.mk.inj
    exact Swap.capacity_store hs
  · cases h

namespace Transfer

theorem leaves_loadWindow (w : FileWindow) : Leaves (·.backing.swap.capacity) (loadWindow w) := fun _ =>
  Action.meets_within.mpr ((((Action.meets_trivial _ _).mono (fun _ _ _ => rfl) fun _ _ _ => rfl).relax
    fun _ _ _ => rfl))

theorem leaves_runInitializer (n : Nat) : Leaves (·.backing.swap.capacity) (runInitializer n) := by
  unfold runInitializer
  refine .bind .get fun t => .ite (.bind (.abort _) fun _ => ?_) ?_
  all_goals
    refine .bind (.change fun _ => rfl) fun _ => .ite ?_ (.pure _)
    exact .bind (.change fun _ => rfl) fun _ => .refuse _

theorem leaves_loadAnon (a : AnonPage) : Leaves (·.backing.swap.capacity) (loadAnon a) := by
  intro t
  unfold loadAnon
  simp only [Action.meets_bind, Action.meets_get, Action.meets_set, Action.meets_pure]
  rw [Action.meets_assert]
  exact ⟨fun r hr => AnonPage.capacity_load hr, fun _ _ => rfl⟩

end Transfer

namespace Page

theorem leaves_load (p : Page) : Leaves (·.backing.swap.capacity) p.load := by
  unfold load
  split
  · rename_i origin _
    refine .bind ?_ fun _ => .pure _
    cases origin with
    | zero => exact .pure _
    | file w => exact Transfer.leaves_loadWindow w
    | custom n => exact Transfer.leaves_runInitializer n
  · exact .bind (Transfer.leaves_loadAnon _) fun _ => .pure _
  · exact .bind (Transfer.leaves_loadWindow _) fun _ => .pure _

theorem leaves_store (p : Page) (frame : PageBytes) (dirty : Bool) :
    Leaves (·.swap.capacity) (p.store frame dirty) := by
  unfold store
  split
  · exact .refuse _
  · intro b
    simp only [Action.meets_bind, Action.meets_get, Action.meets_permit, Action.meets_modify,
      Action.meets_pure]
    exact ⟨fun r hr => AnonPage.capacity_store hr, fun _ _ => trivial⟩
  · exact .bind (Backing.leaves_onFiles _) fun _ => .pure _

end Page

/-! ## The machine -/

/-- What stays of a machine while pages are moved. -/
structure Standing where
  config : Config
  /-- The number of frames. -/
  frames : Nat
  /-- The number of slots. -/
  slots : Nat
  /-- The faults counted so far. -/
  faults : Nat
  /-- The number the next mapping gets. -/
  number : Nat

namespace Machine

/-- What stays of a machine while its pages are moved. -/
def standing (m : Machine) : Standing :=
  ⟨m.config, m.frames.total, m.backing.swap.capacity, m.counters.faults, m.nextMapping⟩

/-! ### Looking things up -/

theorem leaves_note (event : Event) : Leaves standing (note event) := .change fun _ => rfl

theorem leaves_space (id : SpaceId) : Leaves standing (space id) :=
  .bind .get fun _ => .require _ _

theorem leaves_ownedPage (o : Owner) : Leaves standing (ownedPage o) :=
  .bind (leaves_space _) fun _ => .require _ _

theorem leaves_registeredPage (o : Owner) : Leaves standing (registeredPage o) :=
  .bind (leaves_space _) fun _ => .require _ _

theorem leaves_frameBytes (f : FrameNum) : Leaves standing (frameBytes f) := by
  unfold frameBytes
  refine .bind .get fun m => ?_
  split
  · exact .pure _
  · exact .abort _

/-- Pages and mappings of spaces may change. -/
theorem leaves_modifySpace (id : SpaceId) (g : AddressSpace → AddressSpace) :
    Leaves standing (modify (·.modifySpace id g)) := .change fun _ => rfl

theorem leaves_mapOwner (o : Owner) (f : FrameNum) (flags : Flags) :
    Leaves standing (mapOwner o f flags) :=
  .bind (leaves_space _) fun _ => .bind (.permit _) fun _ => leaves_modifySpace _ _

theorem leaves_recordFrame (f : FrameNum) (l : List Owner) : Leaves standing (recordFrame f l) :=
  .bind .get fun _ => .bind (.assert _) fun _ => .change fun _ => rfl

theorem leaves_releaseFrame (f : FrameNum) : Leaves standing (releaseFrame f) := by
  intro m
  unfold releaseFrame
  simp only [Action.meets_bind, Action.meets_get]
  rw [Action.meets_assert]
  refine ⟨fun frames h => ?_, fun _ _ => rfl⟩
  rw [Action.meets_modify, standing, FramePool.total_release h]
  rfl

theorem leaves_onBacking {α : Type} {x : Action Backing α} (h : Leaves (·.swap.capacity) x) :
    Leaves standing (onBacking x) :=
  h.within fun r m hr => by simp only [standing, hr]

theorem leaves_onFrame {α : Type} (f : FrameNum) {x : Action Transfer α}
    (h : Leaves (·.backing.swap.capacity) x) : Leaves standing (onFrame f x) :=
  .bind (leaves_frameBytes f) fun _ => h.within fun r m hr => by
    simp only [standing, hr, FramePool.total_setBytes]

/-! ### Evicting -/

theorem leaves_selectVictim : Leaves standing selectVictim := by
  intro m
  unfold selectVictim
  simp only [Action.meets_bind, Action.meets_get, Action.meets_set]
  split
  · exact ((leaves_note _).bind fun _ => .pure _) _
  · exact Leaves.refuse _ _

theorem leaves_moveOut (leader : Owner) (f : FrameNum) (dirty : Bool) :
    Leaves standing (moveOut leader f dirty) := by
  unfold moveOut
  refine .bind (leaves_ownedPage _) fun page => .bind (leaves_frameBytes _) fun bytes =>
    .bind (leaves_onBacking (page.leaves_store bytes dirty)) fun r =>
      .bind (leaves_modifySpace _ _) fun _ => ?_
  split
  · exact .bind (leaves_note _) fun _ => .pure _
  · exact .pure _

theorem leaves_detach (ev : Evicted) (o : Owner) : Leaves standing (detach ev o) :=
  .bind (leaves_ownedPage _) fun _ => .change fun _ => rfl

theorem leaves_formGroup (l : List Owner) (slot : Option Nat) : Leaves standing (formGroup l slot) := by
  intro m
  unfold formGroup
  simp only [Action.meets_bind, Action.meets_get, Action.meets_set]
  refine ((Leaves.forM fun o => .bind (leaves_ownedPage o) fun _ => leaves_modifySpace _ _)
    { m with groupIds := m.groupIds.take.2 }).mono (fun _ m' h => h) fun _ _ h => h

theorem leaves_evict (f : FrameNum) : Leaves standing (evict f) := by
  unfold evict
  refine .bind .get fun m => .bind (.require _ _) fun c => ?_
  split
  · exact .abort _
  · refine .bind (leaves_moveOut _ _ _) fun ev => .bind (.forM fun o => leaves_detach ev o) fun _ =>
      .bind (.change fun _ => rfl) fun _ => .ite (.bind (leaves_formGroup _ _) fun _ => ?_) ?_
    all_goals exact .bind (.change fun _ => rfl) fun _ => leaves_note _

theorem leaves_acquireFrame : Leaves standing acquireFrame := by
  intro m
  unfold acquireFrame
  simp only [Action.meets_bind, Action.meets_get]
  split
  · rename_i ha
    simp only [Action.meets_bind, Action.meets_modify, Action.meets_pure, standing,
      FramePool.total_alloc? ha]
  · exact (leaves_selectVictim.bind fun f => (leaves_evict f).bind fun _ =>
      .bind (.change fun _ => by simp only [standing, FramePool.total_setBytes]) fun _ => .pure _) m

/-! ### Claiming -/

theorem leaves_rejoinMembers (gid : Nat) (f : FrameNum) :
    ∀ l, Leaves standing (rejoinMembers gid f l)
  | [] => .pure _
  | o :: l => by
    unfold rejoinMembers
    refine .bind (leaves_ownedPage o) fun page => .ite ?_ (leaves_rejoinMembers gid f l)
    exact .bind (leaves_modifySpace _ _) fun _ =>
      .bind (leaves_rejoinMembers gid f l) fun _ => .pure _

theorem leaves_rejoin (gid : Nat) (o : Owner) (f : FrameNum) : Leaves standing (rejoin gid o f) := by
  intro m
  unfold rejoin
  rw [Action.meets_bind, Action.meets_get, Action.meets_bind, Action.meets_require]
  refine ⟨fun group _ => ?_, fun _ => rfl⟩
  rw [Action.meets_bind, Action.meets_set]
  refine (?_ : Leaves standing _) { m with groups := m.groups.erase gid }
  exact .bind (leaves_rejoinMembers gid f _) fun _ => .bind .get fun _ => .bind (.assert _) fun _ =>
    .bind (.change fun _ => rfl) fun _ => .bind (leaves_note _) fun _ => .pure _

theorem leaves_loadInto (o : Owner) (f : FrameNum) : Leaves standing (loadInto o f) := by
  unfold loadInto
  refine .bind (leaves_registeredPage o) fun page => .bind (leaves_onFrame f page.leaves_load)
    fun _ => .bind (leaves_modifySpace _ _) fun _ => ?_
  split
  · exact .bind (leaves_note _) fun _ => .bind (.change fun _ => rfl) fun _ => .pure _
  · exact .pure _

theorem leaves_populate (o : Owner) (f : FrameNum) : Leaves standing (populate o f) := by
  unfold populate
  refine .bind (leaves_loadInto o f) fun group => ?_
  have hmap : ∀ l, Leaves standing (do
      l.forM (mapResident f (1 < l.length))
      recordFrame f l
      note (.claimed o f)) := fun l =>
    .bind (.forM fun o => .bind (leaves_ownedPage o) fun _ => leaves_mapOwner _ _ _) fun _ =>
      .bind (leaves_recordFrame _ _) fun _ => leaves_note _
  cases group with
  | some gid => exact .bind (leaves_rejoin gid o f) hmap
  | none => exact hmap [o]

theorem leaves_claim (o : Owner) : Leaves standing (claim o) := by
  unfold claim
  refine .bind (leaves_registeredPage o) fun page => ?_
  split
  · exact .pure _
  · refine .bind .get fun m => .ite (.refuse _) (.bind leaves_acquireFrame fun f =>
      .bind (leaves_populate o f).attempt fun r => ?_)
    cases r with
    | ok => exact .pure _
    | error cause => exact .bind (leaves_releaseFrame f) fun _ => .refuse _

/-! ### Sharing -/

theorem leaves_restoreSoleOwner (f : FrameNum) : Leaves standing (restoreSoleOwner f) := by
  unfold restoreSoleOwner
  refine .bind .get fun m => ?_
  split
  · exact .bind (leaves_ownedPage _) fun _ => .ite (leaves_modifySpace _ _) (.pure _)
  · exact .pure _

theorem leaves_acquireBeside (f : FrameNum) : Leaves standing (acquireBeside f) :=
  .bind (.change fun _ => rfl) fun _ => .bind leaves_acquireFrame.attempt fun _ =>
    .bind (.change fun _ => rfl) fun _ => .permit _

theorem leaves_moveToCopy (o : Owner) (old : Entry) (copy : FrameNum) :
    Leaves standing (moveToCopy o old copy) := by
  intro m
  unfold moveToCopy
  rw [Action.meets_bind, Action.meets_get, Action.meets_bind, Action.meets_assert]
  refine ⟨fun frames h => ?_, fun _ _ => rfl⟩
  rw [Action.meets_bind, Action.meets_modify]
  have hmoved : ({ m with frames, resident := m.resident.removeOwner old.frame o } : Machine).standing =
      m.standing := by
    simp only [standing, FramePool.total_copy h]
  rw [← hmoved]
  refine (?_ : Leaves standing _) _
  exact .bind (leaves_restoreSoleOwner _) fun _ => .bind (leaves_modifySpace _ _) fun _ =>
    .bind (leaves_mapOwner _ _ _) fun _ => .bind (leaves_ownedPage o) fun _ =>
      .bind (leaves_modifySpace _ _) fun _ => leaves_recordFrame _ _

theorem leaves_breakSharing (o : Owner) : Leaves standing (breakSharing o) := by
  unfold breakSharing
  refine .bind (leaves_space _) fun space => .bind (.require _ _) fun old => .ite (.pure _) ?_
  refine .bind .get fun m => .ite (leaves_modifySpace _ _) ?_
  exact .bind (leaves_acquireBeside _) fun copy => .bind (leaves_moveToCopy o old copy) fun _ =>
    .bind (.change fun _ => rfl) fun _ => leaves_note _

/-! ### Registering pages and growing the stack -/

theorem leaves_register (id : SpaceId) (type : PageType) (va : Address) (writable : Bool)
    (origin : Origin) : Leaves standing (register id type va writable origin) :=
  .bind (.permit _) fun _ => .bind (leaves_space _) fun _ => .bind (.permit _) fun _ =>
    .bind (leaves_modifySpace _ _) fun _ => leaves_note _

theorem leaves_growStack (id : SpaceId) (vpn : PageNum) : Leaves standing (growStack id vpn) := by
  unfold growStack
  refine .bind (leaves_space id) fun space => .bind (.assert _) fun range =>
    .bind (.forM fun v => ?_) fun _ => .bind (leaves_modifySpace _ _) fun _ => leaves_note _
  unfold registerStackPage
  exact .bind (leaves_space id) fun _ => .ite (.pure _) (leaves_register _ _ _ _ _)

/-! ### Faults -/

theorem leaves_dispatchFault (id : SpaceId) (fault : PageFault) :
    Leaves standing (dispatchFault id fault) := by
  unfold dispatchFault
  refine .bind .get fun m => .ite (.refuse _) (.bind (leaves_space id) fun space => ?_)
  split
  · unfold faultOnMissing
    exact .bind .get fun _ => .ite (.bind (leaves_growStack _ _) fun _ =>
      .bind (leaves_claim _) fun _ => .pure _) (.refuse _)
  · unfold faultOnPage
    exact .ite (.refuse _) (.ite (.bind (leaves_note _) fun _ => .bind (leaves_claim _) fun _ => .pure _)
      (.ite (leaves_breakSharing _) (.pure _)))

/-- **A fault is counted once**, however it ends. -/
theorem meets_resolveFault_standing (id : SpaceId) (fault : PageFault) (m : Machine) :
    Action.Meets (fun _ m' => m'.standing = { m.standing with faults := m.counters.faults + 1 })
      (resolveFault id fault) m
      (fun _ m' => m'.standing = { m.standing with faults := m.counters.faults + 1 })
      fun _ m' => m'.standing = { m.standing with faults := m.counters.faults + 1 } := by
  unfold resolveFault count
  simp only [Action.meets_bind, Action.meets_modify, Action.meets_attempt]
  exact (leaves_dispatchFault id fault { m with
    counters := { m.counters with faults := m.counters.faults + 1 } }).mono (fun _ _ h => h)
      fun _ _ h => h

/-! ### User accesses -/

/-- What stays of a machine while faults are resolved. -/
def lasting (m : Machine) : Standing := { m.standing with faults := 0 }

/-- The configuration of a machine, and how many frames and slots it has. -/
def extent (m : Machine) : Config × Nat × Nat :=
  (m.config, m.frames.total, m.backing.swap.capacity)

/-- What stays while pages are moved stays while faults are resolved. -/
theorem leaves_lasting {α : Type} {x : MachineM α} (h : Leaves standing x) : Leaves lasting x :=
  h.map fun s => { s with faults := 0 }

/-- What stays while faults are resolved includes the extent. -/
theorem leaves_extent {α : Type} {x : MachineM α} (h : Leaves lasting x) : Leaves extent x :=
  h.map fun s => (s.config, s.frames, s.slots)

theorem leaves_resolveFault (id : SpaceId) (fault : PageFault) :
    Leaves lasting (resolveFault id fault) := fun m => by
  have hlasting : ∀ {m' : Machine}, m'.standing = { m.standing with faults := m.counters.faults + 1 } →
      m'.lasting = m.lasting := fun h => congrArg (fun s : Standing => { s with faults := 0 }) h
  exact ((meets_resolveFault_standing id fault m).mono (fun _ _ h => hlasting h) fun _ _ h =>
    hlasting h).relax fun _ _ h => hlasting h

theorem leaves_accessWithin (id : SpaceId) (va : Address) (write : Bool) :
    ∀ faults, Leaves lasting (accessWithin id va write faults)
  | 0 => .refuse _
  | faults + 1 => by
    unfold accessWithin
    refine .bind (leaves_lasting (leaves_space id)) fun space => ?_
    split
    · refine .ite (.bind (leaves_lasting (leaves_modifySpace _ _)) fun _ => .pure _) ?_
      exact .bind (leaves_resolveFault _ _) fun _ => leaves_accessWithin id va write faults
    · exact .bind (leaves_resolveFault _ _) fun _ => leaves_accessWithin id va write faults

theorem leaves_readSpans (id : SpaceId) :
    ∀ spans done, Leaves lasting (readSpans id spans done)
  | [], _ => .pure _
  | span :: spans, done => by
    unfold readSpans
    refine .bind (leaves_accessWithin id span.va false maxFaults).attempt fun r => ?_
    split
    · exact .bind (leaves_lasting (leaves_frameBytes _)) fun _ => leaves_readSpans id spans _
    · exact .pure _

theorem leaves_writeSpans (id : SpaceId) (bytes : Bytes) :
    ∀ spans done, Leaves lasting (writeSpans id bytes spans done)
  | [], _ => .pure _
  | span :: spans, done => by
    unfold writeSpans
    refine .bind (leaves_accessWithin id span.va true maxFaults) fun f m => ?_
    simp only [Action.meets_bind, Action.meets_get]
    rw [Action.meets_assert]
    refine ⟨fun frames h => ?_, fun _ _ => rfl⟩
    have hlasting : ({ m with frames } : Machine).lasting = m.lasting := by
      simp only [lasting, standing, FramePool.total_write h]
    rw [Action.meets_modify, ← hlasting]
    exact leaves_writeSpans id bytes spans _ _

end Machine

end DemandPaging
