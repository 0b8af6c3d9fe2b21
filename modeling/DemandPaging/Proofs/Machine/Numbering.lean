import DemandPaging.Operation
import DemandPaging.Proofs.Machine.Standing

/-!
# The numbers of mappings

Every attempt to map a file uses a number up; nothing else does. So no number is given to two
mappings, whatever is done in between (`Operation.number_le`).
-/

open DemandPaging.Action (Leaves)

namespace DemandPaging

namespace Machine

/-! ## Requests that use no number up -/

/-- What stays while pages are moved includes the number the next mapping gets. -/
theorem leaves_number {α : Type} {x : MachineM α} (h : Leaves standing x) : Leaves nextMapping x :=
  h.map Standing.number

/-- So does what stays while faults are resolved. -/
theorem leaves_number_of_lasting {α : Type} {x : MachineM α} (h : Leaves lasting x) :
    Leaves nextMapping x := h.map Standing.number

theorem leaves_number_onBacking {α : Type} (x : Action Backing α) :
    Leaves nextMapping (onBacking x) := fun m =>
  Action.meets_within.mpr (((Action.meets_trivial x m.backing).mono (fun _ _ _ => rfl)
    fun _ _ _ => rfl).relax fun _ _ _ => rfl)

/-! ### Removing pages -/

theorem leaves_number_dissolve (gid : Nat) : Leaves nextMapping (dissolve gid) :=
  .bind (.change fun _ => rfl) fun _ => .bind .get fun _ => .bind (.assert _) fun _ =>
    .change fun _ => rfl

theorem leaves_number_leaveGroup (gid : Nat) (o : Owner) : Leaves nextMapping (leaveGroup gid o) := by
  unfold leaveGroup
  refine .bind .get fun m => ?_
  split
  · exact .pure _
  · split
    · split
      · exact .bind (leaves_number_onBacking _) fun _ => leaves_number_dissolve gid
      · exact leaves_number_dissolve gid
    · exact .bind (.change fun _ => rfl) fun _ => leaves_number_dissolve gid
    · exact .change fun _ => rfl

theorem leaves_number_writeBackBeforeRemoval (p : Page) (f : FrameNum) :
    Leaves nextMapping (writeBackBeforeRemoval p f) := by
  unfold writeBackBeforeRemoval
  exact .bind (leaves_number (leaves_frameBytes f)) fun _ => .bind (leaves_number_onBacking _) fun _ =>
    .ite (.change fun _ => rfl) (.pure _)

theorem leaves_number_leaveFrame (o : Owner) (f : FrameNum) : Leaves nextMapping (leaveFrame o f) := by
  unfold leaveFrame
  exact .bind (.change fun _ => rfl) fun _ => .bind .get fun _ => .ite
    (.bind (.change fun _ => rfl) fun _ => leaves_number (leaves_releaseFrame f))
    (leaves_number (leaves_restoreSoleOwner f))

theorem leaves_number_removePage (o : Owner) (writeBack : Bool) :
    Leaves nextMapping (removePage o writeBack) := by
  unfold removePage
  refine .bind (leaves_number (leaves_registeredPage o)) fun page => .bind (.change fun _ => rfl)
    fun _ => ?_
  have hnote : Leaves nextMapping (note (.removed o)) := leaves_number (leaves_note _)
  split
  · refine .bind .get fun m => .bind (.change fun _ => rfl) fun _ => .ite ?_ ?_
    · exact .bind (leaves_number_writeBackBeforeRemoval page _) fun _ =>
        .bind (leaves_number_leaveFrame o _) fun _ => hnote
    · exact .bind (leaves_number_leaveFrame o _) fun _ => hnote
  · exact .bind (leaves_number_leaveGroup _ o) fun _ => hnote
  · exact .bind (leaves_number_onBacking _) fun _ => hnote

theorem leaves_number_unmap (id : SpaceId) (va : Address) : Leaves nextMapping (unmap id va) := by
  have hrun : Leaves nextMapping (unmapRun id va) := by
    unfold unmapRun
    exact .bind (leaves_number (leaves_space id)) fun space => .ite (.pure _) <| .ite
      (leaves_number (leaves_note _)) <| .bind (.forM fun v => leaves_number_removePage ⟨id, v⟩ true)
        fun _ => leaves_number (leaves_note _)
  unfold unmap
  refine .bind hrun.attempt fun r => ?_
  split
  · exact .pure _
  · exact leaves_number (leaves_note _)

/-! ### Copying -/

theorem leaves_number_shareWith (target source : SpaceId) (v : PageNum) :
    Leaves nextMapping (shareWith target source v) := by
  unfold shareWith
  refine .bind (leaves_number (leaves_registeredPage _)) fun page => .bind .get fun m =>
    .bind (.change fun _ => rfl) fun _ => ?_
  have hinsert : ∀ (copy : Page) (rest : MachineM Unit), Leaves nextMapping rest →
      Leaves nextMapping (do
        let space ← space target
        let registry ← Action.permit (space.registry.insert copy)
        modify (·.modifySpace target fun space => { space with registry })
        rest) := fun copy rest h =>
    .bind (leaves_number (leaves_space target)) fun space => .bind (.permit _) fun registry =>
      .bind (.change fun _ => rfl) fun _ => h
  cases page.frame with
  | none => exact hinsert _ _ (.pure _)
  | some f =>
    exact .bind (.change fun _ => rfl) fun _ => .bind (leaves_number (leaves_mapOwner _ _ _)) fun _ =>
      hinsert _ _ (.change fun _ => rfl)

theorem leaves_number_copyPage (target source : SpaceId) (v : PageNum) :
    Leaves nextMapping (copyPage target source v) := by
  unfold copyPage
  refine .bind (leaves_number (leaves_space target)) fun space => .ite (.refuse _) <|
    .bind (leaves_number (leaves_registeredPage _)) fun page => .ite ?_ ?_
  · exact .bind (leaves_number (leaves_claim _)) fun _ => leaves_number_shareWith target source v
  · exact leaves_number_shareWith target source v

theorem leaves_number_copyPages (target source : SpaceId) :
    Leaves nextMapping (copyPages target source) := by
  unfold copyPages
  exact .bind (leaves_number (leaves_space source)) fun _ =>
    .bind (.forM fun v => leaves_number_copyPage target source v) fun _ =>
      .bind (leaves_number (leaves_space source)) fun _ =>
        .bind (leaves_number (leaves_space target)) fun _ =>
          .bind (.change fun _ => rfl) fun _ => leaves_number (leaves_note _)

/-! ### Spaces -/

theorem leaves_number_createSpace : Leaves nextMapping createSpace := fun _ => rfl

theorem leaves_number_destroySpace (id : SpaceId) : Leaves nextMapping (destroySpace id) := by
  have hrelease : ∀ o, Leaves nextMapping (releasePage o) := fun o => by
    unfold releasePage
    refine .bind (leaves_number_removePage o true).attempt fun r => ?_
    split
    · exact .pure _
    · exact leaves_number (leaves_note _)
  unfold destroySpace
  refine .bind .get fun m => ?_
  split
  · exact .pure _
  · exact .bind (.forM fun v => hrelease ⟨id, v⟩) fun _ => .bind (.change fun _ => rfl) fun _ =>
      .bind .get fun _ => .bind (.assert _) fun _ => .bind (.change fun _ => rfl) fun _ =>
        leaves_number (leaves_note _)

theorem leaves_number_fork (parent : SpaceId) : Leaves nextMapping (fork parent) := by
  unfold fork
  refine .bind leaves_number_createSpace fun child => .bind (leaves_number_copyPages child parent).settle
    fun r => ?_
  split
  · exact .pure _
  · exact .bind (leaves_number_destroySpace child) fun _ => .throw _

/-! ### Stacks -/

theorem leaves_number_setupStack (id : SpaceId) : Leaves nextMapping (setupStack id) := by
  unfold setupStack
  exact .bind .get fun _ => .bind (leaves_number (leaves_register _ _ _ _ _)) fun _ =>
    .bind (leaves_number (leaves_claim _)) fun _ => .bind (leaves_number (leaves_space id)) fun _ =>
      .bind (.change fun _ => rfl) fun _ => .pure _

/-! ## Making a mapping -/

theorem leaves_number_mapPages (id : SpaceId) (writable : Bool) (handle : HandleNum) (mapping : Nat)
    (start : PageNum) : ∀ (vs : List PageNum) (offset remaining : Nat),
      Leaves nextMapping (mapPages id writable handle mapping start vs offset remaining)
  | [], _, _ => .pure _
  | v :: vs, offset, remaining => by
    unfold mapPages
    refine .bind (fun _ => rfl) fun opened => .bind (leaves_number (leaves_register _ _ _ _ _)).attempt fun r => ?_
    split
    · exact leaves_number_mapPages id writable handle mapping start vs _ _
    · exact .bind (.assert _) fun _ => .bind (.forM fun v => leaves_number_removePage ⟨id, v⟩ false)
        fun _ => .refuse _

/-- An attempt to make a mapping uses one number up, whether it goes through or not. -/
theorem meets_mapFile_number (id : SpaceId) (va : Address) (length : Nat) (writable : Bool)
    (handle : HandleNum) (offset : Nat) (m : Machine) :
    Action.Meets (fun _ m' => m'.nextMapping = m.nextMapping + 1)
      (mapFile id va length writable handle offset) m
      (fun _ m' => m'.nextMapping = m.nextMapping + 1)
      fun _ m' => m'.nextMapping = m.nextMapping + 1 := by
  unfold mapFile
  rw [Action.meets_bind, Action.meets_modifyGet]
  refine (?_ : Leaves nextMapping _) { m with nextMapping := m.nextMapping + 1 }
  refine .bind .get fun m => .bind (.permit _) fun stop => .bind (.assert _) fun range =>
    .bind (leaves_number (leaves_space id)) fun space => ?_
  dsimp only
  split
  · exact .refuse _
  · exact .bind (leaves_number_mapPages _ _ _ _ _ _ _ _) fun _ => .bind (leaves_number (leaves_note _)) fun _ =>
      .pure _

end Machine

namespace Operation

open Machine

/-- **No number is given twice**: whatever is asked, the next mapping gets the same number as before
or a higher one. -/
theorem meets_perform_number (op : Operation) (m : Machine) :
    Action.Meets (fun _ m' => m.nextMapping ≤ m'.nextMapping) op.perform m
      (fun _ m' => m.nextMapping ≤ m'.nextMapping) fun _ m' => m.nextMapping ≤ m'.nextMapping := by
  have hsame : ∀ {α : Type} {x : MachineM α}, Leaves nextMapping x →
      Action.Meets (fun _ m' => m.nextMapping ≤ m'.nextMapping) x m
        (fun _ m' => m.nextMapping ≤ m'.nextMapping) fun _ m' => m.nextMapping ≤ m'.nextMapping :=
    fun h => ((h m).mono (fun _ _ h => Nat.le_of_eq h.symm) fun _ _ h => Nat.le_of_eq h.symm).relax
      fun _ _ h => Nat.le_of_eq h.symm
  cases op with
  | create => exact hsame (.bind leaves_number_createSpace fun _ => .pure _)
  | fork parent => exact hsame (.bind (leaves_number_fork parent) fun _ => .pure _)
  | drop id => exact hsame (.bind (leaves_number_destroySpace id) fun _ => .pure _)
  | copy target source =>
    refine hsame (.bind ?_ fun _ => .pure _)
    cases source with
    | own source => exact leaves_number_copyPages target source
    | foreign source => exact .refuse _
  | register id type va writable setup =>
    exact hsame (.bind (fun _ => rfl) fun _ => .bind (leaves_number (leaves_register _ _ _ _ _)) fun _ => .pure _)
  | claim id va => exact hsame (.bind (leaves_number (leaves_claim _)) fun _ => .pure _)
  | resolve id fault =>
    exact hsame (.bind (leaves_number_of_lasting (leaves_resolveFault id fault)) fun _ => .pure _)
  | remove id va => exact hsame (.bind (leaves_number_removePage _ _) fun _ => .pure _)
  | map id va length writable handle offset =>
    have hle : ∀ {m' : Machine}, m'.nextMapping = m.nextMapping + 1 → m.nextMapping ≤ m'.nextMapping :=
      fun h => Nat.le.intro h.symm
    exact (((meets_mapFile_number id va length writable handle offset m).mono (fun _ _ h => hle h)
      fun _ _ h => hle h).relax fun _ _ h => hle h).bind (fun _ _ h => h) fun _ _ h => h
  | unmap id va => exact hsame (.bind (leaves_number_unmap id va) fun _ => .pure _)
  | setupStack id => exact hsame (.bind (leaves_number_setupStack id) fun _ => .pure _)
  | read id va length =>
    exact hsame (.bind (leaves_number_of_lasting (leaves_readSpans id _ _)) fun _ => .pure _)
  | write id va bytes =>
    exact hsame (.bind (leaves_number_of_lasting (leaves_writeSpans id bytes _ _)) fun _ => .pure _)

end Operation

end DemandPaging
