import DemandPaging.Proofs.Ledger.Requests
import DemandPaging.Proofs.Machine.Access
import DemandPaging.Proofs.Machine.Mapping
import DemandPaging.Proofs.Machine.Spaces

/-!
# Every operation keeps the books

An operation that is carried out in order ends in order, also when it is refused, and comes to the
moves `Operation.Tells` says (`Operation.meets_perform`). The handles it names have to be open; that
nothing breaks either is promised only for windows and initializers that fit in a page.
-/

namespace DemandPaging

open Machine (Sound)

/-- A setup whose handle is open, and which fits in a page unless assertions may break. -/
structure Setup.Admissible (lax : Tolerance) (setup : Setup) (files : FileStore) : Prop where
  window : ∀ w, setup = .file w → w.Usable lax files
  content : ∀ i, setup = .custom i → lax .outOfBounds ∨ i.content.size ≤ pageSize

namespace Operation

/-- The handles an operation names are open, and what it hands over fits in a page unless
assertions may break. -/
def Admissible (lax : Tolerance) (m : Machine) : Operation → Prop
  | register _ _ _ _ setup => setup.Admissible lax m.backing.files
  | map _ _ _ _ handle _ => handle < m.backing.files.handles.size ∧
      ((∀ inode offset, lax (.shortWriteBack inode offset)) ∨ ((m.backing.files.fileOf handle).grows = false →
        pageSize ≤ (m.backing.files.fileOf handle).writeCap))
  | _ => True

/-- The handles an operation names. -/
def handles : Operation → List HandleNum
  | register _ _ _ _ (.file w) => [w.handle]
  | map _ _ _ _ handle _ => [handle]
  | _ => []

/-- Where assertions may break, nothing has to fit. -/
theorem admissible_of_handles {op : Operation} {m : Machine}
    (h : ∀ k ∈ op.handles, k < m.backing.files.handles.size) : op.Admissible .all m := by
  cases op with
  | register id type va writable setup =>
    refine ⟨fun w hw => ?_, fun _ _ => Or.inl trivial⟩
    subst hw
    exact ⟨h _ (List.mem_singleton.mpr rfl), Or.inl trivial, Or.inl fun _ _ => trivial⟩
  | map id va length writable handle offset =>
    exact ⟨h _ (List.mem_singleton.mpr rfl), Or.inl fun _ _ => trivial⟩
  | _ => trivial

end Operation

namespace Machine

variable {lax : Tolerance} {m m' : Machine} {setup : Setup}

/-! ## Taking a setup in -/

/-- What a setup became. -/
structure Prepared (lax : Tolerance) (m m' : Machine) (setup : Setup) (origin : Origin)
    (ks : List Ledger.Kind) : Prop where
  reaches : Reaches lax (Ledger.Trace ks) m m'
  available : Available lax m'.backing origin
  supplies : Layout.Supplies setup (origin.located m'.backing.files) ks
  floor : m'.floorAt? = m.floorAt?
  page : m'.page? = m.page?

theorem meets_prepare {R : Refusal → Machine → Prop} (hm : Sound lax m none none)
    (hsetup : setup.Admissible lax m.backing.files) :
    Action.Meets (Breaking lax) (prepare setup) m
      (fun origin m' => ∃ ks, Prepared lax m m' setup origin ks) R := by
  unfold prepare
  rw [Action.meets_modifyGet]
  cases setup with
  | zero => exact ⟨[], .refl hm, .zero _, .zero, rfl, rfl⟩
  | file w =>
    refine ⟨[], .refl hm, ⟨nofun, fun w' hw => ?_⟩, .file w _, rfl, rfl⟩
    exact Origin.file.inj hw ▸ hsetup.window w rfl
  | custom i =>
    have hpush : ∀ n : Nat, (m.backing.initializers.push i)[n]? =
        if n = m.backing.initializers.size then some i else m.backing.initializers[n]? :=
      fun n => Array.getElem?_push
    have hledger : Machine.ledger { m with backing := { m.backing with
        initializers := m.backing.initializers.push i } } none none =
        (m.ledger none none).supply m.backing.initializers.size i.content := by
      apply Ledger.ext
      case initial =>
        funext n
        refine (congrArg (Option.map Initializer.content) (hpush n)).trans ?_
        split
        · rename_i hn
          exact (if_pos hn).symm
        · rename_i hn
          exact (if_neg hn).symm
      all_goals rfl
    refine ⟨[.supply m.backing.initializers.size i.content], .single ?_ ?_, ⟨fun n hn => ?_, nofun⟩,
      .custom i _, rfl, rfl⟩
    · exact { hm.kept with
        initializers := hm.kept.initializers.elim Or.inl fun h =>
          (hsetup.content i rfl).imp_right fun hi n j hj => by
            have hj := (hpush n).symm.trans hj
            split at hj
            · rwa [← Option.some.inj hj]
            · exact h n j hj }
    · refine hledger.symm ▸ .supply ?_
      show (m.backing.initializers[m.backing.initializers.size]?).map Initializer.content = none
      simp
    · rw [← Origin.custom.inj hn]
      show ((m.backing.initializers.push i)[m.backing.initializers.size]?).isSome
      rw [hpush, if_pos rfl]
      rfl

end Machine

/-! ## Carrying an operation out -/

namespace Operation

variable {lax : Tolerance} {m : Machine}

theorem tells_of_told {m' : Machine} {op : Operation} {outcome : Except Refusal Reply}
    {P : Layout → List Ledger.Kind → Prop} (h : Machine.Reaches lax (Ledger.Told P) m m')
    (hmoves : ∀ {Y ks}, P Y ks → op.Moves outcome Y ks)
    (hread : ∀ id va length, op ≠ .read id va length) (hunmap : ∀ id va, op ≠ .unmap id va) :
    Machine.Reaches lax (op.Tells outcome) m m' := by
  obtain ⟨hkept, ks, hks, htrace⟩ := h
  exact ⟨hkept, .told ⟨ks, hmoves hks, htrace⟩ hread hunmap⟩

/-- **Every operation keeps the books**, and comes to what it is said to come to. A refusal tells
that the machine is out of order only when a space the operation names is not there. -/
theorem meets_perform (op : Operation) (hm : Sound lax m none none) (hop : op.Admissible lax m) :
    Action.Meets (Breaking lax) op.perform m
      (fun reply m' => Machine.Reaches lax (op.Tells (.ok reply)) m m')
      (fun cause m' => Machine.Reaches lax (op.Tells (.error cause)) m m' ∧
        (cause.isInternal = true → ∃ id ∈ op.spaces, m.floorAt? id = none)) := by
  have hone : ∀ {id : SpaceId} {cause : Refusal}, op.spaces = [id] →
      (cause.isInternal = true → m.floorAt? id = none) →
      cause.isInternal = true → ∃ id ∈ op.spaces, m.floorAt? id = none :=
    fun hid h hc => ⟨_, by rw [hid]; exact List.mem_singleton.mpr rfl, h hc⟩
  cases op with
  | create =>
    exact (Machine.meets_createSpace hm).bind (fun _ _ h => tells_of_told h .create nofun nofun)
      fun _ _ h => h
  | fork parent =>
    exact (Machine.meets_fork hm).bind (fun _ _ h => tells_of_told h .fork nofun nofun)
      fun _ _ h => ⟨tells_of_told h.1 .forkRefused nofun nofun, hone rfl h.2⟩
  | drop id =>
    exact (Machine.meets_destroySpace hm).bind (fun _ _ h => tells_of_told h .drop nofun nofun)
      fun _ _ h => h
  | copy target source =>
    cases source with
    | foreign source =>
      exact ⟨⟨hm.kept, .told ⟨[], .copyForeign, .refl _⟩ nofun nofun⟩, nofun⟩
    | own source =>
      refine ((Machine.meets_copyPages hm).relax fun _ _ h => h.1).bind
        (fun _ _ h => tells_of_told (h.mono fun _ _ h => h.told) .copy nofun nofun)
        fun _ _ h => ⟨tells_of_told h.1 .copyRefused nofun nofun, fun hc => ?_⟩
      rcases h.2 hc with hnone | hnone
      · exact ⟨source, by simp [spaces], hnone⟩
      · exact ⟨target, by simp [spaces], hnone⟩
  | register id type va writable setup =>
    refine (Machine.meets_prepare hm hop).bind (fun origin m₁ h₁ => ?_) fun _ _ h => h
    obtain ⟨ks, h₁⟩ := h₁
    refine (Machine.meets_register (h₁.reaches.sound hm) h₁.available).bind ?_ ?_
    · rintro _ m₂ ⟨hbacking, hkept, htold⟩
      have hfree : (m.ledger none none).layout.registered ⟨id, va.page⟩ = false := by
        have hnone := htold.page_eq_none
        rw [Machine.page_ledger, Option.map_eq_none_iff, h₁.page] at hnone
        rw [Machine.registered_ledger, hnone]
        rfl
      exact ⟨hkept, .told ⟨_, .register (.intro h₁.supplies hfree), h₁.reaches.told.move htold⟩
        nofun nofun⟩
    · rintro cause _ ⟨rfl, hinternal⟩
      rw [h₁.floor] at hinternal
      exact ⟨⟨h₁.reaches.kept, .told ⟨ks, .registerRefused h₁.supplies, h₁.reaches.told⟩
        nofun nofun⟩, hone rfl hinternal⟩
  | claim id va =>
    exact ((Machine.meets_claim hm ⟨id, va.page⟩).relax fun _ _ h => h.1).bind
      (fun _ _ h => ⟨h.1.kept, .told ⟨[], .claim, h.1.told⟩ nofun nofun⟩)
      fun _ _ h => ⟨⟨h.1.kept, .told ⟨[], .claimRefused, h.1.told⟩ nofun nofun⟩, hone rfl h.2⟩
  | resolve id fault =>
    exact ((Machine.meets_resolveFault hm).relax fun _ _ h => h.overrun.allowed).bind
      (fun _ _ h => tells_of_told h.reaches .resolve nofun nofun)
      fun _ _ h => ⟨tells_of_told h.1 .resolveRefused nofun nofun, hone rfl h.2.internal⟩
  | remove id va =>
    refine (Machine.meets_removePage hm ⟨id, va.page⟩ false).bind
      (fun _ _ h => ⟨h.1.kept, .told ⟨_, .remove, .single h.1.told⟩ nofun nofun⟩) ?_
    rintro cause _ ⟨rfl, -, hinternal⟩
    exact ⟨⟨hm.kept, .told ⟨[], .removeRefused, .refl _⟩ nofun nofun⟩, hone rfl hinternal⟩
  | map id va length writable handle offset =>
    refine (Machine.meets_mapFile hm hop.1 hop.2).bind ?_ fun _ _ h =>
      ⟨⟨h.1.kept, .told ⟨[], .mapRefused, h.1.told⟩ nofun nofun⟩, hone rfl h.2⟩
    rintro _ m' ⟨rfl, h⟩
    refine tells_of_told ⟨h.reaches.kept, _, .intro rfl fun v hv => ?_, h.reaches.told⟩ .map
      nofun nofun
    rw [Machine.registered_ledger, h.free v hv]
    rfl
  | unmap id va =>
    exact (Machine.meets_unmap hm).bind
      (fun _ _ h => ⟨h.kept, .unmap rfl rfl h.told⟩) fun _ _ h => h
  | setupStack id =>
    refine (Machine.meets_setupStack hm).bind ?_ fun _ _ h => ⟨?_, hone rfl h.2⟩
    · rintro _ m' ⟨rfl, h⟩
      exact ⟨h.kept, .told ⟨_, (.setupStack : Moves _ (.ok (.address
        (m.ledger none none).layout.config.stackTop)) _ _), h.told⟩ nofun nofun⟩
    · rcases h.1 with h | h
      · exact ⟨h.kept, .told ⟨_, .setupStackRefused (Or.inl rfl), h.told⟩ nofun nofun⟩
      · exact ⟨h.kept, .told ⟨_, .setupStackRefused (Or.inr rfl), h.told⟩ nofun nofun⟩
  | read id va length =>
    exact (Machine.meets_read hm).bind (fun _ _ h => ⟨h.1.kept, .read rfl rfl h.1.told⟩)
      fun _ _ h => h
  | write id va bytes =>
    exact (Machine.meets_write hm).bind (fun _ _ h => tells_of_told h .write nofun nofun)
      fun _ _ h => ⟨tells_of_told h.1 .writeRefused nofun nofun, hone rfl h.2⟩

end Operation

end DemandPaging
