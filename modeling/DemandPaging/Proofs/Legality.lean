import DemandPaging.Proofs.Permission

/-!
# Which addresses a user may access

An address is judged when a fault is resolved. Zero and the addresses from the ceiling on are barred:
a user fault there is refused, whatever page is registered. An access that the page table grants raises
no fault, so there too it goes through for as long as the page is resident.

Headline: **`Reachable.barred_unless_granted`**.
-/

namespace DemandPaging

/-- No user fault is resolved at the address. -/
def Config.Bars (c : Config) (va : Address) : Prop :=
  va.isNull = true ∨ c.ceiling.toNat ≤ va.toNat

instance (c : Config) (va : Address) : Decidable (c.Bars va) := inferInstanceAs (Decidable (_ ∨ _))

namespace Machine

/-- The page of an owner is resident, may be written and is alone in its frame. -/
def HasToItself (m : Machine) (o : Owner) : Prop :=
  ∃ p f c, m.page? o = some p ∧ p.frame = some f ∧ p.writable = true ∧
    m.resident.get? f = some c ∧ c.owners = [o]

variable {F : Violation → Machine → Prop} {m : Machine} {id : SpaceId} {va : Address}
  {write : Bool} {b : UInt8}

/-- **A fault at a barred address is refused.** -/
theorem meets_resolveFault_of_bars {fault : PageFault} {Q : Unit → Machine → Prop}
    (hva : m.config.Bars fault.va) (huser : fault.user = true) :
    Action.Meets F (resolveFault id fault) m Q fun cause _ => cause = .invalidAddress fault.va := by
  have hbars : (fault.va.isNull || fault.user &&
      decide (m.config.ceiling.toNat ≤ fault.va.toNat)) = true := by
    rw [huser, Bool.true_and, Bool.or_eq_true, decide_eq_true_eq]
    exact hva
  unfold resolveFault dispatchFault count
  simp only [Action.meets_bind, Action.meets_modify, Action.meets_attempt, Action.meets_get,
    Action.meets_ite]
  exact ⟨fun _ => rfl, fun h => absurd hbars h⟩

/-- What the page table does not grant faults. -/
theorem meets_access_of_bars {Q : FrameNum → Machine → Prop} (hid : m.spaces[id]?.isSome)
    (hva : m.config.Bars va) (hno : ∀ e, m.entryAt? ⟨id, va.page⟩ = some e → grants e write ≠ true) :
    Action.Meets F (access id va write) m Q fun cause _ => cause = .invalidAddress va := by
  obtain ⟨space, hspace⟩ := Option.isSome_iff_exists.mp hid
  have hlookup := entryAt?_eq_lookup? (o := ⟨id, va.page⟩) hspace
  show Action.Meets F (accessWithin id va write (3 + 1)) m _ _
  unfold accessWithin
  rw [Action.meets_bind_of_ok (space_eq id hspace), ← hlookup]
  cases hentry : m.entryAt? ⟨id, va.page⟩ with
  | some e =>
    dsimp only
    rw [if_neg (hno e hentry), Action.meets_bind]
    exact meets_resolveFault_of_bars hva rfl
  | none =>
    dsimp only
    rw [Action.meets_bind]
    exact meets_resolveFault_of_bars hva rfl

/-! ## Transfers of one byte -/

theorem spans_one (va : Address) : spans va 1 = [⟨va, 1⟩] :=
  spans_of_fits Nat.one_pos (Nat.mod_lt _ (by decide))

theorem meets_read_one_of_refused {cause : Refusal} {R : Refusal → Machine → Prop}
    (h : Action.Meets F (access id va false) m (fun _ _ => False) fun c _ => c = cause) :
    Action.Meets F (read id va 1) m (fun r _ => r = { bytes := #[], stopped := some cause }) R := by
  unfold read
  rw [spans_one]
  unfold readSpans
  rw [Action.meets_bind, Action.meets_attempt]
  exact h.mono (fun _ _ hno => hno.elim) fun _ _ hc => by rw [hc]; rfl

theorem meets_write_one_of_refused {cause : Refusal} {Q : Unit → Machine → Prop}
    (h : Action.Meets F (access id va true) m (fun _ _ => False) fun c _ => c = cause) :
    Action.Meets F (Machine.write id va #[b]) m Q fun c _ => c = cause := by
  unfold Machine.write
  rw [show (#[b] : Bytes).size = 1 from rfl, spans_one]
  unfold writeSpans
  rw [Action.meets_bind]
  exact h.mono (fun _ _ hno => hno.elim) fun _ _ hc => hc

/-- One byte of a mapped frame is read. -/
theorem meets_read_one_of_grants {e : Entry} {bytes : PageBytes} {R : Refusal → Machine → Prop}
    (he : m.entryAt? ⟨id, va.page⟩ = some e) (hbytes : m.frames.bytes? e.frame = some bytes) :
    Action.Meets F (read id va 1) m (fun r _ => r = { bytes := bytes.slice va.offset 1 }) R := by
  unfold read
  rw [spans_one]
  unfold readSpans
  rw [Action.meets_bind, Action.meets_attempt]
  refine (meets_access_of_grants he rfl).mono ?_ fun _ _ h => h
  rintro _ _ ⟨rfl, change, rfl⟩
  have hsame : (m.modifyTable id change).frames.bytes? e.frame = some bytes := hbytes
  refine (Action.meets_bind_of_ok (frameBytes_eq hsame)).mpr ?_
  rw [Array.empty_append]
  rfl

/-- One byte of a frame that is mapped writable is written. -/
theorem meets_write_one_of_grants {e : Entry} {bytes : PageBytes} {R : Refusal → Machine → Prop}
    (he : m.entryAt? ⟨id, va.page⟩ = some e) (hgrants : grants e true = true)
    (hbytes : m.frames.bytes? e.frame = some bytes) :
    Action.Meets F (Machine.write id va #[b]) m (fun _ _ => True) R := by
  have hlt := va.offset_lt
  unfold Machine.write
  rw [show (#[b] : Bytes).size = 1 from rfl, spans_one]
  unfold writeSpans
  rw [Action.meets_bind]
  refine (meets_access_of_grants he hgrants).mono ?_ fun _ _ h => h
  rintro _ _ ⟨rfl, change, rfl⟩
  have hwrite : (m.modifyTable id change).frames.write e.frame va.offset
      ((#[b] : Bytes).extract 0 (0 + 1)) = .ok ((m.modifyTable id change).frames.setBytes e.frame
        (bytes.blit va.offset ((#[b] : Bytes).extract 0 (0 + 1)))) := by
    unfold FramePool.write
    rw [show (m.modifyTable id change).frames.bytes? e.frame = some bytes from hbytes]
    exact if_pos hlt
  simp only [Action.meets_bind, Action.meets_get]
  rw [hwrite]
  trivial

end Machine

open Machine

variable {m : Machine} {id : SpaceId} {va : Address}

/-- **A barred address is refused exactly when the page table does not grant the access.** A read is
refused unless the page is resident, a write unless it is resident, may be written and is alone in its
frame. Otherwise the access goes through. -/
theorem Reachable.barred_unless_granted (h : Reachable .all m) (hid : m.spaces[id]?.isSome)
    (hva : m.config.Bars va) (b : UInt8) :
    (m.frameOf ⟨id, va.page⟩ = none → ∃ m', (Operation.read id va 1).perform m =
        .ok (.bytes { bytes := #[], stopped := some (.invalidAddress va) }) m') ∧
      (∀ f, m.frameOf ⟨id, va.page⟩ = some f → ∃ bytes m', m.frames.bytes? f = some bytes ∧
        (Operation.read id va 1).perform m =
          .ok (.bytes { bytes := bytes.slice va.offset 1 }) m') ∧
      (¬m.HasToItself ⟨id, va.page⟩ → ∃ m', (Operation.write id va #[b]).perform m =
        .error (.refused (.invalidAddress va)) m') ∧
      (m.HasToItself ⟨id, va.page⟩ → ∃ m', (Operation.write id va #[b]).perform m =
        .ok .done m') := by
  have hm := h.sound
  have hguarded := hm.guards
  refine ⟨fun haway => ?_, fun f hf => ?_, fun hno => ?_, fun halone => ?_⟩
  · have hentry : m.entryAt? ⟨id, va.page⟩ = none := by
      rw [← Option.not_isSome_iff_eq_none, hm.entryAt?_isSome, haway]
      nofun
    have hread : Action.Meets (fun _ _ => False) (Operation.read id va 1).perform m
        (fun reply _ => reply = .bytes { bytes := #[], stopped := some (.invalidAddress va) })
        fun _ _ => False :=
      (meets_read_one_of_refused (meets_access_of_bars hid hva fun e he => by
        rw [hentry] at he
        cases he)).bind (fun _ _ hr => congrArg Reply.bytes hr) fun _ _ hc => hc
    obtain ⟨_, m', hok, rfl⟩ := hread.exists_ok
    exact ⟨m', hok⟩
  · obtain ⟨p, hp, hpf⟩ := Option.bind_eq_some_iff.mp hf
    obtain ⟨e, he, rfl⟩ := hm.exists_entry hp hpf
    obtain ⟨c, hc, -⟩ := hm.exists_crew hp hpf
    obtain ⟨bytes, hbytes⟩ := hm.exists_bytes? (hm.held hc)
    have hread : Action.Meets (fun _ _ => False) (Operation.read id va 1).perform m
        (fun reply _ => reply = .bytes { bytes := bytes.slice va.offset 1 }) fun _ _ => False :=
      (meets_read_one_of_grants he hbytes).bind (fun _ _ hr => congrArg Reply.bytes hr)
        fun _ _ hc => hc
    obtain ⟨_, m', hok, rfl⟩ := hread.exists_ok
    exact ⟨bytes, m', hbytes, hok⟩
  · have hdenied : ∀ e, m.entryAt? ⟨id, va.page⟩ = some e → grants e true ≠ true := by
      intro e he hgrants
      have hresident := (hm.entryAt?_isSome ⟨id, va.page⟩).symm
      rw [he] at hresident
      obtain ⟨f, hf⟩ := Option.isSome_iff_exists.mp hresident
      obtain ⟨p, hp, hpf⟩ := Option.bind_eq_some_iff.mp hf
      obtain ⟨e', c, he', -, hc, hiff⟩ := hguarded.writable hp hpf
      obtain rfl := Option.some.inj (he.symm.trans he')
      obtain ⟨hw, howners⟩ := hiff.mp hgrants
      exact hno ⟨p, f, c, hp, hpf, hw, hc, howners⟩
    have hwrite : Action.Meets (fun _ _ => False) (Operation.write id va #[b]).perform m
        (fun _ _ => False) fun cause _ => cause = .invalidAddress va :=
      (meets_write_one_of_refused (meets_access_of_bars hid hva hdenied)).bind
        (fun _ _ hno => hno) fun _ _ hc => hc
    obtain ⟨_, m', hrefused, rfl⟩ := hwrite.exists_refused
    exact ⟨m', hrefused⟩
  · obtain ⟨p, f, c, hp, hpf, hw, hc, howners⟩ := halone
    obtain ⟨e, c', he, rfl, hc', hiff⟩ := hguarded.writable hp hpf
    obtain rfl := Option.some.inj (hc.symm.trans hc')
    obtain ⟨bytes, hbytes⟩ := hm.exists_bytes? (hm.held hc)
    have hwrite : Action.Meets (fun _ _ => False) (Operation.write id va #[b]).perform m
        (fun reply _ => reply = .done) fun _ _ => False :=
      (meets_write_one_of_grants he (hiff.mpr ⟨hw, howners⟩) hbytes).bind (fun _ _ _ => rfl)
        fun _ _ hc => hc
    obtain ⟨_, m', hok, rfl⟩ := hwrite.exists_ok
    exact ⟨m', hok⟩

/-- Requests that make a page at the ceiling resident. -/
def Operation.trespassing : List Operation :=
  [.create, .register 0 .anon ⟨0x4000000000⟩ true .zero, .claim 0 ⟨0x4000000000⟩]

/-- Before the page is claimed, its first byte is refused. -/
theorem Reachable.barred_before_claim : ∃ m, Reachable .all m ∧
    m.config.Bars ⟨0x4000000000⟩ ∧ (m.page? ⟨0, 0x4000000⟩).isSome ∧
    ∃ m', (Operation.read 0 ⟨0x4000000000⟩ 1).perform m =
      .ok (.bytes { bytes := #[], stopped := some (.invalidAddress ⟨0x4000000000⟩) }) m' := by
  have h : ((Machine.start { userFrames := 2 } (.blank 16)).carry
      (Operation.trespassing.take 2)).any
      (fun r => decide (r.2.spaces[(0 : SpaceId)]?.isSome ∧
        r.2.config.Bars ⟨0x4000000000⟩ ∧ (r.2.page? ⟨0, 0x4000000⟩).isSome ∧
        r.2.frameOf ⟨0, 0x4000000⟩ = none)) = true := by decide +kernel
  obtain ⟨r, -, hm, hrest⟩ := Reachable.exists_of_carry (by decide) h
  obtain ⟨hid, hva, hpage, haway⟩ := of_decide_eq_true hrest
  exact ⟨r.2, hm, hva, hpage, (hm.barred_unless_granted hid hva 0).1 haway⟩

/-- **A barred address is not always refused**: after the page is claimed, its first byte is read. -/
theorem Reachable.not_always_barred : ¬∀ m, Reachable .all m → ∀ (id : SpaceId) va,
    m.spaces[id]?.isSome → m.config.Bars va → ∃ m', (Operation.read id va 1).perform m =
      .ok (.bytes { bytes := #[], stopped := some (.invalidAddress va) }) m' := by
  intro hall
  have h : ((Machine.start { userFrames := 2 } (.blank 16)).carry Operation.trespassing).any
      (fun r => decide (r.2.spaces[(0 : SpaceId)]?.isSome ∧
        r.2.config.Bars ⟨0x4000000000⟩) &&
        ((Operation.read 0 ⟨0x4000000000⟩ 1).perform.result? r.2).any fun r' =>
          decide (r'.1 = .bytes { bytes := #[0] })) = true := by decide +kernel
  obtain ⟨r, -, hm, hrest⟩ := Reachable.exists_of_carry (by decide) h
  obtain ⟨hlive, hread⟩ := Bool.and_eq_true_iff.mp hrest
  obtain ⟨hid, hva⟩ := of_decide_eq_true hlive
  obtain ⟨m', hrefused⟩ := hall r.2 hm 0 ⟨0x4000000000⟩ hid hva
  rw [Action.result?, hrefused] at hread
  simp at hread

end DemandPaging
