import DemandPaging.Proofs.Audit

/-!
# Nothing breaks

A run may come to a file that takes less than is written back to it. No other assertion breaks on a
run, and no refusal tells that the machine is out of order: what the audit would report, and what an
operation finds missing or already mapped on its way, does not occur while operations are asked of
spaces that are there.

Headline: **`Reachable.unbroken`**. Where no file can take less than it is given, its last hypothesis
always holds (`Reachable.writesBackInFull`).
-/

namespace DemandPaging

/-- The cause an operation reports when it ends: why it was refused, or why a read stopped. -/
def Operation.reported? : Except Refusal Reply → Option Refusal
  | .error cause => some cause
  | .ok (.bytes r) => r.stopped
  | .ok _ => none

/-- Every file takes all that is written back to it while the operation is carried out. -/
def Operation.WritesBackInFull (op : Operation) (m : Machine) : Prop :=
  ∀ inode offset m', op.perform m ≠ .error (.fatal (.shortWriteBack inode offset)) m'

variable {lax : Tolerance} {m m' : Machine} {op : Operation}

/-- Only a read gives bytes. -/
theorem Operation.Moves.eq_read {r : Machine.ReadResult} {Y : Layout} {ks : List Ledger.Kind}
    (h : op.Moves (.ok (.bytes r)) Y ks) : ∃ id va length, op = .read id va length := by
  cases h <;> exact ⟨_, _, _, rfl⟩

/-- A read stops for want of its space, or for a cause that tells of nothing out of order. -/
theorem Operation.meets_read_reported {id : SpaceId} {va : Address} {length : Nat}
    (hm : Machine.Sound lax m none none) :
    Action.Meets (Breaking lax) (read id va length).perform m
      (fun reply _ => ∀ cause, reported? (.ok reply) = some cause → cause.isInternal = true →
        m.floorAt? id = none) fun _ _ => True :=
  (Machine.meets_read hm).bind (fun _ _ h => h.2) fun _ _ h => h

/-- **What an operation reports** tells that the machine is out of order only when a space it names
is not there. -/
theorem Operation.Ends.reported_of_isInternal {outcome : Except Refusal Reply} {cause : Refusal}
    (h : op.Ends m outcome m') (hm : Machine.Sound lax m none none) (hop : op.Admissible lax m)
    (hcause : reported? outcome = some cause) (hinternal : cause.isInternal = true) :
    ∃ id ∈ op.spaces, m.floorAt? id = none := by
  have hmeets := op.meets_perform hm hop
  cases h with
  | refused h =>
    obtain rfl := Option.some.inj hcause
    exact (hmeets.of_refused h).2 hinternal
  | reported h =>
    obtain rfl := Option.some.inj hcause
    exact (hmeets.of_refused h).2 hinternal
  | ok h =>
    rename_i reply
    cases reply with
    | bytes r =>
      obtain ⟨ks, hks, -⟩ := (hmeets.of_ok h).told.moves hm.books
      obtain ⟨id, va, length, rfl⟩ := hks.eq_read
      exact ⟨id, List.mem_singleton.mpr rfl,
        (meets_read_reported hm).of_ok h cause hcause hinternal⟩
    | done | space | frame | address => cases hcause

/-- Where files may not be cut short, all that is written back is taken. -/
theorem Reachable.writesBackInFull (h : Reachable .none m) (hop : op.Admissible .none m) :
    op.WritesBackInFull m :=
  fun _ _ _ hbreaks => (op.meets_perform h.sound hop).of_fatal hbreaks

/-- **No logic error is reached.** After any run, whatever is asked of spaces that are there ends in
order or in a refusal that does not tell of a machine out of order, as long as files take all that is
written back to them; and the audit has nothing to report. -/
theorem Reachable.unbroken (h : Reachable .shortWriteBacks m)
    (hop : op.Admissible .shortWriteBacks m) (hlive : ∀ id ∈ op.spaces, m.spaces[id]?.isSome)
    (hfull : op.WritesBackInFull m) :
    (∀ v m', op.perform m ≠ .error (.fatal v) m') ∧
      (∀ outcome m', op.Ends m outcome m' → ∀ cause, Operation.reported? outcome = some cause →
        cause.isInternal = false) ∧
      m.audit = .ok () := by
  refine ⟨fun v m' hbreaks => ?_, fun outcome m' hends cause hcause => ?_,
    (Machine.audit_eq_ok h.sound.numbered).mpr h.sound.audit_agrees⟩
  · obtain ⟨inode, offset, rfl⟩ := (op.meets_perform h.sound hop).of_fatal hbreaks
    exact hfull inode offset m' hbreaks
  · refine Bool.eq_false_iff.mpr fun hinternal => ?_
    obtain ⟨id, hid, hnone⟩ := hends.reported_of_isInternal h.sound hop hcause hinternal
    rw [Machine.floorAt?, Option.map_eq_none_iff] at hnone
    have hthere := hlive id hid
    rw [hnone] at hthere
    cases hthere

/-- A read of a page whose group was evicted takes a frame away from another page. -/
theorem Reachable.unbroken_crowded : ∃ m, Reachable .shortWriteBacks m ∧ m.groups.size = 1 ∧
    (∀ v m', (Operation.read 0 ⟨0x1000⟩ 1).perform m ≠ .error (.fatal v) m') ∧ m.audit = .ok () := by
  have h : ((Machine.start { userFrames := 2 } (.blank 16)).carry Operation.crowding).any
      (fun r => decide (r.2.groups.size = 1 ∧ r.2.spaces[(0 : SpaceId)]?.isSome) &&
        ((Operation.read 0 ⟨0x1000⟩ 1).perform.result? r.2).isSome) = true := by decide +kernel
  obtain ⟨r, hrun, hrest⟩ := Machine.exists_run
    (Operation.carryable_of_isPlain (by decide)) h
  obtain ⟨hfacts, hanswered⟩ := Bool.and_eq_true_iff.mp hrest
  obtain ⟨hgroups, hlive⟩ := of_decide_eq_true hfacts
  obtain ⟨reply, m', hread⟩ := Action.exists_ok_of_isSome hanswered
  have hm : Reachable .shortWriteBacks r.2 := ⟨_, _, _, r.1, by decide, hrun⟩
  have hfull : (Operation.read 0 ⟨0x1000⟩ 1).WritesBackInFull r.2 := fun inode offset m'' hbreaks => by
    rw [hread] at hbreaks
    cases hbreaks
  have hop : (Operation.read 0 ⟨0x1000⟩ 1).Admissible .shortWriteBacks r.2 := trivial
  have hsafe := hm.unbroken hop (fun id hid => by
    rw [List.mem_singleton.mp hid]
    exact hlive) hfull
  exact ⟨r.2, hm, hgroups, hsafe.1, hsafe.2.2⟩

end DemandPaging
