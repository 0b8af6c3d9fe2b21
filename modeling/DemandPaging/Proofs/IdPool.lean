import DemandPaging.Proofs.Pools
import DemandPaging.Proofs.Replay
import Mathlib.Data.Finset.Card

/-!
# Which identities are in use

Calls to a pool say which identities are in use, which were ever handed out and how many were in use
at a time at most. Every pool that comes from the empty one hands out what is not in use
(`represents_of_replay`). What was handed out is in use or on the stack, and a number that is new is
handed out only when the stack is empty: so the numbers handed out are just as many as were in use at
once.

Headline: **`answers_as_live`**.
-/

namespace DemandPaging

namespace IdPool

/-! ### What the calls determine -/

/-- A call to a pool with the identity it is answered, where it is. -/
inductive Call where
  /-- An identity is taken. -/
  | take (answer : Nat)
  /-- An identity is given back. -/
  | release (id : Nat)

/-- The pool after a call, if the call is answered so. -/
def call? (pool : IdPool) : Call → Option IdPool
  | .take answer => if pool.take.1 = answer then some pool.take.2 else none
  | .release id => (pool.release id).toOption

/-- The identities taken and not given back since, by calls of which the latest comes first. -/
def live : List Call → Finset Nat
  | [] => ∅
  | .take id :: before => insert id (live before)
  | .release id :: before => (live before).erase id

/-- The identities that were ever taken. -/
def issued : List Call → Finset Nat
  | [] => ∅
  | .take id :: before => insert id (issued before)
  | .release _ :: before => issued before

/-- The most identities that were in use at a time. -/
def peak : List Call → Nat
  | [] => 0
  | call :: before => max (live (call :: before)).card (peak before)

/-- A pool as calls left it. -/
structure Represents (calls : List Call) (pool : IdPool) : Prop where
  valid : pool.Valid
  live : ∀ id, pool.Live id ↔ id ∈ live calls
  issued : issued calls = Finset.range pool.next
  peak : peak calls = pool.next

variable {calls : List Call} {id : Nat} {pool pool' : IdPool}

theorem represents_empty : Represents [] {} where
  valid := valid_empty
  live id := by simp [IdPool.live, not_live_empty]
  issued := rfl
  peak := rfl

namespace Represents

/-- What was handed out is in use or on the stack. -/
theorem card_live_add (h : pool.Represents calls) :
    (IdPool.live calls).card + pool.recycled.length = pool.next := by
  have hlive : IdPool.live calls = Finset.range pool.next \ pool.recycled.toFinset := by
    ext id
    rw [← h.live, Live, Finset.mem_sdiff, Finset.mem_range, List.mem_toFinset]
  have hsub : pool.recycled.toFinset ⊆ Finset.range pool.next := fun id hid =>
    Finset.mem_range.mpr (h.valid.below id (List.mem_toFinset.mp hid))
  rw [hlive, ← List.toFinset_card_of_nodup h.valid.nodup, Finset.card_sdiff_add_card_eq_card hsub,
    Finset.card_range]

theorem mem_issued (h : pool.Represents calls) : id ∈ IdPool.issued calls ↔ id < pool.next := by
  rw [h.issued, Finset.mem_range]

theorem live_subset (h : pool.Represents calls) : IdPool.live calls ⊆ IdPool.issued calls :=
  fun id hid => h.mem_issued.mpr ((h.live id).mpr hid).1

theorem take_notMem (h : pool.Represents calls) : pool.take.1 ∉ IdPool.live calls :=
  fun hid => h.valid.take.2.1 ((h.live _).mpr hid)

/-- A number that is new is handed out only when all the others are in use. -/
theorem take_notMem_issued (h : pool.Represents calls) :
    pool.take.1 ∉ IdPool.issued calls ↔ IdPool.live calls = IdPool.issued calls := by
  refine ⟨fun hnew => Finset.eq_of_subset_of_card_le h.live_subset ?_, fun hall hid => ?_⟩
  · have hcount := h.card_live_add
    rw [h.mem_issued] at hnew
    rw [h.issued, Finset.card_range]
    unfold IdPool.take at hnew
    split at hnew
    · rename_i hstack
      exact absurd (h.valid.below _ (hstack ▸ List.mem_cons_self)) hnew
    · rename_i hstack
      rw [hstack, List.length_nil] at hcount
      omega
  · exact h.take_notMem (hall ▸ hid)

theorem take (h : pool.Represents calls) :
    pool.take.2.Represents (.take pool.take.1 :: calls) := by
  obtain ⟨hvalid, -, hlive⟩ := h.valid.take
  have hcard : (IdPool.live (.take pool.take.1 :: calls)).card = (IdPool.live calls).card + 1 :=
    Finset.card_insert_of_notMem h.take_notMem
  have hcount := h.card_live_add
  refine ⟨hvalid, fun id => ?_, ?_, ?_⟩
  · rw [hlive, h.live, IdPool.live, Finset.mem_insert, or_comm]
  · rw [IdPool.issued, h.issued]
    unfold IdPool.take
    split
    · rename_i head rest hstack
      exact Finset.insert_eq_of_mem
        (Finset.mem_range.mpr (h.valid.below head (hstack ▸ List.mem_cons_self)))
    · exact Finset.range_add_one.symm
  · -- One more is in use than before, which is more than ever just if none was on the stack.
    rw [IdPool.peak, hcard, h.peak]
    unfold IdPool.take
    split
    · rename_i hstack
      rw [hstack, List.length_cons] at hcount
      exact max_eq_right (by omega)
    · rename_i hstack
      rw [hstack, List.length_nil] at hcount
      exact (max_eq_left (by omega)).trans (congrArg (· + 1) hcount)

theorem release_of_mem (h : pool.Represents calls) (hid : id ∈ IdPool.live calls) :
    ∃ pool', pool.release id = .ok pool' ∧ pool'.Represents (.release id :: calls) := by
  obtain ⟨pool', hok, hvalid, hlive⟩ := h.valid.release ((h.live id).mpr hid)
  have hafter : { pool with recycled := id :: pool.recycled } = pool' := by
    unfold IdPool.release at hok
    split at hok
    · cases hok
    · split at hok
      · cases hok
      · exact Except.ok.inj hok
  refine ⟨pool', hok, hvalid, fun x => ?_, ?_, ?_⟩
  · rw [hlive, h.live, IdPool.live, Finset.mem_erase, and_comm]
  · rw [← hafter]
    exact h.issued
  · have hcard := (Finset.card_erase_le (a := id)).trans
      ((Nat.le_add_right ..).trans h.card_live_add.le)
    rw [IdPool.peak, h.peak, ← hafter]
    exact max_eq_right hcard

/-- A number that was never handed out is out of bounds. -/
theorem release_of_notMem_issued (h : pool.Represents calls) (hid : id ∉ IdPool.issued calls) :
    pool.release id = .error .outOfBounds := by
  rw [h.mem_issued] at hid
  unfold IdPool.release
  exact if_pos (Nat.le_of_not_lt hid)

/-- A number that was given back cannot be given back again. -/
theorem release_of_notMem (h : pool.Represents calls) (hissued : id ∈ IdPool.issued calls)
    (hid : id ∉ IdPool.live calls) : pool.release id = .error (.idReleased id) := by
  rw [h.mem_issued] at hissued
  rw [← h.live, Live, not_and_not_right] at hid
  unfold IdPool.release
  rw [if_neg (Nat.not_le.mpr hissued), if_pos (List.contains_iff_mem.mpr (hid hissued))]

/-- Every call keeps to what the calls determine. -/
theorem call? {call : Call} (h : pool.Represents calls) (hc : pool.call? call = some pool') :
    pool'.Represents (call :: calls) := by
  cases call with
  | take answer =>
    obtain ⟨rfl, hafter⟩ := Option.ite_none_right_eq_some.mp hc
    exact Option.some.inj hafter ▸ h.take
  | release id =>
    simp only [IdPool.call?] at hc
    by_cases hid : id ∈ IdPool.live calls
    · obtain ⟨after, hok, hafter⟩ := h.release_of_mem hid
      rw [hok] at hc
      exact Option.some.inj hc ▸ hafter
    · by_cases hissued : id ∈ IdPool.issued calls
      · rw [h.release_of_notMem hissued hid] at hc
        cases hc
      · rw [h.release_of_notMem_issued hissued] at hc
        cases hc

end Represents

/-- Whatever the calls, the pool is as they determine. -/
theorem represents_of_replay (h : replay call? {} calls = some pool) : pool.Represents calls :=
  replay_induction (I := fun calls pool => pool.Represents calls) represents_empty
    (fun _ _ _ _ hpool hc => hpool.call? hc) h

/-! ### What it answers -/

/-- The answers of a pool after calls. -/
structure Answers (calls : List Call) (pool : IdPool) : Prop where
  /-- What is handed out is not in use. -/
  take : pool.take.1 ∉ live calls
  /-- The first numbers were handed out, as many as were in use at once. -/
  issued : issued calls = Finset.range (peak calls)
  /-- A new number is handed out just when all the others are in use. -/
  fresh : pool.take.1 ∉ IdPool.issued calls ↔ live calls = IdPool.issued calls
  /-- What is in use can be given back, and nothing else. -/
  release : ∀ id, (∃ pool', pool.release id = .ok pool') ↔ id ∈ live calls
  outOfBounds : ∀ id, pool.release id = .error .outOfBounds ↔ id ∉ IdPool.issued calls
  released : ∀ id, pool.release id = .error (.idReleased id) ↔
    id ∈ IdPool.issued calls ∧ id ∉ live calls

/-- **No identity is handed out twice.** After any calls to a new pool, what it answers is what the
identities in use and those given back say. -/
theorem answers_as_live (h : replay call? {} calls = some pool) : pool.Answers calls := by
  have hpool := represents_of_replay h
  have hcases : ∀ id, (id ∈ live calls ∧ ∃ pool', pool.release id = .ok pool') ∨
      (id ∈ issued calls ∧ id ∉ live calls ∧ pool.release id = .error (.idReleased id)) ∨
      (id ∉ issued calls ∧ id ∉ live calls ∧ pool.release id = .error .outOfBounds) := fun id => by
    by_cases hid : id ∈ live calls
    · obtain ⟨pool', hok, -⟩ := hpool.release_of_mem hid
      exact .inl ⟨hid, pool', hok⟩
    · by_cases hissued : id ∈ issued calls
      · exact .inr (.inl ⟨hissued, hid, hpool.release_of_notMem hissued hid⟩)
      · exact .inr (.inr ⟨hissued, hid, hpool.release_of_notMem_issued hissued⟩)
  have hsub := hpool.live_subset
  refine
    { take := hpool.take_notMem
      issued := hpool.issued.trans (congrArg Finset.range hpool.peak.symm)
      fresh := hpool.take_notMem_issued
      release := fun id => ?_
      outOfBounds := fun id => ?_
      released := fun id => ?_ }
  all_goals
    rcases hcases id with ⟨hid, pool', hr⟩ | ⟨hissued, hid, hr⟩ | ⟨hissued, hid, hr⟩
  · exact iff_of_true ⟨pool', hr⟩ hid
  · exact iff_of_false (fun ⟨_, hok⟩ => nomatch hr.symm.trans hok) hid
  · exact iff_of_false (fun ⟨_, hok⟩ => nomatch hr.symm.trans hok) hid
  · exact iff_of_false (fun hv => nomatch hr.symm.trans hv) (not_not_intro (hsub hid))
  · exact iff_of_false (fun hv => nomatch hr.symm.trans hv) (not_not_intro hissued)
  · exact iff_of_true hr hissued
  · exact iff_of_false (fun hv => nomatch hr.symm.trans hv) fun h => h.2 hid
  · exact iff_of_true hr ⟨hissued, hid⟩
  · exact iff_of_false (fun hv => nomatch hr.symm.trans hv) fun h => hissued h.1

end IdPool

end DemandPaging
