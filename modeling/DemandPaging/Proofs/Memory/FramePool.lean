import DemandPaging.Proofs.Pools
import DemandPaging.Proofs.Replay
import Mathlib.Data.Finset.Card

/-!
# The frame pool as sets of frames

A pool started with no frame handed out. The calls made since determine which frames are held
(`held`), which were ever handed out (`issued`) and in which order those given back will be handed
out again (`stack`). `Represents` ties the pool to them; every call preserves it
(`Represents.call?`). What the pool answers is read off (`Answers`): a frame is handed out to one
holder at a time, zeroed, the one given back last before any that was never handed out.

Headline: **`answers_as_held`**.
-/

namespace DemandPaging

namespace FramePool

/-! ### What a call changes -/

/-- A frame that is taken comes off the stack, or is the next one that was never handed out. -/
theorem alloc?_cases {pool pool' : FramePool} {ppn : FrameNum}
    (h : pool.alloc? = some (ppn, pool')) :
    pool.recycled = ppn :: pool'.recycled ∧ pool'.fresh = pool.fresh ∨
      pool.recycled = [] ∧ pool'.recycled = [] ∧ ppn = pool.fresh ∧
        pool'.fresh = pool.fresh + 1 := by
  unfold FramePool.alloc? at h
  split at h
  · rename_i head rest hstack
    obtain ⟨rfl, rfl⟩ := Prod.mk.inj (Option.some.inj h)
    exact .inl ⟨by simpa using hstack, by simp⟩
  · rename_i hstack
    split at h
    · cases h
    · obtain ⟨rfl, rfl⟩ := Prod.mk.inj (Option.some.inj h)
      exact .inr ⟨hstack, by simpa using hstack, rfl, by simp⟩

/-- Writing into a frame changes the content of one frame. -/
theorem write_ok {pool pool' : FramePool} {ppn : FrameNum} {start : Nat} {bytes : Bytes}
    (h : pool.write ppn start bytes = .ok pool') : ∃ b, pool' = pool.setBytes ppn b := by
  unfold FramePool.write at h
  split at h
  · split at h
    · exact ⟨_, (Except.ok.inj h).symm⟩
    · cases h
  · cases h

/-- Copying changes the content of one frame, or nothing. -/
theorem copy_ok {pool pool' : FramePool} {source target : FrameNum}
    (h : pool.copy source target = .ok pool') :
    pool' = pool ∨ ∃ b, pool' = pool.setBytes target b := by
  unfold FramePool.copy at h
  split at h
  · exact .inl (Except.ok.inj h).symm
  · split at h
    · exact .inr ⟨_, (Except.ok.inj h).symm⟩
    · cases h

/-! ### What the calls determine -/

/-- A call to a pool with the frame it is answered, where it is. -/
inductive Call where
  /-- A frame is taken, if one is free. -/
  | take (answer : Option FrameNum)
  /-- A frame is given back. -/
  | release (ppn : FrameNum)
  /-- Bytes are written into a frame. -/
  | write (ppn : FrameNum) (start : Nat) (bytes : Bytes)
  /-- A frame is copied into another. -/
  | copy (source target : FrameNum)

/-- The pool after a call, if the call is answered so. -/
def call? (pool : FramePool) : Call → Option FramePool
  | .take answer =>
    match pool.alloc? with
    | some (ppn, pool') => if answer = some ppn then some pool' else none
    | none => if answer = none then some pool else none
  | .release ppn => (pool.release ppn).toOption
  | .write ppn start bytes => (pool.write ppn start bytes).toOption
  | .copy source target => (pool.copy source target).toOption

/-- The frames taken and not given back since, by calls of which the latest comes first. -/
def held : List Call → Finset FrameNum
  | [] => ∅
  | .take (some ppn) :: before => insert ppn (held before)
  | .release ppn :: before => (held before).erase ppn
  | _ :: before => held before

/-- The frames that were ever taken. -/
def issued : List Call → Finset FrameNum
  | [] => ∅
  | .take (some ppn) :: before => insert ppn (issued before)
  | _ :: before => issued before

/-- The frames given back and not taken again since, the latest first. -/
def stack : List Call → List FrameNum
  | [] => []
  | .take (some _) :: before => (stack before).tail
  | .release ppn :: before => ppn :: stack before
  | _ :: before => stack before

/-- A pool of `total` frames as calls left it. -/
structure Represents (total : Nat) (calls : List Call) (pool : FramePool) : Prop where
  valid : pool.Valid
  total : pool.total = total
  held : ∀ ppn, pool.Held ppn ↔ ppn ∈ held calls
  issued : ∀ ppn, ppn < pool.fresh ↔ ppn ∈ issued calls
  stack : pool.recycled = stack calls

variable {total : Nat} {calls : List Call} {ppn : FrameNum} {pool pool' : FramePool}

theorem represents_ofSize (total : Nat) : (ofSize total).Represents total [] where
  valid := valid_ofSize total
  total := rfl
  held ppn := by simp [FramePool.held, not_held_ofSize]
  issued ppn := by simp [FramePool.issued, ofSize]
  stack := rfl

namespace Represents

theorem free (h : pool.Represents total calls) :
    pool.free + (FramePool.held calls).card = total := by
  have hlen := h.valid.length_add_free (FramePool.held calls).nodup_toList fun x =>
    (Finset.mem_toList.trans (h.held x).symm)
  rw [Finset.length_toList, h.total] at hlen
  omega

theorem lt_total (h : pool.Represents total calls) (hp : ppn ∈ FramePool.held calls) :
    ppn < total := h.total ▸ h.valid.lt_total ((h.held ppn).mpr hp)

/-- No frame is left to take exactly when all are held. -/
theorem alloc?_eq_none (h : pool.Represents total calls) :
    pool.alloc? = none ↔ ∀ ppn < total, ppn ∈ FramePool.held calls := by
  have hfree := h.free
  have hsub : FramePool.held calls ⊆ Finset.range total := fun ppn hp =>
    Finset.mem_range.mpr (h.lt_total hp)
  rw [h.valid.alloc?_eq_none]
  constructor
  · intro hnone ppn hlt
    have hall : FramePool.held calls = Finset.range total :=
      Finset.eq_of_subset_of_card_le hsub (by rw [Finset.card_range]; omega)
    rw [hall]
    exact Finset.mem_range.mpr hlt
  · intro hall
    have hcard := Finset.card_le_card fun ppn hp => hall ppn (Finset.mem_range.mp hp)
    rw [Finset.card_range] at hcard
    omega

/-- The frames on the stack are those that were handed out and are not held. -/
theorem mem_stack (h : pool.Represents total calls) (ppn : FrameNum) :
    ppn ∈ FramePool.stack calls ↔ ppn ∈ FramePool.issued calls ∧ ppn ∉ FramePool.held calls := by
  rw [← h.stack, ← h.issued, ← h.held, Held]
  constructor
  · intro hmem
    exact ⟨h.valid.below ppn hmem, fun hheld => hheld.2 hmem⟩
  · rintro ⟨hlt, hnot⟩
    by_contra hmem
    exact hnot ⟨hlt, hmem⟩

/-- A frame that is taken is the one given back last, or was never handed out. -/
theorem alloc?_order (h : pool.Represents total calls) (ha : pool.alloc? = some (ppn, pool')) :
    (∃ rest, FramePool.stack calls = ppn :: rest) ∨
      FramePool.stack calls = [] ∧ ppn ∉ FramePool.issued calls := by
  rw [← h.stack, ← h.issued]
  obtain ⟨hstack, -⟩ | ⟨hstack, -, rfl, -⟩ := alloc?_cases ha
  · exact .inl ⟨_, hstack⟩
  · exact .inr ⟨hstack, Nat.lt_irrefl _⟩

theorem take (h : pool.Represents total calls) (ha : pool.alloc? = some (ppn, pool')) :
    pool'.Represents total (.take (some ppn) :: calls) := by
  obtain ⟨hvalid, -, hheld, htotal, -⟩ := h.valid.alloc? ha
  refine ⟨hvalid, htotal.trans h.total, fun x => ?_, fun x => ?_, ?_⟩
  · rw [hheld, h.held, FramePool.held, Finset.mem_insert, or_comm]
  · rw [FramePool.issued, Finset.mem_insert, ← h.issued]
    obtain ⟨hstack, hfresh⟩ | ⟨-, -, rfl, hfresh⟩ := alloc?_cases ha
    · have hlt : ppn < pool.fresh := h.valid.below ppn (hstack ▸ List.mem_cons_self)
      rw [hfresh]
      exact ⟨Or.inr, fun hx => hx.elim (fun heq => heq ▸ hlt) id⟩
    · rw [hfresh]
      exact Nat.lt_succ_iff_lt_or_eq.trans or_comm
  · rw [FramePool.stack, ← h.stack]
    obtain ⟨hstack, -⟩ | ⟨hstack, hrest, -⟩ := alloc?_cases ha
    · rw [hstack, List.tail_cons]
    · rw [hstack, hrest, List.tail_nil]

/-- A frame that is held can be given back, and no content changes. -/
theorem release_of_mem (h : pool.Represents total calls) (hp : ppn ∈ FramePool.held calls) :
    ∃ pool', pool.release ppn = .ok pool' ∧ (∀ x, pool'.bytes? x = pool.bytes? x) ∧
      pool'.Represents total (.release ppn :: calls) := by
  obtain ⟨pool', hok, hvalid, hheld, htotal, hbytes⟩ := h.valid.release ((h.held ppn).mpr hp)
  have hafter : { pool with recycled := ppn :: pool.recycled } = pool' := by
    unfold FramePool.release at hok
    split at hok
    · cases hok
    · exact Except.ok.inj hok
  refine ⟨pool', hok, hbytes, hvalid, htotal.trans h.total, fun x => ?_, fun x => ?_, ?_⟩
  · rw [hheld, h.held, FramePool.held, Finset.mem_erase, and_comm]
  · rw [← hafter]
    exact h.issued x
  · rw [← hafter, FramePool.stack, ← h.stack]

theorem release_of_notMem (h : pool.Represents total calls) (hp : ppn ∉ FramePool.held calls) :
    pool.release ppn = .error (.frameNotAllocated ppn) := by
  rw [← h.held, Held] at hp
  unfold FramePool.release
  rw [if_pos]
  rw [List.contains_iff_mem]
  by_contra hneither
  obtain ⟨hlt, hmem⟩ := not_or.mp hneither
  exact hp ⟨Nat.lt_of_not_le hlt, hmem⟩

/-- Changing a content changes neither who holds frames nor their order. -/
theorem setBytes {call : Call} (h : pool.Represents total calls) (ppn : FrameNum) (b : PageBytes)
    (hheld : FramePool.held (call :: calls) = FramePool.held calls)
    (hissued : FramePool.issued (call :: calls) = FramePool.issued calls)
    (hstack : FramePool.stack (call :: calls) = FramePool.stack calls) :
    (pool.setBytes ppn b).Represents total (call :: calls) where
  valid := h.valid.setBytes ppn b
  total := by rw [total_setBytes, h.total]
  held x := by rw [held_setBytes, h.held, hheld]
  issued x := by rw [fresh_setBytes, h.issued, hissued]
  stack := by rw [recycled_setBytes, h.stack, hstack]

/-- Every call keeps to the sets and the stack. -/
theorem call? {call : Call} (h : pool.Represents total calls)
    (hc : pool.call? call = some pool') : pool'.Represents total (call :: calls) := by
  cases call with
  | take answer =>
    simp only [FramePool.call?] at hc
    split at hc
    · rename_i ha
      obtain ⟨rfl, hb⟩ := Option.ite_none_right_eq_some.mp hc
      exact Option.some.inj hb ▸ h.take ha
    · obtain ⟨rfl, hb⟩ := Option.ite_none_right_eq_some.mp hc
      obtain rfl := Option.some.inj hb
      exact ⟨h.valid, h.total, h.held, h.issued, h.stack⟩
  | release ppn =>
    simp only [FramePool.call?] at hc
    by_cases hmem : ppn ∈ FramePool.held calls
    · obtain ⟨after, hok, -, hafter⟩ := h.release_of_mem hmem
      rw [hok] at hc
      exact Option.some.inj hc ▸ hafter
    · rw [h.release_of_notMem hmem] at hc
      cases hc
  | write ppn start bytes =>
    simp only [FramePool.call?] at hc
    cases hw : pool.write ppn start bytes with
    | ok after =>
      rw [hw] at hc
      obtain rfl := Option.some.inj hc
      obtain ⟨b, rfl⟩ := write_ok hw
      exact h.setBytes ppn b rfl rfl rfl
    | error broken =>
      rw [hw] at hc
      cases hc
  | copy source target =>
    simp only [FramePool.call?] at hc
    cases hw : pool.copy source target with
    | ok after =>
      rw [hw] at hc
      obtain rfl := Option.some.inj hc
      obtain rfl | ⟨b, rfl⟩ := copy_ok hw
      · exact ⟨h.valid, h.total, h.held, h.issued, h.stack⟩
      · exact h.setBytes target b rfl rfl rfl
    | error broken =>
      rw [hw] at hc
      cases hc

end Represents

/-- Whatever the calls, the pool is as they determine. -/
theorem represents_of_replay (h : replay FramePool.call? (ofSize total) calls = some pool) :
    pool.Represents total calls :=
  replay_induction (I := fun calls pool => pool.Represents total calls) (represents_ofSize total)
    (fun _ _ _ _ hpool hc => hpool.call? hc) h

/-! ### What it answers -/

/-- The answers of a pool of `total` frames after calls. -/
structure Answers (total : Nat) (calls : List Call) (pool : FramePool) : Prop where
  free : pool.free + (held calls).card = total
  exhausted : pool.alloc? = none ↔ ∀ ppn < total, ppn ∈ held calls
  /-- A frame that nobody holds is handed out as zeros, and no other content changes. -/
  take : ∀ ppn pool', pool.alloc? = some (ppn, pool') → ppn < total ∧ ppn ∉ held calls ∧
    pool'.bytes? ppn = some .zero ∧ ∀ x, x ≠ ppn → pool'.bytes? x = pool.bytes? x
  /-- The frame given back last is handed out first, one never handed out only without any. -/
  order : ∀ ppn pool', pool.alloc? = some (ppn, pool') →
    (∃ rest, stack calls = ppn :: rest) ∨ stack calls = [] ∧ ppn ∉ issued calls
  waiting : ∀ ppn, ppn ∈ stack calls ↔ ppn ∈ issued calls ∧ ppn ∉ held calls
  release : ∀ ppn ∈ held calls, ∃ pool', pool.release ppn = .ok pool' ∧
    ∀ x, pool'.bytes? x = pool.bytes? x
  violation : ∀ ppn, pool.release ppn = .error (.frameNotAllocated ppn) ↔ ppn ∉ held calls

/-- **Every frame has one holder at most and comes zeroed.** After any calls to a pool of any size,
what it answers is what the frames held and those given back say. -/
theorem answers_as_held (h : replay call? (ofSize total) calls = some pool) :
    pool.Answers total calls := by
  have hpool := represents_of_replay h
  refine
    { free := hpool.free
      exhausted := hpool.alloc?_eq_none
      take := fun ppn pool' ha => ?_
      order := fun ppn pool' ha => hpool.alloc?_order ha
      waiting := hpool.mem_stack
      release := fun ppn hmem => ?_
      violation := fun ppn => ⟨fun hr hmem => ?_, hpool.release_of_notMem⟩ }
  · obtain ⟨-, hfree, -, -, hzero, hothers⟩ := hpool.valid.alloc? ha
    have hmem : ppn ∈ held (.take (some ppn) :: calls) := Finset.mem_insert_self _ _
    exact ⟨(hpool.take ha).lt_total hmem, fun hp => hfree ((hpool.held ppn).mpr hp), hzero, hothers⟩
  · obtain ⟨pool', hok, hbytes, -⟩ := hpool.release_of_mem hmem
    exact ⟨pool', hok, hbytes⟩
  · obtain ⟨pool', hok, -⟩ := hpool.release_of_mem hmem
    rw [hok] at hr
    cases hr

/-- Calls to a pool of three frames: two are taken, written and given back, one of them is taken
again, then all that are left, and one more is refused. -/
def callsOfThreeFrames : List Call :=
  [.take none, .take (some 2), .take (some 0), .take (some 1), .release 1, .release 0,
    .copy 0 1, .write 0 4094 #[7, 7], .take (some 1), .take (some 0)]

theorem answers_of_three_frames :
    ∃ pool, replay call? (ofSize 3) callsOfThreeFrames = some pool ∧
      pool.Answers 3 callsOfThreeFrames := by
  have hsome : (replay call? (ofSize 3) callsOfThreeFrames).isSome := by decide +kernel
  obtain ⟨pool, hpool⟩ := Option.isSome_iff_exists.mp hsome
  exact ⟨pool, hpool, answers_as_held hpool⟩

end FramePool

end DemandPaging
