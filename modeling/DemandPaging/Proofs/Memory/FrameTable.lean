import DemandPaging.Memory.FrameTable
import Std.Data.ExtTreeMap.Lemmas

/-!
# Changing the frame table

The view is `get?`, with one equation for each change.
-/

namespace DemandPaging.FrameTable

variable (table : FrameTable) (f x : FrameNum)

theorem owners_eq : table.owners f = ((table.get? f).map Frame.owners).getD [] := by
  unfold owners
  cases table.get? f <;> rfl

@[simp]
theorem get?_empty : ({} : FrameTable).get? x = none := by
  simp [get?]

theorem get?_erase : (table.erase f).get? x = if x = f then none else table.get? x := by
  unfold get? erase
  rw [Std.ExtTreeMap.getElem?_erase]
  simp only [Nat.compare_eq_eq]
  by_cases hx : x = f
  · rw [if_pos hx.symm, if_pos hx]
  · rw [if_neg (Ne.symm hx), if_neg hx]

theorem get?_modify (g : Frame → Frame) :
    (table.modify f g).get? x = if x = f then (table.get? f).map g else table.get? x := by
  unfold get? modify
  rw [Std.ExtTreeMap.getElem?_modify]
  simp only [Nat.compare_eq_eq]
  by_cases hx : x = f
  · rw [if_pos hx.symm, if_pos hx]
  · rw [if_neg (Ne.symm hx), if_neg hx]

/-- A frame that is not pinned is as it was after it was pinned and let go. -/
theorem unpin_pin {table : FrameTable} {f : FrameNum} {c : Frame} (h : table.get? f = some c)
    (hc : c.pinned = false) : (table.pin f).unpin f = table := by
  have hframes : ((table.pin f).unpin f).frames = table.frames :=
    Std.ExtTreeMap.ext_getElem? fun {x} => by
      show ((table.pin f).unpin f).get? x = table.get? x
      simp only [unpin, pin, get?_modify, if_true]
      split
      · rename_i hx
        rw [hx, h, Option.map_some, Option.map_some, ← hc]
      · rfl
  exact congrArg (FrameTable.mk · table.upward) hframes

/-- A frame that is not resident can be recorded. -/
theorem insert_ok {table : FrameTable} {f : FrameNum} (h : table.get? f = none)
    (owners : List Owner) : ∃ table', table.insert f owners = .ok table' ∧
      ∀ x, table'.get? x = if x = f then some ⟨owners, false⟩ else table.get? x := by
  have hf : f ∉ table.frames := by
    rw [Std.ExtTreeMap.mem_iff_isSome_getElem?, show table.frames[f]? = none from h]
    decide
  refine ⟨_, by rw [insert, if_neg hf], fun x => ?_⟩
  unfold get?
  rw [Std.ExtTreeMap.getElem?_insert]
  simp only [Nat.compare_eq_eq]
  by_cases hx : x = f
  · rw [if_pos hx.symm, if_pos hx]
  · rw [if_neg (Ne.symm hx), if_neg hx]

end DemandPaging.FrameTable
