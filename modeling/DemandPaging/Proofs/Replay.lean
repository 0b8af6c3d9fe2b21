/-!
# Calls in turn

A component is called again and again, and a call together with its answer takes it from one state
to the next. `replay` runs through calls made so far, so that what a component should hold can be
read off the calls alone; it ends in a state only if every call is answered as it says. What the
first state has and every call preserves, all of them have (`replay_induction`).
-/

namespace DemandPaging

variable {σ κ : Type} {call? : σ → κ → Option σ} {start s : σ} {calls : List κ}

/-- The state after calls, the latest first, if each is answered as it says. -/
def replay (call? : σ → κ → Option σ) (start : σ) : List κ → Option σ
  | [] => some start
  | call :: before => (replay call? start before).bind fun s => call? s call

/-- A relation between calls and states that holds at the start and that every call extends. -/
theorem replay_induction {I : List κ → σ → Prop} (hstart : I [] start)
    (hcall : ∀ before s call s', I before s → call? s call = some s' → I (call :: before) s')
    (h : replay call? start calls = some s) : I calls s := by
  induction calls generalizing s with
  | nil =>
    obtain rfl := Option.some.inj h
    exact hstart
  | cons call before ih =>
    obtain ⟨mid, hmid, hlast⟩ := Option.bind_eq_some_iff.mp h
    exact hcall before mid call s (ih hmid) hlast

end DemandPaging
