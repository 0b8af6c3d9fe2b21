import DemandPaging.Failure

/-!
# What a computation ends in

`Meets F x s Q R` says where `x` may end when it is started in `s`: with a value and a state in `Q`,
refused with a cause and a state in `R`, or with a broken assertion and a state in `F`. Mostly only
the violation matters and the state it leaves does not (`Breaking`): when all violations are allowed,
a triple speaks of the runs that break nothing; when none is, it also says that nothing breaks.

There is one equation for each way a computation is built, so that the triple of a whole operation
unfolds into triples of the operations it calls.
-/

namespace DemandPaging

/-- The violations that may happen. Once accesses may go out of bounds, anything may. -/
structure Tolerance where
  allows : Violation → Prop
  closed : allows .outOfBounds → ∀ v, allows v

namespace Tolerance

instance : CoeFun Tolerance fun _ => Violation → Prop := ⟨allows⟩

/-- Anything may happen. -/
def all : Tolerance := ⟨fun _ => True, fun _ _ => trivial⟩

/-- Nothing may happen but that a file takes less than was written back. -/
def shortWriteBacks : Tolerance := ⟨fun v => ∃ inode offset, v = .shortWriteBack inode offset, nofun⟩

/-- Nothing may happen. -/
def none : Tolerance := ⟨fun _ => False, nofun⟩

end Tolerance

/-- Any of the violations `lax` allows, whatever state it leaves. -/
abbrev Breaking {σ : Type} (lax : Tolerance) : Violation → σ → Prop := fun v _ => lax v

/-- An access out of bounds, if `lax` allows it and something does not fit, whatever state it
leaves. -/
abbrev Oversized {σ : Type} (lax : Tolerance) (fits : Prop) : Violation → σ → Prop :=
  fun v _ => v = .outOfBounds ∧ lax .outOfBounds ∧ ¬fits

/-- What `lax` allows while pages move between frames and their backing stores: a file takes less than
was written back, or something does not fit in a frame. -/
inductive Overrun (lax : Tolerance) (fits : Prop) : Violation → Prop
  | short (inode offset : Nat) (h : lax (.shortWriteBack inode offset)) :
      Overrun lax fits (.shortWriteBack inode offset)
  | long (h : lax .outOfBounds) (hlong : ¬fits) : Overrun lax fits .outOfBounds

namespace Overrun

variable {lax : Tolerance} {fits fits' : Prop} {v : Violation}

theorem allowed (h : Overrun lax fits v) : lax v := by
  cases h with
  | short inode offset h => exact h
  | long h => exact h

/-- What is not enough to fit may be required along with more. -/
theorem mono (h : Overrun lax fits v) (himp : fits' → fits) : Overrun lax fits' v := by
  cases h with
  | short inode offset h => exact .short inode offset h
  | long h hlong => exact .long h (mt himp hlong)

end Overrun

namespace Action

variable {σ τ α β : Type} {F F' : Violation → σ → Prop}

/-- Started in `s`, `x` ends in `Q`, or is refused in `R`, or breaks an assertion in `F`. -/
def Meets (F : Violation → σ → Prop) (x : Action σ α) (s : σ) (Q : α → σ → Prop)
    (R : Refusal → σ → Prop) : Prop :=
  match x s with
  | .ok a s' => Q a s'
  | .error (.refused cause) s' => R cause s'
  | .error (.fatal broken) s' => F broken s'

/-- A computation meets what follows from what it meets. -/
theorem Meets.mono {x : Action σ α} {s : σ} {Q Q' : α → σ → Prop} {R R' : Refusal → σ → Prop}
    (h : Meets F x s Q R) (hQ : ∀ a s', Q a s' → Q' a s') (hR : ∀ c s', R c s' → R' c s') :
    Meets F x s Q' R' := by
  unfold Meets at h ⊢
  split at h
  · exact hQ _ _ h
  · exact hR _ _ h
  · exact h

/-- More may be broken, and in more states. -/
theorem Meets.relax {x : Action σ α} {s : σ} {Q : α → σ → Prop} {R : Refusal → σ → Prop}
    (h : Meets F x s Q R) (hF : ∀ v s', F v s' → F' v s') : Meets F' x s Q R := by
  unfold Meets at h ⊢
  split at h
  · exact h
  · exact h
  · exact hF _ _ h

/-- What is met in two ways is met in both. -/
theorem Meets.and {x : Action σ α} {s : σ} {Q Q' : α → σ → Prop} {R R' : Refusal → σ → Prop}
    (h : Meets F x s Q R) (h' : Meets F' x s Q' R') :
    Meets (fun v s' => F v s' ∧ F' v s') x s (fun a s' => Q a s' ∧ Q' a s')
      fun c s' => R c s' ∧ R' c s' := by
  unfold Meets at *
  split
  · exact ⟨by simpa only [‹x s = _›] using h, by simpa only [‹x s = _›] using h'⟩
  · exact ⟨by simpa only [‹x s = _›] using h, by simpa only [‹x s = _›] using h'⟩
  · exact ⟨by simpa only [‹x s = _›] using h, by simpa only [‹x s = _›] using h'⟩

/-- Where a run ends may be given a name. -/
theorem Meets.named {x : Action σ α} {s : σ} {Q : α → σ → Prop} {R : Refusal → σ → Prop}
    (h : Meets F x s Q R) : Meets F x s (fun a s' => Q a s' ∧ x s = .ok a s') R := by
  unfold Meets at *
  split
  · exact ⟨by simpa only [‹x s = _›] using h, ‹x s = _›⟩
  · simpa only [‹x s = _›] using h
  · simpa only [‹x s = _›] using h

/-- Every computation ends somehow. -/
theorem meets_trivial (x : Action σ α) (s : σ) :
    Meets (fun _ _ => True) x s (fun _ _ => True) fun _ _ => True := by
  unfold Meets
  split <;> trivial

/-- What holds of a successful run. -/
theorem Meets.of_ok {x : Action σ α} {s s' : σ} {a : α} {Q : α → σ → Prop}
    {R : Refusal → σ → Prop} (h : Meets F x s Q R) (hx : x s = .ok a s') : Q a s' := by
  unfold Meets at h
  rwa [hx] at h

/-- The result of an action that goes through, and the state after it. -/
def result? (x : Action σ α) (s : σ) : Option (α × σ) :=
  match x s with
  | .ok a s' => some (a, s')
  | .error _ _ => none

theorem ok_of_result? {x : Action σ α} {s : σ} {r : α × σ} (h : x.result? s = some r) :
    x s = .ok r.1 r.2 := by
  unfold result? at h
  split at h
  · rename_i hok
    rw [← Option.some.inj h]
    exact hok
  · cases h

/-- An action whose result passes a check goes through. -/
theorem exists_ok_of_any {x : Action σ α} {s : σ} {check : α × σ → Bool}
    (h : (x.result? s).any check = true) : ∃ a s', x s = .ok a s' ∧ check (a, s') = true := by
  obtain ⟨r, hr, hcheck⟩ := (Option.any_eq_true _ _).mp h
  exact ⟨r.1, r.2, ok_of_result? hr, hcheck⟩

theorem exists_ok_of_isSome {x : Action σ α} {s : σ} (h : (x.result? s).isSome) :
    ∃ a s', x s = .ok a s' := by
  obtain ⟨r, hr⟩ := Option.isSome_iff_exists.mp h
  exact ⟨r.1, r.2, ok_of_result? hr⟩

/-- The cause of a refusal, and the state after it. -/
def refusal? (x : Action σ α) (s : σ) : Option (Refusal × σ) :=
  match x s with
  | .error (.refused cause) s' => some (cause, s')
  | _ => none

/-- An action whose refusal passes a check is refused. -/
theorem exists_refused_of_any {x : Action σ α} {s : σ} {check : Refusal × σ → Bool}
    (h : (x.refusal? s).any check = true) :
    ∃ cause s', x s = .error (.refused cause) s' ∧ check (cause, s') = true := by
  unfold refusal? at h
  split at h
  · exact ⟨_, _, ‹_›, h⟩
  · cases h

/-- The assertion an action breaks, and the state after it. -/
def violation? (x : Action σ α) (s : σ) : Option (Violation × σ) :=
  match x s with
  | .error (.fatal broken) s' => some (broken, s')
  | _ => none

/-- An action whose violation passes a check breaks an assertion. -/
theorem exists_fatal_of_any {x : Action σ α} {s : σ} {check : Violation × σ → Bool}
    (h : (x.violation? s).any check = true) :
    ∃ broken s', x s = .error (.fatal broken) s' ∧ check (broken, s') = true := by
  unfold violation? at h
  split at h
  · exact ⟨_, _, ‹_›, h⟩
  · cases h

/-- What holds of a run that was refused. -/
theorem Meets.of_refused {x : Action σ α} {s s' : σ} {cause : Refusal} {Q : α → σ → Prop}
    {R : Refusal → σ → Prop} (h : Meets F x s Q R) (hx : x s = .error (.refused cause) s') :
    R cause s' := by
  unfold Meets at h
  rwa [hx] at h

/-- What holds of a run that broke an assertion. -/
theorem Meets.of_fatal {x : Action σ α} {s s' : σ} {broken : Violation} {Q : α → σ → Prop}
    {R : Refusal → σ → Prop} (h : Meets F x s Q R) (hx : x s = .error (.fatal broken) s') :
    F broken s' := by
  unfold Meets at h
  rwa [hx] at h

/-- What is neither refused nor breaks anything succeeds. -/
theorem Meets.exists_ok {x : Action σ α} {s : σ} {Q : α → σ → Prop}
    (h : Meets (fun _ _ => False) x s Q fun _ _ => False) : ∃ a s', x s = .ok a s' ∧ Q a s' := by
  unfold Meets at h
  split at h
  · exact ⟨_, _, ‹_›, h⟩
  · exact h.elim
  · exact h.elim

/-- What neither succeeds nor breaks anything is refused. -/
theorem Meets.exists_refused {x : Action σ α} {s : σ} {R : Refusal → σ → Prop}
    (h : Meets (fun _ _ => False) x s (fun _ _ => False) R) :
    ∃ cause s', x s = .error (.refused cause) s' ∧ R cause s' := by
  unfold Meets at h
  split at h
  · exact h.elim
  · exact ⟨_, _, ‹_›, h⟩
  · exact h.elim

/-- A run that is known to succeed meets what holds where it ends. -/
theorem Meets.ok {x : Action σ α} {s s' : σ} {a : α} {Q : α → σ → Prop}
    {R : Refusal → σ → Prop} (hx : x s = .ok a s') (h : Q a s') : Meets F x s Q R := by
  unfold Meets
  rwa [hx]

@[simp]
theorem meets_pure {a : α} {s : σ} {Q : α → σ → Prop} {R : Refusal → σ → Prop} :
    Meets F (pure a) s Q R ↔ Q a s := Iff.rfl

@[simp]
theorem meets_bind {x : Action σ α} {f : α → Action σ β} {s : σ} {Q : β → σ → Prop}
    {R : Refusal → σ → Prop} :
    Meets F (x >>= f) s Q R ↔ Meets F x s (fun a s' => Meets F (f a) s' Q R) R := by
  change (match EStateM.bind x f s with
    | .ok a s' => Q a s' | .error (.refused c) s' => R c s'
    | .error (.fatal broken) s' => F broken s') ↔ _
  unfold EStateM.bind Meets
  cases x s with
  | ok a s' => exact Iff.rfl
  | error failure s' => cases failure <;> exact Iff.rfl

/-- The step after a computation may be assumed where the computation ends. -/
theorem Meets.bind {x : Action σ α} {f : α → Action σ β} {s : σ} {P : α → σ → Prop}
    {Q : β → σ → Prop} {R R' : Refusal → σ → Prop} (h : Meets F x s P R')
    (hf : ∀ a s', P a s' → Meets F (f a) s' Q R) (hR : ∀ c s', R' c s' → R c s') :
    Meets F (x >>= f) s Q R :=
  meets_bind.mpr (h.mono hf hR)

/-- A step that is known to succeed goes on from where it ends. -/
theorem bind_of_ok {x : Action σ α} {f : α → Action σ β} {s s' : σ} {a : α} (hx : x s = .ok a s') :
    (x >>= f) s = f a s' := by
  show EStateM.bind x f s = _
  unfold EStateM.bind
  rw [hx]

/-- A step that is known to fail fails the whole. -/
theorem bind_of_error {x : Action σ α} {s s' : σ} {failure : Failure} (f : α → Action σ β)
    (hx : x s = .error failure s') : (x >>= f) s = .error failure s' := by
  show EStateM.bind x f s = _
  unfold EStateM.bind
  rw [hx]

/-- What follows a step matters where the step succeeds. -/
theorem bind_congr_of_ok {x : Action σ α} {f g : α → Action σ β} {s : σ}
    (h : ∀ a s', x s = .ok a s' → f a s' = g a s') : (x >>= f) s = (x >>= g) s := by
  cases hx : x s with
  | ok a s' => rw [bind_of_ok hx, bind_of_ok hx, h a s' hx]
  | error failure s' => rw [bind_of_error f hx, bind_of_error g hx]

/-- Of a step it matters how it ends. -/
theorem bind_congr_of_eq {x y : Action σ α} (f : α → Action σ β) {s : σ} (h : x s = y s) :
    (x >>= f) s = (y >>= f) s := by
  show EStateM.bind x f s = EStateM.bind y f s
  unfold EStateM.bind
  rw [h]

/-- Where the whole succeeds, its first step does. -/
theorem exists_of_bind_ok {x : Action σ α} {f : α → Action σ β} {s s' : σ} {b : β}
    (h : (x >>= f) s = .ok b s') : ∃ a s₁, x s = .ok a s₁ ∧ f a s₁ = .ok b s' := by
  cases hx : x s with
  | ok a s₁ => exact ⟨a, s₁, rfl, (bind_of_ok hx).symm.trans h⟩
  | error failure s₁ =>
    rw [bind_of_error f hx] at h
    cases h

/-- A step that is known to succeed is skipped. -/
theorem meets_bind_of_ok {x : Action σ α} {f : α → Action σ β} {s s' : σ} {a : α}
    {Q : β → σ → Prop} {R : Refusal → σ → Prop} (hx : x s = .ok a s') :
    Meets F (x >>= f) s Q R ↔ Meets F (f a) s' Q R := by
  unfold Meets
  rw [bind_of_ok hx]

@[simp]
theorem meets_get {s : σ} {Q : σ → σ → Prop} {R : Refusal → σ → Prop} :
    Meets F (get : Action σ σ) s Q R ↔ Q s s := Iff.rfl

@[simp]
theorem meets_set {s t : σ} {Q : PUnit → σ → Prop} {R : Refusal → σ → Prop} :
    Meets F (set t : Action σ PUnit) s Q R ↔ Q ⟨⟩ t := Iff.rfl

@[simp]
theorem meets_modify {f : σ → σ} {s : σ} {Q : PUnit → σ → Prop} {R : Refusal → σ → Prop} :
    Meets F (modify f : Action σ PUnit) s Q R ↔ Q ⟨⟩ (f s) := Iff.rfl

@[simp]
theorem meets_modifyGet {f : σ → α × σ} {s : σ} {Q : α → σ → Prop} {R : Refusal → σ → Prop} :
    Meets F (modifyGet f : Action σ α) s Q R ↔ Q (f s).1 (f s).2 := Iff.rfl

@[simp]
theorem meets_refuse {cause : Refusal} {s : σ} {Q : α → σ → Prop} {R : Refusal → σ → Prop} :
    Meets F (refuse cause) s Q R ↔ R cause s := Iff.rfl

@[simp]
theorem meets_abort {broken : Violation} {s : σ} {Q : α → σ → Prop} {R : Refusal → σ → Prop} :
    Meets F (abort broken) s Q R ↔ F broken s := Iff.rfl

theorem meets_permit {e : Except Refusal α} {s : σ} {Q : α → σ → Prop} {R : Refusal → σ → Prop} :
    Meets F (permit e) s Q R ↔ (∀ a, e = .ok a → Q a s) ∧ ∀ c, e = .error c → R c s := by
  cases e with
  | ok a => exact ⟨fun h => ⟨fun _ he => by cases he; exact h, nofun⟩, fun h => h.1 a rfl⟩
  | error c => exact ⟨fun h => ⟨nofun, fun _ he => by cases he; exact h⟩, fun h => h.2 c rfl⟩

theorem meets_assert {e : Except Violation α} {s : σ} {Q : α → σ → Prop}
    {R : Refusal → σ → Prop} :
    Meets F (assert e) s Q R ↔ (∀ a, e = .ok a → Q a s) ∧ ∀ v, e = .error v → F v s := by
  cases e with
  | ok a => exact ⟨fun h => ⟨fun _ he => by cases he; exact h, nofun⟩, fun h => h.1 a rfl⟩
  | error v => exact ⟨fun h => ⟨nofun, fun _ he => by cases he; exact h⟩, fun h => h.2 v rfl⟩

theorem meets_require {cause : Refusal} {o : Option α} {s : σ} {Q : α → σ → Prop}
    {R : Refusal → σ → Prop} :
    Meets F (require cause o) s Q R ↔ (∀ a, o = some a → Q a s) ∧ (o = none → R cause s) := by
  cases o with
  | some a => exact ⟨fun h => ⟨fun _ he => by cases he; exact h, nofun⟩, fun h => h.1 a rfl⟩
  | none => exact ⟨fun h => ⟨nofun, fun _ => h⟩, fun h => h.2 rfl⟩

@[simp]
theorem meets_attempt {x : Action σ α} {s : σ} {Q : Except Refusal α → σ → Prop}
    {R : Refusal → σ → Prop} :
    Meets F (attempt x) s Q R ↔ Meets F x s (fun a => Q (.ok a)) (fun c => Q (.error c)) := by
  unfold Meets attempt
  cases x s with
  | ok a s' => exact Iff.rfl
  | error failure s' => cases failure <;> exact Iff.rfl

/-- A broken assertion is a value too, and may have been broken in any state. -/
theorem Meets.settle {x : Action σ α} {s : σ} {P : α → σ → Prop} {R R' : Refusal → σ → Prop}
    {Q : Except Failure α → σ → Prop} (h : Meets F x s P R') (hok : ∀ a s', P a s' → Q (.ok a) s')
    (hrefused : ∀ c s', R' c s' → Q (.error (.refused c)) s')
    (hfatal : ∀ v s', F v s' → Q (.error (.fatal v)) s') : Meets F' (settle x) s Q R := by
  unfold Meets Action.settle at *
  cases hx : x s with
  | ok a s' =>
    rw [hx] at h
    exact hok a s' h
  | error failure s' =>
    rw [hx] at h
    cases failure with
    | refused c => exact hrefused c s' h
    | fatal v => exact hfatal v s' h

@[simp]
theorem meets_within {G : Violation → τ → Prop} {part : τ → σ} {restore : σ → τ → τ}
    {x : Action σ α} {t : τ} {Q : α → τ → Prop} {R : Refusal → τ → Prop} :
    Meets G (within part restore x) t Q R ↔ Meets (fun v s => G v (restore s t)) x (part t)
      (fun a s => Q a (restore s t)) (fun c s => R c (restore s t)) := by
  unfold Meets within
  cases x (part t) with
  | ok a s' => exact Iff.rfl
  | error failure s' => cases failure <;> exact Iff.rfl

@[simp]
theorem meets_ite {p : Prop} [Decidable p] {x y : Action σ α} {s : σ} {Q : α → σ → Prop}
    {R : Refusal → σ → Prop} :
    Meets F (if p then x else y) s Q R ↔
      (p → Meets F x s Q R) ∧ (¬p → Meets F y s Q R) := by
  by_cases hp : p <;> simp [hp]

/-- A loop keeps what every step of it keeps. -/
theorem Meets.forM {l : List α} {body : α → Action σ PUnit} {I : σ → Prop}
    {R : Refusal → σ → Prop} (hbody : ∀ a ∈ l, ∀ s, I s → Meets F (body a) s (fun _ => I) R) :
    ∀ {s : σ}, I s → Meets F (l.forM body) s (fun _ => I) R := by
  induction l with
  | nil => exact fun hs => hs
  | cons a l ih =>
    intro s hs
    show Meets F (body a >>= fun _ => l.forM body) s _ R
    exact Meets.bind (hbody a List.mem_cons_self s hs)
      (fun _ s' hs' => ih (fun b hb => hbody b (List.mem_cons_of_mem a hb)) hs') fun _ _ h => h

/-! ## What a computation leaves alone -/

/-- However it ends, `x` leaves what `view` shows of the state as it was. -/
def Leaves (view : σ → τ) (x : Action σ α) : Prop :=
  ∀ s, Meets (fun _ s' => view s' = view s) x s (fun _ s' => view s' = view s)
    fun _ s' => view s' = view s

namespace Leaves

variable {view : σ → τ} {x : Action σ α}

/-- Less is shown by a view of a view. -/
theorem map {τ' : Type} (h : Leaves view x) (g : τ → τ') : Leaves (fun s => g (view s)) x :=
  fun s => ((h s).mono (fun _ _ h => congrArg g h) fun _ _ h => congrArg g h).relax
    fun _ _ h => congrArg g h

theorem pure (a : α) : Leaves view (Pure.pure a : Action σ α) := fun _ => rfl

theorem refuse (cause : Refusal) : Leaves view (Action.refuse cause : Action σ α) := fun _ => rfl

theorem abort (broken : Violation) : Leaves view (Action.abort broken : Action σ α) := fun _ => rfl

theorem get : Leaves view (MonadState.get : Action σ σ) := fun _ => rfl

theorem permit (e : Except Refusal α) : Leaves view (Action.permit e : Action σ α) := by
  cases e <;> exact fun _ => rfl

theorem assert (e : Except Violation α) : Leaves view (Action.assert e : Action σ α) := by
  cases e <;> exact fun _ => rfl

theorem require (cause : Refusal) (o : Option α) :
    Leaves view (Action.require cause o : Action σ α) := by
  cases o <;> exact fun _ => rfl

theorem change {f : σ → σ} (h : ∀ s, view (f s) = view s) :
    Leaves view (modify f : Action σ PUnit) := h

theorem bind {f : α → Action σ β} (hx : Leaves view x) (hf : ∀ a, Leaves view (f a)) :
    Leaves view (x >>= f) := fun s =>
  meets_bind.mpr <| (hx s).mono (fun a s' hs' => by
    have := hf a s'
    rwa [hs'] at this) fun _ _ h => h

theorem attempt (h : Leaves view x) : Leaves view (Action.attempt x) :=
  fun s => meets_attempt.mpr (h s)

theorem settle (h : Leaves view x) : Leaves view (Action.settle x) :=
  fun s => (h s).settle (fun _ _ h => h) (fun _ _ h => h) fun _ _ h => h

theorem throw (failure : Failure) : Leaves view (MonadExcept.throw failure : Action σ α) := by
  cases failure <;> exact fun _ => rfl

theorem ite {p : Prop} [Decidable p] {y : Action σ α} (hx : Leaves view x) (hy : Leaves view y) :
    Leaves view (if p then x else y) := by
  split
  · exact hx
  · exact hy

theorem forM {l : List β} {body : β → Action σ PUnit} (h : ∀ b, Leaves view (body b)) :
    Leaves view (l.forM body) := by
  induction l with
  | nil => exact pure _
  | cons b l ih => exact (h b).bind fun _ => ih

/-- A computation on a part of the state. -/
theorem within {ρ υ : Type} {part : σ → ρ} {restore : ρ → σ → σ} {y : Action ρ α} {inner : ρ → υ}
    (hy : Leaves inner y)
    (h : ∀ r s, inner r = inner (part s) → view (restore r s) = view s) :
    Leaves view (Action.within part restore y) := fun s =>
  meets_within.mpr (((hy (part s)).mono (fun _ r hr => h r s hr) fun _ r hr => h r s hr).relax
    fun _ r hr => h r s hr)

end Leaves

end Action

end DemandPaging
