import DemandPaging.Proofs.Forking
import DemandPaging.Proofs.Ledger.Isolating
import DemandPaging.Proofs.Mapping
import DemandPaging.Proofs.Returning

/-!
# The two sides of a fork

A file page that is resident when its space is forked shares its frame with its copy until one of the
two is written. From then on each has a frame of its own, but both are kept in one window of the file.
So a side sees what it wrote itself as long as it is not loaded after the other one was written back
(`Twins.Keeping.isolated`); once it is, it holds what the other side wrote
(`Twins.not_always_isolated`).
-/

namespace DemandPaging

open Ledger (Kind)

/-! ## Two pages in one window -/

/-- Two pages of a machine are in one frame, or come back together. -/
def Machine.Joined (m : Machine) (x y : Owner) : Prop :=
  (∃ f, m.frameOf x = some f ∧ m.frameOf y = some f) ∨ ∃ g, m.groupOf x = some g ∧ m.groupOf y = some g

instance (m : Machine) (x y : Owner) : Decidable (m.Joined x y) :=
  decidable_of_iff ((∃ f ∈ m.frameOf x, m.frameOf y = some f) ∨ ∃ g ∈ m.groupOf x, m.groupOf y = some g)
    Iff.rfl

/-- Two pages that are kept in one window of a file: one that is looked at, and the other one. -/
structure Twins where
  mine : Owner
  other : Owner
  window : FileWindow
  ne : mine ≠ other
  small : window.readBytes ≤ pageSize

namespace Twins

variable {T : Twins} {lax : Tolerance} {m m' m₁ : Machine} {label : Label} {labels : List Label}
  {S : Reference} {o : Owner}

/-- The page that is looked at as a region of the file. -/
def region (T : Twins) : Region where
  file := T.window.handle
  own := T.window.Contains T.window.handle
  window o := if o = T.mine then some T.window else none
  small h := by
    obtain ⟨-, rfl⟩ := Option.ite_some_none_eq_some.mp h
    exact T.small
  onFile h := by
    obtain ⟨-, rfl⟩ := Option.ite_some_none_eq_some.mp h
    rfl
  owned h hk := by
    obtain ⟨-, rfl⟩ := Option.ite_some_none_eq_some.mp h
    exact hk
  apart hv hw _ _ :=
    (Option.ite_some_none_eq_some.mp hv).1.trans (Option.ite_some_none_eq_some.mp hw).1.symm

theorem window_eq_some {w : FileWindow} :
    T.region.window o = some w ↔ o = T.mine ∧ T.window = w := Option.ite_some_none_eq_some

theorem isSome_window : (T.region.window o).isSome ↔ o = T.mine := by
  simp [Option.isSome_iff_exists, window_eq_some]

/-- A step during which both pages stay, the file is not changed from outside, and no other page is
written that is kept in bytes of the window. -/
structure Undisturbed (T : Twins) (m : Machine) (label : Label) (m' : Machine) : Prop where
  stays : ∀ o, o = T.mine ∨ o = T.other → (m'.page? o).isSome
  file : label = .outside →
    m'.backing.files.file T.window.handle = m.backing.files.file T.window.handle
  written : ∀ o ∈ label.written, ∀ w k, m.homeOf o = some w →
    T.window.Contains T.window.handle k → w.Contains T.window.handle k → o = T.mine ∨ o = T.other

/-- Of the pages that are kept in the window none is loaded but `one`. -/
def LoadsOnly (T : Twins) (m m' : Machine) (one : Owner) : Prop :=
  ∀ o, o ≠ one → m.homeOf o = some T.window ∨ m'.homeOf o = some T.window → m'.loads o = m.loads o

/-- The page stays in its frame, unless it is loaded together with the other. -/
structure Unloaded (T : Twins) (m : Machine) (label : Label) (m' : Machine) : Prop
    extends T.Undisturbed m label m' where
  quiet : m'.Joined T.mine T.other ∨ T.LoadsOnly m m' T.other

/-- **What the other page has to write back is not written back**: it is as often dirty or written as it
is dirty in the end, or it is dirty in the end and was not loaded on the way. If the two may part, the
page is dirty, or the other one is clean. -/
structure Withheld (T : Twins) (m : Machine) (label : Label) (m' : Machine) : Prop
    extends T.Undisturbed m label m' where
  held : (m.hasFlag T.other .dirty).toNat + label.written.count T.other ≤
      (m'.hasFlag T.other .dirty).toNat ∨
    m'.hasFlag T.other .dirty = true ∧ T.LoadsOnly m m' T.mine
  fair : m.Joined T.mine T.other →
    m.hasFlag T.mine .dirty = true ∨ m.hasFlag T.other .dirty = false

/-- **A run that keeps what is known of the page**: it stays in its frame, or is `found` again when it is
loaded, because it was dirty or joined to the other page and since then nothing of that one was written
back. -/
inductive Keeping (T : Twins) (lax : Tolerance) (m₁ : Machine) : Bool → List Label → Machine → Prop
  | start : Keeping T lax m₁ true [] m₁
  | unloaded {found : Bool} {labels : List Label} {label : Label} {m m' : Machine}
      (h : Keeping T lax m₁ found labels m) (hs : Step lax m label m') (hun : T.Unloaded m label m') :
      Keeping T lax m₁ (decide (m'.Joined T.mine T.other) || m'.hasFlag T.mine .dirty)
        (labels ++ [label]) m'
  | withheld {labels : List Label} {label : Label} {m m' : Machine}
      (h : Keeping T lax m₁ true labels m) (hs : Step lax m label m') (hun : T.Withheld m label m') :
      Keeping T lax m₁ true (labels ++ [label]) m'

/-- A reference knows of the page what `J` says. -/
structure Kept (T : Twins)
    (J : Ledger → Owner → Owner → FileWindow → (Nat → Option UInt8) → Prop) (S : Reference)
    (m : Machine) : Prop where
  tracked : m.Tracked (fun o => (T.region.window o).isSome) S
  fixed : S.fixed = fun _ => none
  there : ∀ o, o = T.mine ∨ o = T.other →
    ∃ p, (m.ledger none none).page o = some p ∧ p.home? = some T.window
  soils : (m.ledger none none).SoiledByTwo (fun _ => False) T.mine T.other T.window
  knows : J (m.ledger none none) T.mine T.other T.window (S.memory T.mine)

variable {J : Ledger → Owner → Owner → FileWindow → (Nat → Option UInt8) → Prop}

/-- What is said of the page may be less, or more where it is known. -/
theorem Kept.imp {J' : Ledger → Owner → Owner → FileWindow → (Nat → Option UInt8) → Prop}
    (h : T.Kept J S m)
    (hJ : J (m.ledger none none) T.mine T.other T.window (S.memory T.mine) →
      J' (m.ledger none none) T.mine T.other T.window (S.memory T.mine)) : T.Kept J' S m :=
  { h with knows := hJ h.knows }

/-! ### Steps -/

theorem LoadsOnly.ledger {one : Owner} (h : T.LoadsOnly m m' one) :
    (m.ledger none none).LoadsOnly (m'.ledger none none) T.window one := by
  intro z hz hkept
  rw [Machine.loads_ledger, Machine.loads_ledger]
  obtain ⟨r, hr, hw⟩ := hkept
  exact h z hz (hr.imp (Machine.homeOf_of_ledger · hw) (Machine.homeOf_of_ledger · hw))

theorem Withheld.ledger {op : Operation} {outcome : Except Refusal Reply} {Y : Layout} {ks : List Kind}
    (h : T.Withheld m (.ask op outcome) m') (hks : op.Moves outcome Y ks) :
    (m.ledger none none).Withholds ks (m'.ledger none none) T.mine T.other T.window := by
  have hcount : ks.countP (Kind.writes T.other) ≤ op.written.count T.other := hks.countP_writes_le _
  rw [Ledger.Withholds, Machine.isDirty_ledger, Machine.isDirty_ledger]
  exact h.held.imp (Nat.le_trans (Nat.add_le_add_left hcount _)) fun ⟨hdirty, hloads⟩ =>
    ⟨hdirty, hloads.ledger⟩

/-- Neither of the two leaves during a step. -/
theorem Kept.leave_notMem (h : T.Kept J S m) (hm : Machine.Sound lax m none none)
    (hun : T.Undisturbed m label m') {op : Operation} {outcome : Except Refusal Reply} {ks : List Kind}
    (hks : op.Moves outcome (m.ledger none none).layout ks)
    (htrace : Ledger.Trace ks (m.ledger none none) (m'.ledger none none)) (ho : o = T.mine ∨ o = T.other)
    (writeBack : Bool) : .leave o writeBack ∉ ks := by
  obtain ⟨p, hp, -⟩ := h.there o ho
  refine hks.leave_notMem (hm.books.living hp) ?_ writeBack
  rw [← htrace.layout hm.books, Machine.registered_ledger]
  exact hun.stays o ho

/-- **A step of a machine is one of its reference**, if what is known of the page is known all along. -/
theorem Kept.step (h : T.Kept J S m) (hs : Step lax m label m') (hm : Machine.Sound lax m none none)
    (hun : T.Undisturbed m label m')
    (hisolates : ∀ {L known}, J L T.mine T.other T.window known →
      L.Isolates T.mine T.other T.window known)
    (houtside : ∀ {L : Ledger} {file known}, file T.window.handle = L.file T.window.handle →
      J L T.mine T.other T.window known → J { L with file } T.mine T.other T.window known)
    (hknows : ∀ {op outcome ks ks' A}, label = .ask op outcome →
      op.Moves outcome (m.ledger none none).layout (ks ++ ks') →
      Ledger.Stay T.mine T.other (ks ++ ks') → Ledger.Trace ks (m.ledger none none) A →
      Ledger.Trace ks' A (m'.ledger none none) →
      J A T.mine T.other T.window ((S.afterAll ks).memory T.mine) ∧
        A.SoiledByTwo (· ∈ label.written) T.mine T.other T.window) :
    ∃ S', S.Step label S' ∧ T.Kept J S' m' ∧
      ∀ i, (S'.memory T.mine i).isSome = (S.memory T.mine i).isSome := by
  have hspares : m.Spares S.fixed label m' := h.fixed ▸ m.spares_none label m'
  cases label with
  | ask op outcome =>
    obtain ⟨p, hp, -⟩ := h.there _ (Or.inl rfl)
    have hstay : ∀ {ks}, (∀ parent cause, op = .fork parent → outcome ≠ .error cause) →
        op.Moves outcome (m.ledger none none).layout ks →
        Ledger.Trace ks (m.ledger none none) (m'.ledger none none) →
        Ledger.Stay T.mine T.other ks := fun hvain hks htrace =>
      ⟨h.leave_notMem hm hun hks htrace (Or.inl rfl), h.leave_notMem hm hun hks htrace (Or.inr rfl),
        fun src z writeBack hk => hks.leave_notMem_of_copy hvain hk writeBack⟩
    obtain ⟨ks, hks, htrace, hstep, htracked⟩ := hs.exists_step_of_read hm h.tracked hspares
      (fun hks htrace x hx =>
        isSome_window.mp hx ▸ h.leave_notMem hm hun hks htrace (Or.inl rfl))
      fun {id va length outcome' ks ks' A} heq hks htrace htrace' {x e i b} hx he hb => by
        obtain rfl := isSome_window.mp hx
        obtain ⟨rfl, rfl⟩ := Label.ask.inj heq
        obtain ⟨q, hq, hf⟩ := (htrace.sound hm.books).page_of_grant he
        have hstay := hstay (fun _ _ h => by cases h) hks (htrace.trans htrace')
        exact (hisolates (hknows heq hks hstay htrace htrace').1).held hb hq hf
    suffices hend : J (m'.ledger none none) T.mine T.other T.window ((S.afterAll ks).memory T.mine) ∧
        (m'.ledger none none).SoiledByTwo (fun _ => False) T.mine T.other T.window by
      refine ⟨_, hstep, ⟨htracked, (Reference.fixed_afterAll S ks).trans h.fixed, fun o ho => ?_,
        hend.2, hend.1⟩, Reference.isSome_memory_afterAll htrace hm.books hp
          (h.leave_notMem hm hun hks htrace (Or.inl rfl))⟩
      obtain ⟨r, hr, hhome⟩ := h.there o ho
      obtain ⟨r', hr', hface⟩ :=
        htrace.face_of_page hm.books hr (h.leave_notMem hm hun hks htrace ho)
      exact ⟨r', hr', (Page.home?_of_face hface).trans hhome⟩
    by_cases hvain : ∃ parent cause, op = .fork parent ∧ outcome = .error cause
    · obtain ⟨parent, cause, rfl, rfl⟩ := hvain
      rw [hs.ledger_of_fork_refused hm, Reference.memory_afterAll htrace hm.books hp
        (h.leave_notMem hm hun hks htrace (Or.inl rfl)) fun start bytes hk => by cases hks.does _ hk]
      exact ⟨h.knows, h.soils⟩
    · have hvain : ∀ parent cause, op = .fork parent → outcome ≠ .error cause :=
        fun parent cause hop houtcome => hvain ⟨parent, cause, hop, houtcome⟩
      have hks' := (List.append_nil ks).symm ▸ hks
      obtain ⟨hend, hsoils⟩ := hknows rfl hks'
        (hstay hvain hks' ((List.append_nil ks).symm ▸ htrace)) htrace (.refl _)
      exact ⟨hend, hsoils.mono fun _ h => h.elim⟩
  | outside =>
    obtain ⟨ks, rfl, -, hstep, htracked⟩ := hs.exists_step hm h.tracked hspares fun h => by cases h
    have hfile := hun.file rfl
    cases hs with
    | outside hchanged =>
      refine ⟨_, hstep, ⟨htracked, h.fixed, ?_, ?_, ?_⟩, fun _ => rfl⟩
      all_goals rw [hchanged.ledger hm]
      · exact h.there
      · exact h.soils
      · exact houtside hfile h.knows

theorem Keeping.run {found : Bool} (h : T.Keeping lax m₁ found labels m) : Run lax m₁ labels m := by
  induction h with
  | start => exact .refl
  | unloaded _ hs _ ih | withheld _ hs _ ih => exact ih.step hs

end Twins

variable {lax : Tolerance} {m₀ m₁ m m' : Machine} {parent child : SpaceId} {v : PageNum}
  {f : FrameNum} {b : PageBytes} {labels : List Label} {T : Twins}

/-- The pages that are registered. -/
def Machine.pages (m : Machine) : List Owner :=
  m.spaces.toList.flatMap fun r => r.2.registry.vpns.map (Owner.mk r.1)

namespace Twins

/-- A step that leaves the two joined, or is `Withheld`. -/
def Checked (T : Twins) (m : Machine) (label : Label) (m' : Machine) : Prop :=
  T.Undisturbed m label m' ∧ m'.Joined T.mine T.other ∨ T.Withheld m label m'

/-- What the file holds in the window. -/
def stored (T : Twins) (m : Machine) : PageBytes :=
  Vector.ofFn fun i => (m.backing.files.file T.window.handle).data.get (T.window.offset + i)

variable {f : FrameNum} {b : PageBytes} {i : Nat} {c : UInt8} {va : Address} {r : Machine.ReadResult}

/-- A step after which both pages are there, which does not write this one and maps no file. -/
def Spares (T : Twins) (m : Machine) (label : Label) (m' : Machine) : Prop :=
  T.Undisturbed m label m' ∧ T.mine ∉ label.written ∧
    ∀ id va length writable handle offset outcome,
      label ≠ .ask (.map id va length writable handle offset) outcome

end Twins

end DemandPaging
