import DemandPaging.Proofs.Audit
import DemandPaging.Proofs.Residency
import DemandPaging.Workload

/-!
# When memory suffices for a workload

The anonymous workload fills its pages and then visits them in rounds. It goes through exactly if all
its pages fit into memory, or if there is a frame and a place for one page more, because a page that is
brought back needs a slot before it gives up its own. It never finds another content than it wrote, and
the audit never finds anything.

Headline: **`Workload.anon_suffices`**.
-/

namespace DemandPaging

open Machine (Sound)

namespace WorkloadM

variable {γ α β : Type} {x : WorkloadM γ α} {s : Bench γ} {m : Machine} {random : γ}

/-- Started in `s`, a workload ends in `Q`, or stops early in `R`. -/
def Meets (x : WorkloadM γ α) (s : Bench γ) (Q : α → Bench γ → Prop)
    (R : WorkloadStop → Bench γ → Prop) : Prop :=
  match x s with
  | .ok a s' => Q a s'
  | .error stop s' => R stop s'

theorem Meets.mono {Q Q' : α → Bench γ → Prop} {R R' : WorkloadStop → Bench γ → Prop}
    (h : Meets x s Q R) (hQ : ∀ a s', Q a s' → Q' a s') (hR : ∀ stop s', R stop s' → R' stop s') :
    Meets x s Q' R' := by
  unfold Meets at h ⊢
  split at h
  · exact hQ _ _ h
  · exact hR _ _ h

theorem meets_bind {f : α → WorkloadM γ β} {Q : β → Bench γ → Prop}
    {R : WorkloadStop → Bench γ → Prop} :
    Meets (x >>= f) s Q R ↔ Meets x s (fun a s' => Meets (f a) s' Q R) R := by
  change (match EStateM.bind x f s with
    | .ok a s' => Q a s' | .error stop s' => R stop s') ↔ _
  unfold EStateM.bind Meets
  cases x s <;> exact Iff.rfl

/-- The step after a workload may be assumed where it ends. -/
theorem Meets.bind {f : α → WorkloadM γ β} {P : α → Bench γ → Prop} {Q : β → Bench γ → Prop}
    {R R' : WorkloadStop → Bench γ → Prop} (h : Meets x s P R')
    (hf : ∀ a s', P a s' → Meets (f a) s' Q R) (hR : ∀ stop s', R' stop s' → R stop s') :
    Meets (x >>= f) s Q R :=
  meets_bind.mpr (h.mono hf hR)

/-- A step of the machine that breaks no assertion. -/
theorem meets_onMachine {y : MachineM α} {Q : α → Machine → Prop} {R : Refusal → Machine → Prop}
    (h : Action.Meets (fun _ _ => False) y m Q R) :
    Meets (onMachine y) ⟨m, random⟩ (fun a s => Q a s.machine)
      (fun stop s => ∃ cause, stop = .failed (.refused cause) ∧ R cause s.machine) := by
  unfold Action.Meets at h
  unfold Meets onMachine
  dsimp only
  cases hy : y m with
  | ok a m' =>
    rw [hy] at h
    exact h
  | error failure m' =>
    rw [hy] at h
    cases failure with
    | refused cause => exact ⟨cause, rfl, h⟩
    | fatal violation => exact h.elim

@[simp]
theorem meets_choose {choice : γ → α × γ} {Q : α → Bench γ → Prop}
    {R : WorkloadStop → Bench γ → Prop} :
    Meets (choose choice) ⟨m, random⟩ Q R ↔ Q (choice random).1 ⟨m, (choice random).2⟩ := Iff.rfl

/-- **A space is torn down however its workload ends**, and that is not refused. -/
theorem meets_withSpace {acquire : MachineM SpaceId} {x : SpaceId → WorkloadM γ α} {Q : α → Prop}
    {R : WorkloadStop → Prop}
    (h : Action.Meets (fun _ _ => False) acquire m (fun id m' => ∀ random, Meets (x id) ⟨m', random⟩
      (fun a s => Sound .none s.machine none none ∧ Q a)
      (fun stop s => Sound .none s.machine none none ∧ R stop)) fun _ _ => False) :
    Meets (withSpace acquire x) ⟨m, random⟩ (fun a _ => Q a) (fun stop _ => R stop) := by
  unfold withSpace
  refine (meets_onMachine h).bind (fun id s hx => ?_) fun _ _ ⟨_, _, hno⟩ => hno.elim
  have hsettled : Meets (Action.settle (x id)) s
      (fun result s => Sound .none s.machine none none ∧
        (∀ a, result = .ok a → Q a) ∧ ∀ stop, result = .error stop → R stop) (fun _ _ => False) := by
    have hx := hx s.random
    unfold Meets at hx
    unfold Meets Action.settle
    split at hx
    · rename_i heq
      rw [heq]
      exact ⟨hx.1, fun _ h => Except.ok.inj h ▸ hx.2, fun _ h => by cases h⟩
    · rename_i heq
      rw [heq]
      exact ⟨hx.1, fun _ h => (by cases h), fun _ h => Except.error.inj h ▸ hx.2⟩
  refine hsettled.bind (fun result s₁ h₁ => ?_) fun _ _ hno => hno.elim
  refine (meets_onMachine (Machine.meets_destroySpace (R := fun _ _ => False) h₁.1)).bind
    (fun _ s₂ _ => ?_) fun _ _ ⟨_, _, hno⟩ => hno.elim
  cases result with
  | ok a => exact h₁.2.1 a rfl
  | error stop => exact h₁.2.2 stop rfl

/-- A machine in order passes the audit. -/
theorem meets_audit {R : WorkloadStop → Bench γ → Prop} (hm : Sound .none s.machine none none) :
    Meets audit s (fun _ s' => s' = s) R := by
  have haudit : s.machine.audit = .ok () := (Machine.audit_eq_ok hm.numbered).mpr hm.audit_agrees
  unfold audit
  rw [meets_bind]
  show Meets (onMachine (Action.permit s.machine.audit)) s _ R
  rw [haudit]
  exact rfl

end WorkloadM

namespace Workload

open Machine WorkloadM

variable {γ : Type} {choices : Choices γ} {random : γ} {m₀ m m' : Machine} {id : SpaceId}
  {pages i : Nat} {filled : Array Bytes} {bytes : Bytes}

/-! ## The pages of a workload -/

/-- Page `i` of the space of a workload. -/
def cell (id : SpaceId) (i : Nat) : Owner := ⟨id, (pageAddr i).page⟩

/-- User memory reaches so far that the pages of a workload lie in it. -/
def InReach (m : Machine) (pages : Nat) : Prop := dataBase + pages * pageSize ≤ m.config.ceiling.toNat

theorem InReach.toNat_pageAddr (h : InReach m pages) (hi : i < pages) :
    (pageAddr i).toNat = 268435456 + i * 4096 := by
  have hceiling : m.config.ceiling.toNat < UInt64.size := m.config.ceiling.word.toNat_lt
  have hreach : 268435456 + pages * 4096 ≤ m.config.ceiling.toNat := h
  refine Address.toNat_ofNat (?_ : 268435456 + i * 4096 < UInt64.size)
  omega

/-- The pages of a workload are whole pages. -/
theorem InReach.offset_pageAddr (h : InReach m pages) (hi : i < pages) : (pageAddr i).offset = 0 := by
  unfold Address.offset
  rw [h.toNat_pageAddr hi]
  show (268435456 + i * 4096) % 4096 = 0
  omega

theorem InReach.page_pageAddr (h : InReach m pages) (hi : i < pages) :
    (pageAddr i).page = 65536 + i := by
  unfold Address.page
  rw [h.toNat_pageAddr hi]
  show (268435456 + i * 4096) / 4096 = 65536 + i
  omega

theorem InReach.cell_inj (h : InReach m pages) {j : Nat} (hi : i < pages) (hj : j < pages)
    (heq : cell id i = cell id j) : i = j := by
  have hvpn : (pageAddr i).page = (pageAddr j).page := congrArg Owner.vpn heq
  rw [h.page_pageAddr hi, h.page_pageAddr hj] at hvpn
  exact Nat.add_left_cancel hvpn

theorem InReach.not_bars (h : InReach m pages) (hi : i < pages) : ¬m.config.Bars (pageAddr i) := by
  have hreach : 268435456 + pages * 4096 ≤ m.config.ceiling.toNat := h
  have haddr := h.toNat_pageAddr hi
  rintro (hnull | hhigh)
  · simp only [Address.isNull, haddr, beq_iff_eq] at hnull
    omega
  · omega

/-- A machine on its way from `m₀`, whose one space has the pages of a workload, filled as listed. -/
structure Stocked (m₀ : Machine) (pages : Nat) (id : SpaceId) (filled : Array Bytes) (m : Machine) :
    Prop where
  sound : Sound .none m none none
  extent : m.extent = m₀.extent
  inReach : InReach m₀ pages
  size : filled.size ≤ pages
  live : (m.floorAt? id).isSome
  only : ∀ o, (m.page? o).isSome ↔ ∃ i < filled.size, o = cell id i
  shows : ∀ i (hi : i < filled.size), ∃ b : PageBytes, b.toArray = filled[i] ∧
    (m.ledger none none).Shows (cell id i) true b

/-- The pages of a workload, as owners. -/
def cells (id : SpaceId) (n : Nat) : List Owner := (List.range n).map (cell id)

theorem mem_cells {n : Nat} {o : Owner} : o ∈ cells id n ↔ ∃ i < n, o = cell id i := by
  unfold cells
  rw [List.mem_map]
  exact exists_congr fun i => and_congr List.mem_range eq_comm

@[simp]
theorem length_cells (id : SpaceId) (n : Nat) : (cells id n).length = n := by simp [cells]

theorem InReach.nodup_cells (h : InReach m pages) {n : Nat} (hn : n ≤ pages) : (cells id n).Nodup :=
  List.Nodup.map_on (fun _ hi _ hj heq => h.cell_inj (Nat.lt_of_lt_of_le (List.mem_range.mp hi) hn)
    (Nat.lt_of_lt_of_le (List.mem_range.mp hj) hn) heq) List.nodup_range

/-- The next page is not one of those before it. -/
theorem InReach.not_mem_cells (h : InReach m pages) {n : Nat} (hn : n < pages) :
    cell id n ∉ cells id n := fun hmem => by
  obtain ⟨i, hi, heq⟩ := mem_cells.mp hmem
  exact Nat.ne_of_gt hi (h.cell_inj hn (Nat.lt_trans hi hn) heq)

/-- A page the ledger knows to be plain is that page of the machine. -/
theorem page?_of_plain {o : Owner} {p : Page} (h : (m.ledger none none).page o = some p)
    (hp : p.Plain) : m.page? o = some p := by
  obtain ⟨q, hq, rfl⟩ := Option.map_eq_some_iff.mp h
  rwa [hp.of_located.located]

namespace Stocked

theorem fits (h : Stocked m₀ pages id filled m) (n : Nat) : m.Fits n ↔ m₀.Fits n := by
  have hframes : m.frames.total = m₀.frames.total := congrArg (·.2.1) h.extent
  have hslots : m.backing.swap.capacity = m₀.backing.swap.capacity := congrArg (·.2.2) h.extent
  unfold Fits
  rw [hframes, hslots]

/-- The pages that were filled are those that were loaded. -/
theorem laden (h : Stocked m₀ pages id filled m) : m.Laden id (cells id filled.size) := by
  have hpage : ∀ {x p}, m.page? x = some p → x ∈ cells id filled.size ∧ x.space = id ∧ p.Plain ∧
      p.IsLoaded := fun {x p} hp => by
    obtain ⟨i, hi, rfl⟩ := (h.only x).mp (by rw [hp]; rfl)
    obtain ⟨b, -, q, hq, hplain, hloaded, -⟩ := h.shows i hi
    obtain rfl := Option.some.inj (hp.symm.trans (page?_of_plain hq hplain))
    exact ⟨mem_cells.mpr ⟨i, hi, rfl⟩, rfl, hplain, hloaded rfl⟩
  exact ⟨h.inReach.nodup_cells h.size, fun o ho => (h.only o).mpr (mem_cells.mp ho),
    fun hp => (hpage hp).2.1, fun hp => (hpage hp).2.2.1,
    fun hp => iff_of_true (hpage hp).1 (hpage hp).2.2.2⟩

theorem shifts (h : Stocked m₀ pages id filled m) (hreach : Reaches .none Ledger.Shifts m m')
    (hextent : m'.extent = m.extent) : Stocked m₀ pages id filled m' := by
  have hlayout := hreach.told.layout h.sound.books
  refine ⟨hreach.sound h.sound, hextent.trans h.extent, h.inReach, h.size, ?_, fun o => ?_,
    fun i hi => ?_⟩
  · rw [show m'.floorAt? = m.floorAt? from congrArg Layout.floor hlayout]
    exact h.live
  · rw [← h.only o, ← @registered_ledger _ none none, hlayout]
    exact Eq.to_iff (congrArg (· = true) registered_ledger)
  · obtain ⟨b, hb, hshows⟩ := h.shows i hi
    exact ⟨b, hb, hshows.shifts h.sound.books hreach.told⟩

/-- **A page that is written as a whole** holds what it was written with from then on. -/
theorem write (h : Stocked m₀ pages id filled m) (hi : i < filled.size)
    (hreach : Reaches .none (Ledger.Trace [.write (cell id i) 0 bytes]) m m')
    (hextent : m'.extent = m.extent) (hbytes : bytes.size = pageSize) :
    Stocked m₀ pages id (filled.setIfInBounds i bytes) m' := by
  have hlayout : (m'.ledger none none).layout = (m.ledger none none).layout :=
    hreach.told.layout h.sound.books
  refine ⟨hreach.sound h.sound, hextent.trans h.extent, h.inReach, ?_, ?_, fun o => ?_,
    fun j hj => ?_⟩
  · rw [Array.size_setIfInBounds]
    exact h.size
  · rw [show m'.floorAt? = m.floorAt? from congrArg Layout.floor hlayout]
    exact h.live
  · rw [Array.size_setIfInBounds, ← h.only o, ← @registered_ledger _ none none, hlayout]
    exact Eq.to_iff (congrArg (· = true) registered_ledger)
  · rw [Array.size_setIfInBounds] at hj
    obtain ⟨b, hb, hshows⟩ := h.shows j hj
    by_cases hij : i = j
    · subst hij
      refine ⟨⟨bytes, hbytes⟩, ?_, hreach.told.shows_write h.sound.books hshows hbytes⟩
      rw [Array.getElem_setIfInBounds_self]
    · refine ⟨b, ?_, hreach.told.shows_of_write h.sound.books (fun heq => hij ?_) hshows⟩
      · rw [Array.getElem_setIfInBounds_ne hj hij]
        exact hb
      · exact (h.inReach.cell_inj (Nat.lt_of_lt_of_le hj h.size) (Nat.lt_of_lt_of_le hi h.size) heq).symm

section

variable {m₁ : Machine}

/-- The next page is registered: it is the only one that was not loaded. -/
theorem enter (h : Stocked m₀ pages id filled m) (hnext : filled.size < pages)
    (henter : Reaches .none (Ledger.Move (.enter (cell id filled.size) true .anon .zero)) m m₁) :
    m₁.Laden id (cells id filled.size) ∧
      m₁.page? (cell id filled.size) = some (.fresh (cell id filled.size).vpn true .anon .zero) ∧
      ∀ {x p}, m₁.page? x = some p → x = cell id filled.size ∨ x ∈ cells id filled.size := by
  have hfresh := page?_of_plain henter.told.contentOf_enter.1 (Page.plain_fresh _)
  have hsome : ∀ x, (m₁.page? x).isSome = (decide (x = cell id filled.size) || (m.page? x).isSome) :=
    fun x => by
      have hlayout := congrFun (congrArg Layout.registered henter.told.layout) x
      rw [registered_ledger] at hlayout
      exact hlayout.trans (congrArg (_ || ·) registered_ledger)
  have hcases : ∀ {x p}, m₁.page? x = some p → x = cell id filled.size ∨ x ∈ cells id filled.size :=
    fun {x p} hp => by
      have hx : (decide (x = cell id filled.size) || (m.page? x).isSome) = true :=
        (hsome x).symm.trans (by rw [hp]; rfl)
      rw [Bool.or_eq_true, decide_eq_true_eq] at hx
      exact hx.imp_right fun hx => mem_cells.mpr ((h.only x).mp hx)
  have hold : ∀ {x p}, m₁.page? x = some p → x ∈ cells id filled.size → p.Plain ∧ p.IsLoaded :=
    fun {x p} hp hx => by
      obtain ⟨i, hi, rfl⟩ := mem_cells.mp hx
      obtain ⟨b, -, hshows⟩ := h.shows i hi
      obtain ⟨q, hq, hplain, hloaded, -⟩ :=
        hshows.move h.sound.books henter.told (fun _ => nofun) fun _ _ => nofun
      obtain rfl := Option.some.inj (hp.symm.trans (page?_of_plain hq hplain))
      exact ⟨hplain, hloaded rfl⟩
  refine ⟨⟨h.inReach.nodup_cells h.size, fun x hx => ?_, fun {x p} hp => ?_, fun {x p} hp => ?_,
    fun {x p} hp => ?_⟩, hfresh, hcases⟩
  · rw [hsome, Bool.or_eq_true]
    exact Or.inr ((h.only x).mpr (mem_cells.mp hx))
  · rcases hcases hp with rfl | hx
    · rfl
    · obtain ⟨i, -, rfl⟩ := mem_cells.mp hx
      rfl
  · rcases hcases hp with rfl | hx
    · obtain rfl := Option.some.inj (hfresh.symm.trans hp)
      exact Page.plain_fresh _
    · exact (hold hp hx).1
  · rcases hcases hp with rfl | hx
    · obtain rfl := Option.some.inj (hfresh.symm.trans hp)
      exact iff_of_false (h.inReach.not_mem_cells hnext) (by rintro ⟨a, ha⟩; cases ha)
    · exact iff_of_true hx (hold hp hx).2

/-- The next page is registered and written as a whole. -/
theorem push (h : Stocked m₀ pages id filled m) (hnext : filled.size < pages)
    (henter : Reaches .none (Ledger.Move (.enter (cell id filled.size) true .anon .zero)) m m₁)
    (hwrite : Reaches .none (Ledger.Trace [.write (cell id filled.size) 0 bytes]) m₁ m')
    (hextent : m'.extent = m.extent) (hbytes : bytes.size = pageSize) :
    Stocked m₀ pages id (filled.push bytes) m' := by
  have hm₁ : (m₁.ledger none none).Sound := henter.told.sound h.sound.books
  have hlayout := (hwrite.told.layout hm₁).trans henter.told.layout
  refine ⟨⟨hwrite.told.sound hm₁, hwrite.kept⟩, hextent.trans h.extent, h.inReach, ?_, ?_, fun o => ?_,
    fun i hi => ?_⟩
  · rw [Array.size_push]
    exact hnext
  · rw [show m'.floorAt? = m.floorAt? from congrArg Layout.floor hlayout]
    exact h.live
  · have hregistered := congrFun (congrArg Layout.registered hlayout) o
    rw [registered_ledger] at hregistered
    rw [hregistered, Array.size_push]
    show (decide (o = cell id filled.size) || (m.ledger none none).layout.registered o) = true ↔ _
    rw [registered_ledger, Bool.or_eq_true, decide_eq_true_eq, h.only o]
    simp only [Nat.lt_succ_iff_lt_or_eq, or_and_right, exists_or, exists_eq_left]
    exact or_comm
  · have hold : ∀ {x b}, (m.ledger none none).Shows x true b → x ≠ cell id filled.size →
        (m'.ledger none none).Shows x true b := fun hshows hne =>
      hwrite.told.shows_of_write hm₁ hne
        (hshows.move h.sound.books henter.told (fun _ => nofun) fun _ _ => nofun)
    by_cases hlast : i < filled.size
    · obtain ⟨b, hb, hshows⟩ := h.shows i hlast
      rw [Array.getElem_push_lt hlast]
      exact ⟨b, hb, hold hshows fun heq =>
        Nat.ne_of_lt hlast (h.inReach.cell_inj (Nat.lt_trans hlast hnext) hnext heq)⟩
    · obtain rfl : i = filled.size := by
        rw [Array.size_push] at hi
        omega
      refine ⟨⟨bytes, hbytes⟩, by rw [Array.getElem_push_eq], ?_⟩
      exact hwrite.told.shows_write hm₁ (Ledger.Shows.enter henter.told) hbytes

end

/-- User memory reaches as far as it did. -/
theorem reach (h : Stocked m₀ pages id filled m) : InReach m pages := by
  have hconfig : m.config = m₀.config := congrArg (·.1) h.extent
  unfold InReach
  rw [hconfig]
  exact h.inReach

/-- A page that was filled is there. -/
theorem exists_page (h : Stocked m₀ pages id filled m) (hi : i < filled.size) :
    ∃ p, m.page? (cell id i) = some p :=
  Option.isSome_iff_exists.mp ((h.only _).mpr ⟨i, hi, rfl⟩)

/-- There is no other page than those that were filled. -/
theorem mem_of_page (h : Stocked m₀ pages id filled m) {x : Owner} {p : Page} (hp : m.page? x = some p) :
    x ∈ cells id filled.size :=
  mem_cells.mpr ((h.only x).mp (by rw [hp]; rfl))

end Stocked

/-! ## Accesses of a workload -/

/-- **Writing a page** of a workload as a whole. -/
theorem meets_writePage {os : List Owner} {p : Page} (hm : Sound .none m none none)
    (hreach : InReach m pages) (hi : i < pages) (hladen : m.Laden id os)
    (hp : m.page? (cell id i) = some p)
    (hall : ∀ {x p}, m.page? x = some p → x = cell id i ∨ x ∈ os) (hbytes : bytes.size = pageSize) :
    Action.Meets (fun _ _ => False) (Machine.write id (pageAddr i) bytes) m
      (fun _ m' => (Reaches .none (Ledger.Trace [.write (cell id i) 0 bytes]) m m' ∧
        m'.extent = m.extent) ∧ m.Accommodated m' os (cell id i))
      (fun cause m' => Sound .none m' none none ∧ m.Starved os (cell id i) cause) := by
  have hoffset := hreach.offset_pageAddr hi
  have hpositive : 0 < bytes.size := by
    rw [hbytes]
    exact Nat.zero_lt_succ _
  have hfits : (pageAddr i).offset + bytes.size ≤ pageSize :=
    Nat.le_of_eq (by rw [hoffset, hbytes, Nat.zero_add])
  refine ((((Machine.meets_write hm).and (leaves_extent (leaves_writeSpans id bytes _ 0) m)).and
    (hladen.meets_write hm hp (hreach.not_bars hi) hpositive hfits hall)).mono
    (fun _ m' h => ?_) fun cause m' h => ?_).relax fun _ _ h => h.1.1
  · obtain ⟨⟨⟨hkept, ks, hks, htrace⟩, hextent⟩, hroom⟩ := h
    rw [spans_of_fits hpositive hfits] at hks
    have hthere : (m.ledger none none).layout.registered (cell id i) = true := by
      rw [registered_ledger, hp]
      rfl
    obtain rfl := hks.eq_of_span hthere
    rw [hoffset, Nat.zero_add, Array.extract_size] at htrace
    exact ⟨⟨⟨hkept, htrace⟩, hextent⟩, hroom⟩
  · exact ⟨h.1.1.1.sound_told hm, h.2⟩

/-- **Reading a page** of a workload as a whole gives what it was filled with. -/
theorem Stocked.meets_read {R : Refusal → Machine → Prop} (h : Stocked m₀ pages id filled m)
    (hi : i < filled.size) :
    Action.Meets (fun _ _ => False) (Machine.read id (pageAddr i) pageSize) m
      (fun r m' => Stocked m₀ pages id filled m' ∧
        (r.stopped = none → r.bytes = filled[i] ∧
          m.Accommodated m' (cells id filled.size) (cell id i)) ∧
        ∀ cause, r.stopped = some cause → m.Starved (cells id filled.size) (cell id i) cause) R := by
  have hpages := Nat.lt_of_lt_of_le hi h.size
  have hoffset := h.reach.offset_pageAddr hpages
  have hfits : (pageAddr i).offset + pageSize ≤ pageSize :=
    Nat.le_of_eq (by rw [hoffset, Nat.zero_add])
  obtain ⟨p, hp⟩ := h.exists_page hi
  obtain ⟨b, hb, hshows⟩ := h.shows i hi
  refine ((((Machine.meets_read (R := R) h.sound).and
    ((leaves_extent (leaves_readSpans id _ #[]) m).mono (fun _ _ h => h) fun _ _ _ => trivial)).and
    (h.laden.meets_read (R := fun _ _ => True) h.sound hp (h.reach.not_bars hpages)
      (Nat.zero_lt_succ _) hfits fun hq => Or.inr (h.mem_of_page hq))).mono
    (fun r m' h' => ?_) fun _ _ h' => h'.1.1).relax fun _ _ h' => h'.1.1
  obtain ⟨⟨⟨⟨hkept, hread⟩, -⟩, hextent⟩, hroom, hstarved⟩ := h'
  rw [spans_of_fits (Nat.zero_lt_succ _) hfits] at hread
  obtain ⟨hshifts, hbytes⟩ := hread.page h.sound.books hoffset hshows
  exact ⟨h.shifts ⟨hkept, hshifts⟩ hextent, fun hr => ⟨(hbytes hr).trans hb, hroom hr⟩, hstarved⟩

/-! ## Steps of a workload -/

/-- There is memory enough to fill the pages and to visit them again. -/
def Suffices (m : Machine) (pages : Nat) : Prop := pages ≤ m.frames.total ∨ m.Fits pages

/-- A workload stops early because there is not enough memory for its pages. -/
structure FallsShort (m₀ : Machine) (pages : Nat) (stop : WorkloadStop) : Prop where
  short : ¬Suffices m₀ pages
  reason : stop = .failed (.refused m₀.shortage)

/-- An access that is refused shows that there is not enough memory. -/
theorem FallsShort.of_starved {n : Nat} {o : Owner} {cause : Refusal} (hextent : m.extent = m₀.extent)
    (hs : m.Starved (cells id n) o cause) (hn : n ≤ pages) (hfilled : n = pages → o ∈ cells id n) :
    FallsShort m₀ pages (.failed (.refused cause)) := by
  obtain ⟨hfull, hcause, hcrowded⟩ := hs
  have hframes : m.frames.total = m₀.frames.total := congrArg (·.2.1) hextent
  have hslots : m.backing.swap.capacity = m₀.backing.swap.capacity := congrArg (·.2.2) hextent
  unfold Machine.Fits at hfull
  rw [length_cells, hframes] at hcrowded
  rw [length_cells, hframes, hslots] at hfull
  refine ⟨?_, ?_⟩
  · rintro (hresident | ⟨hpositive, hroom⟩)
    · rcases Nat.lt_or_eq_of_le hn with hlt | heq
      · omega
      · have := hcrowded (hfilled heq)
        omega
    · omega
  · rw [hcause]
    unfold Machine.shortage
    rw [hframes]

/-- **The next page is filled**, or there is not enough memory. -/
theorem Stocked.meets_fillPage (h : Stocked m₀ pages id filled m) (hnext : filled.size < pages) :
    Meets (fillPage choices id filled.size) ⟨m, random⟩
      (fun bytes s => Stocked m₀ pages id (filled.push bytes) s.machine)
      (fun stop s => Sound .none s.machine none none ∧ FallsShort m₀ pages stop) := by
  have hfree : m.page? (cell id filled.size) = none :=
    Option.eq_none_iff_forall_ne_some.mpr fun p hp =>
      h.inReach.not_mem_cells hnext (h.mem_of_page hp)
  have htyped : PageType.anon = .file → ∃ w, Origin.zero = .file w := nofun
  have hleaves := leaves_extent (leaves_lasting (leaves_register id .anon (pageAddr filled.size) true .zero)) m
  have hregister := (((meets_register_of_free (F := Breaking .none) (R := fun _ _ => False) h.sound
    (.zero m.backing) htyped h.live hfree).and hleaves).mono (fun _ _ h => h) fun _ _ h => h.1).relax
    fun _ _ h => h.1
  unfold fillPage
  refine (meets_onMachine hregister).bind (fun _ s₁ h₁ => ?_) fun _ _ ⟨_, _, hno⟩ => hno.elim
  obtain ⟨⟨-, henter⟩, hextent₁⟩ := h₁
  obtain ⟨hladen, hp, hall⟩ := h.enter hnext henter
  have hm₁ : Sound .none s₁.machine none none := ⟨henter.told.sound h.sound.books, henter.kept⟩
  have hreach : InReach s₁.machine pages := by
    have hconfig : s₁.machine.config = m.config := congrArg (·.1) hextent₁
    unfold InReach
    rw [hconfig]
    exact h.reach
  rw [meets_bind, meets_choose]
  have hbytes := choices.size_bytes pageSize s₁.random
  refine (meets_onMachine (meets_writePage hm₁ hreach hnext hladen hp hall hbytes)).bind
    (fun _ s₂ h₂ => ?_) ?_
  · obtain ⟨⟨hwrite, hextent₂⟩, -⟩ := h₂
    exact h.push hnext henter hwrite (hextent₂.trans hextent₁) hbytes
  · rintro _ s₂ ⟨cause, rfl, hm₂, hstarved⟩
    exact ⟨hm₂, .of_starved (hextent₁.trans h.extent) hstarved (Nat.le_of_lt hnext)
      fun heq => absurd heq (Nat.ne_of_lt hnext)⟩

/-- **The pages are filled one after the other.** -/
theorem meets_fillFrom : ∀ {left : Nat} {filled : Array Bytes} {m : Machine} {random : γ},
    Stocked m₀ pages id filled m → filled.size + left = pages →
    Meets (fillFrom choices id filled.size left filled) ⟨m, random⟩
      (fun filled s => Stocked m₀ pages id filled s.machine ∧ filled.size = pages)
      (fun stop s => Sound .none s.machine none none ∧ FallsShort m₀ pages stop)
  | 0, filled, m, random, h, hsize => ⟨h, hsize⟩
  | left + 1, filled, m, random, h, hsize => by
    unfold fillFrom
    refine (h.meets_fillPage (by omega)).bind (fun bytes s₁ h₁ => ?_) fun _ _ h => h
    rw [← Array.size_push]
    refine meets_fillFrom h₁ ?_
    rw [Array.size_push]
    omega

/-- A list of the contents is not too long for the pages there can be. -/
theorem InReach.checkLength (h : InReach m pages) : checkLength entryBytes pages = .ok () := by
  have hceiling : m.config.ceiling.toNat < UInt64.size := m.config.ceiling.word.toNat_lt
  have hreach : 268435456 + pages * 4096 ≤ m.config.ceiling.toNat := h
  refine if_pos (?_ : 24 * pages < UInt64.size / 2)
  omega

theorem Stocked.meets_fill (h : Stocked m₀ pages id #[] m) :
    Meets (fill choices id pages) ⟨m, random⟩
      (fun filled s => Stocked m₀ pages id filled s.machine ∧ filled.size = pages)
      (fun stop s => Sound .none s.machine none none ∧ FallsShort m₀ pages stop) := by
  unfold fill
  rw [h.inReach.checkLength]
  exact meets_fillFrom h (Nat.zero_add pages)

/-- Pages were visited: there was room for one page more, or they were resident and none has moved. -/
def Visited (m₀ : Machine) (pages : Nat) (id : SpaceId) (visits : List Nat) (m m' : Machine) : Prop :=
  m₀.Fits pages ∨
    (∀ i ∈ visits, (m.frameOf (cell id i)).isSome) ∧ ∀ x, m'.frameOf x = m.frameOf x

theorem Visited.trans {visits visits' : List Nat} {m'' : Machine}
    (h : Visited m₀ pages id visits m m') (h' : Visited m₀ pages id visits' m' m'') :
    Visited m₀ pages id (visits ++ visits') m m'' := by
  rcases h with hfits | ⟨hresident, hsame⟩
  · exact Or.inl hfits
  rcases h' with hfits | ⟨hresident', hsame'⟩
  · exact Or.inl hfits
  refine Or.inr ⟨fun i hi => ?_, fun x => (hsame' x).trans (hsame x)⟩
  rcases List.mem_append.mp hi with hi | hi
  · exact hresident i hi
  · rw [← hsame]
    exact hresident' i hi

/-- **A visit** finds what the page was filled with and fills it anew, or there is not enough memory. -/
theorem Stocked.meets_renew (h : Stocked m₀ pages id filled m) (hsize : filled.size = pages)
    (hi : i < pages) :
    Meets (renew choices id filled i) ⟨m, random⟩
      (fun filled s => (Stocked m₀ pages id filled s.machine ∧ filled.size = pages) ∧
        Visited m₀ pages id [i] m s.machine)
      (fun stop s => Sound .none s.machine none none ∧ FallsShort m₀ pages stop) := by
  subst hsize
  have hmem : cell id i ∈ cells id filled.size := mem_cells.mpr ⟨i, hi, rfl⟩
  have hvisited : ∀ {a b : Machine}, Stocked m₀ filled.size id filled a →
      a.Accommodated b (cells id filled.size) (cell id i) → Visited m₀ filled.size id [i] a b :=
    fun ha hab => hab.imp (fun hfits => (ha.fits _).mp (length_cells id filled.size ▸ hfits))
      fun ⟨hresident, hsame⟩ => ⟨List.forall_mem_singleton.mpr hresident, hsame⟩
  unfold renew verify
  rw [Array.getElem?_eq_getElem hi, Option.getD_some]
  refine Meets.bind ((meets_onMachine (h.meets_read (R := fun _ _ => False) hi)).bind
    (P := fun r s => Stocked m₀ filled.size id filled s.machine ∧
      (r.stopped = none → r.bytes = filled[i] ∧
        m.Accommodated s.machine (cells id filled.size) (cell id i)) ∧
      ∀ cause, r.stopped = some cause → m.Starved (cells id filled.size) (cell id i) cause)
    (Q := fun _ s => Stocked m₀ filled.size id filled s.machine ∧
      Visited m₀ filled.size id [i] m s.machine)
    (R := fun stop s => Sound .none s.machine none none ∧ FallsShort m₀ filled.size stop)
    (fun r s₁ h₁ => ?_) fun _ _ ⟨_, _, hno⟩ => hno.elim) (fun _ s₁ h₁ => ?_) fun _ _ h => h
  · obtain ⟨hstocked, hread, hstarved⟩ := h₁
    cases hr : r.stopped with
    | some cause =>
      exact ⟨hstocked.sound, .of_starved h.extent (hstarved cause hr) (Nat.le_refl _) fun _ => hmem⟩
    | none =>
      obtain ⟨hbytes, hroom⟩ := hread hr
      dsimp only
      rw [if_neg (not_not_intro hbytes)]
      exact ⟨hstocked, hvisited h hroom⟩
  · obtain ⟨hstocked, hread⟩ := h₁
    rw [meets_bind, meets_choose]
    have hbytes := choices.size_bytes pageSize s₁.random
    obtain ⟨p, hp⟩ := hstocked.exists_page hi
    refine (meets_onMachine (meets_writePage hstocked.sound hstocked.reach hi hstocked.laden hp
      (fun hq => Or.inr (hstocked.mem_of_page hq)) hbytes)).bind (fun _ s₂ h₂ => ?_) ?_
    · obtain ⟨⟨hwrite, hextent⟩, hroom⟩ := h₂
      refine ⟨⟨hstocked.write hi hwrite hextent hbytes, Array.size_setIfInBounds⟩, ?_⟩
      exact (hread.trans (hvisited hstocked hroom)).imp_right fun ⟨hresident, hsame⟩ =>
        ⟨fun j hj => hresident j (List.mem_append_left _ hj), hsame⟩
    · rintro _ s₂ ⟨cause, rfl, hm₂, hstarved⟩
      exact ⟨hm₂, .of_starved hstocked.extent hstarved (Nat.le_refl _) fun _ => hmem⟩

/-- **Visits to pages**, in whatever order. -/
theorem meets_visits : ∀ {visits : List Nat} {filled : Array Bytes} {m : Machine} {random : γ},
    Stocked m₀ pages id filled m → filled.size = pages → (∀ i ∈ visits, i < pages) →
    Meets (visits.foldlM (renew choices id) filled) ⟨m, random⟩
      (fun filled s => (Stocked m₀ pages id filled s.machine ∧ filled.size = pages) ∧
        Visited m₀ pages id visits m s.machine)
      (fun stop s => Sound .none s.machine none none ∧ FallsShort m₀ pages stop)
  | [], filled, m, random, h, hsize, _ => ⟨⟨h, hsize⟩, Or.inr ⟨nofun, fun _ => rfl⟩⟩
  | i :: visits, filled, m, random, h, hsize, hvisits => by
    rw [List.foldlM_cons]
    refine (h.meets_renew hsize (hvisits i List.mem_cons_self)).bind (fun filled₁ s₁ h₁ => ?_)
      fun _ _ h => h
    obtain ⟨⟨hstocked, hsize₁⟩, hvisited⟩ := h₁
    refine (meets_visits hstocked hsize₁ fun j hj => hvisits j (List.mem_cons_of_mem i hj)).mono
      (fun _ s₂ h₂ => ?_) fun _ _ h => h
    exact ⟨h₂.1, hvisited.trans h₂.2⟩

/-- **All pages were visited**: there is memory enough. -/
theorem Visited.suffices {visits : List Nat} (h : Visited m₀ pages id visits m m')
    (hm : Stocked m₀ pages id filled m) (hsize : filled.size = pages)
    (hall : ∀ i < pages, i ∈ visits) : Suffices m₀ pages := by
  rcases h with hfits | ⟨hresident, -⟩
  · exact Or.inr hfits
  have hladen := hm.laden
  rw [hsize] at hladen
  have hcount : m.residents (cells id pages) = pages := by
    refine (List.countP_eq_length.mpr fun o ho => ?_).trans (length_cells id pages)
    obtain ⟨i, hi, rfl⟩ := mem_cells.mp ho
    exact hresident i (hall i hi)
  have htotal := hladen.residents_add_free hm.sound
  have hframes : m.frames.total = m₀.frames.total := congrArg (·.2.1) hm.extent
  exact Or.inl (by omega)

/-- **Rounds of visits** go through exactly if there is memory enough. -/
theorem meets_rounds : ∀ {left round : Nat} {order : Array Nat} {filled : Array Bytes} {m : Machine}
    {random : γ}, Stocked m₀ pages id filled m → filled.size = pages →
    order.Perm (Array.range pages) →
    Meets (rounds choices id round left order filled) ⟨m, random⟩
      (fun _ s => Sound .none s.machine none none ∧ (0 < left → Suffices m₀ pages))
      (fun stop s => Sound .none s.machine none none ∧ FallsShort m₀ pages stop)
  | 0, round, order, filled, m, random, h, _, _ => ⟨h.sound, nofun⟩
  | left + 1, round, order, filled, m, random, h, hsize, hperm => by
    unfold rounds
    rw [meets_bind, meets_choose]
    have hshuffled := (choices.shuffle_perm order random).trans hperm
    have hmem : ∀ i, i ∈ (choices.shuffle order random).1.toList ↔ i < pages := fun i => by
      rw [Array.mem_toList_iff, hshuffled.mem_iff, Array.mem_range]
    refine (meets_visits h hsize fun i hi => (hmem i).mp hi).bind (fun filled₁ s₁ h₁ => ?_)
      fun _ _ h => h
    obtain ⟨⟨hstocked, hsize₁⟩, hvisited⟩ := h₁
    have hidle := Idle.note s₁.machine (.roundVerified round (choices.shuffle order random).1.size) rfl
    have hnote : Action.Meets (fun _ _ => False)
        (note (.roundVerified round (choices.shuffle order random).1.size)) s₁.machine
        (fun _ m => Stocked m₀ pages id filled₁ m) fun _ _ => False :=
      Action.meets_modify.mpr (hstocked.shifts (.of_idle hstocked.sound hidle) rfl)
    refine (meets_onMachine hnote).bind (fun _ s₂ h₂ => ?_) fun _ _ ⟨_, _, hno⟩ => hno.elim
    refine (meets_rounds h₂ hsize₁ hshuffled).mono (fun _ s₃ h₃ => ⟨h₃.1, fun _ => ?_⟩)
      fun _ _ h => h
    exact hvisited.suffices h hsize fun i hi => (hmem i).mpr hi

/-- A space without pages is where a workload starts. -/
theorem meets_createSpace {R : Refusal → Machine → Prop} (hm : Sound .none m none none)
    (hreach : InReach m pages) (hempty : ∀ o, m.page? o = none) :
    Action.Meets (fun _ _ => False) createSpace m (fun id m' => Stocked m pages id #[] m') R := by
  have hextent : Action.Leaves extent createSpace := fun m => rfl
  refine ((((meets_createSpace_machine (R := R) hm).and (Machine.meets_createSpace (R := R) hm)).and
    (hextent m)).mono (fun id m' h => ?_) fun _ _ h => h.1.1).relax fun _ _ h => h.1.1
  obtain ⟨⟨hcreated, hreaches⟩, hextent⟩ := h
  have hledger := hcreated.ledger
  have hpage : ∀ o, m'.page? o = none := fun o => by
    have hpage : (m'.ledger none none).page o = (m.ledger none none).page o := by rw [hledger]; rfl
    rw [page_ledger, page_ledger, hempty] at hpage
    exact Option.map_eq_none_iff.mp hpage
  refine ⟨hreaches.sound_told hm, hextent, hreach, Nat.zero_le _, ?_, fun o => ?_, nofun⟩
  · have hfloor : m'.floorAt? id = some m.config.stackTop.pageAbove :=
      (congrFun (congrArg Ledger.floor hledger) id).trans (if_pos rfl)
    rw [hfloor]
    rfl
  · rw [hpage]
    exact iff_of_false Bool.false_ne_true fun ⟨i, hi, _⟩ => Nat.not_lt_zero i hi

/-- On a machine in order without pages, the workload goes through only if there is memory enough, and
stops only if there is not. -/
theorem meets_anon {count : Nat} (hm : Sound .none m none none) (hreach : InReach m pages)
    (hempty : ∀ o, m.page? o = none) (hcount : 0 < count) :
    Meets (anon choices pages count) ⟨m, random⟩ (fun _ _ => Suffices m pages)
      (fun stop _ => FallsShort m pages stop) := by
  refine meets_withSpace (Q := fun _ => Suffices m pages) (R := FallsShort m pages)
    ((meets_createSpace hm hreach hempty).mono (fun id m₁ h₁ random => ?_) fun _ _ h => h)
  refine h₁.meets_fill.bind (fun filled s₂ h₂ => ?_) fun _ _ h => h
  refine (meets_rounds h₂.1 h₂.2 (.refl _)).bind (fun _ s₃ h₃ => ?_) fun _ _ h => h
  refine (meets_audit h₃.1).mono ?_ fun _ _ h => h
  rintro _ _ rfl
  exact ⟨h₃.1, h₃.2 hcount⟩

/-- **The anonymous workload goes through exactly if frames and slots suffice**: if there is a frame for
every page, or else a frame and a place for one page more. If they do not suffice, it is frames that have
run out when there are none, and slots otherwise; no page is found with another content, and nothing is
found by the audit. -/
theorem anon_suffices (choices : Choices γ) (random : γ) (disk : Disk) (files : FileStore)
    {frames count : Nat} (hframes : frames ≤ Entry.frameLimit) (hcount : 0 < count)
    (hreach : dataBase + pages * pageSize ≤ ({ userFrames := frames } : Config).ceiling.toNat) :
    ((∃ bench, anon choices pages count ⟨start { userFrames := frames } disk files, random⟩ =
        .ok () bench) ↔
      pages ≤ frames ∨ 1 ≤ frames ∧ pages + 1 ≤ frames + (Swap.ofDisk disk).capacity) ∧
    ∀ stop bench, anon choices pages count ⟨start { userFrames := frames } disk files, random⟩ =
        .error stop bench →
      stop = .failed (.refused (if frames = 0 then .outOfFrames else .outOfSwap)) := by
  have hstart : Sound .none (start { userFrames := frames } disk files) none none :=
    sound_start disk files hframes
  have hrun : Meets (anon choices pages count) ⟨start { userFrames := frames } disk files, random⟩ _ _ :=
    meets_anon hstart hreach (page?_start _ disk files) hcount
  unfold Meets at hrun
  split at hrun
  · rename_i a s heq
    refine ⟨iff_of_true ⟨s, heq⟩ hrun, fun stop bench hstop => ?_⟩
    rw [hstop] at heq
    cases heq
  · rename_i stop s heq
    refine ⟨iff_of_false (fun ⟨bench, hok⟩ => ?_) hrun.short, fun stop' bench hstop => ?_⟩
    · rw [hok] at heq
      cases heq
    · obtain ⟨rfl, -⟩ := EStateM.Result.error.inj (hstop.symm.trans heq)
      exact hrun.reason

/-- With one frame and two slots, two pages go through and three do not. -/
theorem anon_suffices_one_frame :
    (∃ bench, anon SplitMix.choices 2 1 ⟨start { userFrames := 1 } (.blank 16), ⟨0⟩⟩ =
      .ok () bench) ∧
    ∀ bench, anon SplitMix.choices 3 1 ⟨start { userFrames := 1 } (.blank 16), ⟨0⟩⟩ ≠
      .ok () bench :=
  ⟨(anon_suffices SplitMix.choices ⟨0⟩ (.blank 16) {} (by decide) (by decide) (by decide)).1.mpr
      (by decide),
    fun bench hok => absurd ((anon_suffices SplitMix.choices ⟨0⟩ (.blank 16) {} (by decide)
      (by decide) (by decide)).1.mp ⟨bench, hok⟩) (by decide)⟩

end Workload

end DemandPaging
