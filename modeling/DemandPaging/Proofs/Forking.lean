import DemandPaging.Proofs.Ledger.Shadow
import DemandPaging.Proofs.Slots
import DemandPaging.Proofs.Permission

/-!
# A refused fork leaves no trace

A fork is refused when an evicted page of the parent cannot be made resident, for want of a frame or of
a slot. The first such page decides: once one was made resident its slot is free, and there is room for
every later one. So up to the refusal pages were shared and nothing was moved, and tearing the new space
down undoes the sharing.

Headline: **`Reachable.untraced_of_fork`**.
-/

namespace DemandPaging

/-- What of a page does not depend on the handles that are open. -/
def Page.outline (p : Page) : PageType × Bool × Nat × Option FrameNum × Option Nat × Option Nat :=
  (p.type, p.writable, p.mapping, p.frame, p.group, p.slot)

namespace Machine

variable {lax : Tolerance} {m₀ m m' : Machine} {parent child : SpaceId} {cause : Refusal}

/-- The machine `m` is `m₀` with a half-made copy of a space beside it. -/
structure Shadows (child : SpaceId) (m₀ m : Machine) : Prop where
  ledger : (m₀.ledger none none).Shadowed child (m.ledger none none)
  counters : m.counters = m₀.counters

theorem Shadows.idle (h : Shadows child m₀ m) (hidle : Idle m m') (hcounters : m'.counters = m.counters) :
    Shadows child m₀ m' := ⟨hidle.ledger.symm ▸ h.ledger, hcounters.trans h.counters⟩

/-! ## Copying until it is refused -/

/-- Sharing takes no room away. -/
theorem Roomy.copy {src o : Owner} (h : m.Roomy)
    (hmove : Ledger.Move (.copy src o) (m.ledger none none) (m'.ledger none none))
    (hswap : m'.backing.swap = m.backing.swap) : m'.Roomy := by
  obtain ⟨f, hf⟩ := h.frame
  exact ⟨hswap ▸ h.slot, f, (hmove.crew_isSome_of_copy f).trans hf⟩

/-- **Copying a page** takes no room away, and is refused only while there is none. -/
theorem meets_copyPage_shadows {p : Page} {v : PageNum} (hm : Sound lax m none none)
    (hlive : (m.floorAt? child).isSome) (hp : m.page? ⟨parent, v⟩ = some p)
    (hfree : m.page? ⟨child, v⟩ = none) (hquiet : Shadows child m₀ m ∨ m.Roomy) :
    Action.Meets (BreaksOff lax) (copyPage child parent v) m
      (fun _ m' => Reaches lax (Ledger.Copies ⟨parent, v⟩ ⟨child, v⟩) m m' ∧
        (Shadows child m₀ m' ∨ m'.Roomy)) (fun _ m' => Shadows child m₀ m') := by
  refine (meets_copyPage_of_page hm hlive hp hfree).mono (fun _ m₁ h₁ => ⟨h₁.1, ?_⟩) fun cause m₁ h₁ => ?_
  · rcases h₁.2 with ⟨hmove, hcounters, hswap⟩ | hroomy
    · exact hquiet.imp
        (fun h => ⟨h.ledger.copy hm.books hmove rfl, hcounters.trans h.counters⟩)
        fun h => h.copy hmove hswap
    · exact Or.inr hroomy
  · obtain ⟨hexhausted, hscanned⟩ := h₁
    rcases hquiet with hquiet | hroomy
    · exact hquiet.idle hscanned.idle hscanned.counters
    · exact absurd hexhausted (hroomy.not_exhausted hm)

/-- **Copying a whole space** is refused only while nothing but sharing has happened. -/
theorem meets_copyPages_shadows (hm : Sound lax m none none) (hlive : (m.floorAt? child).isSome)
    (hempty : ∀ v, m.page? ⟨child, v⟩ = none) (hquiet : Shadows child m₀ m) :
    Action.Meets (BreaksOff lax) (copyPages child parent) m (fun _ _ => True)
      (fun _ m' => Shadows child m₀ m') :=
  (meets_copyPages_keeping (I := fun _ m => Shadows child m₀ m ∨ m.Roomy) hm hlive hempty
    (fun _ _ => Or.inl hquiet) (fun _ _ => hquiet)
    fun hm hlive hp hfree _ h => meets_copyPage_shadows hm hlive hp hfree h).mono
    (fun _ _ _ => trivial) fun _ _ h => h

/-! ## Tearing the copy down -/

/-- **Tearing a half-made copy down** gives the machine back. -/
theorem meets_destroySpace_of_shadows {R : Refusal → Machine → Prop} (hm₀ : Sound lax m₀ none none)
    (hnew : m₀.floorAt? child = none) (hm : Sound lax m none none)
    (hlive : (m.floorAt? child).isSome) (h : Shadows child m₀ m) :
    Action.Meets (Breaking lax) (destroySpace child) m
      (fun _ m' => m'.ledger none none = m₀.ledger none none ∧ m'.counters = m₀.counters) R := by
  refine (meets_destroySpace_keeping (I := Shadows child m₀) (fun m v hm h hv => ?_) hm hlive h).mono
    (fun _ m' h' => ?_) fun _ _ h => h
  · refine ((meets_releasePage (R := fun _ _ => True) hm hv).mono (fun _ m' h' => ?_)
      fun _ _ h => h).relax fun _ _ _ => trivial
    have hclean : m.hasFlag ⟨child, v⟩ .dirty = false :=
      isDirty_ledger.symm.trans (h.ledger.clean rfl)
    exact ⟨h.ledger.leave hm₀.books h'.1.told rfl, (h'.2 hclean).trans h.counters⟩
  · obtain ⟨-, m₁, h₁, hm₁, hgone, hmove, hcounters⟩ := h'
    refine ⟨?_, hcounters.trans h₁.counters⟩
    generalize m'.ledger none none = L at hmove
    cases hmove
    refine h₁.ledger.restored hm₀.books hm₁.books hnew fun o ho => ?_
    obtain ⟨s, v⟩ := o
    obtain rfl : s = child := ho
    rw [page_ledger, hgone]
    rfl

/-- **A fork that is refused** changes nothing the ledger tells, and nothing is counted. -/
theorem meets_fork_of_refused (hm : Sound lax m none none) :
    Action.Meets (fun _ _ => True) (fork parent) m (fun _ _ => True)
      (fun _ m' => m'.ledger none none = m.ledger none none ∧ m'.counters = m.counters) := by
  unfold fork
  rw [Action.meets_bind]
  refine ((meets_createSpace_machine hm).mono (fun child m₁ h₁ => ?_) fun _ _ h => h).relax
    fun _ _ _ => trivial
  have hm₁ := h₁.sound hm
  have hquiet : Shadows child m m₁ := by
    refine ⟨?_, h₁.counters⟩
    rw [h₁.ledger]
    exact .setFloor hm.books h₁.fresh _
  rw [Action.meets_bind]
  refine ((meets_copyPages hm₁).and (meets_copyPages_shadows hm₁ h₁.live (h₁.page? hm) hquiet)).settle
    (fun _ _ _ => trivial) (fun cause m₂ h₂ => ?_) fun v m₂ _ => ?_
  · obtain ⟨⟨⟨hkept, ks, hks, htrace⟩, -⟩, hshadows⟩ := h₂
    have hfloor : (m₂.floorAt? child).isSome := by
      obtain ⟨hvs⟩ := hks
      have hfloor : m₂.floorAt? = m₁.floorAt? :=
        (congrArg Layout.floor (htrace.layout hm₁.books)).trans (Layout.floor_copyKinds ..)
      rw [hfloor]
      exact h₁.live
    exact (((meets_destroySpace_of_shadows hm h₁.fresh ⟨htrace.sound hm₁.books, hkept⟩ hfloor
      hshadows).relax fun _ _ _ => trivial).bind (fun _ _ h => h) fun _ _ h => h)
  · exact (meets_destroySpace_of_any child m₂).bind (fun _ _ _ => trivial) fun _ _ h => h.elim

/-! ## What is left -/

/-- The bytes a space sees at a page, or will see once the page is resident. -/
def imageOf (m : Machine) (o : Owner) : Option PageBytes :=
  ((m.ledger none none).page o).map (m.ledger none none).contentOf

/-- **The machine `m'` shows no trace of a space that was made and discarded since `m`.** -/
structure Untraced (m m' : Machine) : Prop where
  /-- The same spaces are there, and their stacks reach as far. -/
  spaces : ∀ id, m'.floorAt? id = m.floorAt? id
  /-- The same pages are registered, and they are in the same places. -/
  pages : ∀ o, (m'.page? o).map Page.outline = (m.page? o).map Page.outline
  /-- They show the same bytes. -/
  images : ∀ o, m'.imageOf o = m.imageOf o
  /-- The owners of frames are in spaces that were there. -/
  owners : ∀ {f c o}, m'.resident.get? f = some c → o ∈ c.owners → (m.floorAt? o.space).isSome
  /-- So are the members of groups, -/
  members : ∀ {g : Nat} {G : EvictionGroup} {o : Owner}, m'.groups[g]? = some G → o ∈ G.members →
    (m.floorAt? o.space).isSome
  /-- and the pages that hold slots. -/
  slots : ∀ {s : Nat}, m'.backing.swap.slots.isSet s = true →
    ∃ o, m'.slotOf o = some s ∧ (m.floorAt? o.space).isSome
  /-- No file has changed. -/
  files : m'.backing.files.file = m.backing.files.file
  /-- Nothing was written back, and no page was moved. -/
  counters : m'.counters = m.counters
  /-- Resident pages are mapped writable where it is safe. -/
  guarded : m'.Guarded

theorem outline_located (files : FileStore) (p : Page) :
    (p.located files).outline = p.outline := by
  unfold Page.outline
  rw [Page.type_located, Page.mapping_located, Page.slot_located]
  rfl

/-- A machine of which the ledger tells the same shows no trace. -/
theorem Sound.untraced (hm' : Sound lax m' none none)
    (hledger : m'.ledger none none = m.ledger none none) (hcounters : m'.counters = m.counters) :
    m.Untraced m' := by
  have hfloor : m'.floorAt? = m.floorAt? := congrArg Ledger.floor hledger
  have hliving : ∀ {o p}, m'.page? o = some p → (m.floorAt? o.space).isSome := fun hp =>
    congrFun hfloor _ ▸ hm'.books.living (page_ledger_of_page? hp)
  have haccounted := hm'.slots_agree
  refine ⟨congrFun hfloor, fun o => ?_, fun o => ?_, fun {f c o} hc ho => ?_, fun {g G o} hG ho => ?_,
    fun {s} hs => ?_, congrArg Ledger.file hledger, hcounters, hm'.guards⟩
  · have hpage : (m'.page? o).map (Page.located m'.backing.files) =
        (m.page? o).map (Page.located m.backing.files) := congrFun (congrArg Ledger.page hledger) o
    have houtline := congrArg (Option.map Page.outline) hpage
    rw [Option.map_map, Option.map_map] at houtline
    simpa only [Function.comp_def, outline_located] using houtline
  · rw [imageOf, imageOf, hledger]
  · obtain ⟨-, p, -, hp, -⟩ := hm'.guards.alike hc ho ho
    exact hliving hp
  · obtain ⟨p, hp, -⟩ := Option.bind_eq_some_iff.mp ((haccounted.members hG).mp ho)
    exact hliving hp
  · obtain ⟨o, ho⟩ := (haccounted.occupied s).mp hs
    obtain ⟨p, hp, -⟩ := Option.bind_eq_some_iff.mp ho
    exact ⟨o, ho, hliving hp⟩

end Machine

open Machine

variable {m m' : Machine} {parent : SpaceId} {cause : Refusal}

/-- **A fork that is refused leaves no trace**, whatever it was refused for and however many pages it
had shared by then. -/
theorem Reachable.untraced_of_fork (h : Reachable .all m)
    (hfork : fork parent m = .error (.refused cause) m') : m.Untraced m' := by
  have hm := h.sound
  obtain ⟨hledger, hcounters⟩ := (meets_fork_of_refused hm).of_refused hfork
  obtain ⟨⟨hkept, ks, -, htrace⟩, -⟩ := (meets_fork hm).of_refused hfork
  exact Sound.untraced ⟨htrace.sound hm.books, hkept⟩ hledger hcounters

/-- A step in which a fork is refused changes nothing the ledger tells. -/
theorem Step.ledger_of_fork_refused {lax : Tolerance}
    (hs : Step lax m (.ask (.fork parent) (.error cause)) m') (hm : Sound lax m none none) :
    m'.ledger none none = m.ledger none none := by
  have hmeets : Action.Meets (fun _ _ => True) (Operation.fork parent).perform m (fun _ _ => True)
      fun _ m' => m'.ledger none none = m.ledger none none ∧ m'.counters = m.counters :=
    (meets_fork_of_refused hm).bind (fun _ _ _ => trivial) fun _ _ h => h
  cases hs with
  | ask hop h =>
    cases h with
    | refused h => exact (hmeets.of_refused h).1
    | reported h hevent => cases hevent

/-- Requests that fill two frames and two slots, so that the lower pages are resident. -/
def Operation.filling : List Operation :=
  [.create] ++ [0x4000, 0x3000, 0x2000, 0x1000].flatMap fun va =>
    [.register 0 .anon ⟨va⟩ true .zero, .write 0 ⟨va⟩ #[7]]

/-- A fork shares the resident pages, and is refused at the first evicted one. -/
theorem Reachable.untraced_of_fork_filled : ∃ m m', Reachable .all m ∧
    fork 0 m = .error (.refused .outOfSwap) m' ∧ m.Untraced m' := by
  have h : ((Machine.start { userFrames := 2 } (.blank 16)).carry Operation.filling).any
      (fun r => ((fork 0).refusal? r.2).any fun r' => decide (r'.1 = .outOfSwap)) = true := by
    decide +kernel
  obtain ⟨r, -, hm, hrest⟩ := Reachable.exists_of_carry (by decide) h
  obtain ⟨cause, m', hfork, hcause⟩ := Action.exists_refused_of_any hrest
  obtain rfl := of_decide_eq_true hcause
  exact ⟨r.2, m', hm, hfork, hm.untraced_of_fork hfork⟩

end DemandPaging
