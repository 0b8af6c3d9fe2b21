import DemandPaging.Machine.Removal
import DemandPaging.Proofs.Ledger.Withdrawing
import DemandPaging.Proofs.Machine.Sharing

/-!
# Removal keeps the books
-/

namespace DemandPaging

/-! ## What goes with a page -/

namespace Page

variable {lax : Tolerance} {p : Page} {b : Backing}

/-- **Giving up the slot a page holds alone.** -/
theorem meets_destroy {F : Violation → Backing → Prop} {R : Refusal → Backing → Prop} (hswap : b.swap.Valid)
    (hslot : ∀ s, p.slot = some s → b.swap.occupied s = true) :
    Action.Meets F p.destroy b (fun _ b' => ∃ swap, b' = { b with swap } ∧ swap.Valid ∧
      (∀ s, swap.occupied s = (b.swap.occupied s && !decide (p.slot = some s))) ∧
      ∀ s, swap.content s = b.swap.content s) R := by
  unfold destroy
  split
  · rename_i a hc
    have hpslot : p.slot = a.slot := by rw [slot, hc]
    simp only [Action.meets_bind, Action.meets_get, Action.meets_modify, Action.meets_pure]
    rw [Action.meets_assert]
    cases hs : a.slot with
    | none =>
      have hdone : a.destroy b.swap = .ok (a, b.swap) := by simp only [AnonPage.destroy, hs]
      rw [hdone]
      refine ⟨fun r hr => ?_, fun _ hr => by cases hr⟩
      obtain rfl := Except.ok.inj hr
      exact ⟨b.swap, rfl, hswap, fun s => by simp [hpslot, hs], fun _ => rfl⟩
    | some s =>
      obtain ⟨swap, hrelease, hvalid, hocc, hcontent⟩ := hswap.release (hslot s (hpslot.trans hs))
      have hdone : a.destroy b.swap = .ok ({}, swap) := by
        simp only [AnonPage.destroy, hs, hrelease]
      rw [hdone]
      refine ⟨fun r hr => ?_, fun _ hr => by cases hr⟩
      obtain rfl := Except.ok.inj hr
      refine ⟨swap, rfl, hvalid, fun t => ?_, hcontent⟩
      rw [hocc t, hpslot, hs]
      by_cases ht : t = s
      · simp [ht]
      · simp [ht, Ne.symm ht]
  · rename_i hc
    have hpslot : p.slot = none := by
      unfold slot
      split
      · rename_i a ha
        exact absurd ha (hc a)
      · rfl
    exact ⟨b.swap, rfl, hswap, fun s => by simp [hpslot], fun _ => rfl⟩

/-- **Writing back a page that was loaded.** It breaks off only if the file does not take all of it. -/
theorem meets_writeBack {R : Refusal → Backing → Prop} (hloaded : ∀ t g, p.content ≠ .uninit t g)
    (husable : ∀ w, p.window? = some w → w.Usable lax b.files) (frame : PageBytes) :
    Action.Meets (fun v _ => lax v ∧ ¬(p.located b.files).TakenBy b.files.file frame)
      (p.writeBack frame) b (fun written b' => written = p.window?.isSome ∧
        (p.located b.files).TakenBy b.files.file frame ∧ ∃ files, b' = { b with files } ∧
        b.files.Extends files ∧ files.file = (p.located b.files).flushed frame b.files.file) R := by
  unfold writeBack
  split
  · rename_i w hc
    have hw : p.window? = some w := by rw [window?, hc]; rfl
    have htaken : (p.located b.files).TakenBy b.files.file frame ↔
        w.TakenBy (b.files.fileOf w.handle) frame := by
      simp only [TakenBy, located, Content.located, hc, Content.file.injEq, forall_eq']
      exact Iff.rfl
    simp only [Backing.onFiles, Action.meets_bind, Action.meets_within, Action.meets_pure]
    refine ((FileWindow.meets_writeBack (husable w hw) frame).mono
      (fun _ files h => ?_) fun _ _ h => h).relax
      fun v files h => ⟨h.1.allowed, fun hall => h.2.2 (htaken.mp hall)⟩
    refine ⟨by rw [hw]; rfl, htaken.mpr h.1, files, rfl, h.2.1, funext fun i => ?_⟩
    rw [h.2.2 i]
    simp [flushed, located, Content.located, FileWindow.located, hc]
  · rename_i hc
    cases hcp : p.content with
    | file w => exact absurd hcp (hc w)
    | uninit t g => exact absurd hcp (hloaded t g)
    | anon a =>
      have hlocated : (p.located b.files).content = .anon a := by
        rw [located, hcp]
        rfl
      refine ⟨by rw [window?, hcp]; rfl, fun w hw => ?_, b.files, rfl, .refl _, ?_⟩
      · rw [hlocated] at hw
        cases hw
      · rw [flushed, hlocated]

end Page

namespace Machine

variable {lax : Tolerance} {m m' : Machine} {hand pin : Option FrameNum} {o : Owner} {p : Page}
  {f : FrameNum} {c : Frame}

/-! ## Leaving a frame -/

/-- What leaving a frame, in which `others` stay, did to the machine. -/
structure LeftFrame (m m' : Machine) (f : FrameNum) (c : Frame) (others : List Owner) (w : Bool) :
    Prop where
  rest : ∃ spaces resident frames, m' = { m with spaces, resident, frames }
  page : ∀ x, m'.page? x = m.page? x
  grant : ∀ x, (m'.entryAt? x).map Entry.grant =
    if others = [x]
    then ((m.entryAt? x).map Entry.grant).map fun e => { e with writable := e.writable || w }
    else (m.entryAt? x).map Entry.grant
  crew : ∀ x, m'.resident.get? x = if x = f
    then (if others = [] then none else some { c with owners := others })
    else m.resident.get? x
  valid : m'.frames.Valid
  total : m'.frames.total = m.frames.total
  held : ∀ x, m'.frames.Held x ↔ m.frames.Held x ∧ ¬(others = [] ∧ x = f)
  bytes : ∀ x, m'.frames.bytes? x = m.frames.bytes? x
  floor : ∀ id, m'.floorAt? id = m.floorAt? id

theorem meets_leaveFrame {F : Violation → Machine → Prop} {w : Bool} {R : Refusal → Machine → Prop}
    (hc : m.resident.get? f = some c) (hvalid : m.frames.Valid) (hheld : m.frames.Held f)
    (hlast : ∀ x, c.owners.filter (· ≠ o) = [x] → ∃ p, m.page? x = some p ∧ p.writable = w) :
    Action.Meets F (leaveFrame o f) m
      (fun _ m' => LeftFrame m m' f c (c.owners.filter (· ≠ o)) w) R := by
  have hremoved := get?_removeOwner hc o
  have howners := owners_removeOwner hc o
  unfold leaveFrame
  simp only [Action.meets_bind, Action.meets_modify, Action.meets_get, Action.meets_ite]
  rw [howners]
  generalize c.owners.filter (· ≠ o) = others at hremoved howners hlast ⊢
  constructor
  · intro hempty
    obtain rfl := List.isEmpty_iff.mp hempty
    obtain ⟨frames, hrelease, hvalid', hheld', htotal, hbytes⟩ := hvalid.release hheld
    unfold releaseFrame
    simp only [Action.meets_bind, Action.meets_get, hrelease]
    refine ⟨⟨_, _, _, rfl⟩, fun _ => rfl, fun _ => rfl, fun x => ?_, hvalid', htotal, fun x => ?_,
      hbytes, fun _ => rfl⟩
    · refine (FrameTable.get?_erase _ _ _).trans ?_
      rw [hremoved]
      split <;> rfl
    · refine (hheld' x).trans ?_
      simp
  · intro hsome
    have hne : others ≠ [] := fun h => hsome (List.isEmpty_iff.mpr h)
    refine (meets_restoreSoleOwner (w := w) ?_).mono (fun _ m' h => ?_) fun _ _ h => h
    · exact fun x hx => hlast x (howners.symm.trans hx)
    have hpage := h.page
    have hgrant := h.grant
    have hfloor := h.floor
    obtain ⟨spaces, rfl⟩ := h.rest
    refine ⟨⟨_, _, _, rfl⟩, hpage, fun x => ?_, fun x => ?_, hvalid, rfl, fun x => ?_,
      fun _ => rfl, hfloor⟩
    · rw [← howners]
      exact hgrant x
    · refine (hremoved x).trans ?_
      rw [if_neg hne]
    · simp [hne]

/-- What removing a resident page did to the machine. `back` is whether it was written back. -/
structure RemovedFrom (m m' : Machine) (o : Owner) (p : Page) (f : FrameNum) (c : Frame)
    (others : List Owner) (b : PageBytes) (back : Bool) : Prop where
  rest : ∃ spaces resident frames files counters journal, m' = { m with
    spaces, resident, frames, backing := { m.backing with files }, counters, journal }
  page : ∀ x, m'.page? x = if x = o then none else m.page? x
  grant : ∀ x, (m'.entryAt? x).map Entry.grant =
    if x = o then none
    else if others = [x]
    then ((m.entryAt? x).map Entry.grant).map fun e =>
      { e with writable := e.writable || p.writable }
    else (m.entryAt? x).map Entry.grant
  crew : ∀ x, m'.resident.get? x = if x = f
    then (if others = [] then none else some { c with owners := others })
    else m.resident.get? x
  valid : m'.frames.Valid
  total : m'.frames.total = m.frames.total
  held : ∀ x, m'.frames.Held x ↔ m.frames.Held x ∧ ¬(others = [] ∧ x = f)
  bytes : ∀ x, m'.frames.bytes? x = m.frames.bytes? x
  floor : ∀ id, m'.floorAt? id = m.floorAt? id
  files : m.backing.files.Extends m'.backing.files
  file : m'.backing.files.file =
    if back then (p.located m.backing.files).flushed b m.backing.files.file
    else m.backing.files.file
  taken : back = true → (p.located m.backing.files).TakenBy m.backing.files.file b
  counters : m'.counters = if back && p.window?.isSome
    then { m.counters with writeBacks := m.counters.writeBacks + 1 } else m.counters
  log : Event.placings m'.journal = Event.placings m.journal

theorem meets_writeBackBeforeRemoval {b : PageBytes} {R : Refusal → Machine → Prop}
    (hloaded : ∀ t g, p.content ≠ .uninit t g)
    (husable : ∀ w, p.window? = some w → w.Usable lax m.backing.files)
    (hb : m.frames.bytes? f = some b) :
    Action.Meets (fun v _ => lax v ∧
        ¬(p.located m.backing.files).TakenBy m.backing.files.file b) (writeBackBeforeRemoval p f) m
      (fun _ m' => ∃ files, m' = { m with
          backing := { m.backing with files }
          counters := if p.window?.isSome
            then { m.counters with writeBacks := m.counters.writeBacks + 1 } else m.counters } ∧
        m.backing.files.Extends files ∧
        (p.located m.backing.files).TakenBy m.backing.files.file b ∧
        files.file = (p.located m.backing.files).flushed b m.backing.files.file) R := by
  unfold writeBackBeforeRemoval onBacking
  rw [Action.meets_bind_of_ok (frameBytes_eq hb), Action.meets_bind, Action.meets_within]
  refine (Page.meets_writeBack hloaded husable b).mono ?_ fun _ _ h => h
  rintro written _ ⟨rfl, htaken, files, rfl, hext, hfile⟩
  unfold count
  rw [Action.meets_ite]
  exact ⟨fun hwritten => ⟨files, by rw [if_pos hwritten], hext, htaken, hfile⟩,
    fun hwritten => ⟨files, by rw [if_neg hwritten], hext, htaken, hfile⟩⟩

/-- A page is taken out of the registry of its space. -/
theorem repaged_erase (hp : m.page? o = some p) :
    Repaged m (m.modifySpace o.space fun space =>
      { space with registry := space.registry.erase o.vpn }) o none := by
  obtain ⟨space, hspace, -⟩ := floorAt?_of_page? hp
  exact repaged_modifySpace (fun space => space.registry.erase o.vpn) hspace fun v =>
    Registry.get?_erase _ _

/-- What unregistering a resident page did to the machine before its frame is left. `back` is whether
the page was written back. -/
structure Unregistered (m m' : Machine) (o : Owner) (p : Page) (b : PageBytes) (back : Bool) : Prop where
  rest : ∃ spaces files counters, m' = { m with
    spaces, backing := { m.backing with files }, counters }
  page : ∀ x, m'.page? x = if x = o then none else m.page? x
  entry : ∀ x, m'.entryAt? x = if x = o then none else m.entryAt? x
  floor : ∀ id, m'.floorAt? id = m.floorAt? id
  files : m.backing.files.Extends m'.backing.files
  file : m'.backing.files.file =
    if back then (p.located m.backing.files).flushed b m.backing.files.file
    else m.backing.files.file
  taken : back = true → (p.located m.backing.files).TakenBy m.backing.files.file b
  counters : m'.counters = if back && p.window?.isSome
    then { m.counters with writeBacks := m.counters.writeBacks + 1 } else m.counters

/-- The owner is unmapped once its page is out of the registry. -/
theorem Repaged.unregistered {m₁ : Machine} (h : Repaged m m₁ o none) (b : PageBytes) :
    ∃ spaces, m₁.modifyTable o.space (·.unmap o.vpn) = { m with spaces } ∧
      Unregistered m { m with spaces } o p b false := by
  have hpage : ∀ x, (m₁.modifyTable o.space (·.unmap o.vpn)).page? x =
      if x = o then none else m.page? x := fun x => (page?_modifyTable _ _ _ _).trans (h.page x)
  have hentry : ∀ x, (m₁.modifyTable o.space (·.unmap o.vpn)).entryAt? x =
      if x = o then none else m.entryAt? x := fun x => by
    rw [entryAt?_unmap, h.entry]
    simp only [eq_comm]
  have hfloor : ∀ id, (m₁.modifyTable o.space (·.unmap o.vpn)).floorAt? id = m.floorAt? id :=
    fun id => (floorAt?_modifyTable _ _ _ _).trans (h.floor id)
  obtain ⟨spaces, rfl⟩ := h.rest
  exact ⟨_, rfl, ⟨_, _, _, rfl⟩, hpage, hentry, hfloor, .refl _, rfl, nofun, rfl⟩

/-- The page is written back before its frame is left. -/
theorem Unregistered.writtenBack {spaces : Table AddressSpace} {b : PageBytes}
    {files : FileStore}
    (h : Unregistered m { m with spaces } o p b false) (hext : m.backing.files.Extends files)
    (htaken : (p.located m.backing.files).TakenBy m.backing.files.file b)
    (hfile : files.file = (p.located m.backing.files).flushed b m.backing.files.file) :
    Unregistered m { m with
      spaces
      backing := { m.backing with files }
      counters := if p.window?.isSome
        then { m.counters with writeBacks := m.counters.writeBacks + 1 } else m.counters } o p b true :=
  ⟨⟨_, _, _, rfl⟩, h.page, h.entry, h.floor, hext, hfile, fun _ => htaken, by rw [Bool.true_and]⟩

/-- Leaving the frame is what is left to do. -/
theorem Unregistered.meets_leaveFrame {m₁ : Machine} {b : PageBytes} {back : Bool}
    {F : Violation → Machine → Prop} {R : Refusal → Machine → Prop}
    (h : Unregistered m m₁ o p b back) (hc : m.resident.get? f = some c) (hvalid : m.frames.Valid)
    (hheld : m.frames.Held f)
    (hmates : ∀ x ∈ c.owners, ∃ q, m.page? x = some q ∧ q.writable = p.writable) :
    Action.Meets F (do
      leaveFrame o f
      note (.removed o)) m₁
      (fun _ m' => RemovedFrom m m' o p f c (c.owners.filter (· ≠ o)) b back) R := by
  have hpage := h.page
  have hentry := h.entry
  have hfloor := h.floor
  have hext := h.files
  have hfile := h.file
  have htaken := h.taken
  have hcounters := h.counters
  obtain ⟨spaces, files, counters, rfl⟩ := h.rest
  rw [Action.meets_bind]
  refine (Machine.meets_leaveFrame (c := c) (w := p.writable) ?_ ?_ ?_ fun x hx => ?_).mono
    (fun _ m₂ h₂ => ?_) fun _ _ h => h
  · exact hc
  · exact hvalid
  · exact hheld
  · obtain ⟨hxl, hxo⟩ := List.mem_filter.mp (hx ▸ List.mem_singleton_self x)
    obtain ⟨q, hq, hqw⟩ := hmates x hxl
    exact ⟨q, (hpage x).trans ((if_neg (by simpa using hxo)).trans hq), hqw⟩
  have hpage₂ := h₂.page
  have hgrant₂ := h₂.grant
  have hfloor₂ := h₂.floor
  have hcrew₂ := h₂.crew
  have hvalid₂ := h₂.valid
  have hheld₂ := h₂.held
  have hbytes₂ := h₂.bytes
  have htotal₂ := h₂.total
  obtain ⟨spaces₂, resident, frames, rfl⟩ := h₂.rest
  unfold note
  rw [Action.meets_modify]
  refine ⟨⟨_, _, _, _, _, _, rfl⟩, fun x => (hpage₂ x).trans (hpage x), fun x => ?_, hcrew₂,
    hvalid₂, htotal₂, hheld₂, hbytes₂, fun id => (hfloor₂ id).trans (hfloor id), hext, hfile,
    htaken, hcounters, (Event.placings_push ..).trans (List.append_nil _)⟩
  refine (hgrant₂ x).trans ((ite_congr rfl (fun _ => congrArg _ (congrArg _ (hentry x)))
    fun _ => congrArg _ (hentry x)).trans ?_)
  by_cases hx : x = o
  · rw [if_pos hx, if_pos hx]
    exact ite_self _
  · rw [if_neg hx, if_neg hx]

theorem meets_removeResident {R : Refusal → Machine → Prop} (hm : Sound lax m none none)
    (hp : m.page? o = some p) (hframe : p.frame = some f) (hc : m.resident.get? f = some c)
    (hmates : ∀ x ∈ c.owners, ∃ q, m.page? x = some q ∧ q.writable = p.writable)
    {b : PageBytes} (hb : m.frames.bytes? f = some b) (writeBack : Bool) :
    Action.Meets (fun v _ => lax v ∧ (writeBack && m.hasFlag o .dirty) = true ∧
        ¬(p.located m.backing.files).TakenBy m.backing.files.file b) (removePage o writeBack) m
      (fun _ m' => RemovedFrom m m' o p f c (c.owners.filter (· ≠ o)) b
        (writeBack && m.hasFlag o .dirty)) R := by
  have hwindows := fun w => hm.kept.windows (o := o) (w := w) hp
  have hloaded := (hm.shaped hp).content_ne_uninit hframe
  have herase := repaged_erase hp
  unfold removePage
  rw [Action.meets_bind_of_ok (registeredPage_eq hp), Action.meets_bind, Action.meets_modify]
  generalize (m.modifySpace o.space fun space =>
    { space with registry := space.registry.erase o.vpn }) = m₁ at herase ⊢
  simp only [hframe]
  rw [Action.meets_bind, Action.meets_get, Action.meets_bind, Action.meets_modify]
  have hflag : m₁.hasFlag o .dirty = m.hasFlag o .dirty := by
    unfold hasFlag
    rw [herase.entry]
  rw [hflag]
  obtain ⟨spaces, hspaces, hout⟩ := herase.unregistered (p := p) b
  rw [hspaces, Action.meets_ite]
  refine ⟨fun hback => ?_, fun hback => ?_⟩
  · rw [Action.meets_bind, hback]
    refine ((meets_writeBackBeforeRemoval (m := { m with spaces }) hloaded hwindows hb).relax
      fun v _ h => ⟨h.1, rfl, h.2⟩).mono ?_ fun _ _ h => h
    rintro _ _ ⟨files, rfl, hext, htaken, hfile⟩
    exact (hout.writtenBack hext htaken hfile).meets_leaveFrame hc hm.kept.frames (hm.held hc) hmates
  · rw [Bool.eq_false_iff.mpr hback]
    exact hout.meets_leaveFrame hc hm.kept.frames (hm.held hc) hmates

theorem RemovedFrom.kept {others : List Owner} {b : PageBytes} {back : Bool}
    (h : RemovedFrom m m' o p f c others b back) (hk : m.Kept lax) : m'.Kept lax := by
  have hpage := h.page
  have hfloor := h.floor
  have hfiles := h.files
  have hvalid := h.valid
  have htotal := h.total
  obtain ⟨spaces, resident, frames, files, counters, journal, rfl⟩ := h.rest
  exact { hk with
    frames := hvalid
    fits := htotal ▸ hk.fits
    spaces := fun id => by
      rw [hfloor]
      exact hk.spaces id
    floors := fun {id v} hv => hk.floors (hfloor id ▸ hv)
    windows := fun {x q w} hx hw => by
      rw [hpage] at hx
      split at hx
      · cases hx
      · exact (hk.windows hx hw).extends hfiles }

theorem RemovedFrom.ledger {others : List Owner} {b : PageBytes} {back : Bool}
    (h : RemovedFrom m m' o p f c others b back) (hk : m.Kept lax)
    (hc : m.resident.get? f = some c) (hb : m.frames.bytes? f = some b) :
    m'.ledger none none = { (m.ledger none none).leaveFrame o (p.located m.backing.files) f others with
      file := if back then (m.ledger none none).flush (p.located m.backing.files) f
        else (m.ledger none none).file } := by
  have hpage := h.page
  have hgrant := h.grant
  have hcrew := h.crew
  have hfloor := h.floor
  have hfile := h.file
  have hheld := h.held
  have hbytes := h.bytes
  have hlog := h.log
  have hstay : ∀ x, _ = (m.ledger none none).page x := hk.page_ledger_of_extends h.files
  obtain ⟨spaces, resident, frames, files, counters, journal, rfl⟩ := h.rest
  apply Ledger.ext
  case page =>
    funext x
    refine (congrArg (Option.map (Page.located files)) (hpage x)).trans ?_
    by_cases hx : x = o
    · rw [if_pos hx]
      exact (if_pos hx).symm
    · rw [if_neg hx]
      exact (hstay x).trans (if_neg hx).symm
  case grant =>
    funext x
    refine (hgrant x).trans ?_
    rfl
  case crew =>
    funext x
    refine (hcrew x).trans (ite_congr rfl (fun _ => ite_congr rfl (fun _ => rfl) fun _ => ?_)
      fun _ => rfl)
    rw [show (m.ledger none none).crew f = some c from hc]
    rfl
  case held => exact funext fun x => propext (hheld x)
  case bytes => exact funext fun x => congrArg (Option.getD · _) (hbytes x)
  case file =>
    refine hfile.trans ?_
    rw [Ledger.flush, bytes_ledger hb]
    rfl
  case floor => exact funext hfloor
  case log => exact hlog
  all_goals rfl

/-! ## Leaving a group -/

/-- What leaving a group, in which `others` stay, did to the machine. -/
structure LeftTeam (m m' : Machine) (o : Owner) (g : Nat) (G : EvictionGroup)
    (others : List Owner) : Prop where
  rest : ∃ spaces groups groupIds, m' = { m with spaces, groups, groupIds }
  page : ∀ x, m'.page? x = if x = o then none
    else if others = [x] then (m.page? x).map fun q => { q with group := none } else m.page? x
  entry : ∀ x, m'.entryAt? x = m.entryAt? x
  floor : ∀ id, m'.floorAt? id = m.floorAt? id
  groups : ∀ x, m'.groups[x]? = if x = g
    then (if 1 < others.length then some { G with members := others } else none)
    else m.groups[x]?
  groupIds : m'.groupIds.Valid
  live : ∀ x, m'.groupIds.Live x ↔ m.groupIds.Live x ∧ ¬(x = g ∧ ¬1 < others.length)

theorem meets_leaveGroup {F : Violation → Machine → Prop} {g : Nat} {G : EvictionGroup}
    {R : Refusal → Machine → Prop}
    (herase : Repaged m m' o none) (hG : m.groups[g]? = some G) (hids : m.groupIds.Valid)
    (hlive : m.groupIds.Live g) (hsome : G.members.filter (· ≠ o) ≠ []) :
    Action.Meets F (leaveGroup g o) m'
      (fun _ m'' => LeftTeam m m'' o g G (G.members.filter (· ≠ o))) R := by
  have hne : ∀ x ∈ G.members.filter (· ≠ o), x ≠ o := fun x hx => by
    simpa using (List.mem_filter.mp hx).2
  have hpage := herase.page
  have hentry := herase.entry
  have hfloor := herase.floor
  obtain ⟨spaces, rfl⟩ := herase.rest
  unfold leaveGroup
  simp only [Action.meets_bind, Action.meets_get, hG]
  split
  · rename_i hnone
    exact absurd hnone hsome
  · rename_i last hlast
    obtain ⟨groupIds, hrelease, hvalid, hafter⟩ := hids.release hlive
    have hlo : last ≠ o := hne last (by rw [hlast]; exact List.mem_singleton_self _)
    rw [hlast]
    unfold dissolve
    simp only [Action.meets_bind, Action.meets_modify, Action.meets_get]
    rw [show Machine.groupIds { ({ m with spaces } : Machine).modifyPage last
      (fun page => { page with group := none }) with groups := m.groups.erase g } = m.groupIds
      from rfl, hrelease]
    refine ⟨⟨_, _, _, rfl⟩, fun x => ?_, fun x => ?_, fun id => ?_, fun x => ?_, hvalid, fun x => ?_⟩
    · refine (page?_modifyPage _ last x _).trans ?_
      by_cases hx : x = o
      · rw [if_neg (hx ▸ hlo), if_pos hx]
        exact (hpage x).trans (if_pos hx)
      · rw [if_neg hx]
        by_cases hxl : last = x
        · rw [if_pos hxl, if_pos (by rw [hxl])]
          exact congrArg _ ((hpage x).trans (if_neg hx))
        · rw [if_neg hxl, if_neg (by simpa using hxl)]
          exact (hpage x).trans (if_neg hx)
    · exact (entryAt?_modifyPage _ last x _).trans (hentry x)
    · exact (floorAt?_modifyPage _ id last _).trans (hfloor id)
    · show (m.groups.erase g)[x]? = _
      rw [Std.ExtTreeMap.getElem?_erase]
      simp only [Nat.compare_eq_eq]
      by_cases hx : x = g
      · simp [hx]
      · simp [hx, Ne.symm hx]
    · refine (hafter x).trans ?_
      simp
  · rename_i hmany
    have hlong : 1 < (G.members.filter (· ≠ o)).length := by
      cases hm : G.members.filter (· ≠ o) with
      | nil => exact absurd hm hsome
      | cons first rest =>
        cases rest with
        | nil => exact absurd hm (hmany first)
        | cons => exact Nat.succ_lt_succ (Nat.succ_pos _)
    rw [Action.meets_modify]
    refine ⟨⟨_, _, _, rfl⟩, fun x => (hpage x).trans (ite_congr rfl (fun _ => rfl) fun _ => ?_),
      hentry, hfloor, fun x => ?_, hids, fun x => ?_⟩
    · rw [if_neg (hmany x)]
    · show (m.groups.insert g _)[x]? = _
      rw [Std.ExtTreeMap.getElem?_insert, if_pos hlong]
      simp only [Nat.compare_eq_eq]
      by_cases hx : x = g
      · simp [hx]
      · simp [hx, Ne.symm hx]
    · exact (and_iff_left fun h => h.2 hlong).symm

theorem LeftTeam.kept {g : Nat} {G : EvictionGroup} {others : List Owner}
    (h : LeftTeam m m' o g G others) (hk : m.Kept lax) (hG : m.groups[g]? = some G) :
    m'.Kept lax := by
  have hpage := h.page
  have hfloor := h.floor
  have hgroups := h.groups
  have hvalid := h.groupIds
  have hlive := h.live
  obtain ⟨spaces, groups, groupIds, rfl⟩ := h.rest
  exact { hk with
    groupIds := hvalid
    groups := fun x => by
      rw [hlive, hgroups, hk.groups]
      by_cases hx : x = g <;> by_cases hmany : 1 < others.length <;> simp [hx, hmany, hG]
    spaces := fun id => by
      rw [hfloor]
      exact hk.spaces id
    floors := fun {id v} hv => hk.floors (hfloor id ▸ hv)
    windows := fun {x q w} hx hw => by
      rw [hpage] at hx
      split at hx
      · cases hx
      · split at hx
        · obtain ⟨q', hq', rfl⟩ := Option.map_eq_some_iff.mp hx
          exact hk.windows hq' hw
        · exact hk.windows hx hw }

theorem LeftTeam.ledger {g : Nat} {G : EvictionGroup} {others : List Owner}
    (h : LeftTeam m m' o g G others) (hG : m.groups[g]? = some G) :
    m'.ledger none none = (m.ledger none none).leaveTeam o g others := by
  have hpage := h.page
  have hentry := h.entry
  have hfloor := h.floor
  have hgroups := h.groups
  obtain ⟨spaces, groups, groupIds, rfl⟩ := h.rest
  apply Ledger.ext
  case page =>
    funext x
    refine (congrArg (Option.map (Page.located m.backing.files)) (hpage x)).trans ?_
    unfold Ledger.leaveTeam
    dsimp only
    by_cases hx : x = o
    · rw [if_pos hx, if_pos hx]
      rfl
    · rw [if_neg hx, if_neg hx]
      by_cases hone : others = [x]
      · rw [if_pos hone, if_pos hone, page_ledger, Option.map_map, Option.map_map]
        rfl
      · rw [if_neg hone, if_neg hone]
        rfl
  case grant => exact funext fun x => congrArg (Option.map Entry.grant) (hentry x)
  case team =>
    funext x
    refine (hgroups x).trans (ite_congr rfl (fun _ => ite_congr rfl (fun _ => ?_) fun _ => rfl)
      fun _ => rfl)
    rw [show (m.ledger none none).team g = some G from hG]
    rfl
  case floor => exact funext hfloor
  all_goals rfl

/-! ## Removing a page -/

/-- What is lost when the page of an owner goes unless it is written back: its window on its file and
the bytes of its frame, if it is mapped dirty. -/
def unsaved? (m : Machine) (o : Owner) : Option (FileWindow × PageBytes) :=
  if m.hasFlag o .dirty then
    (m.page? o).bind fun p => p.frame.bind fun f =>
      (p.located m.backing.files).window?.map fun w => (w, (m.frames.bytes? f).getD .zero)
  else none

theorem unsaved?_ledger : (m.ledger hand pin).unsaved? o = m.unsaved? o := by
  rw [Ledger.unsaved?, unsaved?, isDirty_ledger, page_ledger]
  cases m.page? o <;> rfl

/-- What removing a page did to the machine. -/
structure Removed (lax : Tolerance) (o : Owner) (writeBack : Bool) (m m' : Machine) : Prop where
  reaches : Reaches lax (Ledger.Move (.leave o writeBack)) m m'
  page : ∀ x, m'.page? x =
    if x = o then none else (m.page? x).map (Page.inTeams fun g => m'.groups[g]?)
  counters : m'.counters = if writeBack && (m.unsaved? o).isSome
    then { m.counters with writeBacks := m.counters.writeBacks + 1 } else m.counters
  rest : ∃ spaces resident frames swap files groups groupIds counters journal, m' = { m with
    spaces, resident, frames, backing := { m.backing with swap, files }, groups, groupIds, counters,
    journal }

/-- A page that is in no frame is not written back. -/
theorem Sound.unsaved?_eq_none (hm : Sound lax m none none) (hp : m.page? o = some p)
    (hframe : p.frame = none) : m.unsaved? o = none := by
  rw [← unsaved?_ledger]
  exact hm.books.unsaved?_eq_none ((frame_ledger_of_page? hp).trans hframe)

/-- Pages whose groups stay are what they were. -/
theorem Sound.page?_inTeams (hm : Sound lax m none none) (x : Owner) :
    (m.page? x).map (Page.inTeams fun g => m.groups[g]?) = m.page? x := by
  cases hx : m.page? x with
  | none => rfl
  | some p =>
    exact congrArg some (hm.books.inTeams (group_ledger_of_page? hx))

theorem meets_removeGrouped {F : Violation → Machine → Prop} {g : Nat} {R : Refusal → Machine → Prop}
    (hm : Sound lax m none none) (hp : m.page? o = some p) (hframe : p.frame = none)
    (hg : p.group = some g) (writeBack : Bool) :
    Action.Meets F (removePage o writeBack) m (fun _ m' => Removed lax o writeBack m m') R := by
  obtain ⟨s, hs⟩ := hm.books.teams.listed ((group_ledger_of_page? hp).trans hg)
  obtain ⟨G, hG, rfl⟩ := Option.map_eq_some_iff.mp hs
  have hG : m.groups[g]? = some G := hG
  have hlive : m.groupIds.Live g := (hm.kept.groups g).mpr (by rw [hG]; rfl)
  have hsome := Roster.filter_ne_nil o (hm.books.teams.nodup hs) (hm.books.teamed hs)
  unfold removePage
  rw [Action.meets_bind_of_ok (registeredPage_eq hp), Action.meets_bind, Action.meets_modify]
  simp only [hframe, hg, Action.meets_bind]
  refine (meets_leaveGroup (repaged_erase hp) hG hm.kept.groupIds hlive hsome).mono
    (fun _ m₁ h => ?_) fun _ _ h => h
  unfold note
  rw [Action.meets_modify]
  have hledger := h.ledger hG
  have hleft : Reaches lax (Ledger.Move (.leave o writeBack)) m m₁ := by
    refine ⟨h.kept hm.kept hG, ?_⟩
    rw [hledger]
    exact .leaveTeam (page_ledger_of_page? hp) hg hs
  have hteam : (fun x => m₁.groups[x]?) = _ := congrArg Ledger.team hledger
  refine ⟨hleft.idle (.note m₁ _ rfl), fun x => ?_, ?_, ?_⟩
  · show m₁.page? x = if x = o then none else (m.page? x).map (Page.inTeams fun x => m₁.groups[x]?)
    rw [h.page x, hteam]
    refine ite_congr rfl (fun _ => rfl) fun hx => ?_
    cases hq : m.page? x with
    | none => exact ite_self none
    | some q =>
      refine (apply_ite some _ _ _).symm.trans (congrArg some ?_)
      refine hm.books.inTeams_leaveTeam (group_ledger_of_page? hq) hx hG fun x => ?_
      rw [← hm.books.teams.mem hs x]
      simp
  · rw [hm.unsaved?_eq_none hp hframe, Option.isSome_none, Bool.and_false]
    obtain ⟨spaces, groups, groupIds, rfl⟩ := h.rest
    rfl
  · obtain ⟨spaces, groups, groupIds, rfl⟩ := h.rest
    exact ⟨_, _, _, _, _, _, _, _, _, rfl⟩

theorem meets_removeAlone {F : Violation → Machine → Prop} {R : Refusal → Machine → Prop}
    (hm : Sound lax m none none) (hp : m.page? o = some p) (hframe : p.frame = none)
    (hg : p.group = none) (writeBack : Bool) :
    Action.Meets F (removePage o writeBack) m (fun _ m' => Removed lax o writeBack m m') R := by
  have herase := repaged_erase hp
  unfold removePage
  rw [Action.meets_bind_of_ok (registeredPage_eq hp), Action.meets_bind, Action.meets_modify]
  generalize (m.modifySpace o.space fun space =>
    { space with registry := space.registry.erase o.vpn }) = m₁ at herase ⊢
  simp only [hframe, hg, Action.meets_bind, onBacking, Action.meets_within]
  have hpage := herase.page
  have hentry := herase.entry
  have hfloor := herase.floor
  obtain ⟨spaces, rfl⟩ := herase.rest
  refine (Page.meets_destroy hm.kept.swap fun s hs => ?_).mono ?_ fun _ _ h => h
  · refine (hm.books.taken s).mpr ⟨o, ?_⟩
    rw [slot_ledger, slotOf, hp]
    exact hs
  rintro _ _ ⟨swap, rfl, hvalid, hocc, hcontent⟩
  unfold note
  rw [Action.meets_modify]
  have hkept : Machine.Kept lax { m with spaces } := hm.kept.respaced hfloor fun x q hx w hw => by
    rw [hpage] at hx
    split at hx
    · cases hx
    · exact hm.kept.windows hx hw
  have hledger : Machine.ledger { m with
      spaces, backing := { m.backing with swap }, journal := m.journal.push (.removed o) } none none =
      (m.ledger none none).leaveAlone o (p.located m.backing.files) := by
    apply Ledger.ext
    case page =>
      funext x
      refine (congrArg (Option.map (Page.located m.backing.files)) (hpage x)).trans ?_
      by_cases hx : x = o
      · rw [if_pos hx]
        exact (if_pos hx).symm
      · rw [if_neg hx]
        exact (if_neg hx).symm
    case grant => exact funext fun x => congrArg (Option.map Entry.grant) (hentry x)
    case occupied =>
      funext s
      refine (hocc s).trans ?_
      simp only [Ledger.leaveAlone, Page.slot_located]
      rfl
    case swapped => exact funext hcontent
    case floor => exact funext hfloor
    case log => exact (Event.placings_push ..).trans (List.append_nil _)
    all_goals rfl
  refine ⟨⟨{ hkept with swap := hvalid }, ?_⟩, fun x => ?_, ?_, _, _, _, _, _, _, _, _, _, rfl⟩
  · rw [hledger]
    exact .leaveAlone (page_ledger_of_page? hp) hframe hg
  · exact (hpage x).trans (ite_congr rfl (fun _ => rfl) fun _ => (hm.page?_inTeams x).symm)
  · rw [hm.unsaved?_eq_none hp hframe, Option.isSome_none, Bool.and_false]
    rfl

/-- What is lost of a resident page. -/
theorem Sound.unsaved?_eq {b : PageBytes} (hp : m.page? o = some p) (hframe : p.frame = some f)
    (hb : m.frames.bytes? f = some b) : m.unsaved? o =
      if m.hasFlag o .dirty then (p.located m.backing.files).window?.map fun w => (w, b) else none := by
  rw [unsaved?, hp, Option.bind_some, hframe, Option.bind_some, hb, Option.getD_some]

/-- **Removing a page that is registered.** It breaks off only if the page has to be written back and
its file does not take all of it. -/
theorem meets_removePage_of_page {R : Refusal → Machine → Prop} (hm : Sound lax m none none)
    (hp : m.page? o = some p) (writeBack : Bool) :
    Action.Meets (fun v _ => lax v ∧ ∃ s, m.unsaved? o = some s ∧
        ¬s.1.TakenBy (m.backing.files.file s.1.handle) s.2) (removePage o writeBack) m
      (fun _ m' => Removed lax o writeBack m m') R := by
  cases hframe : p.frame with
  | none =>
    cases hg : p.group with
    | none => exact meets_removeAlone hm hp hframe hg writeBack
    | some g => exact meets_removeGrouped hm hp hframe hg writeBack
  | some f =>
    obtain ⟨c, hc, ho⟩ := hm.exists_crew hp hframe
    obtain ⟨b, hb⟩ := hm.exists_bytes? (hm.held hc)
    have hpage : (m.ledger none none).page o = _ := page_ledger_of_page? hp
    have hmates : ∀ x ∈ c.owners, ∃ q, m.page? x = some q ∧ q.writable = p.writable := by
      intro x hx
      obtain ⟨q, hq, hqp⟩ := Option.map_eq_some_iff.mp (hm.books.page_of_mem hc ho hpage hx)
      exact ⟨q, hq, congrArg (·.writable) hqp⟩
    have hunsaved := Sound.unsaved?_eq hp hframe hb
    refine ((meets_removeResident hm hp hframe hc hmates hb writeBack).relax ?_).mono
      (fun _ m' h => ?_) fun _ _ h => h
    · rintro v - ⟨hv, hdirty, htaken⟩
      rw [(Bool.and_eq_true_iff.mp hdirty).2, if_pos rfl] at hunsaved
      by_contra hno
      refine htaken fun w hw => ?_
      by_contra hshort
      refine hno ⟨hv, (w, b), ?_, hshort⟩
      rw [hunsaved, Page.window?, hw]
      rfl
    · have hledger := h.ledger hm.kept hc hb
      have hgroups : m'.groups = m.groups := by
        obtain ⟨_, _, _, _, _, _, rfl⟩ := h.rest
        rfl
      refine ⟨⟨h.kept hm.kept, ?_⟩, fun x => ?_, ?_, ?_⟩
      · rw [hledger, ← show (m.ledger none none).isDirty o = _ from isDirty_ledger]
        refine .leaveFrame hpage hframe (owners_ledger_of_get? hc) fun htaken => ?_
        rw [bytes_ledger hb]
        rw [isDirty_ledger] at htaken
        exact h.taken htaken
      · rw [h.page x, hgroups, hm.page?_inTeams]
      · have hback : (writeBack && (m.unsaved? o).isSome) =
            ((writeBack && m.hasFlag o .dirty) && p.window?.isSome) := by
          rw [hunsaved, Bool.and_assoc]
          cases m.hasFlag o .dirty with
          | false => rfl
          | true => rw [if_pos rfl, Option.isSome_map, Page.window?_located, Option.isSome_map, Bool.true_and]
        rw [h.counters, hback]
      · obtain ⟨_, _, _, _, _, _, rfl⟩ := h.rest
        exact ⟨_, _, _, _, _, _, _, _, _, rfl⟩

/-- **Removing a page.** It is refused only if there is no such page. Nothing is counted unless the
page is dirty. -/
theorem meets_removePage (hm : Sound lax m none none) (o : Owner) (writeBack : Bool) :
    Action.Meets (Breaking lax) (removePage o writeBack) m
      (fun _ m' => Reaches lax (Ledger.Move (.leave o writeBack)) m m' ∧
        (m.hasFlag o .dirty = false → m'.counters = m.counters))
      (fun cause m' => m' = m ∧ m.page? o = none ∧
        (cause.isInternal = true → m.floorAt? o.space = none)) := by
  cases hp : m.page? o with
  | none =>
    unfold removePage
    rw [Action.meets_bind]
    refine (meets_registeredPage m o).mono ?_ fun cause m' h => ⟨h.1, rfl, h.2⟩
    rintro p _ ⟨-, hp'⟩
    rw [hp] at hp'
    cases hp'
  | some p =>
    refine ((meets_removePage_of_page hm hp writeBack).relax fun _ _ h => h.1).mono
      (fun _ m' h => ⟨h.reaches, fun hclean => ?_⟩) fun _ _ h => h
    have hnone : m.unsaved? o = none := by
      rw [unsaved?, hclean]
      rfl
    rw [h.counters, hnone, Option.isSome_none, Bool.and_false]
    rfl

/-! ## Removing pages in turn -/

/-- Pages are removed in turn, each of them registered, and what removing one keeps is kept. -/
theorem meets_forM_leave (id : SpaceId) (writeBack : Bool) {body : PageNum → MachineM Unit}
    {I : Machine → Prop} {R : Refusal → Machine → Prop}
    (hbody : ∀ (m : Machine) (v : PageNum), Sound lax m none none → I m →
      (m.page? ⟨id, v⟩).isSome →
      Action.Meets (Breaking lax) (body v) m
        (fun _ m' => Reaches lax (Ledger.Move (.leave ⟨id, v⟩ writeBack)) m m' ∧ I m') R) :
    ∀ {vs : List PageNum} {m : Machine}, vs.Nodup → (∀ v ∈ vs, (m.page? ⟨id, v⟩).isSome) →
      Sound lax m none none → I m →
      Action.Meets (Breaking lax) (vs.forM body) m
        (fun _ m' =>
          Reaches lax (Ledger.Trace (Layout.leaveKinds id writeBack vs)) m m' ∧ I m') R
  | [], m, _, _, hm, hI => ⟨.refl hm, hI⟩
  | v :: vs, m, hnodup, hvs, hm, hI => by
    obtain ⟨hv, hnodup⟩ := List.nodup_cons.mp hnodup
    show Action.Meets (Breaking lax) (body v >>= fun _ => vs.forM body) m _ _
    refine (hbody m v hm hI (hvs v List.mem_cons_self)).bind (fun _ m₁ h₁ => ?_) fun _ _ h => h
    obtain ⟨h₁, hI₁⟩ := h₁
    have hreach : Reaches lax (Ledger.Trace [.leave ⟨id, v⟩ writeBack]) m m₁ := .single h₁.kept h₁.told
    refine (meets_forM_leave id writeBack hbody hnodup (fun x hx => ?_) (hreach.sound hm) hI₁).mono
      (fun _ m₂ h₂ => ⟨hreach.trans h₂.1, h₂.2⟩) fun _ _ h => h
    have hne : x ≠ v := fun h => hv (h ▸ hx)
    have hregistered := congrFun (congrArg Layout.registered h₁.told.layout) ⟨id, x⟩
    rw [registered_ledger] at hregistered
    simpa [Layout.after, hne, hvs x (List.mem_cons_of_mem v hx)] using hregistered

end Machine

end DemandPaging
