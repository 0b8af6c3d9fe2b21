import DemandPaging.Machine.Sharing
import DemandPaging.Proofs.Ledger.Copying
import DemandPaging.Proofs.Machine.Claim
import DemandPaging.Proofs.Machine.Standing

/-!
# Sharing keeps the books
-/

namespace DemandPaging.Machine

variable {lax : Tolerance} {m m' : Machine} {hand pin : Option FrameNum} {o : Owner} {p : Page}
  {f src copy : FrameNum}

/-! ## Acquiring a frame beside another -/

theorem ledger_pin (hand pin : Option FrameNum) : ({ m with resident := m.resident.pin f } : Machine).ledger hand (some f) =
    (m.ledger hand pin).setPin f true := by
  apply Ledger.ext
  case crew => exact funext fun x => FrameTable.get?_modify _ _ _ _
  all_goals rfl

theorem ledger_unpin (hand pin : Option FrameNum) : ({ m with resident := m.resident.unpin f } : Machine).ledger hand none =
    (m.ledger hand pin).setPin f false := by
  apply Ledger.ext
  case crew => exact funext fun x => FrameTable.get?_modify _ _ _ _
  all_goals rfl

/-- Why a machine can give no frame beside the frame `src`: none is free, and no other may be evicted or
all slots are occupied. -/
inductive ExhaustedBeside (m : Machine) (src : FrameNum) : Refusal → Prop
  | frames (hfree : m.frames.free = 0)
      (honly : ∀ f, (m.resident.get? f).isSome → f = src) : ExhaustedBeside m src .outOfFrames
  | swap (hfree : m.frames.free = 0) (hfull : m.backing.swap.Full) :
      ExhaustedBeside m src .outOfSwap

theorem ExhaustedBeside.isExhaustion {cause : Refusal} (h : ExhaustedBeside m src cause) :
    cause.isExhaustion = true := by
  cases h <;> rfl

/-- No frame but `src` is pinned. -/
theorem Exhausted.beside {cause : Refusal} (hm : Sound lax m none none)
    (h : Exhausted { m with resident := m.resident.pin src } cause) :
    ExhaustedBeside m src cause := by
  cases h with
  | swap hfree _ hfull => exact .swap hfree hfull
  | frames hfree hpinned =>
    refine .frames hfree fun f hf => Decidable.byContradiction fun hne => ?_
    obtain ⟨c, hc⟩ := Option.isSome_iff_exists.mp hf
    have hpin := hpinned f c (by rw [FrameTable.pin, FrameTable.get?_modify, if_neg hne, hc])
    cases (hm.books.pinned hc).mp hpin

/-- **Acquiring a frame while another cannot be evicted.** The other frame stays as it is, and so do
the pages in it. -/
theorem meets_acquireBeside {c : Frame} (hm : Sound lax m none none)
    (hc : m.resident.get? src = some c) :
    Action.Meets (fun v _ => Overrun lax (m.ledger none none).Fitted v) (acquireBeside src) m
      (fun f m' => m'.Kept lax ∧ f ≠ src ∧
        Ledger.Shifts (m.ledger none none) (m'.ledger (some f) none) ∧
        m'.resident.get? src = some c ∧
        (m'.ledger (some f) none).bytes src = (m.ledger none none).bytes src ∧ ∀ o ∈ c.owners,
          (m'.ledger (some f) none).page o = (m.ledger none none).page o ∧
          (m'.ledger (some f) none).grant o = (m.ledger none none).grant o)
      (fun cause m' => ExhaustedBeside m src cause ∧ Scanned m m') := by
  have hfree : c.pinned = false := by
    have := (hm.books.pinned hc).not.mpr nofun
    simpa using this
  have hpin : Ledger.Shift (m.ledger none none)
      (({ m with resident := m.resident.pin src } : Machine).ledger none (some src)) := by
    exact ledger_pin (m := m) none none ▸ .pin rfl
  have hm₁ : Sound lax { m with resident := m.resident.pin src } none (some src) :=
    ⟨hpin.sound hm.books, { hm.kept with }⟩
  have hpinned : (m.resident.pin src).get? src = some { c with pinned := true } := by
    rw [FrameTable.pin, FrameTable.get?_modify, if_pos rfl, hc]
    rfl
  unfold acquireBeside
  simp only [Action.meets_bind, Action.meets_modify, Action.meets_attempt]
  refine ((meets_acquireFrame hm₁).relax fun _ _ h => h.1).mono
    (fun f m₂ h₂ => ?_) fun cause m₂ h₂ => ?_
  · obtain ⟨⟨hkept, hacq⟩, -⟩ := h₂
    obtain ⟨hne, hstays, -, hpages⟩ := hacq.stays hm₁.books hpinned rfl
    have hunpin := ledger_unpin (m := m₂) (f := src) (some f) (some src)
    refine ⟨{ hkept with }, Ne.symm hne, ?_, ?_, hacq.bytes_ne hne, fun o ho => ?_⟩
    · rw [hunpin]
      exact (hpin.trace.trans hacq.trace).shift (.unpin rfl)
    · rw [FrameTable.unpin, FrameTable.get?_modify, if_pos rfl,
        show m₂.resident.get? src = _ from hstays]
      simp only [Option.map_some, ← hfree]
    · rw [hunpin]
      exact hpages o ho
  · obtain ⟨hcause, hrest, hpage, hfloor, hmapped, hflags, hlog⟩ := h₂
    refine ⟨hcause.beside hm, ?_, hpage, hfloor, hmapped, hflags, hlog⟩
    obtain ⟨spaces, upward, journal, rfl⟩ := hrest
    exact ⟨spaces, upward, journal, congrArg (fun resident => { m with spaces, journal, resident })
      (FrameTable.unpin_pin (show ({ m.resident with upward } : FrameTable).get? src = some _ from hc)
        hfree)⟩

/-! ## Writing again -/

/-- What letting the last page on a frame be written again did: `w` is whether it is writable. -/
structure Regranted (m m' : Machine) (f : FrameNum) (w : Bool) : Prop where
  rest : ∃ spaces, m' = { m with spaces }
  page : ∀ x, m'.page? x = m.page? x
  grant : ∀ x, (m'.entryAt? x).map Entry.grant =
    if m.resident.owners f = [x]
    then ((m.entryAt? x).map Entry.grant).map fun e => { e with writable := e.writable || w }
    else (m.entryAt? x).map Entry.grant
  floor : ∀ id, m'.floorAt? id = m.floorAt? id

/-- The crew of a frame without one of its owners. -/
theorem get?_removeOwner {c : Frame} (hc : m.resident.get? f = some c) (o : Owner) (x : FrameNum) :
    (m.resident.removeOwner f o).get? x =
      if x = f then some { c with owners := c.owners.filter (· ≠ o) } else m.resident.get? x := by
  rw [FrameTable.removeOwner, FrameTable.get?_modify, hc]
  rfl

theorem owners_removeOwner {c : Frame} (hc : m.resident.get? f = some c) (o : Owner) :
    (m.resident.removeOwner f o).owners f = c.owners.filter (· ≠ o) := by
  rw [FrameTable.owners_eq, get?_removeOwner hc, if_pos rfl]
  rfl

theorem grant_put_writable (e : Entry) (w : Bool) :
    (e.put .writable w).grant = { e.grant with writable := w } := by
  simp [Entry.grant]

theorem meets_restoreSoleOwner {F : Violation → Machine → Prop} {w : Bool}
    {R : Refusal → Machine → Prop} (hlast : ∀ x, m.resident.owners f = [x] → ∃ p, m.page? x = some p ∧ p.writable = w) :
    Action.Meets F (restoreSoleOwner f) m (fun _ m' => Regranted m m' f w) R := by
  have hsame : (∀ x, m.resident.owners f = [x] → w = false) → Regranted m m f w := fun hw => by
    refine ⟨⟨m.spaces, rfl⟩, fun _ => rfl, fun x => ?_, fun _ => rfl⟩
    split
    · rename_i hx
      rw [hw x hx]
      cases m.entryAt? x <;> simp
    · rfl
  unfold restoreSoleOwner
  simp only [Action.meets_bind, Action.meets_get]
  split
  · rename_i x hx
    obtain ⟨p, hp, rfl⟩ := hlast x hx
    rw [Action.meets_bind_of_ok (ownedPage_eq hp)]
    by_cases hw : p.writable = true
    · rw [if_pos hw, Action.meets_modify]
      refine ⟨⟨_, rfl⟩, fun y => page?_modifyTable _ _ _ _, fun y => ?_,
        fun id => floorAt?_modifyTable _ _ _ _⟩
      rw [entryAt?_put _ _ _ (by decide), hx, hw]
      by_cases hy : x = y
      · subst hy
        cases m.entryAt? x <;> simp [grant_put_writable]
      · simp [hy]
    · rw [if_neg hw]
      exact hsame fun _ _ => by simpa using hw
  · rename_i hmany
    exact hsame fun x hx => absurd hx (hmany x)

/-! ## Moving to a copy -/

/-- What moving an owner to a copy did to the machine. -/
structure MovedToCopy (m m' : Machine) (o : Owner) (p : Page) (src copy : FrameNum)
    (rest : List Owner) (b : PageBytes) (dirty : Bool) : Prop where
  config : m'.config = m.config
  page : ∀ x, m'.page? x = if x = o then some { p with frame := some copy } else m.page? x
  grant : ∀ x, (m'.entryAt? x).map Entry.grant =
    if x = o then some ⟨copy, true, dirty⟩
    else if rest = [x]
    then ((m.entryAt? x).map Entry.grant).map fun e => { e with writable := e.writable || true }
    else (m.entryAt? x).map Entry.grant
  crew : ∀ x, m'.resident.get? x = if x = copy then some ⟨[o], false⟩
    else if x = src then (m.resident.get? src).map fun c => { c with owners := rest }
    else m.resident.get? x
  frames : m'.frames = m.frames.setBytes copy b
  backing : m'.backing = m.backing
  groups : m'.groups = m.groups
  groupIds : m'.groupIds = m.groupIds
  spaceIds : m'.spaceIds = m.spaceIds
  floor : ∀ id, m'.floorAt? id = m.floorAt? id
  journal : m'.journal = m.journal
  numbers : m'.nextMapping = m.nextMapping

/-- What a user mapping grants that keeps a dirty bit. -/
theorem grant_make_dirty (hf : f < Entry.frameLimit) (d : Bool) :
    (Entry.make f (((userFlags true).put .dirty d).put .valid true)).grant = ⟨f, true, d⟩ := by
  simp [Entry.grant, Entry.frame_make hf, Flags.has_put, has_userFlags]

theorem meets_moveToCopy_machine {F : Violation → Machine → Prop} {R : Refusal → Machine → Prop}
    {old : Entry} {b z : PageBytes} {c : Frame} (hp : m.page? o = some p) (hc : m.resident.get? src = some c)
    (hold : old.frame = src) (hlast : ∀ x, c.owners.filter (· ≠ o) = [x] →
      ∃ p, m.page? x = some p ∧ p.writable = true)
    (hne : copy ≠ src) (hspare : m.resident.get? copy = none) (hb : m.frames.bytes? src = some b)
    (hz : m.frames.bytes? copy = some z) (hcopy : copy < Entry.frameLimit) :
    Action.Meets F (moveToCopy o old copy) m
      (fun _ m' => MovedToCopy m m' o p src copy (c.owners.filter (· ≠ o)) b (old.has .dirty))
      R := by
  subst hold
  have hcopied : m.frames.copy old.frame copy = .ok (m.frames.setBytes copy b) := by
    rw [FramePool.copy, if_neg (Ne.symm hne), hb, hz]
  unfold moveToCopy
  simp only [Action.meets_bind, Action.meets_get, hcopied]
  show Action.Meets F _ _ _ _
  have hremoved := get?_removeOwner hc o
  have howners := owners_removeOwner hc o
  generalize c.owners.filter (· ≠ o) = others at hremoved howners hlast
  let m₁ : Machine := { m with
    frames := m.frames.setBytes copy b, resident := m.resident.removeOwner old.frame o }
  have hrestore : Action.Meets F (restoreSoleOwner old.frame) m₁
      (fun _ m' => Regranted m₁ m' old.frame true) R :=
    meets_restoreSoleOwner fun x hx => hlast x (howners.symm.trans hx)
  refine hrestore.mono (fun _ m₂ h₂ => ?_) fun _ _ h => h
  have hpage₂ : ∀ x, m₂.page? x = m.page? x := h₂.page
  have hfloor₂ : ∀ id, m₂.floorAt? id = m.floorAt? id := h₂.floor
  have hgrant₂ : ∀ x, (m₂.entryAt? x).map Entry.grant = if others = [x]
      then ((m.entryAt? x).map Entry.grant).map fun e => { e with writable := e.writable || true }
      else (m.entryAt? x).map Entry.grant := fun x => by
    rw [← howners]
    exact h₂.grant x
  obtain ⟨spaces₂, rfl⟩ := h₂.rest
  -- the owner is unmapped and mapped to its copy
  have hliving : (m.floorAt? o.space).isSome := by
    obtain ⟨space, hspace, -⟩ := floorAt?_of_page? hp
    rw [floorAt?, hspace]
    rfl
  simp only [Action.meets_modify]
  refine (meets_mapOwner ?_ ?_).mono (fun _ m₄ h₄ => ?_) fun _ _ h => h
  · rw [floorAt?_modifyTable]
    exact (congrArg Option.isSome (hfloor₂ o.space)).trans hliving
  · rw [entryAt?_unmap, if_pos rfl]
  have hpage₄ : ∀ x, m₄.page? x = m.page? x := fun x => by
    rw [h₄.page, page?_modifyTable]
    simpa using hpage₂ x
  have hp₄ : m₄.page? o = some p := (hpage₄ o).trans hp
  refine Action.Meets.ok (ownedPage_eq hp₄) ?_
  have h₅ := respaced_modifyPage hp₄ fun p => { p with frame := some copy }
  have hpage₅ := h₅.page
  have hentry₅ := h₅.entry
  have hfloor₅ := h₅.floor
  have hentry₄ := h₄.entry
  have hfloor₄ := h₄.floor
  obtain ⟨spaces₄, rfl⟩ := h₄.rest
  refine (meets_recordFrame ?_).mono ?_ fun _ _ h => h
  · exact (hremoved copy).trans ((if_neg hne).trans hspare)
  rintro _ _ ⟨resident, rfl, hcrew⟩
  refine ⟨rfl, fun x => ?_, fun x => ?_, fun x => ?_, rfl, rfl, rfl, rfl, rfl, fun id => ?_, rfl,
    rfl⟩
  · refine (hpage₅ x).trans ?_
    by_cases hx : x = o
    · subst hx
      rw [if_pos List.mem_cons_self, if_pos rfl, hp₄]
      rfl
    · rw [if_neg (by simpa using hx), if_neg hx]
      exact hpage₄ x
  · refine (congrArg (Option.map Entry.grant) ((hentry₅ x).trans (ite_self _))).trans ?_
    by_cases hx : x = o
    · subst hx
      rw [if_pos rfl, show _ = _ from hentry₄ x, if_pos List.mem_cons_self, Option.map_some,
        grant_make_dirty hcopy]
    · rw [if_neg hx, show _ = _ from hentry₄ x, if_neg (by simpa using hx), entryAt?_unmap,
        if_neg (Ne.symm hx)]
      exact hgrant₂ x
  · refine (hcrew x).trans (ite_congr rfl (fun _ => rfl) fun _ => ?_)
    exact (hremoved x).trans (by rw [hc]; rfl)
  · exact (hfloor₅ id).trans ((hfloor₄ id).trans ((floorAt?_modifyTable _ _ _ _).trans (hfloor₂ id)))

theorem MovedToCopy.kept {rest : List Owner} {b : PageBytes} {d : Bool}
    (h : MovedToCopy m m' o p src copy rest b d) (hk : m.Kept lax) (hp : m.page? o = some p) :
    m'.Kept lax where
  frames := h.frames ▸ hk.frames.setBytes _ _
  fits := by
    rw [h.frames, FramePool.total_setBytes]
    exact hk.fits
  groupIds := h.groupIds ▸ hk.groupIds
  groups g := by
    rw [h.groupIds, h.groups]
    exact hk.groups g
  spaceIds := h.spaceIds ▸ hk.spaceIds
  spaces id := by
    rw [h.spaceIds, h.floor]
    exact hk.spaces id
  floors hv := hk.floors (h.floor _ ▸ hv)
  swap := h.backing ▸ hk.swap
  windows {x q w} hx hw := by
    rw [h.backing]
    rw [h.page] at hx
    split at hx
    · rw [← Option.some.inj hx] at hw
      exact hk.windows hp hw
    · exact hk.windows hx hw
  initializers := h.backing ▸ hk.initializers
  numbers := h.numbers ▸ hk.numbers

theorem MovedToCopy.ledger {rest : List Owner} {b : PageBytes} {d : Bool}
    (h : MovedToCopy m m' o p src copy rest b d) (hcopy : copy < m.frames.total)
    (hw : p.writable = true) (hrest : rest ≠ []) (hb : m.frames.bytes? src = some b)
    (hd : m.hasFlag o .dirty = d) :
    m'.ledger none none = ((m.ledger (some copy) none).leaveFrame o (p.located m.backing.files)
      src rest).settle o (p.located m.backing.files) copy ((m.ledger (some copy) none).bytes src)
      ((m.ledger (some copy) none).isDirty o) := by
  apply Ledger.ext
  case config => exact h.config
  case page =>
    funext x
    show (m'.page? x).map (Page.located m'.backing.files) = _
    rw [h.page, h.backing]
    by_cases hx : x = o
    · subst hx
      rw [if_pos rfl]
      exact (if_pos rfl).symm
    · rw [if_neg hx]
      exact ((if_neg hx).trans (if_neg hx)).symm
  case grant =>
    funext x
    refine (h.grant x).trans ?_
    by_cases hx : x = o
    · subst hx
      rw [if_pos rfl, ← hd, ← show (m.ledger (some copy) none).isDirty x = _ from isDirty_ledger, ← hw]
      exact (if_pos rfl).symm
    · rw [if_neg hx]
      refine Eq.symm ((if_neg hx).trans ((if_neg hx).trans ?_))
      unfold Ledger.regrant
      rw [show (p.located m.backing.files).writable = true from hw]
      rfl
  case crew =>
    funext x
    refine (h.crew x).trans (ite_congr rfl (fun _ => rfl) fun _ => ?_)
    simp only [Ledger.leaveFrame, hrest, if_false]
    rfl
  case held =>
    funext x
    show m'.frames.Held x = (m.frames.Held x ∧ ¬(rest = [] ∧ x = src))
    rw [h.frames, FramePool.held_setBytes]
    simp [hrest]
  case bytes =>
    funext x
    show (m'.frames.bytes? x).getD .zero = if x = copy then (m.frames.bytes? src).getD .zero
      else (m.frames.bytes? x).getD .zero
    rw [h.frames, FramePool.bytes?_setBytes, hb]
    by_cases hx : x = copy
    · subst hx
      rw [if_pos ⟨rfl, hcopy⟩, if_pos rfl, Option.getD_some]
    · rw [if_neg fun hc => hx hc.1.symm, if_neg hx]
  case team => exact congrArg (fun t : Table EvictionGroup => fun g : Nat => t[g]?) h.groups
  case occupied => exact congrArg (fun b : Backing => b.swap.occupied) h.backing
  case swapped => exact congrArg (fun b : Backing => b.swap.content) h.backing
  case file => exact congrArg (fun b : Backing => b.files.file) h.backing
  case initial =>
    exact congrArg (fun b : Backing => fun n : Nat => b.initializers[n]?.map Initializer.content)
      h.backing
  case floor => exact funext h.floor
  case hand => rfl
  case pin => rfl
  case log => exact congrArg Event.placings h.journal

/-- **Moving to a copy** is unsharing in the ledger. -/
theorem meets_moveToCopy {F : Violation → Machine → Prop} {R : Refusal → Machine → Prop} {c : Frame}
    {old : Entry}
    (hm : Sound lax m (some copy) none) (hp : m.page? o = some p) (hsrc : p.frame = some src)
    (hc : m.resident.get? src = some c) (hshared : 1 < c.owners.length)
    (hw : p.writable = true) (hgrant : (m.entryAt? o).map Entry.grant = some old.grant) :
    Action.Meets F (moveToCopy o old copy) m
      (fun _ m' => m'.Kept lax ∧ m'.ledger none none =
        (m.ledger (some copy) none).unshare o (p.located m.backing.files) src c.owners copy) R := by
  have hpage : (m.ledger (some copy) none).page o = _ := page_ledger_of_page? hp
  have hof : (m.ledger (some copy) none).frame o = some src :=
    (frame_ledger_of_page? hp).trans hsrc
  have howners : (m.ledger (some copy) none).owners src = some c.owners := owners_ledger_of_get? hc
  have ho : o ∈ c.owners := (hm.books.crews.mem howners o).mpr hof
  have hold : old.frame = src :=
    Option.some.inj ((hm.books.frame_of_grant (e := old.grant) hgrant).symm.trans hof)
  have hspare : m.resident.get? copy = none := hm.books.spare rfl
  have hne : copy ≠ src := by
    rintro rfl
    rw [hspare] at hc
    cases hc
  have hlast : ∀ x, c.owners.filter (· ≠ o) = [x] → ∃ p, m.page? x = some p ∧ p.writable = true := by
    intro x hx
    have hxl : x ∈ c.owners := (List.mem_filter.mp (hx ▸ List.mem_singleton_self x)).1
    obtain ⟨q, hq, hqp⟩ := Option.map_eq_some_iff.mp (hm.books.page_of_mem hc ho hpage hxl)
    exact ⟨q, hq, (congrArg (·.writable) hqp).trans hw⟩
  have hstays : c.owners.filter (· ≠ o) ≠ [] :=
    Roster.filter_ne_nil o (hm.books.crews.nodup howners) hshared
  obtain ⟨b, hb⟩ := hm.exists_bytes? (hm.held hc)
  obtain ⟨z, hz⟩ := hm.exists_bytes? hm.held_of_hand
  have hlimit := hm.kept.lt_frameLimit hm.held_of_hand
  refine (meets_moveToCopy_machine hp hc hold hlast hne hspare hb hz hlimit).mono
    (fun _ m' h => ⟨h.kept hm.kept hp, ?_⟩) fun _ _ h => h
  refine h.ledger (hm.kept.frames.lt_total hm.held_of_hand) hw hstays hb ?_
  obtain ⟨e, he, hegrant⟩ := Option.map_eq_some_iff.mp hgrant
  rw [hasFlag, he]
  exact congrArg Grant.dirty hegrant

/-! ## Breaking sharing -/

/-- A page in a frame is mapped to it. -/
theorem Sound.exists_entry (hm : Sound lax m hand pin) (hp : m.page? o = some p)
    (hsrc : p.frame = some src) : ∃ e, m.entryAt? o = some e ∧ e.frame = src :=
  Option.map_eq_some_iff.mp ((hm.frame_entryAt? o).trans ((frameOf_of_page? hp).trans hsrc))

/-- A page in a frame is one of its owners. -/
theorem Sound.exists_crew (hm : Sound lax m hand pin) (hp : m.page? o = some p)
    (hsrc : p.frame = some src) : ∃ c, m.resident.get? src = some c ∧ o ∈ c.owners := by
  obtain ⟨l, hl, ho⟩ := hm.books.crews.mem_of_place ((frame_ledger_of_page? hp).trans hsrc)
  obtain ⟨c, hc, rfl⟩ := Option.map_eq_some_iff.mp hl
  exact ⟨c, hc, ho⟩

/-- **Breaking sharing.** The page may be written afterwards, and its frame holds what it held. -/
theorem meets_breakSharing (hm : Sound lax m none none) (hp : m.page? o = some p)
    (hsrc : p.frame = some src) (hw : p.writable = true) :
    Action.Meets (fun v _ => Overrun lax (m.ledger none none).Fitted v) (breakSharing o) m
      (fun _ m' => Reaches lax Ledger.Shifts m m' ∧ ∃ e, m'.entryAt? o = some e ∧
        e.has .writable = true ∧
        (m'.ledger none none).bytes e.frame = (m.ledger none none).bytes src)
      (fun cause m' => ExhaustedBeside m src cause ∧ 1 < m.resident.shareCount src ∧
        Scanned m m') := by
  obtain ⟨space, hspace, -⟩ := floorAt?_of_page? hp
  obtain ⟨e, he, hef⟩ := hm.exists_entry hp hsrc
  obtain ⟨c, hc, ho⟩ := hm.exists_crew hp hsrc
  have hlookup : space.table.lookup? o.vpn = some e := by
    rw [entryAt?_eq, hspace] at he
    exact he
  have hpage : (m.ledger none none).page o = _ := page_ledger_of_page? hp
  have howners : (m.ledger none none).owners src = some c.owners := owners_ledger_of_get? hc
  unfold breakSharing
  rw [Action.meets_bind_of_ok (space_eq o.space hspace), hlookup]
  show Action.Meets _ (if e.has .writable then pure () else _) m _ _
  rw [Action.meets_ite]
  refine ⟨fun hwrites => ⟨.refl hm, e, he, hwrites, by rw [hef]⟩, fun hshut => ?_⟩
  simp only [Action.meets_bind, Action.meets_get, Action.meets_ite, hef]
  have hgrant : (m.ledger none none).grant o = some e.grant := grant_ledger_of_entryAt? he
  -- the page is writable and its mapping is not, so it is not alone
  have hshared : 1 < c.owners.length := by
    by_contra hone
    refine hshut ((hm.books.writes hpage hgrant).mpr ⟨hw, ?_⟩)
    show (m.ledger none none).owners e.frame = _
    rw [hef, howners, (Roster.eq_singleton_iff ho).mpr hone]
  have hcount : m.resident.shareCount src = c.owners.length := by
    rw [FrameTable.shareCount, FrameTable.owners_eq, hc]
    rfl
  refine ⟨fun hone => absurd hshared (Nat.not_lt.mpr (hcount ▸ hone)), fun _ => ?_⟩
  refine (meets_acquireBeside hm hc).mono (fun f m₁ h₁ => ?_) fun cause m₁ h₁ =>
    ⟨h₁.1, hcount ▸ hshared, h₁.2⟩
  obtain ⟨hkept, hne, htrace, hc₁, hbytes, hstays⟩ := h₁
  have hm₁ : Sound lax m₁ (some f) none := ⟨htrace.sound hm.books, hkept⟩
  obtain ⟨hpage₁, hgrant₁⟩ := hstays o ho
  rw [hpage] at hpage₁
  rw [hgrant] at hgrant₁
  obtain ⟨q, hq, hqp⟩ := Option.map_eq_some_iff.mp hpage₁
  have hqsrc : q.frame = some src := (congrArg Page.frame hqp).trans hsrc
  have hqw : q.writable = true := (congrArg (·.writable) hqp).trans hw
  refine (meets_moveToCopy hm₁ hq hqsrc hc₁ hshared hqw hgrant₁).mono (fun _ m₂ h₂ => ?_)
    fun _ _ h => h
  obtain ⟨hkept₂, hledger⟩ := h₂
  simp only [count, note, Action.meets_modify]
  refine ⟨⟨{ hkept₂ with }, ?_⟩, ?_⟩
  · rw [ledger_note m₂ _ rfl, hledger]
    refine htrace.shift ?_
    exact .unshare (page_ledger_of_page? hq) hqsrc (owners_ledger_of_get? hc₁) hshared hqw
      rfl rfl
  · have hafter : (m₂.ledger none none).grant o = some ⟨f, q.writable,
        (m₁.ledger (some f) none).isDirty o⟩ := by
      rw [hledger]
      exact if_pos rfl
    obtain ⟨d, hd, hdg⟩ := Option.map_eq_some_iff.mp hafter
    have hdf : d.frame = f := congrArg Grant.frame hdg
    refine ⟨d, hd, (congrArg Grant.writable hdg).trans hqw, ?_⟩
    rw [← hbytes, hdf]
    show (m₂.ledger none none).bytes f = _
    rw [hledger]
    exact if_pos rfl

end DemandPaging.Machine

/-! ## Duplicating a page -/

namespace DemandPaging

variable {lax : Tolerance}

namespace FileWindow

/-- A window through a new handle is on the same file. -/
theorem located_reopen (w : FileWindow) (files : FileStore) :
    (w.reopen files).1.located (w.reopen files).2 = w.located files := by
  unfold reopen located
  rw [FileStore.file_handle_reopen]

theorem usable_reopen {w : FileWindow} {files : FileStore} (h : w.Usable lax files) :
    (w.reopen files).1.Usable lax (w.reopen files).2 := by
  have hfile : (w.reopen files).2.fileOf (w.reopen files).1.handle = files.fileOf w.handle :=
    congrArg files.file (files.file_handle_reopen w.handle)
  refine ⟨by simp [reopen, FileStore.reopen], h.small, h.taken.imp_right fun htaken => ?_⟩
  unfold Taken
  rw [hfile]
  exact htaken

end FileWindow

/-- What duplicating a content did. The slot stays with the original. -/
structure Content.Duplicated (lax : Tolerance) (c c' : Content)
    (files files' : FileStore) : Prop where
  located : c'.located files' = (c.located files).putSlot none
  ext : files.Extends files'
  file : files'.file = files.file
  usable : ∀ w', c'.window? = some w' →
    (∀ w, c.window? = some w → w.Usable lax files) → w'.Usable lax files'

theorem Content.duplicated (lax : Tolerance) (c : Content) (files : FileStore) :
    c.Duplicated lax (c.duplicate files).1 files (c.duplicate files).2 := by
  have hext : ∀ w : FileWindow, files.Extends (w.reopen files).2 := fun w =>
    files.extends_reopen w.handle
  cases c with
  | anon a => exact ⟨rfl, .refl _, rfl, nofun⟩
  | file w =>
    refine ⟨congrArg Content.file (w.located_reopen files), hext w, rfl, fun w' hw' h => ?_⟩
    rw [← Option.some.inj hw']
    exact FileWindow.usable_reopen (h w rfl)
  | uninit t g =>
    cases g with
    | zero => exact ⟨rfl, .refl _, rfl, nofun⟩
    | custom n => exact ⟨rfl, .refl _, rfl, nofun⟩
    | file w =>
      refine ⟨congrArg (Content.uninit t ∘ Origin.file) (w.located_reopen files), hext w, rfl,
        fun w' hw' h => ?_⟩
      rw [← Option.some.inj hw']
      exact FileWindow.usable_reopen (h w rfl)

theorem Content.putSlot_none {c : Content} (h : ∀ a, c = .anon a → a.slot = none) :
    c.putSlot none = c := by
  cases c with
  | anon a => rw [putSlot, ← h a rfl]
  | uninit t g => rfl
  | file w => rfl

end DemandPaging

namespace DemandPaging.Machine

variable {lax : Tolerance} {m m' : Machine} {hand pin : Option FrameNum} {o : Owner} {p : Page}
  {f : FrameNum} {source target : SpaceId} {v : PageNum}

/-! ## Sharing a page -/

/-- What sharing a page did to the machine. -/
structure SharedWith (lax : Tolerance) (m m' : Machine) (source target : SpaceId) (v : PageNum)
    (p : Page) (c : Content) : Prop where
  rest : ∃ spaces files resident, m' = { m with
    spaces, resident, backing := { m.backing with files } }
  page : ∀ x, m'.page? x =
    if x = ⟨target, v⟩ then some { p with content := c, group := none } else m.page? x
  grant : ∀ x, (m'.entryAt? x).map Entry.grant = match p.frame with
    | none => (m.entryAt? x).map Entry.grant
    | some f => if x = ⟨target, v⟩ then some ⟨f, false, false⟩
      else if x = ⟨source, v⟩
      then ((m.entryAt? x).map Entry.grant).map fun e => { e with writable := false }
      else (m.entryAt? x).map Entry.grant
  crew : ∀ x, m'.resident.get? x = match p.frame with
    | none => m.resident.get? x
    | some f => if x = f
      then (m.resident.get? f).map fun c => { c with owners := c.owners ++ [⟨target, v⟩] }
      else m.resident.get? x
  floor : ∀ id, m'.floorAt? id = m.floorAt? id
  dup : p.content.Duplicated lax c m.backing.files m'.backing.files

theorem meets_shareWith_machine (lax : Tolerance) {F : Violation → Machine → Prop}
    {R : Refusal → Machine → Prop} (hp : m.page? ⟨source, v⟩ = some p) (hvpn : p.vpn = v)
    (hlive : (m.floorAt? target).isSome) (hfree : m.page? ⟨target, v⟩ = none)
    (hunmapped : m.entryAt? ⟨target, v⟩ = none)
    (hfits : ∀ f, p.frame = some f → f < Entry.frameLimit) :
    Action.Meets F (shareWith target source v) m
      (fun _ m' => SharedWith lax m m' source target v p
        (p.content.duplicate m.backing.files).1) R := by
  subst hvpn
  have hdup := Content.duplicated lax p.content m.backing.files
  unfold shareWith
  rw [Action.meets_bind_of_ok (registeredPage_eq hp)]
  simp only [Action.meets_bind, Action.meets_get, Page.duplicate]
  generalize p.content.duplicate m.backing.files = d at hdup ⊢
  obtain ⟨c, files⟩ := d
  simp only [Action.meets_modify]
  cases hframe : p.frame with
  | none =>
    refine meets_insertPage { p with content := c, frame := none, group := none } hlive hfree
      fun m' h => ?_
    have hpage := h.page
    have hentry := h.entry
    have hfloor := h.floor
    obtain ⟨spaces, rfl⟩ := h.rest
    refine ⟨⟨_, _, _, rfl⟩, fun x => ?_, fun x => ?_, fun x => ?_, hfloor, hdup⟩
    · rw [hpage, ← hframe]
      rfl
    · rw [hframe, hentry]
      rfl
    · rw [hframe]
  | some f =>
    rw [Action.meets_bind, Action.meets_modify, Action.meets_bind]
    have hne : (⟨source, p.vpn⟩ : Owner) ≠ ⟨target, p.vpn⟩ := fun h => by
      rw [h, hfree] at hp
      cases hp
    refine (meets_mapOwner ?_ ?_).mono (fun _ m₃ h₃ => ?_) fun _ _ h => h
    · rw [floorAt?_modifyTable]
      exact hlive
    · refine (entryAt?_put _ ⟨source, p.vpn⟩ _ (by decide) _).trans ?_
      rw [if_neg hne]
      exact hunmapped
    have hpage₃ : ∀ x, m₃.page? x = m.page? x := fun x => by
      rw [h₃.page, page?_modifyTable]
      exact (ite_congr rfl (fun _ => Option.map_id') fun _ => rfl).trans (ite_self _)
    have hentry₃ := h₃.entry
    have hfloor₃ : ∀ id, m₃.floorAt? id = m.floorAt? id := fun id =>
      (h₃.floor id).trans (floorAt?_modifyTable _ _ _ _)
    refine meets_insertPage { p with content := c, frame := some f, group := none }
      ((congrArg Option.isSome (hfloor₃ target)).trans hlive) ((hpage₃ _).trans hfree) fun m' h => ?_
    have hpage := h.page
    have hentry := h.entry
    have hfloor := h.floor
    obtain ⟨spaces₃, rfl⟩ := h₃.rest
    obtain ⟨spaces, rfl⟩ := h.rest
    rw [Action.meets_modify]
    refine ⟨⟨_, _, _, rfl⟩, fun x => ?_, fun x => ?_, fun x => ?_, fun id => ?_, hdup⟩
    · refine (hpage x).trans (ite_congr rfl (fun _ => ?_) fun _ => hpage₃ x)
      rw [← hframe]
    · rw [hframe]
      dsimp only
      refine (congrArg _ ((hentry x).trans (hentry₃ x))).trans ?_
      by_cases hx : x = ⟨target, p.vpn⟩
      · subst hx
        simp [grant_make (hfits f hframe)]
      · rw [if_neg (by simpa using hx)]
        refine (congrArg _ (entryAt?_put _ ⟨source, p.vpn⟩ x (by decide) _)).trans ?_
        by_cases hxs : x = ⟨source, p.vpn⟩
        · subst hxs
          rw [if_pos rfl, if_neg hx, if_pos rfl, Option.map_map, Option.map_map]
          exact congrArg (Option.map · _) (funext fun e => grant_put_writable e false)
        · rw [if_neg (Ne.symm hxs), if_neg hx, if_neg hxs]
          rfl
    · rw [hframe]
      exact FrameTable.get?_modify _ _ _ _
    · exact (hfloor id).trans (hfloor₃ id)

theorem SharedWith.kept {c : Content} (h : SharedWith lax m m' source target v p c)
    (hk : m.Kept lax) (hp : m.page? ⟨source, v⟩ = some p) : m'.Kept lax := by
  have hpage := h.page
  have hfloor := h.floor
  have hdup := h.dup
  obtain ⟨spaces, files, resident, rfl⟩ := h.rest
  exact { hk with
    spaces := fun id => by
      rw [hfloor]
      exact hk.spaces id
    floors := fun {id v} hv => hk.floors (hfloor id ▸ hv)
    windows := fun {x q w} hx hw => by
      rw [hpage] at hx
      split at hx
      · rw [← Option.some.inj hx] at hw
        exact hdup.usable w hw fun w' hw' => hk.windows hp hw'
      · exact (hk.windows hx hw).extends hdup.ext }

/-- The copy is the page it was made of, if that held no slot, but in no group. -/
theorem SharedWith.page_ledger
    (h : SharedWith lax m m' source target v p (p.content.duplicate m.backing.files).1)
    (hk : m.Kept lax) (hslot : ∀ a, p.content = .anon a → a.slot = none) (x : Owner) :
    (m'.ledger none none).page x = if x = ⟨target, v⟩
      then some { p.located m.backing.files with group := none }
      else (m.ledger none none).page x := by
  have hcopy : ({ p with
      content := (p.content.duplicate m.backing.files).1, group := none } : Page).located
      m'.backing.files = { p.located m.backing.files with group := none } := by
    have hputSlot : (p.content.located m.backing.files).putSlot none =
        p.content.located m.backing.files :=
      Content.putSlot_none fun a ha => hslot a ((Content.located_eq_anon _ _).mp ha)
    unfold Page.located
    simp only [h.dup.located, hputSlot]
  show (m'.page? x).map (Page.located m'.backing.files) = _
  rw [h.page]
  split
  · rw [Option.map_some, hcopy]
  · exact hk.page_ledger_of_extends h.dup.ext x

/-- A page that is in no frame is copied into none. -/
theorem SharedWith.ledger_enter
    (h : SharedWith lax m m' source target v p (p.content.duplicate m.backing.files).1)
    (hk : m.Kept lax) (hslot : ∀ a, p.content = .anon a → a.slot = none) (hframe : p.frame = none) :
    m'.ledger none none = (m.ledger none none).enter ⟨target, v⟩
      { p.located m.backing.files with group := none } := by
  have hpages := h.page_ledger hk hslot
  have hgrant := h.grant
  have hcrew := h.crew
  have hfloor := h.floor
  have hfile := h.dup.file
  obtain ⟨spaces, files, resident, rfl⟩ := h.rest
  simp only [hframe] at hgrant hcrew
  apply Ledger.ext
  case page => exact funext hpages
  case grant => exact funext hgrant
  case crew => exact funext hcrew
  case file => exact hfile
  case floor => exact funext hfloor
  all_goals rfl

/-- The copy of a page joins it in its frame. -/
theorem SharedWith.ledger_join
    (h : SharedWith lax m m' source target v p (p.content.duplicate m.backing.files).1)
    (hk : m.Kept lax) (hslot : ∀ a, p.content = .anon a → a.slot = none) (hframe : p.frame = some f)
    (hgroup : p.group = none) :
    m'.ledger none none =
      (m.ledger none none).join ⟨target, v⟩ (p.located m.backing.files) ⟨source, v⟩ f := by
  have hpages := h.page_ledger hk hslot
  have hgrant := h.grant
  have hcrew := h.crew
  have hfloor := h.floor
  have hfile := h.dup.file
  obtain ⟨spaces, files, resident, rfl⟩ := h.rest
  simp only [hframe] at hgrant hcrew
  apply Ledger.ext
  case page =>
    refine funext fun x => (hpages x).trans (ite_congr rfl (fun _ => ?_) fun _ => rfl)
    rw [Option.some.injEq, ← show (p.located m.backing.files).group = none from hgroup]
  case grant => exact funext hgrant
  case crew => exact funext hcrew
  case file => exact hfile
  case floor => exact funext hfloor
  all_goals rfl

/-- **Sharing a page.** -/
theorem meets_shareWith {F : Violation → Machine → Prop} {R : Refusal → Machine → Prop}
    (hm : Sound lax m none none)
    (hp : m.page? ⟨source, v⟩ = some p) (hlive : (m.floorAt? target).isSome)
    (hfree : m.page? ⟨target, v⟩ = none) (hanon : p.frame = none → ∀ a, p.content ≠ .anon a) :
    Action.Meets F (shareWith target source v) m
      (fun _ m' => Reaches lax (Ledger.Move (.copy ⟨source, v⟩ ⟨target, v⟩)) m m' ∧
        m'.counters = m.counters ∧ m'.backing.swap = m.backing.swap) R := by
  have hpage : (m.ledger none none).page ⟨source, v⟩ = _ := page_ledger_of_page? hp
  have hvpn : p.vpn = v := hm.books.numbered hpage
  have hshape := hm.shaped hp
  have htarget : (m.ledger none none).page ⟨target, v⟩ = none := by
    rw [page_ledger, hfree]
    rfl
  have hunmapped : m.entryAt? ⟨target, v⟩ = none :=
    Option.map_eq_none_iff.mp (hm.books.grant_eq_none htarget)
  have hfits : ∀ f, p.frame = some f → f < Entry.frameLimit := fun f hf => by
    obtain ⟨c, hc, -⟩ := hm.exists_crew hp hf
    exact hm.kept.lt_frameLimit (hm.held hc)
  have hslot : ∀ a, p.content = .anon a → a.slot = none := fun a ha => by
    cases hf : p.frame with
    | none => exact absurd ha (hanon hf a)
    | some f => exact (hshape.housed ha).mpr (by rw [hf]; rfl)
  refine (meets_shareWith_machine lax hp hvpn hlive hfree hunmapped hfits).mono
    (fun _ m' h => ?_) fun _ _ h => h
  have hmove : Ledger.Move (.copy ⟨source, v⟩ ⟨target, v⟩) (m.ledger none none)
      (m'.ledger none none) := by
    cases hframe : p.frame with
    | none =>
      rw [h.ledger_enter hm.kept hslot hframe]
      exact .duplicate htarget rfl hpage hframe
        (fun a ha => hanon hframe a ((Content.located_eq_anon _ _).mp ha)) hlive
    | some f =>
      rw [h.ledger_join hm.kept hslot hframe (hshape.group_eq_none hframe)]
      exact .join htarget rfl hpage hframe hlive
  have hkept := h.kept hm.kept hp
  obtain ⟨spaces, files, resident, rfl⟩ := h.rest
  exact ⟨⟨hkept, hmove⟩, rfl, rfl⟩

/-! ## Copying pages -/

/-- A space that cannot be looked up is not there. -/
theorem meets_space {F : Violation → Machine → Prop} (m : Machine) (id : SpaceId) :
    Action.Meets F (space id) m (fun space m' => m' = m ∧ m.spaces[id]? = some space)
      (fun _ m' => m' = m ∧ m.floorAt? id = none) := by
  unfold space
  simp only [Action.meets_bind, Action.meets_get]
  rw [Action.meets_require]
  refine ⟨fun space hspace => ⟨rfl, hspace⟩, fun hnone => ⟨rfl, ?_⟩⟩
  rw [floorAt?, hnone]
  rfl

theorem state_eq_evicted (p : Page) :
    (p.state = .evicted ∧ p.type = .anon) ↔ p.frame = none ∧ ∃ a, p.content = .anon a := by
  unfold Page.state Page.type
  cases p.frame <;> cases p.content <;> simp [Content.type]

/-- Registered pages and spaces stay while contents are moved. -/
theorem Reaches.page?_eq_none (h : Reaches lax Ledger.Shifts m m') (hm : Sound lax m none none)
    (o : Owner) : m'.page? o = none ↔ m.page? o = none := by
  have := h.told.page_eq_none hm.books o
  rwa [page_ledger, page_ledger, Option.map_eq_none_iff, Option.map_eq_none_iff] at this

theorem Reaches.floorAt? (h : Reaches lax Ledger.Shifts m m') (hm : Sound lax m none none) :
    m'.floorAt? = m.floorAt? := h.told.floor hm.books

/-- After an evicted page was claimed there is room: its own frame may be evicted, and its slot is
free. -/
theorem Sound.roomy_of_claim {s : Nat} (hm : Sound lax m none none) (hm' : Sound lax m' none none)
    (hslot : m.slotOf o = some s) (hframe : m'.frameOf o = some f)
    (hfree : m'.backing.swap.occupied s = false)
    (hcapacity : m'.backing.swap.capacity = m.backing.swap.capacity) : m'.Roomy := by
  rw [← @slot_ledger _ none none] at hslot
  refine ⟨⟨s, ?_, hfree⟩, f, ?_⟩
  · rw [hcapacity]
    exact hm.kept.swap.lt_capacity ((hm.books.taken s).mpr ⟨o, hslot⟩)
  · obtain ⟨p, hp, hf⟩ := Option.bind_eq_some_iff.mp hframe
    obtain ⟨c, hc, -⟩ := hm'.exists_crew hp hf
    rw [hc]
    rfl

/-- **Copying a registered page** where there is none. Either nothing but sharing happens, or there is
room afterwards. A refusal is for want of room and changes nothing. -/
theorem meets_copyPage_of_page (hm : Sound lax m none none) (hlive : (m.floorAt? target).isSome)
    (hp : m.page? ⟨source, v⟩ = some p) (hfree : m.page? ⟨target, v⟩ = none) :
    Action.Meets (BreaksOff lax) (copyPage target source v) m
      (fun _ m' => Reaches lax (Ledger.Copies ⟨source, v⟩ ⟨target, v⟩) m m' ∧
        (Ledger.Move (.copy ⟨source, v⟩ ⟨target, v⟩) (m.ledger none none) (m'.ledger none none) ∧
            m'.counters = m.counters ∧ m'.backing.swap = m.backing.swap ∨
          m'.Roomy))
      (fun cause m' => Exhausted m cause ∧ Scanned m m') := by
  obtain ⟨space, hspace⟩ := exists_space hlive
  have hcontains : space.registry.contains v = (m.page? ⟨target, v⟩).isSome := by
    rw [page?_eq, hspace]
    exact Registry.contains_eq v
  unfold copyPage
  rw [Action.meets_bind_of_ok (space_eq target hspace), hcontains, hfree]
  simp only [Option.isSome_none, Bool.false_eq_true, if_false]
  rw [Action.meets_bind_of_ok (registeredPage_eq hp), Action.meets_ite, state_eq_evicted]
  refine ⟨?_, fun hstays => ?_⟩
  · rintro ⟨hframe, a, ha⟩
    obtain ⟨s, hs⟩ : ∃ s, p.slot = some s := by
      rw [Page.slot, ha, ← Option.isSome_iff_exists, Option.isSome_iff_ne_none, ne_eq,
        (hm.shaped hp).housed ha, hframe]
      decide
    have hslot : m.slotOf ⟨source, v⟩ = some s := by
      rw [slotOf, hp]
      exact hs
    rw [Action.meets_bind]
    refine (((meets_claim_of_page hm hp).and (leaves_claim _ m)).relax fun _ _ h => h.1.2).mono
      (fun f m₁ h₁ => ?_) fun cause m₁ h₁ => ?_
    · obtain ⟨⟨hclaims, hfreed⟩, hstanding⟩ := h₁
      have hreach := hclaims.shifts_of_claims
      have hframe₁ := hclaims.frameOf_of_claims
      have hm₁ := hreach.sound hm
      have hroomy := hm.roomy_of_claim hm₁ hslot hframe₁ (hfreed s hs)
        (congrArg Standing.slots hstanding)
      obtain ⟨q, hq, hqf⟩ := Option.bind_eq_some_iff.mp hframe₁
      refine (meets_shareWith hm₁ hq (hreach.floorAt? hm ▸ hlive)
        ((hreach.page?_eq_none hm _).mpr hfree) fun hnone => ?_).mono (fun _ m₂ h₂ => ?_) fun _ _ h => h
      · rw [hqf] at hnone
        cases hnone
      · obtain ⟨⟨hkept, hmove⟩, -, hswap⟩ := h₂
        refine ⟨⟨hkept, .claimed (page_ledger_of_page? hp)
            ⟨a, (Content.located_eq_anon m.backing.files p.content).mpr ha⟩ hclaims.told hmove⟩,
          Or.inr ⟨hswap ▸ hroomy.slot, ?_⟩⟩
        obtain ⟨g, hg⟩ := hroomy.frame
        exact ⟨g, (hmove.crew_isSome_of_copy g).trans hg⟩
    · obtain ⟨-, h | h⟩ := h₁.1
      · exact h
      · rw [h.2.1.slot_eq_none] at hs
        cases hs
  · exact (meets_shareWith hm hp hlive hfree fun hnone a ha => hstays ⟨hnone, a, ha⟩).mono
      (fun _ m₂ h₂ => ⟨⟨h₂.1.kept, .shared h₂.1.told⟩, Or.inl ⟨h₂.1.told, h₂.2⟩⟩) fun _ _ h => h

/-- **Copying a page.** -/
theorem meets_copyPage (hm : Sound lax m none none) :
    Action.Meets (BreaksOff lax) (copyPage target source v) m
      (fun _ m' => Reaches lax (Ledger.Copies ⟨source, v⟩ ⟨target, v⟩) m m')
      (fun cause m' => Reaches lax Ledger.Shifts m m' ∧ (cause.isInternal = true →
        m.floorAt? source = none ∨ m.floorAt? target = none)) := by
  by_cases hgood : (m.floorAt? target).isSome ∧ (m.page? ⟨source, v⟩).isSome ∧
      m.page? ⟨target, v⟩ = none
  · obtain ⟨hlive, hsome, hfree⟩ := hgood
    obtain ⟨p, hp⟩ := Option.isSome_iff_exists.mp hsome
    refine (meets_copyPage_of_page hm hlive hp hfree).mono (fun _ _ h => h.1) fun cause m' h => ?_
    exact ⟨.of_idle hm h.2.idle, fun hinternal =>
      absurd hinternal (Refusal.not_isInternal_of_isExhaustion h.1.isExhaustion)⟩
  · unfold copyPage
    rw [Action.meets_bind]
    refine (meets_space m target).mono ?_ ?_
    · rintro space m ⟨rfl, hspace⟩
      have hlive : (m.floorAt? target).isSome := by
        rw [floorAt?, hspace]
        rfl
      have hcontains : space.registry.contains v = (m.page? ⟨target, v⟩).isSome := by
        rw [page?_eq, hspace]
        exact Registry.contains_eq v
      rw [Action.meets_ite, hcontains]
      refine ⟨fun _ => ⟨.refl hm, fun hinternal => by cases hinternal⟩, fun hfree => ?_⟩
      rw [Action.meets_bind]
      refine (meets_registeredPage m ⟨source, v⟩).mono ?_ ?_
      · rintro p m ⟨rfl, hp⟩
        exact absurd ⟨hlive, by rw [hp]; rfl, Option.not_isSome_iff_eq_none.mp hfree⟩ hgood
      · rintro cause _ ⟨rfl, hinternal⟩
        exact ⟨.refl hm, fun h => Or.inl (hinternal h)⟩
    · rintro cause _ ⟨rfl, hnone⟩
      exact ⟨.refl hm, fun _ => Or.inr hnone⟩

/-- Copying pages one after the other stops at the first that is refused. -/
theorem meets_forM_copyPage : ∀ {vs : List PageNum} {m : Machine}, Sound lax m none none →
    Action.Meets (BreaksOff lax) (vs.forM (copyPage target source)) m
      (fun _ m' => Reaches lax (Ledger.Copying source target vs) m m')
      (fun cause m' =>
        (∃ vs', vs' <+: vs ∧
          Reaches lax (Ledger.Trace (Layout.copyKinds source target vs')) m m') ∧
        (cause.isInternal = true → m.floorAt? source = none ∨ m.floorAt? target = none))
  | [], m, hm => ⟨hm.kept, .nil _⟩
  | v :: vs, m, hm => by
    show Action.Meets (BreaksOff lax) (copyPage target source v >>= fun _ => vs.forM _) m _ _
    refine (meets_copyPage hm).bind (fun _ m₁ hcopied => ?_) fun cause m₁ h₁ => ?_
    · have h₁ := hcopied.mono fun _ _ h => h.trace
      have hfloor : m₁.floorAt? = m.floorAt? :=
        congrArg Layout.floor (h₁.told.layout hm.books)
      refine (meets_forM_copyPage (h₁.sound hm)).mono
        (fun _ m₂ h₂ => ⟨h₂.kept, .cons hcopied.told h₂.told⟩) fun cause m₂ h₂ => ?_
      obtain ⟨⟨vs', hbefore, h₂⟩, hinternal⟩ := h₂
      rw [hfloor] at hinternal
      exact ⟨⟨v :: vs', List.cons_prefix_cons.mpr ⟨rfl, hbefore⟩, h₁.trans h₂⟩, hinternal⟩
    · exact ⟨⟨[], List.nil_prefix, h₁.1⟩, h₁.2⟩

/-- **Copying pages that are there** one after the other keeps `I`, if copying the first of those that
are left keeps it. -/
theorem meets_forM_copyPage_keeping {I : List PageNum → Machine → Prop} {R : Refusal → Machine → Prop}
    (hstep : ∀ {v vs m p}, Sound lax m none none → (m.floorAt? target).isSome →
      m.page? ⟨source, v⟩ = some p → m.page? ⟨target, v⟩ = none → v ∉ vs → I (v :: vs) m →
      Action.Meets (BreaksOff lax) (copyPage target source v) m
        (fun _ m' => Reaches lax (Ledger.Copies ⟨source, v⟩ ⟨target, v⟩) m m' ∧ I vs m') R) :
    ∀ {vs : List PageNum} {m : Machine}, Sound lax m none none → (m.floorAt? target).isSome →
      vs.Nodup → (∀ v ∈ vs, (m.page? ⟨source, v⟩).isSome ∧ m.page? ⟨target, v⟩ = none) → I vs m →
      Action.Meets (BreaksOff lax) (vs.forM (copyPage target source)) m (fun _ m' => I [] m') R
  | [], _, _, _, _, _, h => h
  | v :: vs, m, hm, hlive, hnodup, hvs, h => by
    obtain ⟨hv, hnodup⟩ := List.nodup_cons.mp hnodup
    obtain ⟨hsome, hfree⟩ := hvs v List.mem_cons_self
    obtain ⟨p, hp⟩ := Option.isSome_iff_exists.mp hsome
    show Action.Meets (BreaksOff lax) (copyPage target source v >>= fun _ => vs.forM _) m _ _
    refine (hstep hm hlive hp hfree hv h).bind (fun _ m₁ h₁ => ?_) fun _ _ h => h
    obtain ⟨hcopies, h₁⟩ := h₁
    have hreach := hcopies.mono fun _ _ h => h.trace
    have hlayout := hreach.told.layout hm.books
    have hpages : ∀ x, (m₁.page? x).isSome =
        (decide (x = ⟨target, v⟩) || (m.page? x).isSome) := fun x => by
      have hregistered := congrFun (congrArg Layout.registered hlayout) x
      rw [registered_ledger] at hregistered
      rw [hregistered, ← @registered_ledger _ none none]
      rfl
    have hfloor : m₁.floorAt? = m.floorAt? := congrArg Layout.floor hlayout
    refine meets_forM_copyPage_keeping hstep (hreach.sound hm) (hfloor ▸ hlive) hnodup
      (fun x hx => ?_) h₁
    obtain ⟨hsome, hfree⟩ := hvs x (List.mem_cons_of_mem v hx)
    have hne : x ≠ v := fun h => hv (h ▸ hx)
    refine ⟨by rw [hpages, hsome, Bool.or_true], ?_⟩
    rw [← Option.not_isSome_iff_eq_none, hpages, hfree]
    simp [hne]

/-- **Copying all pages.** -/
theorem meets_copyPages (hm : Sound lax m none none) :
    Action.Meets (BreaksOff lax) (copyPages target source) m
      (fun _ m' => Reaches lax (Ledger.CopiesAll source target) m m')
      (fun cause m' => Reaches lax (Ledger.Told (Layout.CopiesSome source target)) m m' ∧
        (cause.isInternal = true → m.floorAt? source = none ∨ m.floorAt? target = none)) := by
  unfold copyPages
  rw [Action.meets_bind]
  refine (meets_space m source).mono ?_ ?_
  · rintro space m ⟨rfl, hspace⟩
    have hall : ∀ v, v ∈ space.registry.vpns ↔
        (m.ledger none none).layout.registered ⟨source, v⟩ = true := fun v => by
      rw [Registry.mem_vpns, registered_ledger, page?_eq, hspace]
      rfl
    generalize space.registry.vpns = vs at hall
    rw [Action.meets_bind]
    refine (meets_forM_copyPage hm).mono (fun _ m₁ h₁ => ?_) fun cause m₁ h₁ => ?_
    · have hfloor : m₁.floorAt? = m.floorAt? :=
        (congrArg Layout.floor (h₁.told.trace.layout hm.books)).trans (Layout.floor_copyKinds ..)
      rw [Action.meets_bind]
      refine (meets_space m₁ source).mono ?_ ?_
      · rintro space₁ m₁ ⟨rfl, hspace₁⟩
        rw [Action.meets_bind]
        refine (meets_space m₁ target).mono ?_ ?_
        · rintro space₂ m₁ ⟨rfl, hspace₂⟩
          have ha : m₁.floorAt? source = some space₁.stackFloor := by
            rw [floorAt?, hspace₁]
            rfl
          have hb : m₁.floorAt? target = some space₂.stackFloor := by
            rw [floorAt?, hspace₂]
            rfl
          have hle : min space₂.stackFloor space₁.stackFloor ≤ PageNum.limit :=
            Nat.le_trans (Nat.min_le_left _ _) (h₁.kept.floors hb)
          rw [hfloor] at ha hb
          unfold note
          simp only [Action.meets_bind, Action.meets_modify]
          have hfloored : Reaches lax (Ledger.CopiesAll source target) m
              (m₁.modifySpace target fun space =>
                { space with stackFloor := min space.stackFloor space₁.stackFloor }) := by
            refine ⟨h₁.kept.setFloor hspace₂ hle, ?_⟩
            rw [ledger_setFloor hspace₂]
            exact .intro hall ha hb h₁.told
          exact hfloored.idle (.note _ _ rfl)
        · rintro cause m₁ ⟨rfl, hnone⟩
          exact ⟨⟨h₁.kept, _, .intro fun v hv => (hall v).mp hv, h₁.told.trace⟩, fun _ =>
            Or.inr (hfloor ▸ hnone)⟩
      · rintro cause m₁ ⟨rfl, hnone⟩
        exact ⟨⟨h₁.kept, _, .intro fun v hv => (hall v).mp hv, h₁.told.trace⟩, fun _ =>
          Or.inl (hfloor ▸ hnone)⟩
    · obtain ⟨⟨vs', hbefore, h₁⟩, hinternal⟩ := h₁
      exact ⟨⟨h₁.kept, _, .intro fun v hv => (hall v).mp (hbefore.subset hv), h₁.told⟩, hinternal⟩
  · rintro cause _ ⟨rfl, hnone⟩
    exact ⟨⟨hm.kept, [], .intro (List.forall_mem_nil _), .refl _⟩, fun _ => Or.inl hnone⟩

/-- **Copying all pages into an empty space** keeps `I`, if copying each of them does. -/
theorem meets_copyPages_keeping {I : List PageNum → Machine → Prop} {R : Refusal → Machine → Prop}
    (hm : Sound lax m none none) (hlive : (m.floorAt? target).isSome)
    (hempty : ∀ v, m.page? ⟨target, v⟩ = none)
    (hI : ∀ vs, (∀ v, v ∈ vs ↔ (m.page? ⟨source, v⟩).isSome) → I vs m)
    (hnone : m.floorAt? source = none → ∀ cause, R cause m)
    (hstep : ∀ {v vs m p}, Sound lax m none none → (m.floorAt? target).isSome →
      m.page? ⟨source, v⟩ = some p → m.page? ⟨target, v⟩ = none → v ∉ vs → I (v :: vs) m →
      Action.Meets (BreaksOff lax) (copyPage target source v) m
        (fun _ m' => Reaches lax (Ledger.Copies ⟨source, v⟩ ⟨target, v⟩) m m' ∧ I vs m') R) :
    Action.Meets (BreaksOff lax) (copyPages target source) m
      (fun _ m' => ∃ m₁, I [] m₁ ∧ ∀ o, m'.page? o = m₁.page? o) R := by
  unfold copyPages
  rw [Action.meets_bind]
  refine (meets_space m source).mono ?_ ?_
  · rintro space m ⟨rfl, hspace⟩
    have hall : ∀ v, v ∈ space.registry.vpns ↔ (m.page? ⟨source, v⟩).isSome := fun v => by
      rw [page?_eq, hspace]
      exact Registry.mem_vpns
    have hnodup : space.registry.vpns.Nodup := Std.ExtTreeMap.nodup_keys
    generalize space.registry.vpns = vs at hall hnodup
    have hstart : (m.floorAt? source).isSome := by
      rw [floorAt?, hspace]
      rfl
    rw [Action.meets_bind]
    refine (((meets_forM_copyPage hm).and (meets_forM_copyPage_keeping hstep hm hlive hnodup
      (fun v hv => ⟨(hall v).mp hv, hempty v⟩) (hI vs hall))).relax fun _ _ h => h.1).mono
      (fun _ m₁ h₁ => ?_) fun _ _ h => h.2
    -- both spaces are still there
    have hfloor : m₁.floorAt? = m.floorAt? :=
      (congrArg Layout.floor (h₁.1.told.trace.layout hm.books)).trans (Layout.floor_copyKinds ..)
    obtain ⟨space₁, hspace₁⟩ := exists_space (hfloor ▸ hstart)
    obtain ⟨space₂, hspace₂⟩ := exists_space (hfloor ▸ hlive)
    unfold note
    rw [Action.meets_bind_of_ok (space_eq source hspace₁),
      Action.meets_bind_of_ok (space_eq target hspace₂)]
    simp only [Action.meets_bind, Action.meets_modify]
    exact ⟨m₁, h₁.2, page?_setFloor⟩
  · rintro cause _ ⟨rfl, hspace⟩
    exact hnone hspace cause

end DemandPaging.Machine
