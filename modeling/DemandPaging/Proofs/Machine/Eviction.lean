import DemandPaging.Machine.Eviction
import DemandPaging.Proofs.Ledger.Fitting
import DemandPaging.Proofs.Machine.Ledger
import DemandPaging.Proofs.Memory.FrameTable

/-!
# Eviction keeps the books
-/

namespace DemandPaging

namespace FrameTable

variable {σ : Type} {touched : List Owner → σ → Bool × σ} {I : σ → Prop}

/-- A scan picks a frame it was given, and keeps what every look at a frame keeps. -/
theorem firstUntouched_spec (hI : ∀ l s, I s → I (touched l s).2) :
    ∀ (order : List (FrameNum × Frame)) (s : σ), I s →
      I (firstUntouched touched order s).2 ∧
        ∀ f, (firstUntouched touched order s).1 = some f → ∃ c, (f, c) ∈ order
  | [], s, hs => ⟨hs, nofun⟩
  | (f, c) :: rest, s, hs => by
    have hkept := hI c.owners s hs
    unfold firstUntouched
    split
    · rename_i s' htouched
      rw [htouched] at hkept
      obtain ⟨hrest, hfound⟩ := firstUntouched_spec hI rest s' hkept
      refine ⟨hrest, fun f' hf' => ?_⟩
      obtain ⟨c', hc'⟩ := hfound f' hf'
      exact ⟨c', List.mem_cons_of_mem _ hc'⟩
    · rename_i s' htouched
      rw [htouched] at hkept
      refine ⟨hkept, fun f' hf' => ⟨c, ?_⟩⟩
      rw [← Option.some.inj hf']
      exact List.mem_cons_self

/-- A frame that a scan looks at is resident and not pinned. -/
theorem of_mem_scanOrder {table : FrameTable} {f : FrameNum} {c : Frame}
    (h : (f, c) ∈ table.scanOrder) : table.get? f = some c ∧ c.pinned = false := by
  have hmem : (f, c) ∈ table.toList.filter fun entry => !entry.2.pinned := by
    unfold scanOrder at h
    simp only at h
    split at h
    · exact h
    · exact List.mem_reverse.mp h
  obtain ⟨hmem, hpin⟩ := List.mem_filter.mp hmem
  exact ⟨Std.ExtTreeMap.mem_toList_iff_getElem?_eq_some.mp hmem, by simpa using hpin⟩

/-- A scan that has nothing to look at has no frame but pinned ones. -/
theorem pinned_of_scanOrder {table : FrameTable} (h : table.scanOrder.head? = none) {f : FrameNum}
    {c : Frame} (hc : table.get? f = some c) : c.pinned = true := by
  by_contra hfree
  have hmem : (f, c) ∈ table.toList.filter fun entry => !entry.2.pinned :=
    List.mem_filter.mpr
      ⟨Std.ExtTreeMap.mem_toList_iff_getElem?_eq_some.mpr hc, by simpa using hfree⟩
  rw [List.head?_eq_none_iff] at h
  unfold scanOrder at h
  simp only at h
  split at h
  · rw [h] at hmem
    cases hmem
  · rw [List.reverse_eq_nil_iff.mp h] at hmem
    cases hmem

/-- The victim is resident and not pinned, and there is one unless all frames are pinned; the table
only turns its scan direction, and what every look at a frame keeps is kept. -/
theorem selectVictim_spec (hI : ∀ l s, I s → I (touched l s).2) (table : FrameTable) {s : σ}
    (hs : I s) :
    I (table.selectVictim touched s).2.2 ∧
      (table.selectVictim touched s).2.1.frames = table.frames ∧
      (∀ f, (table.selectVictim touched s).1 = some f →
        ∃ c, table.get? f = some c ∧ c.pinned = false) ∧
      ((table.selectVictim touched s).1 = none →
        ∀ f c, table.get? f = some c → c.pinned = true) := by
  obtain ⟨hkept, hfound⟩ := firstUntouched_spec hI table.scanOrder s hs
  unfold selectVictim
  simp only
  split
  · rename_i f s' hscan
    rw [hscan] at hkept hfound
    refine ⟨hkept, rfl, fun f' hf' => ?_, nofun⟩
    obtain ⟨c, hc⟩ := hfound f' hf'
    exact ⟨c, of_mem_scanOrder hc⟩
  · rename_i s' hscan
    rw [hscan] at hkept
    obtain ⟨hkept', hfound'⟩ := firstUntouched_spec hI table.scanOrder s' hkept
    split
    · rename_i f s'' hscan'
      rw [hscan'] at hkept' hfound'
      refine ⟨hkept', rfl, fun f' hf' => ?_, nofun⟩
      obtain ⟨c, hc⟩ := hfound' f' hf'
      exact ⟨c, of_mem_scanOrder hc⟩
    · rename_i s'' hscan'
      rw [hscan'] at hkept'
      refine ⟨hkept', rfl, fun f' hf' => ?_, fun hnone f' c hc => ?_⟩
      · obtain ⟨⟨f'', c⟩, hhead, rfl⟩ := Option.map_eq_some_iff.mp hf'
        exact ⟨c, of_mem_scanOrder (List.mem_of_head? hhead)⟩
      · exact pinned_of_scanOrder (Option.map_eq_none_iff.mp hnone) hc

end FrameTable

namespace Machine

variable {lax : Tolerance} {m m' : Machine} {hand pin : Option FrameNum} {o : Owner} {p : Page}
  {f : FrameNum}

/-- A victim was looked for: nothing but accessed bits, the direction of the scan and the journal have
changed. -/
structure Scanned (m m' : Machine) : Prop where
  rest : ∃ spaces upward journal, m' = { m with
    spaces, journal, resident := { m.resident with upward } }
  page : ∀ o, m'.page? o = m.page? o
  floor : ∀ id, m'.floorAt? id = m.floorAt? id
  mapped : ∀ o, (m'.entryAt? o).map Entry.frame = (m.entryAt? o).map Entry.frame
  flags : ∀ o flag, flag ≠ .accessed → m'.hasFlag o flag = m.hasFlag o flag
  log : Event.placings m'.journal = Event.placings m.journal

namespace Scanned

theorem refl (m : Machine) : Scanned m m :=
  ⟨⟨_, _, _, rfl⟩, fun _ => rfl, fun _ => rfl, fun _ => rfl, fun _ _ _ => rfl, rfl⟩

theorem trans {m'' : Machine} (h : Scanned m m') (h' : Scanned m' m'') : Scanned m m'' := by
  refine ⟨?_, fun o => (h'.page o).trans (h.page o), fun id => (h'.floor id).trans (h.floor id),
    fun o => (h'.mapped o).trans (h.mapped o),
    fun o flag hflag => (h'.flags o flag hflag).trans (h.flags o flag hflag), h'.log.trans h.log⟩
  obtain ⟨_, _, _, rfl⟩ := h.rest
  obtain ⟨_, _, _, rfl⟩ := h'.rest
  exact ⟨_, _, _, rfl⟩

theorem counters (h : Scanned m m') : m'.counters = m.counters := by
  obtain ⟨_, _, _, rfl⟩ := h.rest
  rfl

/-- **Looking for a victim** shows in no ledger. -/
theorem idle (h : Scanned m m') : Idle m m' := by
  have hgrant : ∀ o, (m'.entryAt? o).map Entry.grant = (m.entryAt? o).map Entry.grant := fun o => by
    have hmapped := h.mapped o
    have hwritable := h.flags o .writable nofun
    have hdirty := h.flags o .dirty nofun
    unfold hasFlag at hwritable hdirty
    cases he : m.entryAt? o <;> cases he' : m'.entryAt? o <;> simp_all [Entry.grant]
  have hpage := h.page
  have hfloor := h.floor
  have hlog := h.log
  obtain ⟨_, _, _, rfl⟩ := h.rest
  exact ⟨hpage, hgrant, hfloor, rfl, fun _ => rfl, rfl, rfl, rfl, rfl, rfl, hlog, Nat.le_refl _⟩

theorem note (m : Machine) (event : Event) (h : event.isPlacing = false) :
    Scanned m { m with journal := m.journal.push event } :=
  { refl m with
    rest := ⟨m.spaces, m.resident.upward, _, rfl⟩
    page := fun _ => rfl, floor := fun _ => rfl, mapped := fun _ => rfl, flags := fun _ _ _ => rfl
    log := by simp [Event.placings_push, h] }

end Scanned

/-- Setting an accessed bit changes no other bit. -/
theorem scanned_putAccessed (m : Machine) (o : Owner) (value : Bool) :
    Scanned m (m.modifyTable o.space (·.put o.vpn .accessed value)) := by
  have hput : ∀ x, _ = _ := fun x => entryAt?_put m o x (show Flag.accessed ≠ .valid by decide) value
  refine ⟨⟨_, _, _, rfl⟩, fun x => page?_modifyTable m o.space x _,
    fun id => floorAt?_modifyTable m o.space id _, fun x => ?_, fun x flag hflag => ?_, rfl⟩
  · rw [hput]
    split
    · cases m.entryAt? x <;> simp
    · rfl
  · unfold hasFlag
    rw [hput]
    split
    · cases m.entryAt? x <;> simp [hflag]
    · rfl

/-- Asking for and clearing accessed bits changes no other bit. -/
theorem scanned_testAndClear (m : Machine) (l : List Owner) (spaces : Table AddressSpace)
    (h : Scanned m { m with spaces }) : Scanned m { m with spaces := (testAndClear l spaces).2 } := by
  show Scanned m { m with spaces := l.foldl clearAccessed spaces }
  induction l generalizing spaces with
  | nil => exact h
  | cons o l ih => exact ih _ (h.trans (scanned_putAccessed { m with spaces } o false))

/-- **Choosing a victim** changes nothing but accessed bits and the direction of the scan. The victim is
resident and not pinned; there is one unless all frames are pinned. -/
theorem meets_selectVictim {F : Violation → Machine → Prop} (m : Machine) :
    Action.Meets F selectVictim m
      (fun f m' => Scanned m m' ∧ ∃ c, m.resident.get? f = some c ∧ c.pinned = false)
      (fun cause m' => Scanned m m' ∧ cause = .outOfFrames ∧
        ∀ f c, m.resident.get? f = some c → c.pinned = true) := by
  obtain ⟨hscanned, hframes, hfound, hnone⟩ := FrameTable.selectVictim_spec
    (I := fun spaces => Scanned m { m with spaces }) (scanned_testAndClear m) m.resident
    (Scanned.refl m)
  have hresident : (m.resident.selectVictim testAndClear m.spaces).2.1 =
      { m.resident with upward := (m.resident.selectVictim testAndClear m.spaces).2.1.upward } :=
    congrArg (FrameTable.mk · _) hframes
  have hstate : Scanned m { m with
      resident := (m.resident.selectVictim testAndClear m.spaces).2.1
      spaces := (m.resident.selectVictim testAndClear m.spaces).2.2 } :=
    { hscanned with rest := ⟨_, _, m.journal, by rw [← hresident]⟩ }
  unfold selectVictim
  simp only [Action.meets_bind, Action.meets_get, Action.meets_set]
  split
  · rename_i f hf
    simp only [Machine.note, Action.meets_bind, Action.meets_modify, Action.meets_pure]
    exact ⟨hstate.trans (.note _ _ rfl), hfound f hf⟩
  · exact ⟨hstate, rfl, hnone ‹_›⟩

end Machine

/-! ## Moving a frame out -/

/-- What storing the frame of a page did to the backing stores. -/
structure Backing.Stored (b b' : Backing) (p : Page) (frame : PageBytes) (dirty : Bool)
    (evicted : Evicted) : Prop where
  slot : (∃ a, p.content = .anon a) ↔ evicted.slot.isSome
  written : evicted.writtenBack = true ↔ dirty = true ∧ ∃ w, p.content = .file w
  free : ∀ s, evicted.slot = some s → b.swap.occupied s = false
  swap : b'.swap.Valid
  occupied : ∀ s, b'.swap.occupied s = (decide (evicted.slot = some s) || b.swap.occupied s)
  content : ∀ s, b'.swap.content s =
    if evicted.slot = some s then frame else b.swap.content s
  files : b.files.Extends b'.files
  file : b'.files.file =
    if dirty then (p.located b.files).flushed frame b.files.file else b.files.file
  taken : dirty = true → (p.located b.files).TakenBy b.files.file frame
  initializers : b'.initializers = b.initializers

/-- The backing stores with other files, which extend what they were. -/
def Backing.Extended (b b' : Backing) : Prop :=
  ∃ files, b.files.Extends files ∧ b' = { b with files }

namespace Page

variable {lax : Tolerance} {p : Page} {b : Backing}

/-- An anonymous page is stored in a slot that was free. -/
theorem stored_of_anon {a : AnonPage} {frame : PageBytes} {s : Nat} {swap : Swap}
    (hc : p.content = .anon a) (hswap : b.swap.Valid) (hs : b.swap.store frame = .ok (s, swap))
    (dirty : Bool) :
    b.Stored { b with swap } p frame dirty { slot := some s, writtenBack := false } := by
  obtain ⟨hvalid, hfree, hocc, hself, hother⟩ := hswap.store hs
  constructor
  case slot => exact ⟨fun _ => rfl, fun _ => ⟨a, hc⟩⟩
  case written => simp [hc]
  case free =>
    intro t ht
    rw [← Option.some.inj ht]
    exact hfree
  case swap => exact hvalid
  case occupied =>
    intro t
    rw [hocc t]
    simp [eq_comm]
  case content =>
    intro t
    by_cases ht : t = s
    · simp [ht, hself]
    · simp [hother t ht, Ne.symm ht]
  case files => exact .refl _
  case file => simp [flushed, located, Content.located, hc]
  case taken =>
    intro _ w hw
    simp [located, Content.located, hc] at hw
  case initializers => rfl

/-- A file page is stored in its file if it is dirty. -/
theorem stored_of_file {w : FileWindow} {frame : PageBytes} {files : FileStore} {dirty : Bool}
    (hc : p.content = .file w) (hswap : b.swap.Valid) (hext : b.files.Extends files)
    (htaken : dirty = true → w.TakenBy (b.files.fileOf w.handle) frame)
    (hfile : ∀ i, files.file i = if dirty ∧ i = (b.files.handle w.handle).file
      then ((b.files.file i).writeAt w.offset (frame.slice 0 w.readBytes)).2
      else b.files.file i) :
    b.Stored { b with files } p frame dirty { slot := none, writtenBack := dirty } := by
  constructor
  case slot => simp [hc]
  case written => simp [hc]
  case free => exact fun s hs => by cases hs
  case swap => exact hswap
  case occupied => intro s; simp
  case content => intro s; simp
  case files => exact hext
  case file =>
    funext i
    rw [hfile i]
    cases dirty <;> simp [flushed, located, Content.located, FileWindow.located, hc]
  case taken =>
    intro hdirty w' hw'
    simp only [located, Content.located, hc] at hw'
    rw [← Content.file.inj hw']
    exact htaken hdirty
  case initializers => rfl

/-- **Storing a page** is refused only when all slots are occupied, and then changes nothing. Only
files have changed if it breaks off. -/
theorem meets_store (hloaded : ∀ t g, p.content ≠ .uninit t g) (hswap : b.swap.Valid)
    (husable : ∀ w, p.window? = some w → w.Usable lax b.files) (frame : PageBytes)
    (dirty : Bool) :
    Action.Meets
      (fun v b' => Overrun lax (∀ w, p.window? = some w → w.readBytes ≤ pageSize) v ∧ b.Extended b')
      (p.store frame dirty) b
      (fun r b' => r.1 = p.markEvicted r.2 ∧ b.Stored b' p frame dirty r.2)
      (fun cause b' => cause = .outOfSwap ∧ b.swap.Full ∧ b' = b) := by
  unfold store
  split
  · rename_i t g hc
    exact absurd hc (hloaded t g)
  · rename_i a hc
    simp only [Action.meets_bind, Action.meets_get, Action.meets_permit, Action.meets_modify,
      Action.meets_pure]
    refine ⟨fun r hr => ?_, fun cause hr => ?_⟩
    · obtain ⟨a', s, swap⟩ := r
      unfold AnonPage.store at hr
      split at hr
      · rename_i s' swap' hs
        obtain ⟨rfl, rfl, rfl⟩ : _ ∧ _ ∧ _ := by simpa using hr
        exact ⟨by simp [markEvicted, hc], stored_of_anon hc hswap hs dirty⟩
      · cases hr
    · unfold AnonPage.store at hr
      split at hr
      · cases hr
      · rename_i c hs
        rw [← Except.error.inj hr]
        exact ⟨(Swap.store_error hs).1, (Swap.store_error hs).2, trivial⟩
  · rename_i w hc
    simp only [Backing.onFiles, Action.meets_bind, Action.meets_within, Action.meets_pure]
    have hw : p.window? = some w := by rw [window?, hc]; rfl
    refine ((FileWindow.meets_pageOut (husable w hw) frame dirty).mono (fun written files h => ?_)
      fun _ _ h => h).relax fun v files h => ⟨h.1.mono fun hfits => hfits w hw, files, h.2, rfl⟩
    obtain ⟨rfl, htaken, hext, hfile⟩ := h
    exact ⟨by simp [markEvicted, hc], stored_of_file hc hswap hext htaken hfile⟩

/-- Detaching moves a page where the ledger has it. -/
theorem located_markEvicted {p : Page} {ev : Evicted} (files : FileStore)
    (hslot : (∃ a, p.content = .anon a) ↔ ev.slot.isSome) :
    (p.markEvicted ev).located files = (p.located files).evictedTo ev.slot p.group := by
  have hcontent : (p.markEvicted ev).content = p.content.putSlot ev.slot := by
    unfold markEvicted
    cases hc : p.content with
    | anon a =>
      obtain ⟨s, hs⟩ := Option.isSome_iff_exists.mp (hslot.mp ⟨a, hc⟩)
      simp [hs, Content.putSlot]
    | uninit t g => simp [Content.putSlot]
    | file w => simp [Content.putSlot]
  have hrest : p.markEvicted ev = { p with frame := none, content := p.content.putSlot ev.slot } := by
    rw [← hcontent]
    unfold markEvicted
    split <;> rfl
  rw [hrest]
  simp [located, evictedTo, Content.located_putSlot]

/-- Marking a page evicted twice is marking it once. -/
theorem markEvicted_markEvicted (p : Page) (ev : Evicted) :
    (p.markEvicted ev).markEvicted ev = p.markEvicted ev := by
  unfold markEvicted
  cases p.content <;> cases ev.slot <;> rfl

/-- A page that was loaded counts as evicted once its frame is taken away. -/
theorem state_markEvicted {p : Page} (hloaded : ∀ t g, p.content ≠ .uninit t g) (ev : Evicted)
    (group : Option Nat) : ({ p.markEvicted ev with group } : Page).state = .evicted := by
  unfold markEvicted state
  cases hc : p.content with
  | uninit t g => exact absurd hc (hloaded t g)
  | anon a => cases ev.slot <;> simp
  | file w => simp

/-- Whether a page fits does not depend on the handle it uses. -/
theorem fits_located {initial : Nat → Option Bytes} {files : FileStore} {p : Page} :
    (p.located files).Fits initial ↔ p.Fits initial := by
  constructor
  · intro h
    refine ⟨fun {w} hw => ?_, fun {t n bytes} hc hn => ?_⟩
    · exact h.window (w := w.located files) (by rw [window?_located, hw]; rfl)
    · exact h.content (t := t) (n := n) (by rw [located, hc]; rfl) hn
  · intro h
    refine ⟨fun {w} hw => ?_, fun {t n bytes} hc hn => ?_⟩
    · rw [window?_located] at hw
      obtain ⟨w', hw', rfl⟩ := Option.map_eq_some_iff.mp hw
      exact h.window (w := w') hw'
    · obtain ⟨g, hc, hg⟩ := Content.located_eq_uninit files _ hc
      obtain rfl := (hg n).mp rfl
      exact h.content hc hn

theorem window?_markEvicted {p : Page} {ev : Evicted} : (p.markEvicted ev).window? = p.window? := by
  unfold markEvicted window?
  split
  · rename_i hc _
    rw [hc]
    rfl
  · rfl

end Page

namespace Machine

variable {lax : Tolerance} {m m' : Machine} {hand pin : Option FrameNum} {o leader : Owner}
  {p : Page} {f : FrameNum} {c : Frame} {dirty : Bool} {ev : Evicted} {gid : Nat} {others : List Owner}

/-- What moving a frame out did to the machine: its leader is evicted, its other owners are not
yet. -/
structure MovedOut (m m' : Machine) (leader : Owner) (p : Page) (frame : PageBytes) (dirty : Bool)
    (ev : Evicted) : Prop where
  rest : ∃ spaces backing journal, m' = { m with spaces, backing, journal }
  page : ∀ x, m'.page? x = if x = leader then some (p.markEvicted ev) else m.page? x
  entry : ∀ x, m'.entryAt? x = m.entryAt? x
  floor : ∀ id, m'.floorAt? id = m.floorAt? id
  stored : m.backing.Stored m'.backing p frame dirty ev
  log : Event.placings m'.journal = Event.placings m.journal

/-- The machine with other files, which extend what they were. -/
def Extended (m m' : Machine) : Prop :=
  ∃ b, m.backing.Extended b ∧ m' = { m with backing := b }

theorem meets_moveOut (hm : Sound lax m hand pin) (hp : m.page? leader = some p)
    (hframe : p.frame = some f) {frame : PageBytes} (hbytes : m.frames.bytes? f = some frame)
    (dirty : Bool) :
    Action.Meets (fun v m' => Overrun lax (m.ledger hand pin).Fitted v ∧ m.Extended m')
      (moveOut leader f dirty) m
      (fun ev m' => MovedOut m m' leader p frame dirty ev)
      (fun cause m' => cause = .outOfSwap ∧ m.backing.swap.Full ∧ m' = m) := by
  have hsmall : (m.ledger hand pin).Fitted → ∀ w, p.window? = some w → w.readBytes ≤ pageSize :=
    fun hfitted w hw => (Page.fits_located.mp (hfitted leader f
      ((frame_ledger_of_page? hp).trans hframe) _ (page_ledger_of_page? hp))).window hw
  have hstore : Action.Meets
      (fun v m' => Overrun lax (m.ledger hand pin).Fitted v ∧ m.Extended m')
      (onBacking (p.store frame dirty)) m
      (fun r m' => r.1 = p.markEvicted r.2 ∧
        ∃ b, m' = { m with backing := b } ∧ m.backing.Stored b p frame dirty r.2)
      (fun cause m' => cause = .outOfSwap ∧ m.backing.swap.Full ∧ m' = m) := by
    unfold onBacking
    rw [Action.meets_within]
    exact ((Page.meets_store ((hm.shaped hp).content_ne_uninit hframe) hm.kept.swap
      (fun w hw => hm.kept.windows hp hw) frame dirty).mono
      (fun r b h => ⟨h.1, b, rfl, h.2⟩) fun cause b h => ⟨h.1, h.2.1, by rw [h.2.2]⟩).relax
      fun v b h => ⟨h.1.mono hsmall, b, h.2, rfl⟩
  unfold moveOut
  rw [Action.meets_bind_of_ok (ownedPage_eq hp), Action.meets_bind_of_ok (frameBytes_eq hbytes)]
  refine hstore.bind ?_ fun _ _ h => h
  rintro ⟨p', ev⟩ m' ⟨hp', b, rfl, hstored⟩
  obtain rfl : p' = p.markEvicted ev := hp'
  have hmoved : ∀ journal, Event.placings journal = Event.placings m.journal →
      MovedOut m { ({ m with backing := b } : Machine).modifyPage leader
        (fun _ => p.markEvicted ev) with journal } leader p frame dirty ev := fun journal hlog => by
    refine ⟨⟨_, _, _, rfl⟩, fun x => ?_, fun x => ?_, fun id => ?_, hstored, hlog⟩
    · refine (page?_modifyPage { m with backing := b } leader x _).trans ?_
      by_cases hx : x = leader
      · subst hx
        rw [if_pos rfl, if_pos rfl, show ({ m with backing := b } : Machine).page? x = some p from hp]
        rfl
      · rw [if_neg (Ne.symm hx), if_neg hx]
        rfl
    · exact entryAt?_modifyPage { m with backing := b } leader x _
    · exact floorAt?_modifyPage { m with backing := b } id leader _
  simp only [Action.meets_bind, Action.meets_modify]
  split
  · simp only [note, Action.meets_bind, Action.meets_modify, Action.meets_pure]
    exact hmoved _ ((Event.placings_push ..).trans (List.append_nil _))
  · simp only [Action.meets_pure]
    exact hmoved _ rfl

theorem meets_detach {F : Violation → Machine → Prop} (hp : m.page? o = some p)
    {R : Refusal → Machine → Prop} :
    Action.Meets F (detach ev o) m
      (fun _ m' => Respaced m m' [o] (·.markEvicted ev) fun _ _ => none) R := by
  unfold detach
  rw [Action.meets_bind_of_ok (ownedPage_eq hp), Action.meets_modify]
  exact respaced_unmap hp (·.markEvicted ev)

/-- What forming a group did to the machine. -/
structure Grouped (m m' : Machine) (l : List Owner) (slot : Option Nat) (gid : Nat) : Prop where
  rest : ∃ spaces groups, m' = { m with spaces, groups, groupIds := m.groupIds.take.2 }
  page : ∀ x, m'.page? x =
    if x ∈ l then (m.page? x).map fun p => { p with group := some gid } else m.page? x
  entry : ∀ x, m'.entryAt? x = m.entryAt? x
  floor : ∀ id, m'.floorAt? id = m.floorAt? id
  groups : ∀ g, m'.groups[g]? = if g = gid then some ⟨l, slot⟩ else m.groups[g]?

theorem meets_formGroup {F : Violation → Machine → Prop} {l : List Owner} (hl : l.Nodup)
    (hpages : ∀ o ∈ l, ∃ p, m.page? o = some p) (slot : Option Nat) {R : Refusal → Machine → Prop} :
    Action.Meets F (formGroup l slot) m
      (fun _ m' => Grouped m m' l slot m.groupIds.take.1) R := by
  unfold formGroup
  simp only [Action.meets_bind, Action.meets_get, Action.meets_set]
  have hloop : Action.Meets F
      (l.forM fun owner => do
        let page ← ownedPage owner
        modify (·.modifyPage owner fun _ => { page with group := some m.groupIds.take.1 }))
      { m with groupIds := m.groupIds.take.2 }
      (fun _ m' => Respaced { m with groupIds := m.groupIds.take.2 } m' l
        (fun p => { p with group := some m.groupIds.take.1 }) fun _ e => e) R := by
    refine Respaced.forM hl fun o ho s hs _ => ?_
    obtain ⟨p, hp⟩ := hpages o ho
    have hp' : s.page? o = some p := hs.trans hp
    rw [Action.meets_bind_of_ok (ownedPage_eq hp'), Action.meets_modify]
    exact respaced_modifyPage hp' fun p => { p with group := some m.groupIds.take.1 }
  refine hloop.mono (fun _ m' h => ?_) fun _ _ h => h
  rw [Action.meets_modify]
  obtain ⟨spaces, rfl⟩ := h.rest
  refine ⟨⟨spaces, _, rfl⟩, h.page, fun x => (h.entry x).trans (ite_self _), h.floor, fun g => ?_⟩
  show (m.groups.insert _ _)[g]? = _
  rw [Std.ExtTreeMap.getElem?_insert]
  simp only [Nat.compare_eq_eq]
  by_cases hg : g = m.groupIds.take.1
  · rw [if_pos hg.symm, if_pos hg]
  · rw [if_neg (Ne.symm hg), if_neg hg]

/-- What evicting a frame did to the machine. -/
structure EvictedFrom (m m' : Machine) (f : FrameNum) (l : List Owner) (p : Page)
    (frame : PageBytes) (dirty : Bool) (ev : Evicted) : Prop where
  config : m'.config = m.config
  page : ∀ x, m'.page? x =
    if x ∈ l then (m.page? x).map fun q => { q.markEvicted ev with
      group := if 1 < l.length then some m.groupIds.take.1 else q.group }
    else m.page? x
  entry : ∀ x, m'.entryAt? x = if x ∈ l then none else m.entryAt? x
  floor : ∀ id, m'.floorAt? id = m.floorAt? id
  crew : ∀ x, m'.resident.get? x = if x = f then none else m.resident.get? x
  frames : m'.frames = m.frames
  groups : ∀ g, m'.groups[g]? =
    if 1 < l.length ∧ g = m.groupIds.take.1 then some ⟨l, ev.slot⟩ else m.groups[g]?
  groupIds : m'.groupIds = if 1 < l.length then m.groupIds.take.2 else m.groupIds
  spaceIds : m'.spaceIds = m.spaceIds
  stored : m.backing.Stored m'.backing p frame dirty ev
  counters : m'.counters = { m.counters with
    evictions := m.counters.evictions + 1
    swapOuts := if ev.slot.isSome then m.counters.swapOuts + 1 else m.counters.swapOuts
    writeBacks := if ev.writtenBack then m.counters.writeBacks + 1 else m.counters.writeBacks }
  log : Event.placings m'.journal = Event.placings m.journal
  numbers : m'.nextMapping = m.nextMapping

/-- What unmapping all owners of a frame did to the machine: they are evicted, but in no group yet. -/
structure Detached (m m' : Machine) (l : List Owner) (p : Page) (frame : PageBytes) (dirty : Bool)
    (ev : Evicted) : Prop where
  rest : ∃ spaces backing journal, m' = { m with spaces, backing, journal }
  page : ∀ x, m'.page? x = if x ∈ l then (m.page? x).map (·.markEvicted ev) else m.page? x
  entry : ∀ x, m'.entryAt? x = if x ∈ l then none else m.entryAt? x
  floor : ∀ id, m'.floorAt? id = m.floorAt? id
  stored : m.backing.Stored m'.backing p frame dirty ev
  log : Event.placings m'.journal = Event.placings m.journal

section

variable {F : Violation → Machine → Prop} {R : Refusal → Machine → Prop} {l : List Owner}
  {frame : PageBytes}

/-- The leader is evicted once more with the others, which changes nothing. -/
theorem MovedOut.meets_detach (h : MovedOut m m' leader p frame dirty ev)
    (hp : m.page? leader = some p) (hleader : leader ∈ l) (hnodup : l.Nodup)
    (hpages : ∀ o ∈ l, ∃ q, m.page? o = some q) :
    Action.Meets F (l.forM (detach ev)) m'
      (fun _ m₂ => Detached m m₂ l p frame dirty ev) R := by
  have hpages' : ∀ o ∈ l, ∃ q, m'.page? o = some q := fun o ho => by
    rw [h.page]
    split
    · exact ⟨_, rfl⟩
    · exact hpages o ho
  have hloop : Action.Meets F (l.forM (detach ev)) m'
      (fun _ m₂ => Respaced m' m₂ l (·.markEvicted ev) fun _ _ => none) R :=
    Respaced.forM hnodup fun o ho s hs _ => by
      obtain ⟨q, hq⟩ := hpages' o ho
      exact Machine.meets_detach (hs.trans hq)
  refine hloop.mono (fun _ m₂ h₂ => ?_) fun _ _ h => h
  have hpage : ∀ x, m₂.page? x =
      if x ∈ l then (m.page? x).map (·.markEvicted ev) else m.page? x := fun x => by
    rw [h₂.page, h.page]
    by_cases hx : x = leader
    · subst hx
      simp [hp, hleader, Page.markEvicted_markEvicted]
    · simp [hx]
  have hentry : ∀ x, m₂.entryAt? x = if x ∈ l then none else m.entryAt? x := fun x => by
    rw [h₂.entry, h.entry]
  have hfloor : ∀ id, m₂.floorAt? id = m.floorAt? id := fun id => (h₂.floor id).trans (h.floor id)
  have hstored := h.stored
  have hlog := h.log
  obtain ⟨spaces, backing, journal, rfl⟩ := h.rest
  obtain ⟨spaces', rfl⟩ := h₂.rest
  exact ⟨⟨_, _, _, rfl⟩, hpage, hentry, hfloor, hstored, hlog⟩

/-- The machine after an eviction was counted and noted. -/
def noteEvicted (m : Machine) (f : FrameNum) (n : Nat) (ev : Evicted) : Machine :=
  { m with
    counters := { m.counters with
      evictions := m.counters.evictions + 1
      swapOuts := if ev.slot.isSome then m.counters.swapOuts + 1 else m.counters.swapOuts
      writeBacks := if ev.writtenBack then m.counters.writeBacks + 1 else m.counters.writeBacks }
    journal := m.journal.push (.evicted f n ev.slot) }

/-- A single owner is in no group. -/
theorem Detached.evictedFrom (h : Detached m m' l p frame dirty ev) (hone : ¬1 < l.length) :
    EvictedFrom m ({ m' with resident := m'.resident.erase f }.noteEvicted f l.length ev) f l p frame
      dirty ev := by
  have hpage := h.page
  have hentry := h.entry
  have hfloor := h.floor
  have hstored := h.stored
  have hlog := h.log
  obtain ⟨spaces, backing, journal, rfl⟩ := h.rest
  refine ⟨rfl, fun x => (hpage x).trans ?_, hentry, hfloor, fun x => FrameTable.get?_erase _ _ _, rfl,
    fun g => ?_, (if_neg hone).symm, rfl, hstored, rfl, ?_, rfl⟩
  · split
    · cases m.page? x with
      | none => rfl
      | some q =>
        simp only [Option.map_some, Option.some.injEq]
        unfold Page.markEvicted
        split <;> rfl
    · rfl
  · simp [noteEvicted, hone]
  · simpa [noteEvicted, Event.placings_push, Event.isPlacing] using hlog

/-- Several owners form a group under the next number. -/
theorem Detached.evictedFrom_of_grouped {m₃ : Machine} (h : Detached m m' l p frame dirty ev)
    (h₃ : Grouped { m' with resident := m'.resident.erase f } m₃ l ev.slot m'.groupIds.take.1)
    (hmany : 1 < l.length) : EvictedFrom m (m₃.noteEvicted f l.length ev) f l p frame dirty ev := by
  have hpage := h.page
  have hentry := h.entry
  have hfloor := h.floor
  have hstored := h.stored
  have hlog := h.log
  obtain ⟨spaces, backing, journal, rfl⟩ := h.rest
  obtain ⟨spaces', groups, rfl⟩ := h₃.rest
  refine ⟨rfl, fun x => (h₃.page x).trans ?_, fun x => (h₃.entry x).trans (hentry x),
    fun id => (h₃.floor id).trans (hfloor id), fun x => ?_, rfl,
    fun g => (h₃.groups g).trans ?_, (if_pos hmany).symm, rfl, hstored, rfl, ?_, rfl⟩
  · by_cases hxl : x ∈ l
    · rw [if_pos hxl, if_pos hxl]
      refine (congrArg (Option.map _) ((hpage x).trans (if_pos hxl))).trans ?_
      rw [Option.map_map]
      simp only [if_pos hmany]
      rfl
    · rw [if_neg hxl, if_neg hxl]
      exact (hpage x).trans (if_neg hxl)
  · exact FrameTable.get?_erase _ _ _
  · simp [hmany]
  · simpa [noteEvicted, Event.placings_push, Event.isPlacing] using hlog

end

theorem meets_evict_machine (hm : Sound lax m none pin) (hc : m.resident.get? f = some c)
    (hl : c.owners = leader :: others) (hp : m.page? leader = some p) {frame : PageBytes}
    (hbytes : m.frames.bytes? f = some frame) :
    Action.Meets (fun v m' => Overrun lax (m.ledger none pin).Fitted v ∧ m.Extended m') (evict f) m
      (fun _ m' => ∃ ev, EvictedFrom m m' f c.owners p frame (c.owners.any (m.hasFlag · .dirty)) ev)
      (fun cause m' => cause = .outOfSwap ∧ m.backing.swap.Full ∧ m' = m) := by
  have hnodup : c.owners.Nodup := hm.books.crews.nodup (owners_ledger_of_get? hc)
  have hpages : ∀ o ∈ c.owners, ∃ q, m.page? o = some q ∧ q.frame = some f := fun o ho =>
    Option.bind_eq_some_iff.mp ((hm.mem_owners hc o).mp ho)
  have hframe : p.frame = some f := by
    obtain ⟨q, hq, hqf⟩ := hpages leader (by rw [hl]; exact List.mem_cons_self)
    rw [hp] at hq
    rwa [Option.some.inj hq]
  unfold evict
  simp only [Action.meets_bind, Action.meets_get]
  rw [Action.meets_require]
  refine ⟨fun c' hc' => ?_, fun hnone => ?_⟩
  · obtain rfl : c = c' := Option.some.inj (hc.symm.trans hc')
    rw [hl] at hnodup hpages ⊢
    simp only [Action.meets_bind]
    refine (meets_moveOut hm hp hframe hbytes _).mono (fun ev m₁ h₁ => ?_) fun _ _ h => h
    have hleader : leader ∈ leader :: others := List.mem_cons_self
    generalize leader :: others = l at *
    have hpages₁ : ∀ o ∈ l, ∃ q, m.page? o = some q := fun o ho => (hpages o ho).imp fun _ h => h.1
    refine (h₁.meets_detach hp hleader hnodup hpages₁).mono (fun _ m₂ h₂ => ?_) fun _ _ h => h
    rw [Action.meets_modify, Action.meets_ite]
    refine ⟨fun hmany => ?_, fun hone => ?_⟩
    · rw [Action.meets_bind]
      refine (meets_formGroup hnodup (fun o ho => ?_) ev.slot).mono (fun _ m₃ h₃ => ?_)
        fun _ _ h => h
      · obtain ⟨q, hq⟩ := hpages₁ o ho
        exact ⟨q.markEvicted ev, (h₂.page o).trans (by rw [if_pos ho, hq]; rfl)⟩
      · simp only [count, note, Action.meets_bind, Action.meets_modify]
        exact ⟨ev, h₂.evictedFrom_of_grouped h₃ hmany⟩
    · simp only [count, note, Action.meets_bind, Action.meets_modify]
      exact ⟨ev, h₂.evictedFrom hone⟩
  · rw [hc] at hnone
    cases hnone

/-- What the ledger of the machine says of an evicted frame. -/
theorem EvictedFrom.ledger (h : EvictedFrom m m' f c.owners p frame dirty ev) (hk : m.Kept lax)
    (hall : ∀ x ∈ c.owners, (m.ledger none pin).page x = some (p.located m.backing.files))
    (hgroup : p.group = none) (hbytes : m.frames.bytes? f = some frame) :
    m'.ledger (some f) pin = (m.ledger none pin).evict f c.owners (p.located m.backing.files)
      ev.slot m.groupIds.take.1
      (if dirty then (m.ledger none pin).flush (p.located m.backing.files) f
        else (m.ledger none pin).file) := by
  apply Ledger.ext
  case config => exact h.config
  case page =>
    funext x
    show (m'.page? x).map (Page.located m'.backing.files) = _
    have hstay : _ = (m.ledger none pin).page x := hk.page_ledger_of_extends h.stored.files x
    rw [h.page]
    by_cases hx : x ∈ c.owners
    · obtain ⟨q, hq, hqp⟩ := Option.map_eq_some_iff.mp (hall x hx)
      rw [hq, hall x hx] at hstay
      have hslot : (∃ a, q.content = .anon a) ↔ ev.slot.isSome := by
        rw [← h.stored.slot]
        have hc : q.content.located m.backing.files = p.content.located m.backing.files :=
          congrArg Page.content hqp
        exact exists_congr fun a => by
          rw [← Content.located_eq_anon m.backing.files q.content, hc, Content.located_eq_anon]
      rw [if_pos hx, hq, ← Option.some.inj hstay]
      simp only [Option.map_some, Ledger.evict, if_pos hx, Option.some.injEq]
      have hqgroup : q.group = none := (congrArg Page.group hqp).trans hgroup
      show ({ (q.markEvicted ev).located m'.backing.files with
        group := if 1 < c.owners.length then some m.groupIds.take.1 else q.group } : Page) = _
      rw [Page.located_markEvicted _ hslot, hqgroup]
      rfl
    · rw [if_neg hx, hstay]
      simp only [Ledger.evict, if_neg hx]
  case grant =>
    funext x
    show (m'.entryAt? x).map Entry.grant = _
    rw [h.entry]
    simp only [Ledger.evict]
    split <;> rfl
  case crew => exact funext h.crew
  case team => exact funext h.groups
  case held =>
    show m'.frames.Held = m.frames.Held
    rw [h.frames]
  case bytes =>
    show (fun x => (m'.frames.bytes? x).getD .zero) = fun x => (m.frames.bytes? x).getD .zero
    rw [h.frames]
  case occupied => exact funext h.stored.occupied
  case swapped =>
    funext s
    refine (h.stored.content s).trans ?_
    simp only [Ledger.evict, bytes_ledger hbytes]
    rfl
  case file =>
    show m'.backing.files.file = _
    rw [h.stored.file]
    simp only [Ledger.evict, Ledger.flush, bytes_ledger hbytes]
    rfl
  case initial =>
    show (fun n => m'.backing.initializers[n]?.map Initializer.content) = _
    rw [h.stored.initializers]
    rfl
  case floor => exact funext h.floor
  case hand => rfl
  case pin => rfl
  case log => exact h.log

theorem EvictedFrom.kept {l : List Owner} {frame : PageBytes}
    (h : EvictedFrom m m' f l p frame dirty ev) (hk : m.Kept lax) : m'.Kept lax := by
  obtain ⟨hvalid, hfresh, hlive⟩ := hk.groupIds.take
  constructor
  case frames => exact h.frames ▸ hk.frames
  case fits => exact h.frames ▸ hk.fits
  case groupIds =>
    rw [h.groupIds]
    split
    · exact hvalid
    · exact hk.groupIds
  case groups =>
    intro g
    rw [h.groupIds, h.groups]
    by_cases hmany : 1 < l.length
    · rw [if_pos hmany, hlive, hk.groups]
      by_cases hg : g = m.groupIds.take.1 <;> simp [hmany, hg]
    · simp only [hmany, if_false, false_and]
      exact hk.groups g
  case spaceIds => exact h.spaceIds ▸ hk.spaceIds
  case spaces =>
    intro id
    rw [h.spaceIds, h.floor]
    exact hk.spaces id
  case floors => exact fun {id v} hv => hk.floors (h.floor id ▸ hv)
  case swap => exact h.stored.swap
  case windows =>
    intro x q w hx hw
    rw [h.page] at hx
    split at hx
    · obtain ⟨q', hq', rfl⟩ := Option.map_eq_some_iff.mp hx
      refine (hk.windows hq' ?_).extends h.stored.files
      exact (Page.window?_markEvicted).symm.trans hw
    · exact (hk.windows hx hw).extends h.stored.files
  case initializers =>
    rw [h.stored.initializers]
    exact hk.initializers
  case numbers => exact h.numbers ▸ hk.numbers

/-- Files may come to extend what they were. -/
theorem Sound.extended (hm : Sound lax m hand pin) (h : m.Extended m') : Sound lax m' hand pin := by
  obtain ⟨_, ⟨files, hext, rfl⟩, rfl⟩ := h
  refine ⟨?_, hm.kept.withFiles hext⟩
  have hledger : Machine.ledger { m with backing := { m.backing with files } } hand pin =
      { m.ledger hand pin with file := files.file } := by
    apply Ledger.ext
    case page =>
      have hstay : ∀ o, _ = (m.ledger hand pin).page o := hm.kept.page_ledger_of_extends hext
      exact funext hstay
    all_goals rfl
  rw [hledger]
  exact hm.books.withFile files.file

/-- **Evicting a frame.** It is refused only when all slots are occupied, and then changes nothing. If
it breaks off, the machine is in order nevertheless. -/
theorem meets_evict (hm : Sound lax m none pin) (hc : m.resident.get? f = some c)
    (hpin : c.pinned = false) :
    Action.Meets (fun v m' => Overrun lax (m.ledger none pin).Fitted v ∧ Sound lax m' none pin)
      (evict f) m
      (fun _ m' => (m'.Kept lax ∧ Ledger.Evicts (m.ledger none pin) f (m'.ledger (some f) pin)) ∧
        ∀ o, m.frameOf o ≠ some f → m'.page? o = m.page? o)
      (fun cause m' => cause = .outOfSwap ∧ m.backing.swap.Full ∧ m' = m) := by
  obtain ⟨frame, hbytes⟩ := hm.exists_bytes? (hm.held hc)
  obtain ⟨leader, others, hl⟩ :=
    List.exists_cons_of_ne_nil (hm.books.crewed (owners_ledger_of_get? hc))
  have hmem : leader ∈ c.owners := by rw [hl]; exact List.mem_cons_self
  obtain ⟨p, hp, hframe⟩ := Option.bind_eq_some_iff.mp ((hm.mem_owners hc leader).mp hmem)
  have hpage : (m.ledger none pin).page leader = _ := page_ledger_of_page? hp
  refine ((meets_evict_machine hm hc hl hp hbytes).mono (fun _ m' h => ?_) fun _ _ h => h).relax
    fun v m' h => ⟨h.1, hm.extended h.2⟩
  obtain ⟨ev, h⟩ := h
  refine ⟨⟨h.kept hm.kept, ?_⟩, fun o ho => ?_⟩
  swap
  · rw [h.page, if_neg]
    rwa [hm.mem_owners hc]
  rw [h.ledger hm.kept (fun x hx => hm.books.page_of_mem hc hmem hpage hx)
    ((hm.shaped hp).group_eq_none hframe) hbytes]
  have hdirty : (m.hasFlag · .dirty) = (m.ledger none pin).isDirty := funext fun o =>
    isDirty_ledger.symm
  rw [hdirty]
  refine .intro hc hmem hpage hpin rfl ?_ ?_ h.stored.free fun htaken => ?_
  · exact hm.nextGroup
  · rw [← h.stored.slot]
    exact exists_congr fun a => Content.located_eq_anon m.backing.files p.content
  · rw [bytes_ledger hbytes]
    exact h.stored.taken (hdirty ▸ htaken)

/-- Why a machine can give no frame: none is free, and none may be evicted or all slots are
occupied. -/
inductive Exhausted (m : Machine) : Refusal → Prop
  | frames (hfree : m.frames.free = 0)
      (hpinned : ∀ f c, m.resident.get? f = some c → c.pinned = true) : Exhausted m .outOfFrames
  | swap (hfree : m.frames.free = 0) (hvictim : ∃ f c, m.resident.get? f = some c)
      (hfull : m.backing.swap.Full) : Exhausted m .outOfSwap

/-- A frame may be evicted, and there is a slot for its content. -/
structure Roomy (m : Machine) : Prop where
  slot : ∃ s < m.backing.swap.capacity, m.backing.swap.occupied s = false
  frame : ∃ f, (m.resident.get? f).isSome

/-- A machine with room gives a frame. -/
theorem Roomy.not_exhausted {cause : Refusal} (h : m.Roomy) (hm : Sound lax m none none) :
    ¬Exhausted m cause := by
  intro hexhausted
  cases hexhausted with
  | frames _ hpinned =>
    obtain ⟨f, hf⟩ := h.frame
    obtain ⟨c, hc⟩ := Option.isSome_iff_exists.mp hf
    cases (hm.books.pinned hc).mp (hpinned f c hc)
  | swap _ _ hfull =>
    obtain ⟨s, hs, hfree⟩ := h.slot
    rw [hfull s hs] at hfree
    cases hfree

theorem Exhausted.isExhaustion {cause : Refusal} (h : Exhausted m cause) :
    cause.isExhaustion = true := by
  cases h <;> rfl

/-- **Acquiring a frame.** One is evicted only when none is free, and no page is changed but those in
it. It is refused for want of a frame or of a slot; then only accessed bits and the scan direction have
changed. If it breaks off, the machine is in order nevertheless. -/
theorem meets_acquireFrame (hm : Sound lax m none pin) :
    Action.Meets (fun v m' => Overrun lax (m.ledger none pin).Fitted v ∧ Sound lax m' none pin)
      acquireFrame m
      (fun f m' => (m'.Kept lax ∧ Ledger.Acquires (m.ledger none pin) f (m'.ledger (some f) pin)) ∧
        (m.frames.Held f ↔ m.frames.free = 0) ∧
        ∀ o, m.frameOf o = none → m'.page? o = m.page? o)
      (fun cause m' => Exhausted m cause ∧ Scanned m m') := by
  unfold acquireFrame
  simp only [Action.meets_bind, Action.meets_get]
  split
  · rename_i f frames ha
    obtain ⟨hvalid, hfree, hheld, htotal, hzero, hother⟩ := hm.kept.frames.alloc? ha
    simp only [Action.meets_bind, Action.meets_modify, Action.meets_pure]
    have hleft : m.frames.free ≠ 0 := fun hnone => by
      rw [← hm.kept.frames.alloc?_eq_none, ha] at hnone
      cases hnone
    refine ⟨⟨{ hm.kept with frames := hvalid, fits := htotal ▸ hm.kept.fits }, ?_⟩,
      iff_of_false hfree hleft, fun _ _ => rfl⟩
    have hledger : ({ m with frames } : Machine).ledger (some f) pin =
        (m.ledger none pin).take f := by
      apply Ledger.ext
      case held => exact funext fun x => propext (hheld x)
      case bytes =>
        funext x
        show (frames.bytes? x).getD .zero = if x = f then .zero else (m.frames.bytes? x).getD .zero
        split
        · rename_i hx
          rw [hx, hzero]
          rfl
        · rename_i hx
          rw [hother x hx]
      all_goals rfl
    rw [hledger]
    exact .fresh hfree rfl
  · rename_i ha
    have hfree := hm.kept.frames.alloc?_eq_none.mp ha
    simp only [Action.meets_bind]
    refine (meets_selectVictim m).mono (fun f m₁ h₁ => ?_) fun cause m₁ h₁ => ?_
    · obtain ⟨hscanned, c, hc, hpin⟩ := h₁
      have hidle := hscanned.idle
      have hledger : m₁.ledger none pin = m.ledger none pin := hidle.ledger
      refine ((meets_evict (hidle.sound hm) ((hidle.crew f).trans hc) hpin).relax
        fun _ _ h => ⟨hledger ▸ h.1, h.2⟩).mono (fun _ m₂ h₂ => ?_) fun cause m₂ h₂ => ?_
      · obtain ⟨⟨hkept, hevicts⟩, hpages⟩ := h₂
        rw [hledger] at hevicts
        have hsound : Sound lax m₂ (some f) pin := ⟨hevicts.sound hm.books, hkept⟩
        simp only [Action.meets_modify, Action.meets_pure]
        refine ⟨⟨hkept.setBytes f .zero, ?_⟩, iff_of_true (hm.held hc) hfree, fun o ho => ?_⟩
        · rw [ledger_setBytes (hkept.frames.lt_total hsound.held_of_hand)]
          exact .evicted hevicts
        · refine (hpages o ?_).trans (hscanned.page o)
          rw [frameOf, hscanned.page]
          exact fun h => by cases ho.symm.trans h
      · obtain ⟨rfl, hfull, rfl⟩ := h₂
        exact ⟨.swap hfree ⟨f, c, hc⟩ (hidle.backing ▸ hfull), hscanned⟩
    · obtain ⟨hscanned, rfl, hpinned⟩ := h₁
      exact ⟨.frames hfree hpinned, hscanned⟩

end Machine

end DemandPaging
