import DemandPaging.Proofs.Ledger.Layout
import DemandPaging.Proofs.Machine.Respacing
import DemandPaging.Proofs.Pools
import DemandPaging.Proofs.Storage.FileStore
import DemandPaging.Proofs.Storage.Swap

/-!
# The ledger a machine keeps

`Machine.ledger` reads the ledger off a machine, given the frame in the hand of the running
operation and the frame it pinned. `Kept` says that the pools, the swap space and the windows of the
pages are in order, which the ledger does not tell. Both together are what every operation starts
from and ends in (`Sound`).
-/

namespace DemandPaging

/-! ## Files in place of handles -/

/-- The window with the file in place of the handle. -/
def FileWindow.located (files : FileStore) (w : FileWindow) : FileWindow :=
  { w with handle := (files.handle w.handle).file }

/-- The origin with the file in place of the handle. -/
def Origin.located (files : FileStore) : Origin → Origin
  | .file w => .file (w.located files)
  | g => g

/-- The content with the file in place of the handle. -/
def Content.located (files : FileStore) : Content → Content
  | .uninit t (.file w) => .uninit t (.file (w.located files))
  | .file w => .file (w.located files)
  | c => c

namespace Content

variable (files : FileStore) (c : Content)

/-- Only the handle of a window says which file it is on. -/
theorem located_congr {files files' : FileStore} {c : Content}
    (h : ∀ w, c.window? = some w → (files'.handle w.handle).file = (files.handle w.handle).file) :
    c.located files' = c.located files := by
  unfold located
  split
  · rw [FileWindow.located, h _ rfl]
    rfl
  · rw [FileWindow.located, h _ rfl]
    rfl
  · rfl

theorem located_eq_anon {a : AnonPage} : c.located files = .anon a ↔ c = .anon a := by
  unfold located
  split <;> simp

theorem located_eq_uninit {t : PageType} {g : Origin} :
    c.located files = .uninit t g →
      ∃ g', c = .uninit t g' ∧ ∀ n, g = .custom n ↔ g' = .custom n := by
  unfold located
  split
  · rintro h
    obtain ⟨rfl, rfl⟩ := Content.uninit.inj h
    exact ⟨_, rfl, by simp⟩
  · nofun
  · rintro rfl
    exact ⟨g, rfl, fun n => Iff.rfl⟩

theorem located_putSlot (slot : Option Nat) :
    (c.putSlot slot).located files = (c.located files).putSlot slot := by
  cases c with
  | anon a => rfl
  | file w => rfl
  | uninit t g => cases g <;> rfl

theorem located_loaded : c.loaded.located files = (c.located files).loaded := by
  cases c with
  | anon a => rfl
  | file w => rfl
  | uninit t g => cases t <;> cases g <;> rfl

end Content

/-- The page with the file in place of the handle. -/
def Page.located (files : FileStore) (p : Page) : Page :=
  { p with content := p.content.located files }

namespace Page

variable (files : FileStore) (p : Page)

theorem located_fresh (vpn : PageNum) (writable : Bool) (type : PageType) (origin : Origin) :
    (fresh vpn writable type origin).located files =
      fresh vpn writable type (origin.located files) := by
  cases origin <;> rfl

@[simp]
theorem frame_located : (p.located files).frame = p.frame := rfl

@[simp]
theorem group_located : (p.located files).group = p.group := rfl

@[simp]
theorem slot_located : (p.located files).slot = p.slot := by
  unfold slot located Content.located
  cases p.content with
  | anon a => rfl
  | file w => rfl
  | uninit t g => cases g <;> rfl

@[simp]
theorem type_located : (p.located files).type = p.type := by
  unfold type located Content.located
  cases p.content with
  | anon a => rfl
  | file w => rfl
  | uninit t g => cases g <;> rfl

@[simp]
theorem state_located : (p.located files).state = p.state := by
  unfold state located Content.located
  cases p.frame with
  | some f => rfl
  | none =>
    cases p.content with
    | anon a => rfl
    | file w => rfl
    | uninit t g => cases g <;> rfl

theorem mapping_located : (p.located files).mapping = p.mapping := by
  unfold mapping located Content.located
  cases p.content with
  | anon a => rfl
  | file w => rfl
  | uninit t g => cases g <;> rfl

theorem window?_located : (p.located files).window? = p.window?.map (·.located files) := by
  unfold window? located Content.located Content.window?
  cases p.content with
  | anon => rfl
  | file => rfl
  | uninit t g => cases g <;> rfl

theorem shaped_located {files : FileStore} {p : Page} : (p.located files).Shaped ↔ p.Shaped := by
  constructor
  · intro h
    refine ⟨fun {g} hc => ?_, fun {t g} hc => ?_, fun {a} hc => ?_, h.apart⟩
    · cases g with
      | file w => exact ⟨w, rfl⟩
      | zero | custom n =>
        obtain ⟨w, hw⟩ := h.typed (p := p.located files) (by rw [located, hc]; rfl)
        cases hw
    · cases g <;> exact h.waits (p := p.located files) (by rw [located, hc]; rfl)
    · exact h.housed (p := p.located files) (by rw [located, hc]; rfl)
  · intro h
    refine ⟨fun {g} hc => ?_, fun {t g} hc => ?_, fun {a} hc => ?_, h.apart⟩
    · obtain ⟨g', hc', hcustom⟩ := Content.located_eq_uninit files p.content hc
      obtain ⟨w, rfl⟩ := h.typed hc'
      rw [located, hc'] at hc
      exact ⟨_, (Content.uninit.inj hc).2.symm⟩
    · obtain ⟨g', hc', -⟩ := Content.located_eq_uninit files p.content hc
      exact h.waits hc'
    · exact h.housed ((Content.located_eq_anon files p.content).mp hc)

end Page

/-! ## The ledger -/

/-- What an entry grants. -/
def Entry.grant (e : Entry) : Grant := ⟨e.frame, e.has .writable, e.has .dirty⟩

/-- Whether a refusal tells that the machine is out of order. -/
def Refusal.isInternal : Refusal → Bool
  | alreadyMapped _ | inconsistent _ => true
  | _ => false

theorem Refusal.not_isInternal_of_isExhaustion {cause : Refusal} (h : cause.isExhaustion = true) :
    ¬cause.isInternal = true := by
  cases cause
  case outOfFrames | outOfSwap => decide
  all_goals cases h

namespace Machine

/-- The ledger of a machine. -/
def ledger (m : Machine) (hand pin : Option FrameNum) : Ledger where
  config := m.config
  page o := (m.page? o).map (Page.located m.backing.files)
  grant o := (m.entryAt? o).map Entry.grant
  crew := m.resident.get?
  team g := m.groups[g]?
  held := m.frames.Held
  bytes f := (m.frames.bytes? f).getD .zero
  occupied := m.backing.swap.occupied
  swapped := m.backing.swap.content
  file := m.backing.files.file
  initial n := m.backing.initializers[n]?.map Initializer.content
  floor := m.floorAt?
  hand
  pin
  log := Event.placings m.journal

/-- The pools, the swap space and the windows are in order. -/
structure Kept (lax : Tolerance) (m : Machine) : Prop where
  frames : m.frames.Valid
  fits : m.frames.total ≤ Entry.frameLimit
  groupIds : m.groupIds.Valid
  groups : ∀ g, m.groupIds.Live g ↔ (m.groups[g]?).isSome
  spaceIds : m.spaceIds.Valid
  spaces : ∀ id, m.spaceIds.Live id ↔ (m.floorAt? id).isSome
  floors : ∀ {id v}, m.floorAt? id = some v → v ≤ PageNum.limit
  swap : m.backing.swap.Valid
  windows : ∀ {o p w}, m.page? o = some p → p.window? = some w → w.Usable lax m.backing.files
  initializers : lax .outOfBounds ∨ ∀ (n : Nat) (i : Initializer), m.backing.initializers[n]? = some i →
    i.content.size ≤ pageSize
  /-- A mapping has a number, which is not zero. -/
  numbers : 0 < m.nextMapping

/-- **A machine in order**, with a frame in the hand and a frame pinned. -/
structure Sound (lax : Tolerance) (m : Machine) (hand pin : Option FrameNum) : Prop where
  books : (m.ledger hand pin).Sound
  kept : m.Kept lax

variable {lax : Tolerance} {m m' : Machine} {hand pin : Option FrameNum} {o : Owner} {p : Page}
  {f : FrameNum}

/-- The window the page of an owner is kept in, with its file in place of a handle, if it is a file
page. -/
def homeOf (m : Machine) (o : Owner) : Option FileWindow :=
  (m.page? o).bind fun p => (p.located m.backing.files).home?

/-! ### Reading the ledger -/

theorem page_ledger : (m.ledger hand pin).page o = (m.page? o).map (Page.located m.backing.files) :=
  rfl

theorem homeOf_ledger : ((m.ledger hand pin).page o).bind Page.home? = m.homeOf o := by
  unfold homeOf
  rw [page_ledger]
  cases m.page? o <;> rfl

/-- The window of a page in the ledger. -/
theorem homeOf_of_ledger {q : Page} {w : FileWindow} (hq : (m.ledger hand pin).page o = some q)
    (hw : q.home? = some w) : m.homeOf o = some w := by
  rw [← homeOf_ledger, hq]
  exact hw

@[simp]
theorem registered_ledger : (m.ledger hand pin).layout.registered o = (m.page? o).isSome :=
  Option.isSome_map

@[simp]
theorem frame_ledger : (m.ledger hand pin).frame o = m.frameOf o := by
  unfold Ledger.frame frameOf
  rw [page_ledger]
  cases m.page? o <;> rfl

@[simp]
theorem group_ledger : (m.ledger hand pin).group o = m.groupOf o := by
  unfold Ledger.group groupOf
  rw [page_ledger]
  cases m.page? o <;> rfl

@[simp]
theorem slot_ledger : (m.ledger hand pin).slot o = m.slotOf o := by
  unfold Ledger.slot slotOf
  rw [page_ledger]
  cases m.page? o <;> simp

theorem isDirty_ledger : (m.ledger hand pin).isDirty o = m.hasFlag o .dirty := by
  show ((m.entryAt? o).map Entry.grant).any Grant.dirty = (m.entryAt? o).any (·.has .dirty)
  cases m.entryAt? o <;> rfl

theorem owners_ledger : (m.ledger hand pin).owners f = (m.resident.get? f).map Frame.owners := rfl

/-- Two machines that differ in accessed bits, in what else the journal tells and in other things no
ledger tells. -/
structure Idle (m m' : Machine) : Prop where
  page : ∀ o, m'.page? o = m.page? o
  grant : ∀ o, (m'.entryAt? o).map Entry.grant = (m.entryAt? o).map Entry.grant
  floor : ∀ id, m'.floorAt? id = m.floorAt? id
  config : m'.config = m.config
  crew : ∀ f, m'.resident.get? f = m.resident.get? f
  frames : m'.frames = m.frames
  backing : m'.backing = m.backing
  groups : m'.groups = m.groups
  groupIds : m'.groupIds = m.groupIds
  spaceIds : m'.spaceIds = m.spaceIds
  log : Event.placings m'.journal = Event.placings m.journal
  numbers : m.nextMapping ≤ m'.nextMapping

namespace Idle

theorem refl (m : Machine) : Idle m m :=
  ⟨fun _ => rfl, fun _ => rfl, fun _ => rfl, rfl, fun _ => rfl, rfl, rfl, rfl, rfl, rfl, rfl,
    Nat.le_refl _⟩

theorem trans {m'' : Machine} (h : Idle m m') (h' : Idle m' m'') : Idle m m'' :=
  ⟨fun o => (h'.page o).trans (h.page o), fun o => (h'.grant o).trans (h.grant o),
    fun id => (h'.floor id).trans (h.floor id), h'.config.trans h.config,
    fun f => (h'.crew f).trans (h.crew f), h'.frames.trans h.frames, h'.backing.trans h.backing,
    h'.groups.trans h.groups, h'.groupIds.trans h.groupIds, h'.spaceIds.trans h.spaceIds,
    h'.log.trans h.log, Nat.le_trans h.numbers h'.numbers⟩

theorem ledger (h : Idle m m') : m'.ledger hand pin = m.ledger hand pin := by
  have hpage : m'.page? = m.page? := funext h.page
  have hcrew : m'.resident.get? = m.resident.get? := funext h.crew
  have hfloor : m'.floorAt? = m.floorAt? := funext h.floor
  unfold Machine.ledger
  rw [h.config, h.frames, h.backing, h.groups, h.log, hpage, hcrew, hfloor]
  apply Ledger.ext
  case grant => exact funext h.grant
  all_goals rfl

theorem kept (h : Idle m m') (hk : m.Kept lax) : m'.Kept lax where
  frames := h.frames ▸ hk.frames
  fits := h.frames ▸ hk.fits
  groupIds := h.groupIds ▸ hk.groupIds
  groups g := by
    rw [h.groupIds, h.groups]
    exact hk.groups g
  spaceIds := h.spaceIds ▸ hk.spaceIds
  spaces id := by
    rw [h.spaceIds, h.floor]
    exact hk.spaces id
  floors hv := hk.floors (h.floor _ ▸ hv)
  swap := h.backing ▸ hk.swap
  windows hp hw := by
    rw [h.page] at hp
    rw [h.backing]
    exact hk.windows hp hw
  initializers := h.backing ▸ hk.initializers
  numbers := Nat.lt_of_lt_of_le hk.numbers h.numbers

theorem sound (h : Idle m m') (hm : Sound lax m hand pin) : Sound lax m' hand pin :=
  ⟨h.ledger.symm ▸ hm.books, h.kept hm.kept⟩

end Idle

/-- Pages stay in the ledger as long as the handles stay on their files. -/
theorem Kept.page_ledger_of_stays (h : m.Kept lax) {files : FileStore}
    (hstays : ∀ k, k < m.backing.files.handles.size →
      (files.handle k).file = (m.backing.files.handle k).file) (o : Owner) :
    (m.page? o).map (Page.located files) = (m.ledger hand pin).page o := by
  rw [page_ledger]
  cases hp : m.page? o with
  | none => rfl
  | some p =>
    have hc : p.content.located files = p.content.located m.backing.files :=
      Content.located_congr fun w hw => hstays _ (h.windows hp hw).opened
    simp [Page.located, hc]

/-- Pages stay in the ledger while files are read, written and reopened. -/
theorem Kept.page_ledger_of_extends (h : m.Kept lax) {files : FileStore}
    (he : m.backing.files.Extends files) (o : Owner) :
    (m.page? o).map (Page.located files) = (m.ledger hand pin).page o :=
  h.page_ledger_of_stays he.stays o

/-- Handles may be opened and moved. -/
theorem Kept.withFiles (h : m.Kept lax) {files : FileStore} (he : m.backing.files.Extends files) :
    Machine.Kept lax { m with backing := { m.backing with files } } :=
  { h with windows := fun hp hw => (h.windows hp hw).extends he }

theorem Kept.ledger_withFiles (h : m.Kept lax) {files : FileStore}
    (he : m.backing.files.Extends files) (hfile : files.file = m.backing.files.file) :
    Machine.ledger { m with backing := { m.backing with files } } hand pin = m.ledger hand pin := by
  apply Ledger.ext
  case page => exact funext fun o => h.page_ledger_of_extends he o
  case file => exact hfile
  all_goals rfl

/-- Pages may come, go and change as long as their windows stay in order. -/
theorem Kept.respaced (hk : m.Kept lax) {spaces : Table AddressSpace}
    (hfloor : ∀ id, Machine.floorAt? { m with spaces } id = m.floorAt? id)
    (hpage : ∀ x q, Machine.page? { m with spaces } x = some q → ∀ w, q.window? = some w →
      w.Usable lax m.backing.files) : Machine.Kept lax { m with spaces } :=
  { hk with
    spaces := fun id => by
      rw [hfloor]
      exact hk.spaces id
    floors := fun {id v} hv => hk.floors (hfloor id ▸ hv)
    windows := fun {x q w} hx hw => hpage x q hx w hw }

/-! ### Reading a machine in order -/

theorem page_ledger_of_page? (h : m.page? o = some p) :
    (m.ledger hand pin).page o = some (p.located m.backing.files) := by
  rw [page_ledger, h]
  rfl

theorem frameOf_of_page? (h : m.page? o = some p) : m.frameOf o = p.frame := by
  rw [frameOf, h]
  rfl

theorem frame_ledger_of_page? (h : m.page? o = some p) : (m.ledger hand pin).frame o = p.frame :=
  frame_ledger.trans (frameOf_of_page? h)

theorem group_ledger_of_page? (h : m.page? o = some p) : (m.ledger hand pin).group o = p.group := by
  rw [group_ledger, groupOf, h]
  rfl

theorem grant_ledger_of_entryAt? {e : Entry} (h : m.entryAt? o = some e) :
    (m.ledger hand pin).grant o = some e.grant := congrArg (Option.map Entry.grant) h

theorem owners_ledger_of_get? {c : Frame} (h : m.resident.get? f = some c) :
    (m.ledger hand pin).owners f = some c.owners := Ledger.owners_of_crew h

theorem members_ledger_of_get? {g : Nat} {G : EvictionGroup} (h : m.groups[g]? = some G) :
    (m.ledger hand pin).members g = some G.members := Ledger.members_of_team h

/-- The owners of a frame are the pages in it. -/
theorem Sound.mem_owners (hm : Sound lax m hand pin) {c : Frame} (hc : m.resident.get? f = some c)
    (o : Owner) : o ∈ c.owners ↔ m.frameOf o = some f := by
  rw [← @frame_ledger _ hand pin]
  exact hm.books.mem_owners hc o

/-- The members of a group are the pages that name it. -/
theorem Sound.mem_members (hm : Sound lax m hand pin) {g : Nat} {G : EvictionGroup}
    (hG : m.groups[g]? = some G) (o : Owner) : o ∈ G.members ↔ m.groupOf o = some g := by
  rw [← @group_ledger _ hand pin]
  exact hm.books.mem_members hG o

/-- A page is mapped to the frame it is in. -/
theorem Sound.frame_entryAt? (hm : Sound lax m hand pin) (o : Owner) :
    (m.entryAt? o).map Entry.frame = m.frameOf o := by
  rw [← @frame_ledger _ hand pin, ← hm.books.mapped o]
  show _ = ((m.entryAt? o).map Entry.grant).map Grant.frame
  rw [Option.map_map]
  rfl

/-- No group has the number that is handed out next. -/
theorem Sound.nextGroup (hm : Sound lax m hand pin) : m.groups[m.groupIds.take.1]? = none := by
  have hfree := hm.kept.groupIds.take.2.1
  rwa [hm.kept.groups, Option.not_isSome_iff_eq_none] at hfree

theorem Sound.shaped (hm : Sound lax m hand pin) (h : m.page? o = some p) : p.Shaped :=
  Page.shaped_located.mp (hm.books.shaped (page_ledger_of_page? h))

/-- A frame that is handed out has a content. -/
theorem Sound.exists_bytes? (hm : Sound lax m hand pin) (hf : m.frames.Held f) :
    ∃ b, m.frames.bytes? f = some b :=
  FramePool.exists_bytes? (hm.kept.frames.lt_total hf)

/-- A resident frame is handed out. -/
theorem Sound.held (hm : Sound lax m hand pin) {c : Frame} (hc : m.resident.get? f = some c) :
    m.frames.Held f :=
  (hm.books.holds f).mpr (Or.inl (by rw [show (m.ledger hand pin).crew f = some c from hc]; rfl))

theorem frameBytes_eq {b : PageBytes} (h : m.frames.bytes? f = some b) :
    frameBytes f m = .ok b m := by
  have hget : ∀ {x : MachineM PageBytes}, x m = .ok b m → (get >>= fun _ => x) m = .ok b m := fun h => h
  exact hget (by rw [h]; rfl)

theorem bytes_ledger {b : PageBytes} (h : m.frames.bytes? f = some b) :
    (m.ledger hand pin).bytes f = b := by
  show (m.frames.bytes? f).getD .zero = b
  rw [h]
  rfl

/-- The frame in the hand is handed out. -/
theorem Sound.held_of_hand (hm : Sound lax m (some f) pin) : m.frames.Held f :=
  (hm.books.holds f).mpr (Or.inr rfl)

/-! ## What a run did -/

/-- The machine came from `m` to `m'` in order, and `T` tells what happened to its ledger. -/
structure Reaches (lax : Tolerance) (T : Ledger → Ledger → Prop) (m m' : Machine) : Prop where
  kept : m'.Kept lax
  told : T (m.ledger none none) (m'.ledger none none)

namespace Reaches

variable {m'' : Machine} {ks ks' : List Ledger.Kind} {T T' : Ledger → Ledger → Prop}

theorem sound (h : Reaches lax (Ledger.Trace ks) m m') (hm : Sound lax m none none) :
    Sound lax m' none none := ⟨h.told.sound hm.books, h.kept⟩

theorem mono (h : Reaches lax T m m') (hT : ∀ L L', T L L' → T' L L') : Reaches lax T' m m' :=
  ⟨h.kept, hT _ _ h.told⟩

theorem trans (h : Reaches lax (Ledger.Trace ks) m m') (h' : Reaches lax (Ledger.Trace ks') m' m'') :
    Reaches lax (Ledger.Trace (ks ++ ks')) m m'' := ⟨h'.kept, h.told.trans h'.told⟩

/-- Contents may be moved afterwards. -/
theorem shifts (h : Reaches lax (Ledger.Trace ks) m m') (h' : Reaches lax Ledger.Shifts m' m'') :
    Reaches lax (Ledger.Trace ks) m m'' := by
  have := h.trans h'
  rwa [List.append_nil] at this

/-- Nothing the ledger tells has changed. -/
theorem of_idle (hm : Sound lax m none none) (h : Idle m m') : Reaches lax Ledger.Shifts m m' := by
  refine ⟨h.kept hm.kept, ?_⟩
  rw [h.ledger]
  exact .refl _

theorem refl (hm : Sound lax m none none) : Reaches lax Ledger.Shifts m m :=
  of_idle hm (.refl m)

/-- Nothing more that the ledger tells has changed. -/
theorem idle (h : Reaches lax T m m') (h' : Idle m' m'') : Reaches lax T m m'' :=
  ⟨h'.kept h.kept, h'.ledger.symm ▸ h.told⟩

/-- One move. -/
theorem single {k : Ledger.Kind} (hk : m'.Kept lax)
    (h : Ledger.Move k (m.ledger none none) (m'.ledger none none)) :
    Reaches lax (Ledger.Trace [k]) m m' := ⟨hk, .single h⟩

end Reaches

/-- Only the journal has changed, and tells of no page that came into a frame. -/
theorem Idle.note (m : Machine) (event : Event) (h : event.isPlacing = false) :
    Idle m { m with journal := m.journal.push event } :=
  { Idle.refl m with
    page := fun _ => rfl, grant := fun _ => rfl, floor := fun _ => rfl, crew := fun _ => rfl
    log := by simp [Event.placings_push, h] }

/-- A page that came into a frame is noted in the log. -/
theorem ledger_note (m : Machine) (counters : Counters) {event : Event} (h : event.isPlacing = true) :
    Machine.ledger { m with counters, journal := m.journal.push event } hand pin =
      (m.ledger hand pin).note event := by
  apply Ledger.ext
  case log => exact (Event.placings_push ..).trans (by rw [if_pos h]; rfl)
  all_goals rfl

/-- Only the counters and the number of the next mapping have changed. -/
theorem Idle.count (m : Machine) (counters : Counters) {nextMapping : Nat}
    (h : m.nextMapping ≤ nextMapping) : Idle m { m with counters, nextMapping } :=
  { Idle.refl m with
    page := fun _ => rfl, grant := fun _ => rfl, floor := fun _ => rfl, crew := fun _ => rfl
    numbers := h }

/-! ### Moving a stack floor -/

section

variable {id : SpaceId} {space : AddressSpace} {g : AddressSpace → PageNum}

theorem floorAt?_setFloor (hspace : m.spaces[id]? = some space) (id' : SpaceId) :
    (m.modifySpace id fun s => { s with stackFloor := g s }).floorAt? id' =
      if id' = id then some (g space) else m.floorAt? id' := by
  rw [floorAt?, floorAt?, spaces_modifySpace]
  by_cases hid : id' = id
  · subst hid
    simp [hspace]
  · simp [hid, Ne.symm hid]

theorem page?_setFloor (x : Owner) :
    (m.modifySpace id fun s => { s with stackFloor := g s }).page? x = m.page? x := by
  rw [page?_eq, page?_eq, spaces_modifySpace]
  split
  · cases m.spaces[x.space]? <;> rfl
  · rfl

theorem ledger_setFloor (hspace : m.spaces[id]? = some space) :
    (m.modifySpace id fun s => { s with stackFloor := g s }).ledger hand pin =
      (m.ledger hand pin).setFloor id (some (g space)) := by
  apply Ledger.ext
  case page => exact funext fun x => congrArg (Option.map _) (page?_setFloor x)
  case grant =>
    funext x
    refine congrArg (Option.map _) ?_
    rw [entryAt?_eq, entryAt?_eq, spaces_modifySpace]
    split
    · cases m.spaces[x.space]? <;> rfl
    · rfl
  case floor => exact funext (floorAt?_setFloor hspace)
  all_goals rfl

theorem Kept.setFloor (hk : m.Kept lax) (hspace : m.spaces[id]? = some space)
    (hg : g space ≤ PageNum.limit) :
    (m.modifySpace id fun s => { s with stackFloor := g s }).Kept lax := by
  have hfloor := floorAt?_setFloor (g := g) hspace
  have hlive : (m.floorAt? id).isSome := by
    rw [floorAt?, hspace]
    rfl
  refine { hk with spaces := fun x => ?_, floors := fun {x v} hv => ?_, windows := fun {x p w} hx => ?_ }
  · rw [hfloor]
    refine (hk.spaces x).trans ?_
    split
    · rename_i hx
      simp [hx, hlive]
    · rfl
  · rw [hfloor] at hv
    split at hv
    · exact Option.some.inj hv ▸ hg
    · exact hk.floors hv
  · refine hk.windows (o := x) (?_ : m.page? x = some p)
    rw [← hx, page?_eq, page?_eq, spaces_modifySpace]
    split
    · cases m.spaces[x.space]? <;> rfl
    · rfl

end

/-! ### Writing into a frame -/

theorem Kept.setBytes (hk : m.Kept lax) (f : FrameNum) (b : PageBytes) :
    ({ m with frames := m.frames.setBytes f b } : Machine).Kept lax :=
  { hk with
    frames := hk.frames.setBytes f b
    fits := by
      rw [show ({ m with frames := m.frames.setBytes f b } : Machine).frames.total =
        m.frames.total from FramePool.total_setBytes _ _ _]
      exact hk.fits }

theorem ledger_setBytes (hf : f < m.frames.total) (b : PageBytes) :
    ({ m with frames := m.frames.setBytes f b } : Machine).ledger hand pin =
      (m.ledger hand pin).overwrite f b := by
  apply Ledger.ext
  case held => exact funext fun x => propext (FramePool.held_setBytes _ _ _ _)
  case bytes =>
    funext x
    show ((m.frames.setBytes f b).bytes? x).getD .zero =
      if x = f then b else (m.frames.bytes? x).getD .zero
    rw [FramePool.bytes?_setBytes]
    by_cases hx : x = f
    · subst hx
      simp [hf]
    · simp [hx, Ne.symm hx]
  all_goals rfl

end Machine

end DemandPaging
