import DemandPaging.Machine.Basic
import DemandPaging.Proofs.Roster

/-!
# The ledger of a machine

A ledger is what a machine looks like when only what matters is kept: who is registered with what
page, what the page tables grant, who shares which frame and which eviction group, and what the
frames, the swap slots and the files hold. It forgets accessed bits, handle offsets, counters and
the journal, and how the pools and tables are laid out. Handles are replaced by the files they are
on, so that the pages of one frame are equal and not only alike.

A ledger also knows the frame the running operation holds in its hand, neither free nor in the
frame table, and the frame it keeps from eviction. Of the journal it keeps the events that tell which
page came into which frame.
-/

namespace DemandPaging

/-- What a page table grants an owner. -/
structure Grant where
  frame : FrameNum
  writable : Bool
  dirty : Bool
deriving DecidableEq

/-- Whether an event tells that a page came into a frame. -/
def Event.isPlacing : Event → Bool
  | .claimed .. | .unshared .. => true
  | _ => false

/-- The events of a journal that tell which page came into which frame. -/
def Event.placings (journal : Array Event) : List Event := journal.toList.filter isPlacing

theorem Event.placings_push (journal : Array Event) (event : Event) :
    placings (journal.push event) =
      placings journal ++ if event.isPlacing then [event] else [] := by
  unfold placings
  cases h : event.isPlacing <;> simp [h]

/-- What matters of a machine. -/
@[ext]
structure Ledger where
  config : Config
  /-- The registered pages, with files in place of handles. -/
  page : Owner → Option Page
  grant : Owner → Option Grant
  /-- The resident frames. -/
  crew : FrameNum → Option Frame
  /-- The eviction groups. -/
  team : Nat → Option EvictionGroup
  /-- The frames handed out. -/
  held : FrameNum → Prop
  bytes : FrameNum → PageBytes
  occupied : Nat → Bool
  /-- What the swap slots hold. -/
  swapped : Nat → PageBytes
  file : Nat → File
  /-- What the initializers supplied so far write. -/
  initial : Nat → Option Bytes
  /-- The stack floors of the spaces there are. -/
  floor : SpaceId → Option PageNum
  /-- The frame the running operation was handed and has not used yet. -/
  hand : Option FrameNum
  /-- The frame the running operation keeps from eviction. -/
  pin : Option FrameNum
  /-- The pages that came into frames, in order. -/
  log : List Event

/-- The window of a content, if it has one. -/
def Content.window? : Content → Option FileWindow
  | .uninit _ (.file w) => some w
  | .file w => some w
  | _ => none

namespace Page

/-- The window of a page, if it has one. -/
def window? (p : Page) : Option FileWindow := p.content.window?

/-- The window a page is kept in while it is not resident, if it is a file page. -/
def home? (p : Page) : Option FileWindow := if p.type = .file then p.window? else none

/-- A page that waits to be loaded. -/
def fresh (vpn : PageNum) (writable : Bool) (type : PageType) (origin : Origin) : Page :=
  { vpn, writable, content := .uninit type origin }

/-- A page is in one place: not loaded yet, or in a frame, or evicted. A file page that was not
loaded yet knows its window. -/
structure Shaped (p : Page) : Prop where
  typed : ∀ {g}, p.content = .uninit .file g → ∃ w, g = .file w
  waits : ∀ {t g}, p.content = .uninit t g → p.frame = none ∧ p.group = none
  housed : ∀ {a}, p.content = .anon a → (a.slot = none ↔ p.frame.isSome)
  apart : p.group.isSome → p.frame = none

namespace Shaped

variable {p : Page} {f : FrameNum}

/-- A resident page is in no group. -/
theorem group_eq_none (h : p.Shaped) (hf : p.frame = some f) : p.group = none := by
  cases hg : p.group with
  | none => rfl
  | some g =>
    have := h.apart (by rw [hg]; rfl)
    rw [hf] at this
    cases this

/-- A resident page holds no slot. -/
theorem slot_eq_none (h : p.Shaped) (hf : p.frame = some f) : p.slot = none := by
  cases hc : p.content with
  | anon a =>
    rw [slot, hc]
    exact (h.housed hc).mpr (by rw [hf]; rfl)
  | uninit t g => rw [slot, hc]
  | file w => rw [slot, hc]

/-- A resident page was loaded. -/
theorem content_ne_uninit (h : p.Shaped) (hf : p.frame = some f) (t : PageType) (g : Origin) :
    p.content ≠ .uninit t g := fun hc => by
  have := (h.waits hc).1
  rw [hf] at this
  cases this

/-- A page that leaves its group stays in its place. -/
theorem ungrouped (h : p.Shaped) : ({ p with group := none } : Page).Shaped :=
  ⟨h.typed, fun hc => ⟨(h.waits hc).1, rfl⟩, h.housed, nofun⟩

end Shaped

end Page

namespace Ledger

/-- The frame that holds the page of an owner. -/
def frame (L : Ledger) (o : Owner) : Option FrameNum := (L.page o).bind Page.frame

/-- The eviction group of the page of an owner. -/
def group (L : Ledger) (o : Owner) : Option Nat := (L.page o).bind Page.group

/-- The swap slot that holds the page of an owner. -/
def slot (L : Ledger) (o : Owner) : Option Nat := (L.page o).bind Page.slot

/-- The owners listed for a frame. -/
def owners (L : Ledger) (f : FrameNum) : Option (List Owner) := (L.crew f).map Frame.owners

/-- The members of an eviction group. -/
def members (L : Ledger) (g : Nat) : Option (List Owner) := (L.team g).map EvictionGroup.members

/-- **The books agree.** -/
structure Sound (L : Ledger) : Prop where
  numbered : ∀ {o p}, L.page o = some p → p.vpn = o.vpn
  shaped : ∀ {o p}, L.page o = some p → p.Shaped
  supplied : ∀ {o p t n}, L.page o = some p → p.content = .uninit t (.custom n) →
    (L.initial n).isSome
  living : ∀ {o p}, L.page o = some p → (L.floor o.space).isSome
  /-- Pages and the frame table agree on who is in which frame. -/
  crews : Roster L.owners L.frame
  /-- Pages and the groups agree on who is in which group. -/
  teams : Roster L.members L.group
  crewed : ∀ {f l}, L.owners f = some l → l ≠ []
  teamed : ∀ {g l}, L.members g = some l → 2 ≤ l.length
  crewAlike : ∀ {o o' f}, L.frame o = some f → L.frame o' = some f → L.page o = L.page o'
  teamAlike : ∀ {o o' g}, L.group o = some g → L.group o' = some g → L.page o = L.page o'
  teamSlot : ∀ {o g G}, L.team g = some G → L.group o = some g → L.slot o = G.slot
  /-- A slot is occupied exactly while a page holds it. -/
  taken : ∀ s, L.occupied s = true ↔ ∃ o, L.slot o = some s
  /-- Pages that hold one slot are in one group. -/
  single : ∀ {o o' s}, L.slot o = some s → L.slot o' = some s →
    o = o' ∨ ∃ g, L.group o = some g ∧ L.group o' = some g
  /-- A page is mapped to the frame it is in, and not at all while it is in none. -/
  mapped : ∀ o, (L.grant o).map Grant.frame = L.frame o
  /-- A mapping may be written through when the page is writable and alone in its frame. -/
  writes : ∀ {o p e}, L.page o = some p → L.grant o = some e →
    (e.writable = true ↔ p.writable = true ∧ L.owners e.frame = some [o])
  dirties : ∀ {o p e}, L.page o = some p → L.grant o = some e → e.dirty = true →
    p.writable = true
  pinned : ∀ {f c}, L.crew f = some c → (c.pinned = true ↔ L.pin = some f)
  holds : ∀ f, L.held f ↔ (L.crew f).isSome ∨ L.hand = some f
  spare : ∀ {f}, L.hand = some f → L.crew f = none

/-- What the books say of one page. -/
structure Enrolled (L : Ledger) (o : Owner) (p : Page) : Prop where
  numbered : p.vpn = o.vpn
  shaped : p.Shaped
  supplied : ∀ {t n}, p.content = .uninit t (.custom n) → (L.initial n).isSome
  living : (L.floor o.space).isSome

/-- What the books say of frames and mappings. -/
structure Lodged (L : Ledger) : Prop where
  crews : Roster L.owners L.frame
  crewed : ∀ {f l}, L.owners f = some l → l ≠ []
  crewAlike : ∀ {o o' f}, L.frame o = some f → L.frame o' = some f → L.page o = L.page o'
  mapped : ∀ o, (L.grant o).map Grant.frame = L.frame o
  writes : ∀ {o p e}, L.page o = some p → L.grant o = some e →
    (e.writable = true ↔ p.writable = true ∧ L.owners e.frame = some [o])
  dirties : ∀ {o p e}, L.page o = some p → L.grant o = some e → e.dirty = true →
    p.writable = true
  pinned : ∀ {f c}, L.crew f = some c → (c.pinned = true ↔ L.pin = some f)
  holds : ∀ f, L.held f ↔ (L.crew f).isSome ∨ L.hand = some f
  spare : ∀ {f}, L.hand = some f → L.crew f = none

/-- What the books say of eviction groups and swap slots. -/
structure Stowed (L : Ledger) : Prop where
  teams : Roster L.members L.group
  teamed : ∀ {g l}, L.members g = some l → 2 ≤ l.length
  teamAlike : ∀ {o o' g}, L.group o = some g → L.group o' = some g → L.page o = L.page o'
  teamSlot : ∀ {o g G}, L.team g = some G → L.group o = some g → L.slot o = G.slot
  taken : ∀ s, L.occupied s = true ↔ ∃ o, L.slot o = some s
  single : ∀ {o o' s}, L.slot o = some s → L.slot o' = some s →
    o = o' ∨ ∃ g, L.group o = some g ∧ L.group o' = some g

section

variable {L L' : Ledger} {o : Owner} {p : Page} {f : FrameNum} {c : Frame} {g : Nat}
  {G : EvictionGroup} {e : Grant} {l : List Owner}

theorem frame_of_page (hp : L.page o = some p) : L.frame o = p.frame := by
  rw [frame, hp]
  rfl

theorem group_of_page (hp : L.page o = some p) : L.group o = p.group := by
  rw [group, hp]
  rfl

theorem slot_of_page (hp : L.page o = some p) : L.slot o = p.slot := by
  rw [slot, hp]
  rfl

theorem owners_of_crew (hc : L.crew f = some c) : L.owners f = some c.owners := by
  rw [owners, hc]
  rfl

theorem members_of_team (hG : L.team g = some G) : L.members g = some G.members := by
  rw [members, hG]
  rfl

/-! ### The parts of the books

An operation on the ledger changes some of them and passes the others on. -/

theorem Enrolled.congr (h : L.Enrolled o p) (hinitial : L'.initial = L.initial)
    (hfloor : L'.floor = L.floor) : L'.Enrolled o p :=
  ⟨h.numbered, h.shaped, fun hc => hinitial ▸ h.supplied hc, hfloor ▸ h.living⟩

/-- The books accept a page that leaves its group. -/
theorem Enrolled.ungrouped (h : L.Enrolled o p) : L.Enrolled o { p with group := none } :=
  ⟨h.numbered, h.shaped.ungrouped, h.supplied, h.living⟩

/-- Frames and mappings are told without the pages that are in no frame. -/
theorem Lodged.congr (h : L.Lodged) (hcrew : L'.crew = L.crew) (hgrant : L'.grant = L.grant)
    (hheld : L'.held = L.held) (hhand : L'.hand = L.hand) (hpin : L'.pin = L.pin)
    (hframe : ∀ o, L'.frame o = L.frame o)
    (hpage : ∀ {o f}, L.frame o = some f → L'.page o = L.page o) : L'.Lodged := by
  have howners : ∀ f, L'.owners f = L.owners f := fun f => by rw [owners, hcrew, owners]
  have hgranted : ∀ {o e}, L'.grant o = some e → L.grant o = some e ∧ L'.page o = L.page o :=
    fun {o e} he => by
      rw [hgrant] at he
      exact ⟨he, hpage (by rw [← h.mapped o, he]; rfl)⟩
  constructor
  case crews => exact h.crews.congr howners hframe
  case crewed => exact fun {f l} hl => h.crewed (howners f ▸ hl)
  case crewAlike =>
    intro o o' f ho ho'
    rw [hframe] at ho ho'
    rw [hpage ho, hpage ho']
    exact h.crewAlike ho ho'
  case mapped => exact fun o => by rw [hgrant, hframe, h.mapped]
  case writes =>
    intro o p e hp he
    obtain ⟨he, hsame⟩ := hgranted he
    rw [howners]
    exact h.writes (hsame ▸ hp) he
  case dirties =>
    intro o p e hp he
    obtain ⟨he, hsame⟩ := hgranted he
    exact h.dirties (hsame ▸ hp) he
  case pinned =>
    rw [hcrew, hpin]
    exact h.pinned
  case holds =>
    rw [hheld, hcrew, hhand]
    exact h.holds
  case spare =>
    rw [hcrew, hhand]
    exact h.spare

/-- Groups and slots are told without the pages that are in no group and hold no slot. -/
theorem Stowed.congr (h : L.Stowed) (hteam : L'.team = L.team) (hoccupied : L'.occupied = L.occupied)
    (hgroup : ∀ o, L'.group o = L.group o) (hslot : ∀ o, L'.slot o = L.slot o)
    (hpage : ∀ {o g}, L.group o = some g → L'.page o = L.page o) : L'.Stowed := by
  have hmembers : ∀ g, L'.members g = L.members g := fun g => by rw [members, hteam, members]
  constructor
  case teams => exact h.teams.congr hmembers hgroup
  case teamed => exact fun {g l} hl => h.teamed (hmembers g ▸ hl)
  case teamAlike =>
    intro o o' g ho ho'
    rw [hgroup] at ho ho'
    rw [hpage ho, hpage ho']
    exact h.teamAlike ho ho'
  case teamSlot =>
    intro o g G hG ho
    rw [hslot]
    exact h.teamSlot (hteam ▸ hG) (hgroup o ▸ ho)
  case taken =>
    intro s
    simp only [hoccupied, hslot]
    exact h.taken s
  case single =>
    intro o o' s ho ho'
    rw [hslot] at ho ho'
    rw [hgroup, hgroup]
    exact h.single ho ho'

namespace Sound

theorem enrolled (h : L.Sound) (hp : L.page o = some p) : L.Enrolled o p :=
  ⟨h.numbered hp, h.shaped hp, fun hc => h.supplied hp hc, h.living hp⟩

theorem lodged (h : L.Sound) : L.Lodged := { h with }

theorem stowed (h : L.Sound) : L.Stowed := { h with }

/-- The books agree if their parts do. -/
theorem of_parts (hpages : ∀ o p, L.page o = some p → L.Enrolled o p) (hlodged : L.Lodged)
    (hstowed : L.Stowed) : L.Sound :=
  { hlodged, hstowed with
    numbered := fun hp => (hpages _ _ hp).numbered
    shaped := fun hp => (hpages _ _ hp).shaped
    supplied := fun hp => (hpages _ _ hp).supplied
    living := fun hp => (hpages _ _ hp).living }

/-- The owners of a frame are the pages in it. -/
theorem mem_owners (h : L.Sound) (hc : L.crew f = some c) (o : Owner) :
    o ∈ c.owners ↔ L.frame o = some f :=
  h.crews.mem (owners_of_crew hc) o

/-- A page is listed for the frame it is in. -/
theorem mem_of_page (h : L.Sound) (hl : L.owners f = some l) (hp : L.page o = some p)
    (hf : p.frame = some f) : o ∈ l :=
  (h.crews.mem hl o).mpr ((frame_of_page hp).trans hf)

/-- The members of a group are the pages that name it. -/
theorem mem_members (h : L.Sound) (hG : L.team g = some G) (o : Owner) :
    o ∈ G.members ↔ L.group o = some g :=
  h.teams.mem (members_of_team hG) o

/-- A page is mapped to the frame it is in. -/
theorem frame_of_grant (h : L.Sound) (he : L.grant o = some e) : L.frame o = some e.frame := by
  rw [← h.mapped o, he]
  rfl

/-- A page names no number but that of a group there is. -/
theorem group_ne_of_team (h : L.Sound) (hg : L.team g = none) (o : Owner) : L.group o ≠ some g :=
  h.teams.place_ne (by rw [members, hg]; rfl) o

/-- No page is in the frame in the hand. -/
theorem frame_ne_hand (h : L.Sound) (hhand : L.hand = some f) (o : Owner) : L.frame o ≠ some f :=
  h.crews.place_ne (by rw [owners, h.spare hhand]; rfl) o

end Sound

end

/-- The books of a ledger without pages agree. -/
theorem sound_of_empty {L : Ledger} (hpage : ∀ o, L.page o = none) (hgrant : ∀ o, L.grant o = none)
    (hcrew : ∀ f, L.crew f = none) (hteam : ∀ g, L.team g = none)
    (hoccupied : ∀ s, L.occupied s = false) (hheld : ∀ f, ¬L.held f) (hhand : L.hand = none) :
    L.Sound := by
  have hframe : ∀ o, L.frame o = none := fun o => by rw [frame, hpage]; rfl
  have hgroup : ∀ o, L.group o = none := fun o => by rw [group, hpage]; rfl
  have hslot : ∀ o, L.slot o = none := fun o => by rw [slot, hpage]; rfl
  have howners : ∀ f, L.owners f = none := fun f => by rw [owners, hcrew]; rfl
  have hmembers : ∀ g, L.members g = none := fun g => by rw [members, hteam]; rfl
  constructor
  case crews => exact Roster.empty.congr howners hframe
  case teams => exact Roster.empty.congr hmembers hgroup
  case taken => simp [hoccupied, hslot]
  case mapped => simp [hgrant, hframe]
  case holds => simp [hheld, hcrew, hhand]
  all_goals grind

end Ledger

end DemandPaging
