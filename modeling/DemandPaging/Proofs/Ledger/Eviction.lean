import DemandPaging.Proofs.Ledger.Basic
import DemandPaging.Proofs.Storage.FileWindow

/-!
# Evicting, in the ledger

The owners of a frame go where its content goes: all of them are unmapped and evicted at once, to
one swap slot if they are anonymous, and as a group if there are several.
-/

namespace DemandPaging

/-- The content with another swap slot, if it is anonymous. -/
def Content.putSlot (slot : Option Nat) : Content → Content
  | .anon _ => .anon ⟨slot⟩
  | c => c

namespace Page

/-- The page evicted to a slot, as a member of a group. -/
def evictedTo (p : Page) (slot group : Option Nat) : Page :=
  { p with frame := none, content := p.content.putSlot slot, group }

/-- The files after the page, whose handle is a file, was written back from a frame. -/
def flushed (p : Page) (frame : PageBytes) (file : Nat → File) : Nat → File :=
  match p.content with
  | .file w => fun i =>
    if i = w.handle then ((file i).writeAt w.offset (frame.slice 0 w.readBytes)).2 else file i
  | _ => file

/-- The file of the page takes all that is written back from a frame. -/
def TakenBy (p : Page) (file : Nat → File) (frame : PageBytes) : Prop :=
  ∀ w, p.content = .file w → w.TakenBy (file w.handle) frame

variable {p : Page} {slot group : Option Nat}

@[simp]
theorem frame_evictedTo : (p.evictedTo slot group).frame = none := rfl

@[simp]
theorem group_evictedTo : (p.evictedTo slot group).group = group := rfl

/-- Eviction loads nothing and forgets nothing of a page that waits for its first load. -/
theorem content_evictedTo_uninit {t : PageType} {g : Origin} :
    (p.evictedTo slot group).content = .uninit t g ↔ p.content = .uninit t g := by
  cases h : p.content <;> simp [evictedTo, Content.putSlot, h]

/-- An anonymous page holds the slot it was evicted to, any other page none. -/
theorem slot_evictedTo (h : (∃ a, p.content = .anon a) ↔ slot.isSome) :
    (p.evictedTo slot group).slot = slot := by
  cases hc : p.content with
  | anon a => simp [evictedTo, Content.putSlot, Page.slot, hc]
  | uninit t g => cases slot <;> simp_all [evictedTo, Content.putSlot, Page.slot]
  | file w => cases slot <;> simp_all [evictedTo, Content.putSlot, Page.slot]

theorem shaped_evictedTo (hp : p.Shaped) (hf : p.frame.isSome)
    (h : (∃ a, p.content = .anon a) ↔ slot.isSome) : (p.evictedTo slot group).Shaped := by
  refine ⟨fun {g} hc => ?_, fun {t g} hc => ?_, fun {a} hc => ?_, fun _ => rfl⟩
  · exact hp.typed (content_evictedTo_uninit.mp hc)
  · rw [content_evictedTo_uninit] at hc
    rw [(hp.waits hc).1] at hf
    cases hf
  · have hslot : (p.evictedTo slot group).slot = slot := slot_evictedTo h
    rw [Page.slot, hc] at hslot
    cases hcp : p.content with
    | anon b =>
      have hsome := h.mp ⟨b, hcp⟩
      rw [← hslot] at hsome
      simp [Option.ne_none_iff_isSome.mpr hsome]
    | uninit t g => simp [evictedTo, Content.putSlot, hcp] at hc
    | file w => simp [evictedTo, Content.putSlot, hcp] at hc

end Page

namespace Ledger

/-- The ledger after the frame `f` of the pages `l`, all like `p`, was evicted to `slot`, with its
content in `swapped` or in `file`; the group is `gid` if there is one. -/
def evict (L : Ledger) (f : FrameNum) (l : List Owner) (p : Page) (slot : Option Nat) (gid : Nat)
    (file : Nat → File) : Ledger :=
  { L with
    page := fun o =>
      if o ∈ l then some (p.evictedTo slot (if 1 < l.length then some gid else none))
      else L.page o
    grant := fun o => if o ∈ l then none else L.grant o
    crew := fun x => if x = f then none else L.crew x
    team := fun g => if 1 < l.length ∧ g = gid then some ⟨l, slot⟩ else L.team g
    occupied := fun s => decide (slot = some s) || L.occupied s
    swapped := fun s => if slot = some s then L.bytes f else L.swapped s
    file
    hand := some f }

section

variable {L : Ledger} {f : FrameNum} {c : Frame} {o : Owner} {p : Page} {slot : Option Nat}
  {gid : Nat} {file : Nat → File}

/-- All owners of a frame have the same page. -/
theorem Sound.page_of_mem (h : L.Sound) (hf : L.crew f = some c) (ho : o ∈ c.owners)
    (hp : L.page o = some p) {x : Owner} (hx : x ∈ c.owners) : L.page x = some p := by
  rw [← hp]
  exact h.crewAlike ((h.mem_owners hf x).mp hx) ((h.mem_owners hf o).mp ho)

theorem frame_evict (x : Owner) :
    (L.evict f c.owners p slot gid file).frame x =
      if x ∈ c.owners then none else L.frame x := by
  by_cases hx : x ∈ c.owners <;> simp [frame, evict, hx]

theorem group_evict (x : Owner) :
    (L.evict f c.owners p slot gid file).group x =
      if x ∈ c.owners then (if 1 < c.owners.length then some gid else none) else L.group x := by
  by_cases hx : x ∈ c.owners <;> simp [group, evict, hx]

theorem slot_evict (hslot : (∃ a, p.content = .anon a) ↔ slot.isSome) (x : Owner) :
    (L.evict f c.owners p slot gid file).slot x =
      if x ∈ c.owners then slot else L.slot x := by
  by_cases hx : x ∈ c.owners
  · simp [Ledger.slot, evict, hx, Page.slot_evictedTo hslot]
  · simp [Ledger.slot, evict, hx]

theorem owners_evict (x : FrameNum) :
    (L.evict f c.owners p slot gid file).owners x = if x = f then none else L.owners x := by
  by_cases hx : x = f <;> simp [owners, evict, hx]

theorem members_evict (g : Nat) :
    (L.evict f c.owners p slot gid file).members g =
      if 1 < c.owners.length ∧ g = gid then some c.owners else L.members g := by
  by_cases hg : 1 < c.owners.length ∧ g = gid <;> simp [members, evict, hg]

/-- Several owners of a frame form a group, under a number that was free. -/
theorem Sound.teams_evict (h : L.Sound) (hf : L.crew f = some c) (hgid : L.team gid = none)
    (hgroup : ∀ x ∈ c.owners, L.group x = none) :
    Roster (L.evict f c.owners p slot gid file).members (L.evict f c.owners p slot gid file).group := by
  by_cases hmany : 1 < c.owners.length
  · have hnogid : L.members gid = none := by rw [members, hgid]; rfl
    refine (h.teams.form hnogid (h.crews.nodup (owners_of_crew hf)) hgroup).congr (fun g => ?_)
      (fun x => ?_)
    · rw [members_evict]
      simp only [hmany, true_and]
    · rw [group_evict]
      simp only [hmany, if_true]
  · refine h.teams.congr (fun g => ?_) (fun x => ?_)
    · rw [members_evict]
      simp only [hmany, false_and, if_false]
    · rw [group_evict]
      by_cases hx : x ∈ c.owners
      · rw [if_pos hx, if_neg hmany, hgroup x hx]
      · rw [if_neg hx]

/-- The owners of a frame hold no slot and are in no group. -/
theorem Sound.unstowed_of_mem (h : L.Sound) (hf : L.crew f = some c) {x : Owner} (hx : x ∈ c.owners) :
    L.group x = none ∧ L.slot x = none := by
  obtain ⟨p, hp, hpf⟩ := Option.bind_eq_some_iff.mp ((h.mem_owners hf x).mp hx)
  exact ⟨(group_of_page hp).trans ((h.shaped hp).group_eq_none hpf),
    (slot_of_page hp).trans ((h.shaped hp).slot_eq_none hpf)⟩

/-- The books accept the evicted pages. -/
theorem Sound.enrolled_evict (h : L.Sound) (hf : L.crew f = some c) (ho : o ∈ c.owners)
    (hp : L.page o = some p) (hslot : (∃ a, p.content = .anon a) ↔ slot.isSome) (x : Owner) (q : Page) :
    (L.evict f c.owners p slot gid file).page x = some q →
      (L.evict f c.owners p slot gid file).Enrolled x q := by
  intro hx
  simp only [Ledger.evict] at hx
  split at hx
  · rename_i hxl
    have hframe : p.frame.isSome := by
      rw [← frame_of_page hp, (h.mem_owners hf o).mp ho]
      rfl
    have hwas := h.enrolled (h.page_of_mem hf ho hp hxl)
    obtain rfl := Option.some.inj hx
    refine ⟨hwas.numbered, Page.shaped_evictedTo hwas.shaped hframe hslot, fun hc => ?_, hwas.living⟩
    exact hwas.supplied (Page.content_evictedTo_uninit.mp hc)
  · exact (h.enrolled hx).congr rfl rfl

/-- Evicting keeps what the books say of frames. The frame goes from the frame table into the hand. -/
theorem Sound.lodged_evict (h : L.Sound) (hf : L.crew f = some c) (hhand : L.hand = none) :
    (L.evict f c.owners p slot gid file).Lodged := by
  have hl : L.owners f = some c.owners := owners_of_crew hf
  constructor
  case crews => exact (h.crews.dissolve hl).congr owners_evict frame_evict
  case crewed =>
    have := @h.crewed
    grind [owners_evict]
  case crewAlike =>
    have := @h.crewAlike
    grind [frame_evict, Ledger.evict]
  case mapped =>
    have := h.mapped
    grind [frame_evict, Ledger.evict]
  case writes =>
    have := @h.writes
    grind [Ledger.evict, owners_evict]
  case dirties =>
    have := @h.dirties
    grind [Ledger.evict]
  case pinned =>
    have := @h.pinned
    grind [Ledger.evict]
  case holds =>
    have := @h.holds
    grind [Ledger.evict]
  case spare =>
    grind [Ledger.evict]

/-- The slot is occupied now, by the owners of the frame. -/
theorem Sound.taken_evict (h : L.Sound) (hf : L.crew f = some c) (ho : o ∈ c.owners)
    (hslot : (∃ a, p.content = .anon a) ↔ slot.isSome) (s : Nat) :
    (L.evict f c.owners p slot gid file).occupied s = true ↔
      ∃ x, (L.evict f c.owners p slot gid file).slot x = some s := by
  simp only [slot_evict hslot]
  simp only [Ledger.evict, Bool.or_eq_true, decide_eq_true_eq, h.taken s]
  constructor
  · rintro (hs | ⟨x, hx⟩)
    · exact ⟨o, by rw [if_pos ho, hs]⟩
    · by_cases hxl : x ∈ c.owners
      · rw [(h.unstowed_of_mem hf hxl).2] at hx
        cases hx
      · exact ⟨x, by rw [if_neg hxl, hx]⟩
  · rintro ⟨x, hx⟩
    split at hx
    · exact Or.inl hx
    · exact Or.inr ⟨x, hx⟩

/-- Evicting keeps what the books say of groups and slots. -/
theorem Sound.stowed_evict (h : L.Sound) (hf : L.crew f = some c) (ho : o ∈ c.owners)
    (hgid : L.team gid = none) (hslot : (∃ a, p.content = .anon a) ↔ slot.isSome)
    (hfree : ∀ s, slot = some s → L.occupied s = false) :
    (L.evict f c.owners p slot gid file).Stowed := by
  have hnone := h.group_ne_of_team hgid
  constructor
  case teams => exact h.teams_evict hf hgid fun x hx => (h.unstowed_of_mem hf hx).1
  case teamed =>
    have := @h.teamed
    grind [members_evict]
  case teamAlike =>
    have := @h.teamAlike
    grind [group_evict, Ledger.evict]
  case teamSlot =>
    intro x g G hg hx
    rw [group_evict] at hx
    rw [slot_evict hslot]
    have := @h.teamSlot
    grind [Ledger.evict]
  case taken => exact h.taken_evict hf ho hslot
  case single =>
    -- the slot was free, so who holds it was in the frame
    have hunheld : ∀ x s, slot = some s → L.slot x ≠ some s := fun x s hs hx => by
      have := (h.taken s).mpr ⟨x, hx⟩
      rw [hfree s hs] at this
      cases this
    intro x y s hx hy
    rw [slot_evict hslot] at hx hy
    rw [group_evict, group_evict]
    have := @h.single
    have := @Roster.eq_of_mem_of_short c.owners
    grind

/-- **Evicting keeps the books.** The group number and the slot are free, and there is a slot
exactly if the pages are anonymous. -/
theorem Sound.evict (h : L.Sound) (hf : L.crew f = some c) (ho : o ∈ c.owners)
    (hp : L.page o = some p) (hhand : L.hand = none) (hgid : L.team gid = none)
    (hslot : (∃ a, p.content = .anon a) ↔ slot.isSome)
    (hfree : ∀ s, slot = some s → L.occupied s = false) :
    (L.evict f c.owners p slot gid file).Sound :=
  .of_parts (h.enrolled_evict hf ho hp hslot) (h.lodged_evict hf hhand)
    (h.stowed_evict hf ho hgid hslot hfree)

end

end Ledger

end DemandPaging
