import DemandPaging.Machine.Report
import DemandPaging.Proofs.Audit

/-!
# Swap slots and eviction groups

The audit looks neither at slots nor at groups. They are accounted for all the same: who holds a
slot, who is in a group and which bits of the bitmap are set always agree (`Machine.Accounted`), so
no slot is lost, held by strangers or freed twice. What is left when the last space is gone is an
empty machine.

Headline: **`Reachable.accounted`**.
-/

namespace DemandPaging

/-- Evicted anonymous pages hold a slot, and no others. -/
theorem Page.Shaped.isSome_slot {p : Page} (h : p.Shaped) :
    p.slot.isSome ↔ p.type = .anon ∧ p.state = .evicted := by
  unfold Page.slot Page.type Page.state
  cases hc : p.content with
  | uninit t g => simp [(h.waits hc).1]
  | file w => simp [Content.type]
  | anon a =>
    have hhoused := h.housed hc
    cases hf : p.frame with
    | none => simp_all [Content.type, Option.isSome_iff_ne_none]
    | some f => simp_all

namespace Machine

/-- **Slots and groups are accounted for.** -/
structure Accounted (m : Machine) : Prop where
  /-- A group has two members or more, and none twice. -/
  several : ∀ {g : Nat} {G : EvictionGroup}, m.groups[g]? = some G → 2 ≤ G.members.length ∧ G.members.Nodup
  /-- The members of a group are the registered pages that name it. -/
  members : ∀ {g : Nat} {G : EvictionGroup} {o : Owner}, m.groups[g]? = some G →
    (o ∈ G.members ↔ m.groupOf o = some g)
  /-- A page names no group but one there is. -/
  named : ∀ {o : Owner} {g : Nat}, m.groupOf o = some g → (m.groups[g]?).isSome
  /-- A page in a group is not resident. -/
  away : ∀ {o p}, m.page? o = some p → p.group.isSome → p.frame = none
  /-- All members are anonymous and hold the slot of the group, or all are file pages and it has
  none. -/
  alike : ∀ {g : Nat} {G : EvictionGroup}, m.groups[g]? = some G →
    (∃ s, G.slot = some s ∧
      ∀ o ∈ G.members, ∃ p, m.page? o = some p ∧ p.content = .anon ⟨some s⟩) ∨
    (G.slot = none ∧ ∀ o ∈ G.members, ∃ p w, m.page? o = some p ∧ p.content = .file w)
  /-- Evicted anonymous pages hold a slot, and no others. -/
  holds : ∀ {o p}, m.page? o = some p → (p.slot.isSome ↔ p.type = .anon ∧ p.state = .evicted)
  /-- A slot is shared within its group and nowhere else. -/
  shared : ∀ {o o' s}, o ≠ o' → m.slotOf o = some s →
    (m.slotOf o' = some s ↔ ∃ g, m.groupOf o = some g ∧ m.groupOf o' = some g)
  /-- A bit is set exactly while a page holds its slot. -/
  occupied : ∀ s, m.backing.swap.slots.isSet s = true ↔ ∃ o, m.slotOf o = some s

variable {lax : Tolerance} {m : Machine} {hand pin : Option FrameNum} {o : Owner} {p : Page}

/-- A page in a group is registered and evicted. -/
theorem Sound.page_of_group {g : Nat} (hm : Sound lax m hand pin) (hg : m.groupOf o = some g) :
    ∃ p, m.page? o = some p ∧ p.Shaped ∧ p.group = some g ∧ p.frame = none := by
  obtain ⟨p, hp, hpg⟩ := Option.bind_eq_some_iff.mp hg
  exact ⟨p, hp, hm.shaped hp, hpg, (hm.shaped hp).apart (by rw [hpg]; rfl)⟩

/-- The pages of a group have the slot of the group, and are of one type. -/
theorem Sound.group_alike {g : Nat} {G : EvictionGroup} (hm : Sound lax m hand pin)
    (hG : m.groups[g]? = some G) :
    (∃ s, G.slot = some s ∧
      ∀ o ∈ G.members, ∃ p, m.page? o = some p ∧ p.content = .anon ⟨some s⟩) ∨
    (G.slot = none ∧ ∀ o ∈ G.members, ∃ p w, m.page? o = some p ∧ p.content = .file w) := by
  have hmember : ∀ {o}, o ∈ G.members → ∃ p, m.page? o = some p ∧ p.slot = G.slot ∧
      ((∃ a, p.content = .anon a) ∨ ∃ w, p.content = .file w) ∧ p.Shaped ∧ p.frame = none := by
    intro o ho
    have hog := (hm.mem_members hG o).mp ho
    have hslot := hm.books.teamSlot (show (m.ledger hand pin).team g = some G from hG)
      (group_ledger.trans hog)
    obtain ⟨p, hp, hshaped, hpg, hframe⟩ := hm.page_of_group hog
    rw [slot_ledger, slotOf, hp] at hslot
    refine ⟨p, hp, hslot, ?_, hshaped, hframe⟩
    cases hc : p.content with
    | anon a => exact Or.inl ⟨a, rfl⟩
    | file w => exact Or.inr ⟨w, rfl⟩
    | uninit t g' => 
      rw [(hshaped.waits hc).2] at hpg
      cases hpg
  cases hslot : G.slot with
  | some s =>
    refine Or.inl ⟨s, rfl, fun o ho => ?_⟩
    obtain ⟨p, hp, hps, hc, -⟩ := hmember ho
    rw [hslot] at hps
    refine ⟨p, hp, ?_⟩
    rcases hc with ⟨a, hc⟩ | ⟨w, hc⟩
    · rw [Page.slot, hc] at hps
      rw [hc, ← hps]
    · rw [Page.slot, hc] at hps
      cases hps
  | none =>
    refine Or.inr ⟨rfl, fun o ho => ?_⟩
    obtain ⟨p, hp, hps, hc, hshaped, hframe⟩ := hmember ho
    rw [hslot] at hps
    rcases hc with ⟨a, hc⟩ | ⟨w, hc⟩
    · rw [Page.slot, hc] at hps
      rw [hshaped.housed hc, hframe] at hps
      cases hps
    · exact ⟨p, w, hp, hc⟩

/-- **The books account for slots and groups.** -/
theorem Sound.slots_agree (hm : Sound lax m hand pin) : m.Accounted := by
  constructor
  case several =>
    exact fun hG => ⟨hm.books.teamed (members_ledger_of_get? hG),
      hm.books.teams.nodup (members_ledger_of_get? hG)⟩
  case members => exact fun {g G o} hG => hm.mem_members hG o
  case named =>
    intro o g hg
    obtain ⟨l, hl⟩ := hm.books.teams.listed ((group_ledger (m := m)).trans hg)
    obtain ⟨G, hG, -⟩ := Option.map_eq_some_iff.mp hl
    exact Option.isSome_of_eq_some hG
  case away => exact fun hp => (hm.shaped hp).apart
  case alike => exact hm.group_alike
  case holds => exact fun hp => (hm.shaped hp).isSome_slot
  case shared =>
    intro o o' s hne ho
    constructor
    · intro ho'
      rw [← slot_ledger (m := m)] at ho ho'
      have hgroup := (hm.books.single ho ho').resolve_left hne
      rwa [group_ledger, group_ledger] at hgroup
    · rintro ⟨g, hg, hg'⟩
      have hpage := hm.books.teamAlike ((group_ledger (m := m)).trans hg)
        ((group_ledger (m := m)).trans hg')
      rw [← ho, ← slot_ledger (m := m), ← slot_ledger (m := m), Ledger.slot, Ledger.slot, hpage]
  case occupied =>
    intro s
    rw [hm.kept.swap.slots.isSet]
    refine (hm.books.taken s).trans (exists_congr fun o => ?_)
    rw [slot_ledger]

/-- With no space there, nothing is in use. -/
theorem Sound.unused (hm : Sound lax m none none)
    (hnone : ∀ id : SpaceId, m.spaces[id]? = none) :
    m.stats.swapUsed = 0 ∧ (∀ g : Nat, m.groups[g]? = none) ∧
      m.stats.framesFree = m.stats.framesTotal := by
  have hpage : ∀ o, m.page? o = none := fun o => by
    rw [page?_eq, hnone]
    rfl
  refine ⟨Bitmap.used_eq_zero fun s => ?_, fun g => ?_, ?_⟩
  · refine Bool.eq_false_iff.mpr fun hs => ?_
    obtain ⟨o, ho⟩ := (hm.books.taken s).mp hs
    rw [slot_ledger, slotOf, hpage] at ho
    cases ho
  · refine Option.eq_none_iff_forall_ne_some.mpr fun G hG => ?_
    have hacc := hm.slots_agree
    obtain ⟨o, ho⟩ := List.exists_mem_of_length_pos
      (Nat.lt_of_lt_of_le Nat.two_pos (hacc.several hG).1)
    have hgroup := (hacc.members hG).mp ho
    rw [groupOf, hpage] at hgroup
    cases hgroup
  · have hkeys : m.resident.frames.keys = [] := by
      refine List.eq_nil_iff_forall_not_mem.mpr fun f hf => ?_
      rw [Std.ExtTreeMap.mem_keys, Std.ExtTreeMap.mem_iff_isSome_getElem?] at hf
      obtain ⟨c, hc⟩ := Option.isSome_iff_exists.mp hf
      obtain ⟨o, ho⟩ := List.exists_mem_of_ne_nil _ (hm.books.crewed (owners_ledger_of_get? hc))
      have hframe := (hm.mem_owners hc o).mp ho
      rw [frameOf, hpage] at hframe
      cases hframe
    have hsize : m.resident.size = m.resident.frames.keys.length :=
      Std.ExtTreeMap.length_keys.symm
    have hfree := hm.size_add_free
    rwa [hsize, hkeys, List.length_nil, Nat.zero_add] at hfree

end Machine

/-- **No slot, group or frame is lost.** After any run slots and groups are accounted for, and
nothing is in use once no space is left. -/
theorem Reachable.accounted {m : Machine} (h : Reachable .all m) :
    m.Accounted ∧ ((∀ id : SpaceId, m.spaces[id]? = none) →
      m.stats.swapUsed = 0 ∧ (∀ g : Nat, m.groups[g]? = none) ∧
        m.stats.framesFree = m.stats.framesTotal) :=
  ⟨h.sound.slots_agree, h.sound.unused⟩

/-- The spaces of the crowded machine are dropped, one after the other. -/
theorem Reachable.accounted_drained : ∃ m, Reachable .all m ∧ 0 < m.counters.swapOuts ∧
    m.Accounted ∧ m.stats.swapUsed = 0 ∧ m.stats.framesFree = m.stats.framesTotal := by
  have h : ((Machine.start { userFrames := 2 } (.blank 16)).carry
      (Operation.crowding ++ [.drop 0, .drop 1])).any
      (fun r => decide (0 < r.2.counters.swapOuts) && r.2.spaces.isEmpty) = true := by
    decide +kernel
  obtain ⟨r, -, hm, hrest⟩ := Reachable.exists_of_carry (by decide) h
  obtain ⟨hout, hempty⟩ := Bool.and_eq_true_iff.mp hrest
  have hnone : ∀ id : SpaceId, r.2.spaces[id]? = none := fun id => by
    rw [Std.ExtTreeMap.isEmpty_iff.mp hempty]
    exact Std.ExtTreeMap.getElem?_empty
  obtain ⟨hacc, hunused⟩ := hm.accounted
  obtain ⟨hused, -, hfree⟩ := hunused hnone
  exact ⟨r.2, hm, of_decide_eq_true hout, hacc, hused, hfree⟩

end DemandPaging
