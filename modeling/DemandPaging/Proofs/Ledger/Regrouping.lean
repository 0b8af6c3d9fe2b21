import DemandPaging.Proofs.Ledger.Moves
import Mathlib.Logic.Relation

/-!
# The numbers of eviction groups

A number stays with its group until the group is dissolved. A group is formed when a frame is evicted,
under a number that no group has and that no page names, and from then on just its members name it.
Until it is dissolved, members leave it and none join. So a trace never takes a number from one group
to another without a ledger in between in which it is free (`Trace.regroups`).
-/

namespace DemandPaging.Ledger

/-- One shift or move, and what it does to the numbers of groups. -/
structure Regroups (L L' : Ledger) : Prop where
  sound : L.Sound
  step : Shift L L' ∨ ∃ k, Move k L L'
  /-- A group that stays keeps its slot, and nobody joins it. -/
  stays : ∀ {g G G'}, L.team g = some G → L'.team g = some G' →
    G'.slot = G.slot ∧ G'.members.Sublist G.members
  /-- Nobody names the number of a group that is formed but its members. -/
  formed : ∀ {g G}, L.team g = none → L'.team g = some G →
    (∀ o, L.group o ≠ some g) ∧ ∀ o, L'.group o = some g ↔ o ∈ G.members

variable {L L' : Ledger} {g : Nat} {G G' : EvictionGroup} {k : Kind} {ks : List Kind}

/-- An unchanged group has all its members. -/
theorem sublist_of_team_eq (h : L'.team g = L.team g) (hG : L.team g = some G)
    (hG' : L'.team g = some G') : G'.slot = G.slot ∧ G'.members.Sublist G.members := by
  obtain rfl := Option.some.inj (hG.symm.trans (h.symm.trans hG'))
  exact ⟨rfl, .refl _⟩

/-- A shift gives no number that is in use to another group. -/
theorem Shift.sublist (h : Shift L L') (hG : L.team g = some G) (hG' : L'.team g = some G') :
    G'.slot = G.slot ∧ G'.members.Sublist G.members := by
  cases h with
  | take | giveBack | scrub | pin | unpin | unshare => exact sublist_of_team_eq rfl hG hG'
  | evict h =>
    obtain ⟨-, -, -, -, -, hgid, -, -, -⟩ := h
    refine sublist_of_team_eq (if_neg ?_) hG hG'
    rintro ⟨-, rfl⟩
    rw [hgid] at hG
    cases hG
  | fill =>
    dsimp only [note, Ledger.fill] at hG'
    split at hG'
    · cases hG'
    · obtain rfl := Option.some.inj (hG.symm.trans hG')
      exact ⟨rfl, .refl _⟩

/-- A move gives no number that is in use to another group. -/
theorem Move.sublist (h : Move k L L') (hG : L.team g = some G) (hG' : L'.team g = some G') :
    G'.slot = G.slot ∧ G'.members.Sublist G.members := by
  cases h with
  | enter | join | duplicate | leaveFrame | leaveAlone | write | supply | floor | outside =>
    exact sublist_of_team_eq rfl hG hG'
  | leaveTeam hp hg hl =>
    rename_i o p gid l _
    by_cases hid : g = gid
    · subst hid
      obtain rfl : G.members = l := by
        rw [members, hG] at hl
        exact Option.some.inj hl
      simp only [Ledger.leaveTeam, if_true, hG, Option.map_some] at hG'
      split at hG'
      · obtain rfl := Option.some.inj hG'
        exact ⟨rfl, List.filter_sublist⟩
      · cases hG'
    · exact sublist_of_team_eq (if_neg hid) hG hG'

theorem Sound.regroups (hL : L.Sound) (h : Shift L L' ∨ ∃ k, Move k L L') : L.Regroups L' := by
  have hL' : L'.Sound := h.elim (·.sound hL) fun ⟨_, hm⟩ => hm.sound hL
  exact {
    sound := hL
    step := h
    stays := h.elim (fun hs => hs.sublist) fun ⟨_, hm⟩ => hm.sublist
    formed := fun hnone hG => ⟨hL.group_ne_of_team hnone, fun o => (hL'.mem_members hG o).symm⟩ }

/-- **A trace takes no number in use from one group to another.** -/
theorem Trace.regroups (h : Trace ks L L') (hL : L.Sound) :
    Relation.ReflTransGen Regroups L L' := by
  induction h with
  | refl => exact .refl
  | shift h hs ih => exact (ih hL).tail ((h.sound hL).regroups (.inl hs))
  | move h hm ih => exact (ih hL).tail ((h.sound hL).regroups (.inr ⟨_, hm⟩))

end DemandPaging.Ledger
