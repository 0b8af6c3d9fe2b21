import DemandPaging.Memory.FrameTable

/-!
# Rosters

A roster is a bookkeeping kept from both sides: every owner knows the number of the list it is on,
and every list names its members. The frame table is one (the pages of a frame) and the eviction
groups are another (the pages of a group). A roster changes in four ways, and stays a roster in
each: a list is dissolved, a list is formed of owners that were on none, an owner leaves its list,
an owner joins a list.
-/

namespace DemandPaging

/-- The lists and the places agree, and no list names an owner twice. -/
structure Roster (lists : Nat → Option (List Owner)) (place : Owner → Option Nat) : Prop where
  mem : ∀ {k l}, lists k = some l → ∀ o, o ∈ l ↔ place o = some k
  listed : ∀ {o k}, place o = some k → ∃ l, lists k = some l
  nodup : ∀ {k l}, lists k = some l → l.Nodup

namespace Roster

/-- On a list of at most one there are no two. -/
theorem eq_of_mem_of_short {l : List Owner} (h : ¬1 < l.length) {o o' : Owner} (ho : o ∈ l)
    (ho' : o' ∈ l) : o = o' := by
  match l, ho with
  | [a], ho =>
    rw [List.mem_singleton] at ho ho'
    rw [ho, ho']
  | _ :: _ :: _, _ => exact absurd (by simp) h

/-- A list is just the one member if it has no two. -/
theorem eq_singleton_iff {l : List Owner} {o : Owner} (ho : o ∈ l) :
    l = [o] ↔ ¬1 < l.length := by
  constructor
  · rintro rfl
    exact Nat.lt_irrefl 1
  · intro hshort
    match l, ho with
    | [a], ho => rw [List.mem_singleton.mp ho]
    | _ :: _ :: _, _ => exact absurd (by simp) hshort

/-- Among two there is another. -/
theorem filter_ne_nil {l : List Owner} (o : Owner) (hnodup : l.Nodup) (hl : 1 < l.length) :
    l.filter (· ≠ o) ≠ [] := by
  match l, hl with
  | a :: b :: _, _ =>
    have hab : a ≠ b := fun h => (List.nodup_cons.mp hnodup).1 (h ▸ List.mem_cons_self)
    by_cases ha : a = o
    · exact List.ne_nil_of_mem (show b ∈ _ by simp [ha ▸ hab.symm])
    · exact List.ne_nil_of_mem (show a ∈ _ by simp [ha])

variable {lists lists' : Nat → Option (List Owner)} {place place' : Owner → Option Nat}

theorem empty : Roster (fun _ => none) (fun _ => none) := ⟨nofun, nofun, nofun⟩

/-- A roster is what it says, list by list and owner by owner. -/
theorem congr (h : Roster lists place) (hl : ∀ k, lists' k = lists k)
    (hp : ∀ o, place' o = place o) : Roster lists' place' := by
  obtain rfl : lists' = lists := funext hl
  obtain rfl : place' = place := funext hp
  exact h

/-- An owner with a place is on the list of that place. -/
theorem mem_of_place (h : Roster lists place) {o : Owner} {k : Nat} (hk : place o = some k) :
    ∃ l, lists k = some l ∧ o ∈ l := by
  obtain ⟨l, hl⟩ := h.listed hk
  exact ⟨l, hl, (h.mem hl o).mpr hk⟩

/-- Nobody has a place on a list that is not there. -/
theorem place_ne (h : Roster lists place) {k : Nat} (hk : lists k = none) (o : Owner) :
    place o ≠ some k := fun ho => by
  obtain ⟨l, hl⟩ := h.listed ho
  rw [hk] at hl
  cases hl

/-- A list is dissolved: its members have no place any more. -/
theorem dissolve (h : Roster lists place) {k : Nat} {l : List Owner} (hk : lists k = some l) :
    Roster (fun x => if x = k then none else lists x)
      (fun o => if o ∈ l then none else place o) := by
  refine ⟨fun {x s} hx o => ?_, fun {o x} ho => ?_, fun {x s} hx => ?_⟩
  · by_cases hxk : x = k
    · simp [hxk] at hx
    · simp only [hxk, if_false] at hx
      rw [h.mem hx o]
      by_cases hol : o ∈ l
      · simp [hol, (h.mem hk o).mp hol, Ne.symm hxk]
      · simp [hol]
  · by_cases hol : o ∈ l
    · simp [hol] at ho
    · simp only [hol, if_false] at ho
      obtain ⟨s, hs⟩ := h.listed ho
      have hxk : x ≠ k := by
        rintro rfl
        exact hol ((h.mem hk o).mpr ho)
      exact ⟨s, by simp [hxk, hs]⟩
  · by_cases hxk : x = k
    · simp [hxk] at hx
    · simp only [hxk, if_false] at hx
      exact h.nodup hx

/-- A new list is formed of owners that had no place. -/
theorem form (h : Roster lists place) {k : Nat} {l : List Owner} (hk : lists k = none)
    (hl : l.Nodup) (hfree : ∀ o ∈ l, place o = none) :
    Roster (fun x => if x = k then some l else lists x)
      (fun o => if o ∈ l then some k else place o) := by
  refine ⟨fun {x s} hx o => ?_, fun {o x} ho => ?_, fun {x s} hx => ?_⟩
  · by_cases hxk : x = k
    · simp only [hxk, if_true, Option.some.injEq] at hx
      subst hx hxk
      by_cases hol : o ∈ l
      · simp [hol]
      · simp only [hol, if_false, false_iff]
        exact h.place_ne hk o
    · simp only [hxk, if_false] at hx
      by_cases hol : o ∈ l
      · simp [hol, h.mem hx o, hfree o hol, Ne.symm hxk]
      · simp [hol, h.mem hx o]
  · by_cases hol : o ∈ l
    · simp only [hol, if_true, Option.some.injEq] at ho
      exact ⟨l, by simp [ho]⟩
    · simp only [hol, if_false] at ho
      obtain ⟨s, hs⟩ := h.listed ho
      have hxk : x ≠ k := by
        rintro rfl
        exact h.place_ne hk o ho
      exact ⟨s, by simp [hxk, hs]⟩
  · by_cases hxk : x = k
    · simp only [hxk, if_true, Option.some.injEq] at hx
      exact hx ▸ hl
    · simp only [hxk, if_false] at hx
      exact h.nodup hx

/-- An owner leaves its list. -/
theorem leave (h : Roster lists place) {k : Nat} {l : List Owner} {o : Owner}
    (hk : lists k = some l) (ho : place o = some k) :
    Roster (fun x => if x = k then some (l.filter (· ≠ o)) else lists x)
      (fun o' => if o' = o then none else place o') := by
  refine ⟨fun {x s} hx o' => ?_, fun {o' x} ho' => ?_, fun {x s} hx => ?_⟩
  · by_cases hxk : x = k
    · simp only [hxk, if_true, Option.some.injEq] at hx
      subst hx hxk
      by_cases hoo : o' = o
      · simp [hoo]
      · simp [hoo, h.mem hk o']
    · simp only [hxk, if_false] at hx
      by_cases hoo : o' = o
      · simp [hoo, h.mem hx o, ho, Ne.symm hxk]
      · simp [hoo, h.mem hx o']
  · by_cases hoo : o' = o
    · simp [hoo] at ho'
    · simp only [hoo, if_false] at ho'
      obtain ⟨s, hs⟩ := h.listed ho'
      by_cases hxk : x = k
      · exact ⟨_, if_pos hxk⟩
      · exact ⟨s, by simp [hxk, hs]⟩
  · by_cases hxk : x = k
    · simp only [hxk, if_true, Option.some.injEq] at hx
      exact hx ▸ (h.nodup hk).filter _
    · simp only [hxk, if_false] at hx
      exact h.nodup hx

/-- An owner without a place joins a list. -/
theorem join (h : Roster lists place) {k : Nat} {l : List Owner} {o : Owner}
    (hk : lists k = some l) (ho : place o = none) :
    Roster (fun x => if x = k then some (l ++ [o]) else lists x)
      (fun o' => if o' = o then some k else place o') := by
  have hol : o ∉ l := fun hmem => by
    rw [h.mem hk o, ho] at hmem
    cases hmem
  refine ⟨fun {x s} hx o' => ?_, fun {o' x} ho' => ?_, fun {x s} hx => ?_⟩
  · by_cases hxk : x = k
    · simp only [hxk, if_true, Option.some.injEq] at hx
      subst hx hxk
      by_cases hoo : o' = o
      · simp [hoo]
      · simp [hoo, h.mem hk o']
    · simp only [hxk, if_false] at hx
      by_cases hoo : o' = o
      · simp [hoo, h.mem hx o, ho, Ne.symm hxk]
      · simp [hoo, h.mem hx o']
  · by_cases hoo : o' = o
    · simp only [hoo, if_true, Option.some.injEq] at ho'
      exact ⟨_, if_pos ho'.symm⟩
    · simp only [hoo, if_false] at ho'
      obtain ⟨s, hs⟩ := h.listed ho'
      by_cases hxk : x = k
      · exact ⟨_, if_pos hxk⟩
      · exact ⟨s, by simp [hxk, hs]⟩
  · by_cases hxk : x = k
    · simp only [hxk, if_true, Option.some.injEq] at hx
      subst hx
      exact List.nodup_append.mpr ⟨h.nodup hk, by simp, fun a ha b hb hab => by
        rw [List.mem_singleton] at hb
        exact hol (hb ▸ hab ▸ ha)⟩
    · simp only [hxk, if_false] at hx
      exact h.nodup hx

end Roster

end DemandPaging
