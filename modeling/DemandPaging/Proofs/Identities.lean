import DemandPaging.Proofs.IdPool
import DemandPaging.Proofs.Ledger.Regrouping
import DemandPaging.Proofs.Slots
import DemandPaging.Proofs.StackSetup

/-!
# Identities are unique and leave no trace

Spaces and eviction groups are known by identities, and everything that refers to them does so by
these: a frame and a group list their owners by space, a page names its group. An identity comes back
once its space or its group is gone. It is safe to hand it out again, because then nothing refers to
it any more: a listed owner is a page of a space there is, and a page names a group there is
(`Machine.Identified`).

Which spaces there are can be told from the requests alone (`Label.spacesLeft`): each that was made and
not dropped since, once. Groups come and go within a request; there the ledgers on the way tell that no
number goes from one group to another (`Ledger.Regroups`).

Headline: **`identities_unique`**.
-/

namespace DemandPaging

open Machine (Sound)

/-! ## The spaces there are -/

/-- The spaces that are left after a step, the latest first. -/
def Label.spacesAfter (ids : List SpaceId) : Label → List SpaceId
  | ask _ (.ok (.space id)) => id :: ids
  | ask (.drop id) (.ok _) => ids.erase id
  | _ => ids

/-- The spaces that steps made and did not drop. -/
def Label.spacesLeft (labels : List Label) : List SpaceId := labels.foldl spacesAfter []

namespace Layout

open Ledger (Kind)

variable {Y Y' Y'' : Layout} {id parent child : SpaceId} {va : Address} {ks : List Kind}
  {ids : List SpaceId} {bytes : Bytes} {done : Nat} {spans : List Machine.Span}

/-- The same spaces are there. -/
def SameSpaces (Y Y' : Layout) : Prop := ∀ id, (Y'.floor id).isSome = (Y.floor id).isSome

theorem SameSpaces.refl (Y : Layout) : Y.SameSpaces Y := fun _ => rfl

theorem SameSpaces.trans (h : Y.SameSpaces Y') (h' : Y'.SameSpaces Y'') : Y.SameSpaces Y'' :=
  fun id => (h' id).trans (h id)

/-- Moves that only give spaces there are another floor make and remove none. -/
theorem sameSpaces_afterAll
    (h : ∀ id v, .floor id v ∈ ks → v.isSome = true ∧ (Y.floor id).isSome = true) :
    Y.SameSpaces (Y.afterAll ks) := by
  induction ks generalizing Y with
  | nil => exact .refl Y
  | cons k ks ih =>
    have hk : Y.SameSpaces (Y.after k) := by
      cases k with
      | floor id v =>
        obtain ⟨hv, hid⟩ := h id v List.mem_cons_self
        intro x
        show (if x = id then v else Y.floor x).isSome = _
        split
        · rename_i hx
          rw [hx, hv, hid]
        · rfl
      | enter | copy | leave | write | supply | outside => exact .refl Y
    refine hk.trans (ih fun id v hmem => ?_)
    obtain ⟨hv, hid⟩ := h id v (List.mem_cons_of_mem _ hmem)
    exact ⟨hv, (hk id).trans hid⟩

theorem Grows.sameSpaces (h : Y.Grows id va ks) : Y.SameSpaces (Y.afterAll ks) := by
  refine sameSpaces_afterAll fun x v hk => ?_
  cases h with
  | stays => cases hk
  | grows hfree htop =>
    rcases List.mem_append.mp hk with hk | hk
    · obtain ⟨_, h⟩ := mem_stackKinds hk
      cases h
    · cases List.mem_singleton.mp hk
      exact ⟨rfl, Option.isSome_of_eq_some htop⟩

theorem Visits.sameSpaces (h : Visits id spans Y ks) : Y.SameSpaces (Y.afterAll ks) := by
  induction h with
  | nil Y => exact .refl Y
  | cons h _ ih =>
    rw [afterAll_append]
    exact h.sameSpaces.trans ih

theorem Writes.sameSpaces (h : Writes id bytes done spans Y ks) : Y.SameSpaces (Y.afterAll ks) := by
  induction h with
  | nil done Y => exact .refl Y
  | cons h _ ih =>
    rw [afterAll_append]
    exact h.sameSpaces.trans ih

theorem Stops.sameSpaces {T : List Machine.Span → Layout → List Kind → Prop}
    (h : Stops id T spans Y ks) (hT : ∀ {spans ks}, T spans Y ks → Y.SameSpaces (Y.afterAll ks)) :
    Y.SameSpaces (Y.afterAll ks) := by
  obtain ⟨h, hs⟩ := h
  rw [afterAll_append]
  exact (hT h).trans hs.sameSpaces

theorem CopiesAll.sameSpaces (h : CopiesAll parent child Y ks) : Y.SameSpaces (Y.afterAll ks) := by
  obtain ⟨-, -, ht⟩ := h
  refine sameSpaces_afterAll fun x v hk => ?_
  rcases List.mem_append.mp hk with hk | hk
  · obtain ⟨_, -, h⟩ := List.mem_map.mp hk
    cases h
  · cases List.mem_singleton.mp hk
    exact ⟨rfl, Option.isSome_of_eq_some ht⟩

theorem CopiesSome.sameSpaces (h : CopiesSome parent child Y ks) : Y.SameSpaces (Y.afterAll ks) :=
  sameSpaces_afterAll fun _ _ hk => by
    obtain ⟨_, h⟩ := h.mem hk
    cases h

/-- A space that is destroyed is gone, and no other. -/
theorem Destroys.isSome_floor (h : Y.Destroys id ks) (x : SpaceId) :
    ((Y.afterAll ks).floor x).isSome = (!decide (x = id) && (Y.floor x).isSome) := by
  cases h with
  | absent hnone =>
    show (Y.floor x).isSome = _
    by_cases hx : x = id
    · simp [hx, hnone]
    · simp [hx]
  | intro =>
    rw [afterAll_append]
    show (if x = id then none else (Y.afterAll _).floor x).isSome = _
    rw [floor_leaveKinds]
    by_cases hx : x = id <;> simp [hx]

/-- A fork that is refused leaves no space behind. -/
theorem ForksInVain.sameSpaces (h : Y.ForksInVain parent ks) : Y.SameSpaces (Y.afterAll ks) := by
  obtain ⟨hnew, hcopies, hdestroys⟩ := h
  rename_i child ks ks'
  intro x
  show ((Layout.afterAll (Y.after (Y.createKind child)) (ks ++ ks')).floor x).isSome = _
  rw [afterAll_append, hdestroys.isSome_floor, hcopies.sameSpaces x]
  show (!decide (x = child) && (if x = child then _ else Y.floor x).isSome) = _
  by_cases hx : x = child
  · simp [hx, hnew]
  · simp [hx]

/-- The spaces there are, each once. -/
structure Houses (Y : Layout) (ids : List SpaceId) : Prop where
  nodup : ids.Nodup
  mem : ∀ id, id ∈ ids ↔ (Y.floor id).isSome = true

namespace Houses

theorem congr (h : Y.Houses ids) (hsame : Y.SameSpaces Y') : Y'.Houses ids :=
  ⟨h.nodup, fun id => by rw [hsame id, h.mem]⟩

theorem create (h : Y.Houses ids) (hnew : Y.floor id = none) :
    (Y.after (Y.createKind id)).Houses (id :: ids) := by
  refine ⟨List.nodup_cons.mpr ⟨fun hid => ?_, h.nodup⟩, fun x => ?_⟩
  · rw [h.mem, hnew] at hid
    cases hid
  · show _ ↔ (if x = id then some _ else Y.floor x).isSome = true
    rw [List.mem_cons, h.mem]
    by_cases hx : x = id <;> simp [hx]

theorem destroy (h : Y.Houses ids) (hd : Y.Destroys id ks) :
    (Y.afterAll ks).Houses (ids.erase id) := by
  refine ⟨h.nodup.erase id, fun x => ?_⟩
  rw [h.nodup.mem_erase_iff, h.mem, hd.isSome_floor]
  simp

end Houses

end Layout

/-- **An operation makes and drops the spaces it says.** -/
theorem Operation.Moves.houses {op : Operation} {outcome : Except Refusal Reply} {Y : Layout}
    {ks : List Ledger.Kind} {ids : List SpaceId} (h : op.Moves outcome Y ks)
    (hstack : ∀ id va, op = .setupStack id → outcome = .ok (.address va) → (Y.floor id).isSome = true)
    (hids : Y.Houses ids) : (Y.afterAll ks).Houses ((Label.ask op outcome).spacesAfter ids) := by
  have hnone : (∀ id v, .floor id v ∉ ks) → (Y.afterAll ks).Houses ids := fun h =>
    hids.congr (Layout.sameSpaces_afterAll fun id v hk => absurd hk (h id v))
  cases h with
  | create h =>
    obtain ⟨hnew⟩ := h
    exact hids.create hnew
  | fork h =>
    obtain ⟨hnew, h⟩ := h
    exact (hids.create hnew).congr h.sameSpaces
  | forkRefused h => exact hids.congr h.sameSpaces
  | drop h => exact hids.destroy h
  | copy h => exact hids.congr h.sameSpaces
  | copyRefused h => exact hids.congr h.sameSpaces
  | copyForeign | claim | claimRefused | removeRefused | mapRefused => exact hids
  | register h =>
    obtain ⟨h, -⟩ := h
    refine hnone fun id v hk => ?_
    rcases List.mem_append.mp hk with hk | hk
    · obtain ⟨_, _, h⟩ := h.mem hk
      cases h
    · cases List.mem_singleton.mp hk
  | registerRefused h =>
    refine hnone fun id v hk => ?_
    obtain ⟨_, _, h⟩ := h.mem hk
    cases h
  | resolve h | resolveRefused h => exact hids.congr h.sameSpaces
  | remove =>
    refine hnone fun id v hk => ?_
    cases List.mem_singleton.mp hk
  | map h =>
    obtain ⟨-, -⟩ := h
    refine hnone fun id v hk => ?_
    obtain ⟨_, _, h⟩ := Layout.mem_mapKinds hk
    cases h
  | unmap =>
    refine hnone fun id v hk => ?_
    obtain ⟨_, -, h⟩ := List.mem_map.mp hk
    cases h
  | setupStack =>
    refine hids.congr (Layout.sameSpaces_afterAll fun x v hk => ?_)
    rcases List.mem_cons.mp hk with hk | hk
    · cases hk
    · cases List.mem_singleton.mp hk
      exact ⟨rfl, hstack _ _ rfl rfl⟩
  | setupStackRefused h =>
    refine hnone fun id v hk => ?_
    rcases h with rfl | rfl
    · cases hk
    · cases List.mem_singleton.mp hk
  | read h => exact hids.congr h.sameSpaces
  | readStopped h => exact hids.congr (h.sameSpaces fun h => h.sameSpaces)
  | write h => exact hids.congr h.sameSpaces
  | writeRefused h => exact hids.congr (h.sameSpaces fun h => h.sameSpaces)

variable {lax : Tolerance} {m m' : Machine} {label : Label} {labels : List Label} {ids : List SpaceId}

theorem Step.houses (hs : Step lax m label m') (hm : Sound lax m none none)
    (h : (m.ledger none none).layout.Houses ids) :
    (m'.ledger none none).layout.Houses (label.spacesAfter ids) := by
  have htold := (hs.tells hm).told
  cases label with
  | outside =>
    have htrace : Ledger.Trace [.outside] (m.ledger none none) (m'.ledger none none) := htold
    rw [htrace.layout hm.books]
    exact h
  | ask op outcome =>
    obtain ⟨ks, hks, htrace⟩ := Operation.Tells.moves htold hm.books
    rw [htrace.layout hm.books]
    refine hks.houses (fun id va hop houtcome => ?_) h
    -- A stack is not set up in a space that is not there.
    subst hop houtcome
    rw [← Option.ne_none_iff_isSome]
    intro hnone
    cases hs with
    | ask _ hends =>
      cases hends with
      | ok hperform =>
        obtain ⟨sp, m₁, hsetup, -⟩ := Action.exists_of_bind_ok hperform
        rw [Machine.setupStack_eq_absent hnone] at hsetup
        cases hsetup

/-- **The spaces there are** are those that were made and not dropped, each made under an identity
of its own. -/
theorem Run.houses {m₀ : Machine} (h : Run lax m₀ labels m) (hm : Sound lax m₀ none none)
    (hnone : ∀ id, m₀.floorAt? id = none) :
    (m.ledger none none).layout.Houses (Label.spacesLeft labels) := by
  induction h with
  | refl =>
    refine ⟨List.nodup_nil, fun id => ?_⟩
    show id ∈ [] ↔ (m₀.floorAt? id).isSome = true
    simp [hnone]
  | step h hs ih =>
    rw [Label.spacesLeft, List.foldl_append]
    exact hs.houses (h.sound hm) ih

/-! ## Who refers to whom -/

namespace Machine

/-- A frame or a group lists a page of the space. -/
inductive Mentions (m : Machine) (id : SpaceId) : Prop
  | owner {f : FrameNum} {c : Frame} {v : PageNum} (hc : m.resident.get? f = some c)
      (ho : ⟨id, v⟩ ∈ c.owners) : Mentions m id
  | member {g : Nat} {G : EvictionGroup} {v : PageNum} (hG : m.groups[g]? = some G)
      (ho : ⟨id, v⟩ ∈ G.members) : Mentions m id

/-- **Identities tell what is there**, and nothing refers to what is not. -/
structure Identified (m : Machine) : Prop where
  /-- The identities in use are those of the spaces there are. -/
  spaces : ∀ id : SpaceId, m.spaceIds.Live id ↔ (m.spaces[id]?).isSome = true
  groups : ∀ g : Nat, m.groupIds.Live g ↔ (m.groups[g]?).isSome = true
  /-- Whom a frame lists is a page in that frame. -/
  owners : ∀ {f c o}, m.resident.get? f = some c → o ∈ c.owners → m.frameOf o = some f
  /-- Whom a group lists is a page in that group. -/
  members : ∀ {g : Nat} {G : EvictionGroup} {o : Owner}, m.groups[g]? = some G → o ∈ G.members →
    m.groupOf o = some g
  /-- Whoever names a group is listed there. -/
  named : ∀ {g : Nat} {o : Owner}, m.groupOf o = some g →
    ∃ G : EvictionGroup, m.groups[g]? = some G ∧ o ∈ G.members
  nextSpace : m.spaces[m.spaceIds.take.1]? = none
  nextGroup : m.groups[m.groupIds.take.1]? = none
  /-- No frame and no group mentions a space that is not there. -/
  unmentioned : ∀ id : SpaceId, m.spaces[id]? = none → ¬m.Mentions id
  /-- No page names a group that is not there. -/
  unnamed : ∀ g : Nat, m.groups[g]? = none → ∀ o, m.groupOf o ≠ some g

variable {hand pin : Option FrameNum} {f : FrameNum}

theorem page?_eq_none {o : Owner} (h : m.spaces[o.space]? = none) : m.page? o = none := by
  rw [page?_eq, h]
  rfl

/-- **A machine in order knows its identities.** -/
theorem Sound.identified (hm : Sound lax m hand pin) : m.Identified := by
  have hspaces : ∀ id : SpaceId, m.spaceIds.Live id ↔ (m.spaces[id]?).isSome = true := fun id => by
    rw [hm.kept.spaces, floorAt?, Option.isSome_map]
  have hacc := hm.slots_agree
  have howners : ∀ {f c o}, m.resident.get? f = some c → o ∈ c.owners → m.frameOf o = some f := by
    intro f c o hc ho
    exact (hm.mem_owners hc o).mp ho
  constructor
  case spaces => exact hspaces
  case groups => exact hm.kept.groups
  case owners => exact howners
  case members => exact fun hG ho => (hacc.members hG).mp ho
  case named =>
    intro g o hg
    obtain ⟨G, hG⟩ := Option.isSome_iff_exists.mp (hacc.named hg)
    exact ⟨G, hG, (hacc.members hG).mpr hg⟩
  case nextSpace =>
    have hfree := hm.kept.spaceIds.take.2.1
    rwa [hspaces, Option.not_isSome_iff_eq_none] at hfree
  case nextGroup => exact hm.nextGroup
  case unmentioned =>
    rintro id hnone (⟨hc, ho⟩ | ⟨hG, ho⟩)
    · have hframe := howners hc ho
      rw [frameOf, page?_eq_none hnone] at hframe
      cases hframe
    · have hgroup := (hacc.members hG).mp ho
      rw [groupOf, page?_eq_none hnone] at hgroup
      cases hgroup
  case unnamed =>
    intro g hnone o hg
    have hsome := hacc.named hg
    rw [hnone] at hsome
    cases hsome

/-! ## Handing a number out -/

/-- **Evicting a shared frame forms a group** under the number that is next, and changes no other group.
Nothing is done to groups if the frame has one owner. -/
theorem Sound.groups_of_evict (hm : Sound lax m none pin) (h : evict f m = .ok () m') :
    ∃ c slot, m.resident.get? f = some c ∧ ∀ g : Nat, m'.groups[g]? =
      if 1 < c.owners.length ∧ g = m.groupIds.take.1 then some ⟨c.owners, slot⟩ else m.groups[g]? := by
  cases hc : m.resident.get? f with
  | none =>
    have hmeets : Action.Meets (fun _ _ => True) (evict f) m (fun _ _ => False) fun _ _ => True := by
      unfold evict
      simp only [Action.meets_bind, Action.meets_get, Action.meets_require, hc]
      exact ⟨fun c h => (Option.some_ne_none c h.symm).elim, fun _ => trivial⟩
    exact (hmeets.of_ok h).elim
  | some c =>
    obtain ⟨leader, others, hl⟩ :=
      List.exists_cons_of_ne_nil (hm.books.crewed (owners_ledger_of_get? hc))
    have hleader := hm.identified.owners hc (hl ▸ List.mem_cons_self)
    obtain ⟨p, hp, -⟩ := Option.bind_eq_some_iff.mp hleader
    obtain ⟨frame, hbytes⟩ := hm.exists_bytes? (hm.held hc)
    obtain ⟨ev, hev⟩ := (meets_evict_machine hm hc hl hp hbytes).of_ok h
    exact ⟨c, ev.slot, rfl, hev.groups⟩

end Machine

/-- **A space is made under an identity that nothing refers to.** -/
theorem Step.not_mentions {op : Operation} {id : SpaceId}
    (hs : Step lax m (.ask op (.ok (.space id))) m') (hm : Sound lax m none none)
    (h : (m.ledger none none).layout.Houses ids) : id ∉ ids ∧ ¬m.Mentions id := by
  have hnew : id ∉ ids := (List.nodup_cons.mp (hs.houses hm h).nodup).1
  refine ⟨hnew, hm.identified.unmentioned id ?_⟩
  rw [h.mem] at hnew
  exact Option.map_eq_none_iff.mp (Option.not_isSome_iff_eq_none.mp hnew)

/-- The steps of a request take no number from one group to another. -/
theorem Step.regroups (hs : Step lax m label m') (hm : Sound lax m none none) :
    Relation.ReflTransGen Ledger.Regroups (m.ledger none none) (m'.ledger none none) := by
  obtain ⟨ks, htrace⟩ := (hs.tells hm).told.trace hm.books
  exact htrace.regroups hm.books

/-- **Identities are unique, and no trace is left of one that is handed out again.**

A pool hands out what is not in use, and only what is in use can be given back. So in every run the
spaces that were made and not dropped have different identities and are just the spaces there are;
what frames, groups and pages refer to is there; a space is made under an identity that nothing refers
to, and no number goes from one group to another. Whenever a frame is evicted, the group it leaves has
a number that was free. -/
theorem identities_unique :
    (∀ calls pool, replay IdPool.call? {} calls = some pool → pool.Answers calls) ∧
    (∀ config disk files labels m, config.userFrames ≤ Entry.frameLimit →
      Run .all (Machine.start config disk files) labels m →
        (Label.spacesLeft labels).Nodup ∧
        (∀ id : SpaceId, id ∈ Label.spacesLeft labels ↔ (m.spaces[id]?).isSome = true) ∧
        m.Identified ∧
        (∀ op id m', Step .all m (.ask op (.ok (.space id))) m' →
          id ∉ Label.spacesLeft labels ∧ ¬m.Mentions id) ∧
        ∀ label m', Step .all m label m' →
          Relation.ReflTransGen Ledger.Regroups (m.ledger none none) (m'.ledger none none)) ∧
    ∀ m pin, Sound .all m none pin → m.Identified ∧ ∀ f m', Machine.evict f m = .ok () m' →
      ∃ c slot, m.resident.get? f = some c ∧ ∀ g : Nat, m'.groups[g]? =
        if 1 < c.owners.length ∧ g = m.groupIds.take.1 then some ⟨c.owners, slot⟩
        else m.groups[g]? := by
  refine ⟨fun calls pool h => IdPool.answers_as_live h,
    fun config disk files labels m hframes hrun => ?_,
    fun m pin hm => ⟨hm.identified, fun f m' h => hm.groups_of_evict h⟩⟩
  have hstart : Sound .all (Machine.start config disk files) none none :=
    Machine.sound_start disk files hframes
  have hm := hrun.sound hstart
  have hhouses := hrun.houses hstart (Machine.floorAt?_start config disk files)
  refine ⟨hhouses.nodup, fun id => ?_, hm.identified, fun op id m' hs => hs.not_mentions hm hhouses,
    fun label m' hs => hs.regroups hm⟩
  rw [hhouses.mem]
  show (m.floorAt? id).isSome = true ↔ _
  rw [Machine.floorAt?, Option.isSome_map]

/-- Three identities are taken, one of them is given back and taken again, and then a new one. -/
def IdPool.callsThatReuse : List IdPool.Call :=
  [.take 3, .take 1, .release 1, .take 2, .take 1, .take 0]

/-- The first space of a machine is dropped and its identity is handed out again; a frame that two
spaces share is evicted. -/
theorem identities_unique_reused :
    (∃ pool, replay IdPool.call? {} IdPool.callsThatReuse = some pool ∧
      pool.Answers IdPool.callsThatReuse) ∧
    (∃ labels m m', Run .all (Machine.start { userFrames := 2 } (.blank 16)) labels m ∧
      0 < m.counters.evictions ∧ Step .all m (.ask .create (.ok (.space 0))) m' ∧
      Label.spacesLeft labels = [1] ∧ m.Identified ∧ ¬m.Mentions 0 ∧
      Relation.ReflTransGen Ledger.Regroups (m.ledger none none) (m'.ledger none none)) ∧
    ∃ m m' c slot, Sound .all m none none ∧ Machine.evict 0 m = .ok () m' ∧ m'.groups.size = 1 ∧
      m.resident.get? 0 = some c ∧ ∀ g : Nat, m'.groups[g]? =
        if 1 < c.owners.length ∧ g = m.groupIds.take.1 then some ⟨c.owners, slot⟩
        else m.groups[g]? := by
  have hstart : (2 : Nat) ≤ Entry.frameLimit := by decide
  refine ⟨?_, ?_, ?_⟩
  · have hsome : (replay IdPool.call? {} IdPool.callsThatReuse).isSome := by decide +kernel
    obtain ⟨pool, hpool⟩ := Option.isSome_iff_exists.mp hsome
    exact ⟨pool, hpool, identities_unique.1 _ _ hpool⟩
  · have h : ((Machine.start { userFrames := 2 } (.blank 16)).carry
        (Operation.crowding ++ [.drop 0])).any (fun r =>
          decide (0 < r.2.counters.evictions) && decide (Label.spacesLeft r.1 = [1]) &&
            (Operation.create.perform.result? r.2).any fun r' => decide (r'.1 = .space 0)) = true := by
      decide +kernel
    obtain ⟨r, hrun, -, hrest⟩ := Reachable.exists_of_carry hstart h
    simp only [Bool.and_eq_true, decide_eq_true_eq] at hrest
    obtain ⟨⟨hout, hleft⟩, hrest⟩ := hrest
    obtain ⟨reply, m', hcreate, hreply⟩ := Action.exists_ok_of_any hrest
    obtain rfl := of_decide_eq_true hreply
    have hs : Step .all r.2 (.ask .create (.ok (.space 0))) m' := .ask trivial (.ok hcreate)
    obtain ⟨-, -, hidentified, hfresh, hregroups⟩ := identities_unique.2.1 _ _ _ _ _ hstart hrun
    exact ⟨r.1, r.2, m', hrun, hout, hs, hleft, hidentified, (hfresh _ _ _ hs).2, hregroups _ _ hs⟩
  · have h : ((Machine.start { userFrames := 2 } (.blank 16)).carry (Operation.crowding.take 4)).any
        (fun r => ((Machine.evict 0).result? r.2).any fun r' =>
          decide (r'.2.groups.size = 1)) = true := by
      decide +kernel
    obtain ⟨r, -, hm, hrest⟩ := Reachable.exists_of_carry hstart h
    obtain ⟨_, m', hevict, hsize⟩ := Action.exists_ok_of_any hrest
    obtain ⟨c, slot, hc, hgroups⟩ := (identities_unique.2.2 _ _ hm.sound).2 _ _ hevict
    exact ⟨r.2, m', c, slot, hm.sound, hevict, of_decide_eq_true hsize, hc, hgroups⟩

end DemandPaging
