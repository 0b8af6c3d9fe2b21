import DemandPaging.Proofs.Tiling

/-!
# Unmapping a file

Unmapping takes away the pages from its address on that carry one number, as far as they go without a
gap, if the page before them does not carry it (`Machine.StartsMapping`, `Machine.MappingRun`), and does
nothing otherwise. Wherever these pages are, what becomes of the machine is told by `Machine.Withdrawn`.

Headline: **`RunWith.unmaps`**.
-/

namespace DemandPaging

open Machine (Sound)

namespace Machine

variable {lax : Tolerance} {m m₁ m' : Machine} {id : SpaceId} {va : Address} {o x : Owner}
  {gone as bs : List Owner} {k n : Nat}

/-! ## Taking pages away -/

/-- The pages of `gone` are registered no more. Other pages stay, in the groups that are there still. -/
structure TakenAway (gone : List Owner) (m m' : Machine) : Prop where
  page : ∀ x, m'.page? x =
    if x ∈ gone then none else (m.page? x).map (Page.inTeams fun g => m'.groups[g]?)
  counters : m'.counters =
    { m.counters with writeBacks := m.counters.writeBacks + (gone.filterMap m.unsaved?).length }
  rest : ∃ spaces resident frames swap files groups groupIds counters journal, m' = { m with
    spaces, resident, frames, backing := { m.backing with swap, files }, groups, groupIds, counters,
    journal }

/-- **The pages of `gone` were taken away**, after the dirty ones were written back. -/
structure Withdrawn (gone : List Owner) (m m' : Machine) : Prop extends TakenAway gone m m' where
  mapped : ∀ x, (m'.entryAt? x).map (·.grant.frame) =
    if x ∈ gone then none else (m.entryAt? x).map (·.grant.frame)
  dirty : ∀ x, m'.hasFlag x .dirty = (decide (x ∉ gone) && m.hasFlag x .dirty)
  /-- Frames keep their other owners, and those without any are free. -/
  crew : ∀ f, m'.resident.get? f =
    ((m.resident.get? f).map (Frame.leftBy gone)).filter fun c => c.owners ≠ []
  held : ∀ f, m'.frames.Held f ↔ (m'.resident.get? f).isSome
  bytes : ∀ f, (m'.frames.bytes? f).getD .zero = (m.frames.bytes? f).getD .zero
  /-- Groups keep their other members, as long as there are two. -/
  groups : ∀ g : Nat, m'.groups[g]? =
    ((m.groups[g]?).map (EvictionGroup.leftBy gone)).filter fun G => 1 < G.members.length
  /-- Slots nobody holds any more are free. -/
  slots : ∀ s, m'.backing.swap.occupied s = true ↔ ∃ x, m'.slotOf x = some s
  swapped : ∀ s, m'.backing.swap.content s = m.backing.swap.content s
  floor : ∀ id, m'.floorAt? id = m.floorAt? id
  file : m'.backing.files.file =
    (gone.filterMap m.unsaved?).foldl Ledger.save m.backing.files.file

/-- What is told of it does not matter. -/
theorem Withdrawn.noted (h : Withdrawn gone m m') (journal : Array Event) :
    Withdrawn gone m { m' with journal } := by
  have hrest := h.rest
  refine { h with rest := ?_ }
  obtain ⟨_, _, _, _, _, _, _, _, _, rfl⟩ := hrest
  exact ⟨_, _, _, _, _, _, _, _, _, rfl⟩

/-- What of `Withdrawn` is put together from removing one page after the other. -/
structure Withdraws (lax : Tolerance) (gone : List Owner) (m m' : Machine) : Prop
    extends TakenAway gone m m' where
  reaches : Reaches lax (Ledger.Withdrawn gone) m m'

theorem unsaved?_eq_ledger (m : Machine) : m.unsaved? = (m.ledger none none).unsaved? :=
  funext fun _ => unsaved?_ledger.symm

namespace Withdraws

theorem nil (hm : Sound lax m none none) : Withdraws lax [] m m :=
  ⟨⟨fun x => (hm.page?_inTeams x).symm, rfl, _, _, _, _, _, _, _, _, _, rfl⟩, hm.kept, .nil hm.books⟩

theorem trans (h : Withdraws lax as m m₁) (h' : Withdraws lax bs m₁ m')
    (hdisjoint : ∀ x ∈ bs, x ∉ as) : Withdraws lax (as ++ bs) m m' := by
  refine ⟨⟨h'.reaches.told.page_trans h.page h'.page, ?_, ?_⟩, h'.reaches.kept,
    h.reaches.told.trans h'.reaches.told hdisjoint⟩
  · have hsame : bs.filterMap m₁.unsaved? = bs.filterMap m.unsaved? := by
      rw [unsaved?_eq_ledger, unsaved?_eq_ledger]
      exact List.filterMap_congr fun x hx => h.reaches.told.unsaved?_of_stays (hdisjoint x hx)
    rw [h'.counters, h.counters, hsame, List.filterMap_append, List.length_append, Nat.add_assoc]
  · obtain ⟨_, _, _, _, _, _, _, _, _, rfl⟩ := h.rest
    obtain ⟨_, _, _, _, _, _, _, _, _, rfl⟩ := h'.rest
    exact ⟨_, _, _, _, _, _, _, _, _, rfl⟩

/-- **What became of the machine.** -/
theorem withdrawn (h : Withdraws lax gone m m') (hm : Sound lax m none none)
    (hm' : Sound lax m' none none) : Withdrawn gone m m' := by
  have htold := h.reaches.told
  obtain ⟨_, _, _, _, _, _, _, hrest⟩ := htold.rest
  refine ⟨h.toTakenAway, fun x => ?_, fun x => ?_, htold.crew, fun f => ?_,
    fun f => congrFun (congrArg Ledger.bytes hrest) f, htold.team, fun s => ?_,
    fun s => congrFun (congrArg Ledger.swapped hrest) s,
    fun id => congrFun (congrArg Ledger.floor hrest) id, ?_⟩
  · show (m'.entryAt? x).map Entry.frame =
      if x ∈ gone then none else (m.entryAt? x).map Entry.frame
    rw [hm'.frame_entryAt?, hm.frame_entryAt?, frameOf, frameOf, h.page]
    split
    · rfl
    · cases m.page? x <;> rfl
  · rw [← isDirty_ledger, ← isDirty_ledger]
    exact htold.dirty x
  · exact (hm'.books.holds f).trans (or_iff_left (Option.some_ne_none f).symm)
  · refine (hm'.books.taken s).trans (exists_congr fun x => ?_)
    rw [slot_ledger]
  · rw [unsaved?_eq_ledger]
    exact htold.file

end Withdraws

theorem Removed.withdraws (h : Removed lax o true m m') (hm : Sound lax m none none) :
    Withdraws lax [o] m m' := by
  refine ⟨⟨fun x => ?_, ?_, h.rest⟩, h.reaches.kept, h.reaches.told.withdrawn hm.books⟩
  · simp only [List.mem_singleton]
    exact h.page x
  · rw [h.counters, Bool.true_and, List.filterMap_cons, List.filterMap_nil]
    cases m.unsaved? o <;> rfl

/-- The file of a page takes all of it that is lost otherwise. -/
def TakesBack (m : Machine) (o : Owner) : Prop :=
  ∀ s, m.unsaved? o = some s → s.1.TakenBy (m.backing.files.file s.1.handle) s.2

/-- No file takes less as long as none may. -/
theorem Sound.takesBack (hm : Sound lax m none none) (hlax : ∀ v, ¬lax v) (o : Owner) :
    m.TakesBack o := by
  intro s hs
  rw [unsaved?] at hs
  split at hs
  · obtain ⟨p, hp, hs⟩ := Option.bind_eq_some_iff.mp hs
    obtain ⟨f, -, hs⟩ := Option.bind_eq_some_iff.mp hs
    rw [Page.window?_located, Option.map_map] at hs
    obtain ⟨w, hw, rfl⟩ := Option.map_eq_some_iff.mp hs
    have husable := hm.kept.windows hp hw
    have hsmall : w.readBytes ≤ pageSize := husable.small.resolve_left (hlax _)
    have htaken := husable.taken.resolve_left fun hall => hlax _ (hall 0 0)
    exact ⟨hsmall, htaken.taken_eq (PageBytes.size_slice hsmall)⟩
  · cases hs

/-- Who stays may be written back as before. -/
theorem Withdraws.takesBack (h : Withdraws lax gone m m') (hx : x ∉ gone) (ht : m.TakesBack x) :
    m'.TakesBack x := by
  intro s hs
  have hfile : m'.backing.files.file = _ := h.reaches.told.file
  rw [unsaved?_eq_ledger, h.reaches.told.unsaved?_of_stays hx, ← unsaved?_eq_ledger] at hs
  rw [hfile]
  exact (ht s hs).extends (Ledger.extends_foldl_save _ _ _)

/-- **Removing registered pages in turn**, as long as their files take them back. -/
theorem meets_forM_removePage {F : Violation → Machine → Prop} {R : Refusal → Machine → Prop}
    (id : SpaceId) : ∀ {vs : List PageNum} {m : Machine}, vs.Nodup →
      (∀ v ∈ vs, (m.page? ⟨id, v⟩).isSome) → (∀ v ∈ vs, m.TakesBack ⟨id, v⟩) →
      Sound lax m none none →
      Action.Meets F (vs.forM fun v => removePage ⟨id, v⟩ true) m
        (fun _ m' => Withdraws lax (vs.map (Owner.mk id)) m m' ∧ Sound lax m' none none) R
  | [], m, _, _, _, hm => ⟨.nil hm, hm⟩
  | v :: vs, m, hnodup, hvs, htakes, hm => by
    obtain ⟨hv, hnodup⟩ := List.nodup_cons.mp hnodup
    obtain ⟨p, hp⟩ := Option.isSome_iff_exists.mp (hvs v List.mem_cons_self)
    show Action.Meets F (removePage ⟨id, v⟩ true >>= fun _ => vs.forM _) m _ _
    refine ((meets_removePage_of_page hm hp true).relax fun _ _ h => ?_).bind (fun _ m₁ h₁ => ?_)
      fun _ _ h => h
    · obtain ⟨-, s, hs, hshort⟩ := h
      exact absurd (htakes v List.mem_cons_self s hs) hshort
    have hfirst := h₁.withdraws hm
    have hm₁ : Sound lax m₁ none none := ⟨h₁.reaches.told.sound hm.books, h₁.reaches.kept⟩
    have hapart : ∀ x ∈ vs, (⟨id, x⟩ : Owner) ∉ [(⟨id, v⟩ : Owner)] := fun x hx heq =>
      hv ((Owner.mk.inj (List.mem_singleton.mp heq)).2 ▸ hx)
    refine (meets_forM_removePage id hnodup (fun x hx => ?_) (fun x hx => ?_) hm₁).mono
      (fun _ m₂ h₂ => ⟨hfirst.trans h₂.1 fun y hy => ?_, h₂.2⟩) fun _ _ h => h
    · rw [hfirst.page, if_neg (hapart x hx), Option.isSome_map]
      exact hvs x (List.mem_cons_of_mem v hx)
    · exact hfirst.takesBack (hapart x hx) (htakes x (List.mem_cons_of_mem v hx))
    · obtain ⟨x, hx, rfl⟩ := List.mem_map.mp hy
      exact hapart x hx

/-! ## Unmapping -/

/-- The pages of a run. -/
def runOf (id : SpaceId) (v : PageNum) (n : Nat) : List Owner := (List.range' v n).map (Owner.mk id)

theorem mem_runOf {v : PageNum} : o ∈ runOf id v n ↔ o.space = id ∧ o.vpn ∈ List.range' v n := by
  unfold runOf
  rw [List.mem_map]
  exact ⟨fun ⟨_, hx, heq⟩ => heq ▸ ⟨rfl, hx⟩, fun ⟨hid, hx⟩ => ⟨o.vpn, hx, by rw [← hid]⟩⟩

/-- **Unmapping a mapping at its start** takes away its run. -/
theorem meets_unmap_of_starts {F : Violation → Machine → Prop} {R : Refusal → Machine → Prop}
    (hm : Sound lax m none none) (hk : m.StartsMapping id va.page k)
    (hn : m.MappingRun id va.page k n) (htakes : ∀ o ∈ runOf id va.page n, m.TakesBack o) :
    Action.Meets F (unmap id va) m (fun _ m' => Withdrawn (runOf id va.page n) m m') R := by
  refine meets_unmap_of (fun k' n' hk' hn' => ?_) fun hnone => absurd hk (hnone k)
  obtain rfl := Option.some.inj (hk.first.symm.trans hk'.first)
  obtain rfl := hn.length_eq hn'
  refine (meets_forM_removePage id List.nodup_range' (fun v hv => hn.isSome_page? hv)
    (fun v hv => htakes _ (List.mem_map_of_mem hv)) hm).mono (fun _ m₁ h m' hnoted => ?_) fun _ _ h => h
  obtain ⟨journal, rfl⟩ := hnoted.rest
  exact (h.1.withdrawn hm h.2).noted journal

/-- Where no mapping starts unmapping does nothing. -/
theorem meets_unmap_of_not_starts {F : Violation → Machine → Prop} {R : Refusal → Machine → Prop}
    (hk : ∀ k, ¬m.StartsMapping id va.page k) :
    Action.Meets F (unmap id va) m (fun _ m' => ∃ journal, m' = { m with journal }) R :=
  meets_unmap_of (fun k _ hk' => absurd hk' (hk k)) fun _ _ h => h.rest

/-- There is a run where a mapping starts. -/
theorem StartsMapping.exists_run {v : PageNum} (hk : m.StartsMapping id v k) :
    ∃ n, 0 < n ∧ m.MappingRun id v k n := by
  obtain ⟨p, hp, -⟩ := Option.map_eq_some_iff.mp hk.first
  obtain ⟨space, hspace, -⟩ := floorAt?_of_page? hp
  obtain ⟨n, -, hn⟩ := exists_mappingRun hspace k v
  exact ⟨n, Nat.pos_of_ne_zero fun hzero => hn.stop (by rw [hzero]; exact hk.first), hn⟩

end Machine

/-! ## A mapping that was not touched -/

section

variable {lax : Tolerance} {m m₁ m₂ m' : Machine} {label : Label} {labels : List Label} {id : SpaceId}
  {va : Address} {o : Owner} {w : FileWindow} {length offset : Nat} {writable : Bool}
  {handle : HandleNum} {reply : Reply} {config : Config} {disk : Disk} {files : FileStore}

/-- A page that stays registered keeps its window. -/
theorem Step.homeOf_eq (hs : Step lax m label m') (hm : Sound lax m none none)
    (hw : m.homeOf o = some w) (hthere : (m'.page? o).isSome) : m'.homeOf o = some w := by
  obtain ⟨p, hp, hhome⟩ := Option.bind_eq_some_iff.mp hw
  have hpage : (m.ledger none none).page o = some (p.located m.backing.files) :=
    Machine.page_ledger_of_page? hp
  obtain ⟨ks, htrace, hstays⟩ := (hs.tells hm).told.stays hm.books
  obtain ⟨q, hq, hface⟩ := htrace.face_of_page hm.books hpage
    (hstays o (by rw [hpage]; rfl) (Option.isSome_map.trans hthere))
  have hsame : q.home? = (p.located m.backing.files).home? := congrArg (fun f => f.2.2.2) hface
  exact Machine.homeOf_of_ledger hq (hsame.trans hhome)

theorem RunWith.homeOf_eq {Q : Machine → Label → Machine → Prop} (h : RunWith Q lax m labels m')
    (hQ : ∀ {a label b}, Q a label b → (b.page? o).isSome) (hm : Sound lax m none none)
    (hw : m.homeOf o = some w) : m'.homeOf o = some w := by
  induction h with
  | refl => exact hw
  | step h hs hlabel ih => exact hs.homeOf_eq (h.run.sound hm) ih (hQ hlabel)

/-- The number of a page can be told from its window. -/
theorem Machine.mappingAt_of_homeOf {v : PageNum} (hw : m.homeOf ⟨id, v⟩ = some w) :
    m.mappingAt id v = some w.mapping := by
  obtain ⟨p, hp, hhome⟩ := Option.bind_eq_some_iff.mp hw
  rw [Machine.mappingAt, hp, ← Page.mapping_of_home? hhome, Page.mapping_located]
  rfl

/-- What a request to map a file that went through laid out. -/
theorem Step.laid (hmap : Step lax m (.ask (.map id va length writable handle offset) (.ok reply)) m₁) :
    m.MayMap id va length handle offset ∧ (m.mappingOf id va length handle offset).Laid writable va.page
      ((length + (pageSize - 1)) / pageSize) m m₁ ∧ m₁.nextMapping = m.nextMapping + 1 := by
  cases hmap with
  | ask hop h =>
    cases h with
    | ok h =>
      exact (Operation.meets_map (F := fun _ _ => True) m id va length writable handle offset).of_ok h

/-- The pages of a mapping are those that were registered when it was made. -/
theorem FileMapping.Laid.mem_runOf {M : FileMapping} {p : PageNum} {n : Nat}
    (h : M.Laid writable p n m m₁) (o : Owner) :
    o ∈ Machine.runOf M.id p n ↔ m.page? o = none ∧ (m₁.page? o).isSome := by
  constructor
  · intro ho
    obtain ⟨v, hv, rfl⟩ := List.mem_map.mp ho
    obtain ⟨hlow, hhigh⟩ := List.mem_range'_1.mp hv
    obtain ⟨j, rfl⟩ := Nat.exists_eq_add_of_le hlow
    have hj : j < n := Nat.lt_of_add_lt_add_left hhigh
    obtain ⟨_, -, -, hpage⟩ := h.pages j hj
    exact ⟨h.free j hj, by rw [hpage]; rfl⟩
  · rintro ⟨hnone, hsome⟩
    by_contra hout
    rw [h.others o fun j hj heq => hout ?_, hnone] at hsome
    · cases hsome
    · rw [heq]
      exact Machine.mem_runOf.mpr ⟨rfl, List.mem_range'_1.mpr
        ⟨Nat.le_add_right _ _, Nat.add_lt_add_left hj _⟩⟩

/-- **A mapping whose pages stayed registered** is a run of its own. -/
theorem RunWith.mappingRun (hm : Sound lax m none none) (hn : m.Numbers)
    (hmap : Step lax m (.ask (.map id va length writable handle offset) (.ok reply)) m₁)
    (hrun : RunWith (fun _ label m' => label.Unnumbered ∧
      ∀ j < (length + (pageSize - 1)) / pageSize, (m'.page? ⟨id, va.page + j⟩).isSome) lax m₁ labels m₂) :
    m₂.StartsMapping id va.page m.nextMapping ∧
      m₂.MappingRun id va.page m.nextMapping ((length + (pageSize - 1)) / pageSize) := by
  have hm₁ := hmap.sound hm
  obtain ⟨hmay, hlaid, hnumber⟩ := hmap.laid
  have hne : m.nextMapping ≠ 0 := Nat.pos_iff_ne_zero.mp hm.kept.numbers
  have hpos : 0 < (length + (pageSize - 1)) / pageSize := by
    have hlength := hmay.nonempty
    show 0 < (length + 4095) / 4096
    omega
  generalize (length + (pageSize - 1)) / pageSize = n at hrun hlaid hpos ⊢
  -- The pages of the mapping keep their windows, and so its number.
  have hpages : ∀ j < n, m₂.mappingAt id (va.page + j) = some m.nextMapping := fun j hj => by
    obtain ⟨h, -, -, hpage⟩ := hlaid.pages j hj
    have hhome : m₁.homeOf ⟨id, va.page + j⟩ = some _ :=
      (congrArg (·.bind fun p => (p.located m₁.backing.files).home?) hpage).trans rfl
    exact Machine.mappingAt_of_homeOf (hrun.homeOf_eq (fun h => h.2 j hj) hm₁ hhome)
  -- No other page carries that number, in whatever space.
  have hothers : m₂.NumberedBy fun v k => k = m.nextMapping → va.page ≤ v ∧ v < va.page + n := by
    refine hrun.numberedBy (fun h => h.1) hm₁ (fun v h => absurd h.symm hne) (fun k hk v h => ?_)
      (hlaid.numberedBy (fun o p hp h => ?_) fun j hj _ => ⟨Nat.le_add_right _ _, Nat.add_lt_add_left hj _⟩)
    · rw [hnumber, h] at hk
      exact absurd hk (Nat.not_succ_le_self _)
    · exact absurd h (Nat.ne_of_lt (hn o p hp))
  have houtside : ∀ v, ¬(va.page ≤ v ∧ v < va.page + n) → m₂.mappingAt id v ≠ some m.nextMapping :=
    fun v hv h => by
      obtain ⟨p, hp, hk⟩ := Option.map_eq_some_iff.mp h
      exact hv (hothers ⟨id, v⟩ p hp hk)
  exact ⟨⟨hne, hpages 0 hpos, fun hv => houtside _ fun h =>
      absurd h.1 (Nat.not_le.mpr (Nat.sub_lt hv Nat.one_pos))⟩,
    hpages, houtside _ fun h => Nat.lt_irrefl _ h.2⟩

/-- **Unmapping takes away exactly one run of one mapping**, or nothing. -/
theorem RunWith.unmaps (hframes : config.userFrames ≤ Entry.frameLimit)
    (hrun : RunWith (fun _ label _ => label.Unnumbered) lax (Machine.start config disk files) labels m)
    (id : SpaceId) (va : Address) :
    (∀ k, m.StartsMapping id va.page k → ∃ n, 0 < n ∧ m.MappingRun id va.page k n ∧
      ((∀ o ∈ Machine.runOf id va.page n, m.TakesBack o) → ∃ m', Machine.unmap id va m = .ok () m' ∧
        Machine.Withdrawn (Machine.runOf id va.page n) m m' ∧
        ∀ x p, m.page? x = some p → x.space ≠ id ∨ p.mapping ≠ k → (m'.page? x).isSome)) ∧
    ((∀ k, ¬m.StartsMapping id va.page k) →
      ∃ journal, Machine.unmap id va m = .ok () { m with journal }) ∧
    ∀ length writable handle offset reply m₁ labels' m₂,
      Step lax m (.ask (.map id va length writable handle offset) (.ok reply)) m₁ →
      RunWith (fun _ label m' => label.Unnumbered ∧ ∀ j < (length + (pageSize - 1)) / pageSize,
        (m'.page? ⟨id, va.page + j⟩).isSome) lax m₁ labels' m₂ →
      let run := Machine.runOf id va.page ((length + (pageSize - 1)) / pageSize)
      (∀ o, o ∈ run ↔ m.page? o = none ∧ (m₁.page? o).isSome) ∧
        ((∀ o ∈ run, m₂.TakesBack o) →
          ∃ m', Machine.unmap id va m₂ = .ok () m' ∧ Machine.Withdrawn run m₂ m') := by
  have hstart : Sound lax (Machine.start config disk files) none none :=
    Machine.sound_start disk files hframes
  have hm : Sound lax m none none := hrun.run.sound hstart
  refine ⟨fun k hk => ?_, fun hk => ?_, ?_⟩
  · obtain ⟨n, hpos, hn⟩ := hk.exists_run
    refine ⟨n, hpos, hn, fun htakes => ?_⟩
    obtain ⟨_, m', hok, h⟩ := (Machine.meets_unmap_of_starts (F := fun _ _ => False)
      (R := fun _ _ => False) hm hk hn htakes).exists_ok
    refine ⟨m', hok, h, fun x p hx hother => ?_⟩
    have hstays : x ∉ Machine.runOf id va.page n := fun hin => by
      obtain ⟨rfl, hv⟩ := Machine.mem_runOf.mp hin
      have hat := hn.mappingAt_eq hv
      rw [Machine.mappingAt, hx] at hat
      exact hother.elim (absurd rfl) fun hne => hne (Option.some.inj hat)
    rw [h.page, if_neg hstays, hx]
    rfl
  · obtain ⟨_, m', hok, journal, rfl⟩ := (Machine.meets_unmap_of_not_starts (F := fun _ _ => False)
      (R := fun _ _ => False) hk).exists_ok
    exact ⟨journal, hok⟩
  · intro length writable handle offset reply m₁ labels' m₂ hmap hrun'
    have hm₂ : Sound lax m₂ none none := hrun'.run.sound (hmap.sound hm)
    obtain ⟨hk, hn⟩ := RunWith.mappingRun hm
      (hrun.numbers hstart (Machine.numbers_start config disk files)) hmap hrun'
    refine ⟨fun o => hmap.laid.2.1.mem_runOf o, fun htakes => ?_⟩
    obtain ⟨_, m', hok, h⟩ := (Machine.meets_unmap_of_starts (F := fun _ _ => False)
      (R := fun _ _ => False) hm₂ hk hn htakes).exists_ok
    exact ⟨m', hok, h⟩

/-- A file of one page is mapped with a page beyond its end, written, and unmapped after its space was
forked. -/
theorem RunWith.unmaps_forked : ∃ labels m reply m₁ labels' m₂ m',
    RunWith (fun _ label _ => label.Unnumbered) .none Machine.withFile labels m ∧
    Step .none m (.ask (.map 0 ⟨0x1000⟩ 8192 true 0 0) (.ok reply)) m₁ ∧
    RunWith (fun _ label m' => label.Unnumbered ∧ ∀ j < 2, (m'.page? ⟨0, 1 + j⟩).isSome) .none m₁ labels' m₂ ∧
    (m₂.unsaved? ⟨0, 1⟩).isSome ∧ m₂.mappingAt 1 1 = m₂.mappingAt 0 1 ∧
    Machine.unmap 0 ⟨0x1000⟩ m₂ = .ok () m' ∧ Machine.Withdrawn [⟨0, 1⟩, ⟨0, 2⟩] m₂ m' ∧
    (m'.page? ⟨1, 1⟩).isSome := by
  have h : (Machine.withFile.carryWith (fun _ label _ => label.isUnnumbered) [.create]).any (fun r =>
      decide (0 < r.2.backing.files.handles.size ∧
        pageSize ≤ (r.2.backing.files.fileOf 0).writeCap) &&
      ((Operation.map 0 ⟨0x1000⟩ 8192 true 0 0).perform.result? r.2).any fun r₁ =>
      (r₁.2.carryWith (fun m label m' => label.isUnnumbered &&
        Machine.staysOn [⟨0, 1⟩, ⟨0, 2⟩] m label m') [.write 0 ⟨0x1000⟩ #[7], .fork 0]).any fun r =>
      decide ((r.2.unsaved? ⟨0, 1⟩).isSome ∧ r.2.mappingAt 1 1 = r.2.mappingAt 0 1 ∧
        (r.2.page? ⟨1, 1⟩).isSome)) = true := by decide +kernel
  obtain ⟨⟨labels, m⟩, hrun, hdone⟩ := Machine.exists_runWith (P := fun _ label _ => label.Unnumbered)
    (Operation.carryable_of_isPlain (by decide)) (fun _ _ _ _ => Label.unnumbered_of_isUnnumbered) h
  obtain ⟨hfacts, hdone⟩ := Bool.and_eq_true_iff.mp hdone
  obtain ⟨hopen, hcap⟩ := of_decide_eq_true hfacts
  obtain ⟨reply, m₁, hmap, hdone⟩ := Action.exists_ok_of_any hdone
  have hstep : Step .none m (.ask (.map 0 ⟨0x1000⟩ 8192 true 0 0) (.ok reply)) m₁ :=
    .ask ⟨hopen, Or.inr fun _ => hcap⟩ (.ok hmap)
  obtain ⟨⟨labels', m₂⟩, hrun', hdone⟩ := Machine.exists_runWith
    (P := fun _ label m' => label.Unnumbered ∧ ∀ j < 2, (m'.page? ⟨0, 1 + j⟩).isSome)
    (Operation.carryable_of_isPlain (by decide)) (fun _ _ _ m' hcheck => by
      obtain ⟨hnumber, hstays⟩ := Bool.and_eq_true_iff.mp hcheck
      refine ⟨Label.unnumbered_of_isUnnumbered hnumber, fun j hj => ?_⟩
      refine List.all_eq_true.mp (Bool.and_eq_true_iff.mp hstays).1 _ ?_
      match j, hj with
      | 0, _ => decide
      | 1, _ => decide) hdone
  obtain ⟨hunsaved, hsame, hchild⟩ := of_decide_eq_true hdone
  have hm₂ : Sound .none m₂ none none :=
    hrun'.run.sound (hstep.sound (hrun.run.sound (Machine.sound_start _ _ (by decide))))
  obtain ⟨-, -, hmapped⟩ := RunWith.unmaps (by decide) hrun 0 ⟨0x1000⟩
  obtain ⟨-, hgone⟩ := hmapped 8192 true 0 0 reply m₁ labels' m₂ hstep hrun'
  obtain ⟨m', hok, hwithdrawn⟩ := hgone fun o _ => hm₂.takesBack (fun _ => id) o
  refine ⟨labels, m, reply, m₁, labels', m₂, m', hrun, hstep, hrun', hunsaved, hsame, hok, hwithdrawn, ?_⟩
  rw [hwithdrawn.page, if_neg (by decide), Option.isSome_map]
  exact hchild

end

end DemandPaging
