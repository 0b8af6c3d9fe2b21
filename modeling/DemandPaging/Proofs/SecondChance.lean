import DemandPaging.Proofs.Run

/-!
# The second chance

A scan looks at the frames that are not pinned, in one direction, and forgets of every frame it looks
at that it was touched. A mapping belongs to one frame only, so looking at a frame does not change what
the scan will find of another: the first scan stops at the first frame that was not touched, and if
there is none it has cleared every mark, so that the second scan stops at once.

Headline: **`Reachable.second_chance`**, with any frames pinned.
-/

namespace DemandPaging

open Machine (Sound isAccessed clearAccessed testAndClear)

/-! ## One scan -/

namespace FrameTable

variable {σ : Type} {touched : List Owner → σ → Bool × σ} {order : List (FrameNum × Frame)}
  {spaces : Table AddressSpace} {n : Nat}

/-- Asking whether a frame was touched, with a count of how often that was asked. -/
def counted (touched : List Owner → σ → Bool × σ) (owners : List Owner) (s : σ × Nat) :
    Bool × σ × Nat :=
  ((touched owners s.1).1, (touched owners s.1).2, s.2 + 1)

/-- Counting changes nothing else of a scan. -/
theorem firstUntouched_of_counted {found : Option FrameNum} {s s' : σ} {n n' : Nat}
    (h : firstUntouched (counted touched) order (s, n) = (found, s', n')) :
    firstUntouched touched order s = (found, s') := by
  induction order generalizing s n with
  | nil =>
    obtain ⟨rfl, hs⟩ := Prod.mk.inj h
    obtain ⟨rfl, -⟩ := Prod.mk.inj hs
    rfl
  | cons e rest ih =>
    unfold firstUntouched counted at h
    unfold firstUntouched
    cases htouched : touched e.2.owners s with
    | mk answer s₁ =>
      rw [htouched] at h
      cases answer with
      | true => exact ih h
      | false =>
        obtain ⟨rfl, hs⟩ := Prod.mk.inj h
        obtain ⟨rfl, -⟩ := Prod.mk.inj hs
        rfl

/-- A frame the first scan finds is chosen. -/
theorem selectVictim_of_found {table : FrameTable} {f : FrameNum} {s s' : σ}
    (h : firstUntouched touched table.scanOrder s = (some f, s')) :
    table.selectVictim touched s = (some f, { table with upward := !table.upward }, s') := by
  unfold selectVictim
  simp only [h]

/-- What the second scan finds is chosen if the first finds nothing, and the first frame of all if
neither does. -/
theorem selectVictim_of_none {table : FrameTable} {found : Option FrameNum} {s s' s'' : σ}
    (h : firstUntouched touched table.scanOrder s = (none, s'))
    (h' : firstUntouched touched table.scanOrder s' = (found, s'')) :
    table.selectVictim touched s = (found.or (table.scanOrder.head?.map Prod.fst),
      { table with upward := !table.upward }, s'') := by
  unfold selectVictim
  simp only [h, h']
  cases found <;> rfl

/-- Counting changes nothing else of the choice. -/
theorem selectVictim_of_counted {table table' : FrameTable} {victim : Option FrameNum} {s s' : σ}
    {n n' : Nat} (h : table.selectVictim (counted touched) (s, n) = (victim, table', s', n')) :
    table.selectVictim touched s = (victim, table', s') := by
  rcases hscan : firstUntouched (counted touched) table.scanOrder (s, n) with ⟨_ | f, s₁, n₁⟩
  · rcases hagain : firstUntouched (counted touched) table.scanOrder (s₁, n₁) with ⟨found, s₂, n₂⟩
    rw [selectVictim_of_none hscan hagain] at h
    rw [selectVictim_of_none (firstUntouched_of_counted hscan) (firstUntouched_of_counted hagain)]
    simp only [Prod.mk.injEq] at h ⊢
    exact ⟨h.1, h.2.1, h.2.2.1⟩
  · rw [selectVictim_of_found hscan] at h
    rw [selectVictim_of_found (firstUntouched_of_counted hscan)]
    simp only [Prod.mk.injEq] at h ⊢
    exact ⟨h.1, h.2.1, h.2.2.1⟩

/-- The accessed bits of the owners of frames are cleared. -/
def clear (spaces : Table AddressSpace) (frames : List (FrameNum × Frame)) : Table AddressSpace :=
  (frames.flatMap fun e => e.2.owners).foldl clearAccessed spaces

/-- Whether a frame was touched. -/
def touches (spaces : Table AddressSpace) (e : FrameNum × Frame) : Bool :=
  e.2.owners.any (isAccessed spaces)

theorem isAccessed_clearAccessed (spaces : Table AddressSpace) (o x : Owner) :
    isAccessed (clearAccessed spaces o) x = (isAccessed spaces x && !decide (x = o)) := by
  unfold isAccessed clearAccessed
  rw [Std.ExtTreeMap.getElem?_modify]
  simp only [Nat.compare_eq_eq]
  obtain ⟨s, v⟩ := o
  obtain ⟨s', v'⟩ := x
  by_cases hs : s = s'
  · subst hs
    rw [if_pos rfl]
    cases spaces[s]? with
    | none => rfl
    | some space =>
      simp only [Option.map_some, Option.any_some, PageTable.has,
        PageTable.lookup?_put space.table v v' (show Flag.accessed ≠ .valid by decide) false,
        Owner.mk.injEq, true_and]
      by_cases hv : v = v'
      · subst hv
        cases space.table.lookup? v <;> simp
      · simp [hv, Ne.symm hv]
  · simp [hs, Ne.symm hs]

theorem isAccessed_foldl (x : Owner) : ∀ (l : List Owner) (spaces : Table AddressSpace),
    isAccessed (l.foldl clearAccessed spaces) x = (isAccessed spaces x && !decide (x ∈ l))
  | [], _ => by simp
  | o :: l, spaces => by
    rw [List.foldl_cons, isAccessed_foldl x l, isAccessed_clearAccessed]
    by_cases hx : x = o <;> simp [hx]

/-- What a frame is found to be does not depend on what other frames were looked at. -/
theorem touches_foldl {e : FrameNum × Frame} {l : List Owner} (h : ∀ o ∈ l, o ∉ e.2.owners) :
    touches (l.foldl clearAccessed spaces) e = touches spaces e := by
  unfold touches
  rw [Bool.eq_iff_iff, List.any_eq_true, List.any_eq_true]
  refine exists_congr fun o => and_congr_right fun ho => ?_
  have hnot : o ∉ l := fun hl => h o hl ho
  simp [isAccessed_foldl, hnot]

/-- A frame that was looked at is not touched any more. -/
theorem not_touches_clear {e : FrameNum × Frame} {frames : List (FrameNum × Frame)}
    (h : e ∈ frames) : touches (clear spaces frames) e = false := by
  refine List.any_eq_false.mpr fun o ho => ?_
  have hmem : o ∈ frames.flatMap fun e => e.2.owners := List.mem_flatMap.mpr ⟨e, h, ho⟩
  rw [clear, isAccessed_foldl]
  simp [hmem]

/-- No page is an owner of two of the frames. -/
def Apart (order : List (FrameNum × Frame)) : Prop :=
  order.Pairwise fun e e' => ∀ o ∈ e.2.owners, o ∉ e'.2.owners

/-- **A scan** stops at the first frame that was not touched, or finds that all were; it clears the
frames it looked at, each of them once. -/
theorem firstUntouched_testAndClear (spaces : Table AddressSpace) (n : Nat)
    (hapart : Apart order) :
    (∃ before e after, order = before ++ e :: after ∧ (∀ e' ∈ before, touches spaces e' = true) ∧
      touches spaces e = false ∧ firstUntouched (counted testAndClear) order (spaces, n) =
        (some e.1, clear spaces (before ++ [e]), n + (before.length + 1))) ∨
    (∀ e ∈ order, touches spaces e = true) ∧
      firstUntouched (counted testAndClear) order (spaces, n) =
        (none, clear spaces order, n + order.length) := by
  induction order generalizing spaces n with
  | nil => exact Or.inr ⟨nofun, rfl⟩
  | cons e rest ih =>
    obtain ⟨hfirst, hrest⟩ := List.pairwise_cons.mp hapart
    have hsame : ∀ e' ∈ rest, touches (e.2.owners.foldl clearAccessed spaces) e' = touches spaces e' :=
      fun e' he' => touches_foldl (hfirst e' he')
    have hclear : ∀ frames, clear (e.2.owners.foldl clearAccessed spaces) frames =
        clear spaces (e :: frames) := fun frames => by
      simp [clear, List.foldl_append]
    unfold firstUntouched
    have hlook : counted testAndClear e.2.owners (spaces, n) =
      (touches spaces e, e.2.owners.foldl clearAccessed spaces, n + 1) := rfl
    rw [hlook]
    cases htouched : touches spaces e with
    | false => exact Or.inl ⟨[], e, rest, rfl, nofun, htouched, by simp [clear]⟩
    | true =>
      dsimp only
      rcases ih (e.2.owners.foldl clearAccessed spaces) (n + 1) hrest with
        ⟨before, e', after, rfl, hbefore, hfound, heq⟩ | ⟨hall, heq⟩
      · refine Or.inl ⟨e :: before, e', after, rfl, ?_, ?_, ?_⟩
        · refine List.forall_mem_cons.mpr ⟨htouched, fun e'' he'' => ?_⟩
          rw [← hsame e'' (List.mem_append_left _ he'')]
          exact hbefore e'' he''
        · rw [← hsame e' (List.mem_append_right _ List.mem_cons_self)]
          exact hfound
        · rw [heq, hclear, List.length_cons, List.cons_append, Nat.add_right_comm, Nat.add_assoc n]
      · refine Or.inr ⟨List.forall_mem_cons.mpr ⟨htouched, fun e' he' => ?_⟩, ?_⟩
        · rw [← hsame e' he']
          exact hall e' he'
        · rw [heq, hclear, List.length_cons, Nat.add_right_comm, Nat.add_assoc n]

theorem isAccessed_clear (frames : List (FrameNum × Frame)) (x : Owner) :
    isAccessed (clear spaces frames) x =
      (isAccessed spaces x && !frames.any fun e => decide (x ∈ e.2.owners)) := by
  rw [clear, isAccessed_foldl]
  congr 2
  rw [Bool.eq_iff_iff]
  simp

/-- **A choice** of a victim: the first frame that was not touched, or the first of all. The frames
before it lose their marks; frames are looked at once, and if all were touched the first is looked at
again. -/
theorem selectVictim_testAndClear {table : FrameTable} (hapart : Apart table.scanOrder) :
    ∃ looked : List (FrameNum × Frame),
      table.selectVictim (counted testAndClear) (spaces, 0) =
        (((table.scanOrder.find? fun e => !touches spaces e).or table.scanOrder.head?).map Prod.fst,
          { table with upward := !table.upward }, clear spaces looked, looked.length) ∧
      looked.length ≤ table.scanOrder.length + 1 ∧
      ∀ x, isAccessed (clear spaces looked) x = (isAccessed spaces x &&
        !(table.scanOrder.takeWhile (touches spaces)).any fun e => decide (x ∈ e.2.owners)) := by
  rcases firstUntouched_testAndClear spaces 0 hapart with
    ⟨before, e, after, horder, hbefore, hfound, heq⟩ | ⟨hall, heq⟩
  · -- the first scan finds `e`
    have hfind : table.scanOrder.find? (fun e => !touches spaces e) = some e := by
      rw [horder, List.find?_eq_some_iff_append]
      exact ⟨by simpa using hfound, before, after, rfl, fun e' he' => by simpa using hbefore e' he'⟩
    have htake : table.scanOrder.takeWhile (touches spaces) = before := by
      rw [horder, List.takeWhile_append_of_pos hbefore, List.takeWhile_cons_of_neg (by simp [hfound]),
        List.append_nil]
    refine ⟨before ++ [e], ?_, ?_, fun x => ?_⟩
    · rw [selectVictim_of_found heq, hfind, List.length_append, List.length_singleton, Nat.zero_add]
      rfl
    · rw [horder]
      simp
    · rw [htake, isAccessed_clear, List.any_append]
      have hclean : x ∈ e.2.owners → isAccessed spaces x = false := fun hx => by
        simpa using List.any_eq_false.mp hfound x hx
      by_cases hx : x ∈ e.2.owners <;> simp [hx, hclean]
  · -- all were touched, so the second scan finds the first frame there is
    have hfind : table.scanOrder.find? (fun e => !touches spaces e) = none :=
      List.find?_eq_none.mpr fun e he => by simpa using hall e he
    have htake : table.scanOrder.takeWhile (touches spaces) = table.scanOrder := by
      simpa using @List.takeWhile_append_of_pos _ _ _ [] hall
    rw [hfind, htake, Option.none_or]
    cases horder : table.scanOrder with
    | nil =>
      have hagain : firstUntouched (counted testAndClear) table.scanOrder
          (clear spaces table.scanOrder, 0 + table.scanOrder.length) = (none, clear spaces [], 0) := by
        rw [horder]
        rfl
      refine ⟨[], ?_, Nat.zero_le _, fun x => by simp [clear]⟩
      rw [selectVictim_of_none heq hagain, horder]
      rfl
    | cons e rest =>
      have hagain : firstUntouched (counted testAndClear) table.scanOrder
          (clear spaces table.scanOrder, 0 + table.scanOrder.length) =
          (some e.1, clear spaces (table.scanOrder ++ [e]), table.scanOrder.length + 1) := by
        have hlook : testAndClear e.2.owners (clear spaces table.scanOrder) =
            (false, clear spaces (table.scanOrder ++ [e])) := by
          refine Prod.ext (not_touches_clear (horder ▸ List.mem_cons_self)) ?_
          simp [clear, testAndClear]
        rw [Nat.zero_add]
        conv_lhs => rw [horder]
        unfold firstUntouched counted
        rw [← horder, hlook]
      refine ⟨table.scanOrder ++ [e], ?_, ?_, fun x => ?_⟩
      · rw [selectVictim_of_none heq hagain, List.length_append]
        rfl
      · rw [horder]
        simp
      · rw [isAccessed_clear, List.any_append, ← horder]
        have hmem : e ∈ table.scanOrder := horder ▸ List.mem_cons_self
        by_cases hx : x ∈ e.2.owners
        · have hany : table.scanOrder.any (fun e => decide (x ∈ e.2.owners)) = true :=
            List.any_eq_true.mpr ⟨e, hmem, by simpa using hx⟩
          simp [hany]
        · simp [hx]

end FrameTable

/-! ## The machine -/

namespace Machine

variable {lax : Tolerance} {m m' : Machine} {pins : FrameNum → Bool} {f : FrameNum}

/-- The machine with just those frames pinned that `pins` tells. -/
def pinning (m : Machine) (pins : FrameNum → Bool) : Machine :=
  { m with resident := { m.resident with
      frames := m.resident.frames.map fun f c => { c with pinned := pins f } } }

/-- Whether an owner of a frame used it since it was last looked at. -/
def isTouched (m : Machine) (f : FrameNum) : Bool := (m.resident.owners f).any (m.hasFlag · .accessed)

/-- The resident frames that are not pinned, in the direction of the next scan. -/
structure Scans (m : Machine) (pins : FrameNum → Bool) (order : List FrameNum) : Prop where
  mem : ∀ f, f ∈ order ↔ (m.resident.get? f).isSome ∧ pins f = false
  sorted : order.Pairwise fun f g => if m.resident.upward then f < g else g < f

/-- The frame a second chance leads to: the first that was not touched, or else the first of all. -/
def victimIn (m : Machine) (order : List FrameNum) : Option FrameNum :=
  (order.find? fun f => !m.isTouched f).or order.head?

/-- The accessed bits of the owners of some frames are clear, and everything else of the mappings and
the pages is as it was. -/
structure Swept (m m' : Machine) (frames : List FrameNum) : Prop where
  accessed : ∀ o, m'.hasFlag o .accessed =
    (m.hasFlag o .accessed && !frames.any fun f => decide (o ∈ m.resident.owners f))
  flags : ∀ o flag, flag ≠ .accessed → m'.hasFlag o flag = m.hasFlag o flag
  mapped : ∀ o, (m'.entryAt? o).map Entry.frame = (m.entryAt? o).map Entry.frame
  pages : ∀ o, m'.page? o = m.page? o

theorem Swept.congr {m'' : Machine} {frames : List FrameNum} (h : m.Swept m' frames)
    (hspaces : m''.spaces = m'.spaces) : m.Swept m'' frames where
  accessed o := by
    rw [hasFlag, entryAt?_congr hspaces]
    exact h.accessed o
  flags o flag hflag := by
    rw [hasFlag, entryAt?_congr hspaces]
    exact h.flags o flag hflag
  mapped o := by
    rw [entryAt?_congr hspaces]
    exact h.mapped o
  pages o := (page?_congr hspaces o).trans (h.pages o)

theorem get?_pinning (m : Machine) (pins : FrameNum → Bool) (f : FrameNum) :
    (m.pinning pins).resident.get? f =
      (m.resident.get? f).map fun c => { c with pinned := pins f } :=
  Std.ExtTreeMap.getElem?_map

theorem isAccessed_spaces (m : Machine) (o : Owner) : isAccessed m.spaces o = m.hasFlag o .accessed := by
  unfold isAccessed hasFlag PageTable.has
  rw [entryAt?_eq]
  cases m.spaces[o.space]? <;> rfl

/-- The owners a scan reads are those of a resident frame. -/
theorem exists_crew_of_mem_scanOrder {e : FrameNum × Frame}
    (he : e ∈ (m.pinning pins).resident.scanOrder) :
    ∃ c, m.resident.get? e.1 = some c ∧ c.owners = e.2.owners := by
  have hget := (FrameTable.of_mem_scanOrder (f := e.1) (c := e.2) he).1
  rw [get?_pinning] at hget
  obtain ⟨c, hc, hpinned⟩ := Option.map_eq_some_iff.mp hget
  exact ⟨c, hc, hpinned ▸ rfl⟩

theorem owners_of_mem_scanOrder {e : FrameNum × Frame} (he : e ∈ (m.pinning pins).resident.scanOrder) :
    m.resident.owners e.1 = e.2.owners := by
  obtain ⟨c, hc, howners⟩ := exists_crew_of_mem_scanOrder he
  rw [FrameTable.owners_eq, hc]
  exact howners

theorem touches_of_mem_scanOrder {e : FrameNum × Frame}
    (he : e ∈ (m.pinning pins).resident.scanOrder) :
    FrameTable.touches m.spaces e = m.isTouched e.1 := by
  unfold FrameTable.touches isTouched
  rw [owners_of_mem_scanOrder he]
  exact congrArg _ (funext m.isAccessed_spaces)

/-- A scan goes over the frames that are not pinned, in its direction. -/
theorem scans_scanOrder (m : Machine) (pins : FrameNum → Bool) :
    m.Scans pins ((m.pinning pins).resident.scanOrder.map Prod.fst) := by
  have hsorted : (m.pinning pins).resident.toList.Pairwise fun e e' => e.1 < e'.1 :=
    Std.ExtTreeMap.ordered_keys_toList.imp fun h => Nat.compare_eq_lt.mp h
  have hfree := hsorted.filter fun e => !e.2.pinned
  have hmem : ∀ f, (f ∈ (m.pinning pins).resident.scanOrder.map Prod.fst) ↔
      ∃ c, (m.pinning pins).resident.get? f = some c ∧ c.pinned = false := fun f => by
    refine ⟨fun h => ?_, fun ⟨c, hc, hpinned⟩ => List.mem_map.mpr ⟨(f, c), ?_, rfl⟩⟩
    · obtain ⟨⟨f, c⟩, he, rfl⟩ := List.mem_map.mp h
      exact ⟨c, FrameTable.of_mem_scanOrder he⟩
    · have hin : (f, c) ∈ (m.pinning pins).resident.toList.filter fun e => !e.2.pinned :=
        List.mem_filter.mpr ⟨Std.ExtTreeMap.mem_toList_iff_getElem?_eq_some.mpr hc, by simpa using hpinned⟩
      unfold FrameTable.scanOrder
      dsimp only
      split
      · exact hin
      · exact List.mem_reverse.mpr hin
  refine ⟨fun f => (hmem f).trans ?_, List.pairwise_map.mpr ?_⟩
  · rw [get?_pinning]
    cases m.resident.get? f <;> simp
  · unfold FrameTable.scanOrder
    have hup : (m.pinning pins).resident.upward = m.resident.upward := rfl
    dsimp only
    rw [hup]
    split
    · exact hfree.imp fun h => by simpa [‹m.resident.upward = true›] using h
    · exact List.pairwise_reverse.mpr (hfree.imp fun h => by simpa [‹¬m.resident.upward = true›] using h)

/-- No page is in two of the frames a scan looks at. -/
theorem Sound.apart_scanOrder (hm : Sound lax m none none) :
    FrameTable.Apart (m.pinning pins).resident.scanOrder := by
  have hsorted := List.pairwise_map.mp (m.scans_scanOrder pins).sorted
  refine hsorted.imp_of_mem fun {e e'} he he' hlt o ho ho' => ?_
  have hframe : ∀ {e}, e ∈ (m.pinning pins).resident.scanOrder → o ∈ e.2.owners →
      m.frameOf o = some e.1 := fun {e} he ho => by
    obtain ⟨c, hc, howners⟩ := exists_crew_of_mem_scanOrder he
    exact (hm.mem_owners hc o).mp (howners ▸ ho)
  have hsame : e.1 = e'.1 := Option.some.inj ((hframe he ho).symm.trans (hframe he' ho'))
  rw [hsame, ite_self] at hlt
  exact Nat.lt_irrefl _ hlt

theorem victimIn_eq_none (m : Machine) {order : List FrameNum} : m.victimIn order = none ↔ order = [] := by
  unfold victimIn
  rw [Option.or_eq_none_iff, List.head?_eq_none_iff, and_iff_right_iff_imp]
  rintro rfl
  rfl

theorem mem_of_victimIn {order : List FrameNum} (h : m.victimIn order = some f) : f ∈ order := by
  rcases Option.or_eq_some_iff.mp h with hfind | ⟨-, hhead⟩
  · exact List.mem_of_find?_eq_some hfind
  · exact List.mem_of_head? hhead

/-- A touched frame is chosen only if all were touched. -/
theorem touched_of_victimIn {order : List FrameNum} (h : m.victimIn order = some f)
    (hf : m.isTouched f = true) : ∀ g ∈ order, m.isTouched g = true := by
  rcases Option.or_eq_some_iff.mp h with hfind | ⟨hnone, -⟩
  · have := List.find?_some hfind
    simp [hf] at this
  · intro g hg
    simpa using List.find?_eq_none.mp hnone g hg

/-- What a choice of a victim reads of the frames it scans is told by their numbers. -/
theorem victimIn_scanOrder (m : Machine) (pins : FrameNum → Bool) :
    ((m.pinning pins).resident.scanOrder.find? (fun e => !FrameTable.touches m.spaces e) |>.or
        (m.pinning pins).resident.scanOrder.head?).map Prod.fst =
      m.victimIn ((m.pinning pins).resident.scanOrder.map Prod.fst) := by
  have hsame : (m.pinning pins).resident.scanOrder.filter (fun e => !FrameTable.touches m.spaces e) =
      (m.pinning pins).resident.scanOrder.filter fun e => !m.isTouched e.1 :=
    List.filter_congr fun e he => by rw [touches_of_mem_scanOrder he]
  have hfind : (m.pinning pins).resident.scanOrder.find? (fun e => !FrameTable.touches m.spaces e) =
      (m.pinning pins).resident.scanOrder.find? fun e => !m.isTouched e.1 := by
    rw [← List.head?_filter, ← List.head?_filter, hsame]
  rw [hfind, victimIn, List.find?_map, List.head?_map, ← Option.map_or]
  rfl

/-- The frames a scan clears are told by their numbers, too. -/
theorem takeWhile_scanOrder (m : Machine) (pins : FrameNum → Bool) :
    ((m.pinning pins).resident.scanOrder.takeWhile (FrameTable.touches m.spaces)).map Prod.fst =
      ((m.pinning pins).resident.scanOrder.map Prod.fst).takeWhile m.isTouched := by
  have hmem : ∀ e ∈ (m.pinning pins).resident.scanOrder,
      FrameTable.touches m.spaces e = m.isTouched e.1 := fun e he => touches_of_mem_scanOrder he
  generalize (m.pinning pins).resident.scanOrder = order at hmem
  induction order with
  | nil => rfl
  | cons e rest ih =>
    obtain ⟨he, hrest⟩ := List.forall_mem_cons.mp hmem
    rw [List.map_cons, List.takeWhile_cons, List.takeWhile_cons, he, ← ih hrest]
    split <;> rfl

/-- What a choice of a victim leaves behind. -/
theorem selectVictim_of_eq {victim : Option FrameNum} {resident : FrameTable}
    {spaces : Table AddressSpace}
    (h : m.resident.selectVictim testAndClear m.spaces = (victim, resident, spaces)) :
    ∃ m', selectVictim m = (match victim with
      | some f => .ok f m'
      | none => .error (.refused .outOfFrames) m') ∧
      m'.resident = resident ∧ m'.spaces = spaces := by
  have hmeets : Action.Meets (fun _ _ => False) selectVictim m
      (fun f m' => victim = some f ∧ m'.resident = resident ∧ m'.spaces = spaces)
      (fun cause m' => (cause = .outOfFrames ∧ victim = none) ∧
        m'.resident = resident ∧ m'.spaces = spaces) := by
    unfold selectVictim
    simp only [Action.meets_bind, Action.meets_get, Action.meets_set, h]
    cases victim with
    | none => exact ⟨⟨rfl, rfl⟩, rfl, rfl⟩
    | some f =>
      simp only [note, Action.meets_bind, Action.meets_modify, Action.meets_pure]
      exact ⟨trivial, trivial, trivial⟩
  cases hrun : selectVictim m with
  | ok f m' =>
    obtain ⟨rfl, hparts⟩ := hmeets.of_ok hrun
    exact ⟨m', rfl, hparts⟩
  | error failure m' =>
    cases failure with
    | fatal broken => exact (hmeets.of_fatal hrun).elim
    | refused cause =>
      obtain ⟨⟨rfl, rfl⟩, hparts⟩ := hmeets.of_refused hrun
      exact ⟨m', rfl, hparts⟩

/-- **The choice of a victim.** -/
theorem Sound.selectVictim_pinning (hm : Sound lax m none none) (pins : FrameNum → Bool) :
    ∃ order m' asked, m.Scans pins order ∧
      selectVictim (m.pinning pins) = (match m.victimIn order with
        | some f => .ok f m'
        | none => .error (.refused .outOfFrames) m') ∧
      m.Swept m' (order.takeWhile m.isTouched) ∧
      m'.resident = { (m.pinning pins).resident with upward := !m.resident.upward } ∧
      (m.pinning pins).resident.selectVictim (FrameTable.counted testAndClear) (m.spaces, 0) =
        (m.victimIn order, m'.resident, m'.spaces, asked) ∧
      asked ≤ order.length + 1 := by
  obtain ⟨looked, hchoice, hcount, hcleared⟩ :=
    @FrameTable.selectVictim_testAndClear m.spaces (m.pinning pins).resident hm.apart_scanOrder
  rw [victimIn_scanOrder] at hchoice
  have hturned : (m.pinning pins).resident.selectVictim testAndClear (m.pinning pins).spaces = _ :=
    FrameTable.selectVictim_of_counted hchoice
  have hsame := m.takeWhile_scanOrder pins
  have hscans := m.scans_scanOrder pins
  -- every bit the scan clears belongs to a frame before the victim
  have hswept : m.Swept { m.pinning pins with spaces := FrameTable.clear m.spaces looked }
      (((m.pinning pins).resident.scanOrder.map Prod.fst).takeWhile m.isTouched) := by
    have hscanned := scanned_testAndClear m (looked.flatMap fun e => e.2.owners) m.spaces (.refl m)
    refine ⟨fun o => ?_, hscanned.flags, hscanned.mapped, hscanned.page⟩
    rw [← isAccessed_spaces, ← isAccessed_spaces, ← hsame, List.any_map]
    refine (hcleared o).trans (congrArg (isAccessed m.spaces o && !·) ?_)
    rw [Bool.eq_iff_iff, List.any_eq_true, List.any_eq_true]
    refine exists_congr fun e => and_congr_right fun he => ?_
    rw [Function.comp_apply, owners_of_mem_scanOrder ((List.takeWhile_prefix _).subset he)]
  obtain ⟨m', hrun, hresident, hspaces⟩ := selectVictim_of_eq hturned
  rw [← @List.length_map _ _ (FrameTable.scanOrder _) Prod.fst] at hcount
  generalize (m.pinning pins).resident.scanOrder.map Prod.fst = order at *
  exact ⟨order, m', looked.length, hscans, hrun, hswept.congr hspaces, hresident,
    by rw [hresident, hspaces]; exact hchoice, hcount⟩

end Machine

/-! ## Second chance -/

variable {lax : Tolerance} {m : Machine}

/-- **A victim is chosen by second chance**, in any machine of a run and with any of its frames
pinned. There is a victim if some frame is not pinned; it is one that was touched only if all of them
were. The frames before it lose their accessed bits (all of them, if all were touched), no other bit
changes, the next scan goes the other way, and whether a frame was touched is asked at most once more
than there are frames to look at. -/
theorem Reachable.second_chance (h : Reachable lax m) (pins : FrameNum → Bool) :
    ∃ order m' asked, m.Scans pins order ∧
      Machine.selectVictim (m.pinning pins) = (match m.victimIn order with
        | some f => .ok f m'
        | none => .error (.refused .outOfFrames) m') ∧
      (m.victimIn order = none ↔ order = []) ∧
      (∀ f, m.victimIn order = some f → pins f = false ∧
        (m.isTouched f = true → ∀ g ∈ order, m.isTouched g = true)) ∧
      m.Swept m' (order.takeWhile m.isTouched) ∧
      m'.resident = { (m.pinning pins).resident with upward := !m.resident.upward } ∧
      (m.pinning pins).resident.selectVictim (FrameTable.counted testAndClear) (m.spaces, 0) =
        (m.victimIn order, m'.resident, m'.spaces, asked) ∧
      asked ≤ order.length + 1 := by
  obtain ⟨order, m', asked, hscans, hrun, hswept, hresident, hasked, hcount⟩ :=
    h.sound.selectVictim_pinning pins
  exact ⟨order, m', asked, hscans, hrun, m.victimIn_eq_none, fun f hf =>
    ⟨((hscans.mem f).mp (Machine.mem_of_victimIn hf)).2, Machine.touched_of_victimIn hf⟩,
    hswept, hresident, hasked, hcount⟩

/-- Requests that fill four frames, use the fifth page there is room for no more, and then the third. -/
def Operation.circling : List Operation :=
  .create :: ([0x1000, 0x2000, 0x3000, 0x4000, 0x5000].flatMap fun va =>
    [.register 0 .anon ⟨va⟩ true .zero, .write 0 ⟨va⟩ #[7]]) ++ [.read 0 ⟨0x3000⟩ 1]

/-- Of four frames only the second and the last were not touched, and the last is pinned: the second
is the victim. -/
theorem Reachable.second_chance_circling : ∃ m m', Reachable .all m ∧
    [0, 1, 2, 3].map m.isTouched = [true, false, true, false] ∧
    Machine.selectVictim (m.pinning fun f => f = 3) = .ok 1 m' := by
  have h : ((Machine.start { userFrames := 4 } (.blank 16)).carry Operation.circling).any
      (fun r => decide (r.2.resident.frames.keys = [0, 1, 2, 3] ∧
        [0, 1, 2, 3].map r.2.isTouched = [true, false, true, false])) = true := by decide +kernel
  obtain ⟨⟨labels, m⟩, -, hm, hrest⟩ := Reachable.exists_of_carry (by decide) h
  obtain ⟨hframes, hmarks⟩ := of_decide_eq_true hrest
  obtain ⟨order, m', asked, hscans, hrun, hnone, hchosen, -⟩ :=
    hm.second_chance fun f => f = 3
  have hresident : ∀ f, (m.resident.get? f).isSome ↔ f ∈ [0, 1, 2, 3] := fun f => by
    rw [← hframes, Std.ExtTreeMap.mem_keys, Std.ExtTreeMap.mem_iff_isSome_getElem?]
    rfl
  have hone : 1 ∈ order := (hscans.mem 1).mpr ⟨(hresident 1).mpr (by decide), rfl⟩
  have hvictim : m.victimIn order = some 1 := by
    cases hvictim : m.victimIn order with
    | none => exact absurd (hnone.mp hvictim) (List.ne_nil_of_mem hone)
    | some f =>
      obtain ⟨hunpinned, htouched⟩ := hchosen f hvictim
      have hmem := (hresident f).mp ((hscans.mem f).mp (Machine.mem_of_victimIn hvictim)).1
      -- the first and the third frame would be chosen only if the second were touched, too
      simp only [List.map_cons, List.map_nil, List.cons.injEq, and_true] at hmarks
      have hsecond : m.isTouched f = true → m.isTouched 1 = true := fun hf => htouched hf 1 hone
      simp only [List.mem_cons, List.not_mem_nil, or_false] at hmem
      rcases hmem with rfl | rfl | rfl | rfl
      · simp [hmarks] at hsecond
      · rfl
      · simp [hmarks] at hsecond
      · cases hunpinned
  exact ⟨m, m', hm, hmarks, by rw [hrun, hvictim]⟩

end DemandPaging
