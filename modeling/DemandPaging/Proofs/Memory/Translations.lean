import DemandPaging.Proofs.Memory.PageTable

/-!
# Page tables as maps from pages to translations

Calls to a page table can be answered by a map from page numbers to records of a frame number and
eight flags, which has no words and no bits (`Translations`). Reading the entries of a table as such
records (`PageTable.translations`) turns every call to the table into the call to the map, refusals
included (`perform_translations`), so any calls leave the table with what they leave the map with. As
entries are built anew when a flag changes, this is where it matters that frame numbers fit the frame
field and that the flags do not reach into it.

Headline: **`answers_as_recorded`**.
-/

namespace DemandPaging

/-! ## Records -/

/-- What a mapped page is translated to. -/
@[ext]
structure Translation where
  frame : FrameNum
  flags : Flag → Bool

namespace Translation

/-- The record with one flag set or cleared. -/
def put (r : Translation) (flag : Flag) (value : Bool) : Translation :=
  { r with flags := fun x => if x = flag then value else r.flags x }

end Translation

/-- What an entry says. -/
def Entry.translation (e : Entry) : Translation := ⟨e.frame, e.has⟩

/-- A map from pages to records. -/
abbrev Translations := PageNum → Option Translation

/-- A call that changes a page table. Frame numbers fit the frame field, and the valid flag is left
alone. -/
inductive PageTable.Call where
  | map (vpn : PageNum) (ppn : Fin Entry.frameLimit) (flags : Flags)
  | unmap (vpn : PageNum)
  | put (vpn : PageNum) (flag : { flag : Flag // flag ≠ .valid }) (value : Bool)

namespace Translations

open PageTable (Call)

/-- The map after a call. A page is not mapped twice. -/
def perform (records : Translations) : Call → Except Refusal Translations
  | .map vpn ppn flags =>
    match records vpn with
    | some _ => .error (.alreadyMapped vpn.base)
    | none => .ok fun v =>
      if v = vpn then some ⟨ppn, fun flag => decide (flag = .valid) || flags.has flag⟩ else records v
  | .unmap vpn => .ok fun v => if v = vpn then none else records v
  | .put vpn flag value => .ok fun v =>
      if v = vpn then (records v).map (·.put flag value) else records v

end Translations

/-! ## Calls in turn -/

namespace PageTable

/-- The table after a call. -/
def perform (table : PageTable) : Call → Except Refusal PageTable
  | .map vpn ppn flags => table.map vpn ppn flags
  | .unmap vpn => .ok (table.unmap vpn)
  | .put vpn flag value => .ok (table.put vpn flag value)

/-- What calls leave, the latest first, if one that is refused changes nothing. -/
def leave {σ : Type} (perform : σ → Call → Except Refusal σ) (start : σ) : List Call → σ
  | [] => start
  | call :: before =>
    let s := leave perform start before
    (perform s call).toOption.getD s

/-- The table that calls leave. -/
def after (calls : List Call) : PageTable := leave perform {} calls

/-- The map that calls leave. -/
def recorded (calls : List Call) : Translations := leave Translations.perform (fun _ => none) calls

/-- A page was mapped and not unmapped since. -/
def MappedSince (calls : List Call) (vpn : PageNum) : Prop :=
  ∃ later before ppn flags, calls = later ++ .map vpn ppn flags :: before ∧ .unmap vpn ∉ later

/-- No entry has lost the valid flag. -/
def AllValid (table : PageTable) : Prop :=
  ∀ (vpn : PageNum) (e : Entry), table.entries[vpn]? = some e → e.has .valid = true

/-- What a table translates pages to. -/
def translations (table : PageTable) : Translations := fun vpn =>
  (table.lookup? vpn).map Entry.translation

variable {table : PageTable} {vpn v : PageNum} {call : Call} {calls before : List Call} {flag : Flag}
  {value : Bool}

/-! ## One call -/

theorem translation_make (ppn : Fin Entry.frameLimit) (flags : Flags) :
    (Entry.make ppn (flags.put .valid true)).translation =
      ⟨ppn, fun flag => decide (flag = .valid) || flags.has flag⟩ := by
  refine Translation.ext (Entry.frame_make ppn.isLt _) (funext fun flag => ?_)
  show (Entry.make _ _).has flag = _
  rw [Entry.has_make, Flags.has_put]
  by_cases h : flag = .valid <;> simp [h]

theorem translation_put (e : Entry) (flag : Flag) (value : Bool) :
    (e.put flag value).translation = e.translation.put flag value :=
  Translation.ext (e.frame_put flag value) (funext fun x => e.has_put flag x value)

theorem translations_eq_none : table.translations vpn = none ↔ table.lookup? vpn = none :=
  Option.map_eq_none_iff

/-- A page that is mapped already is refused. -/
theorem map_error {e : Entry} (h : table.lookup? vpn = some e) (ppn : FrameNum) (flags : Flags) :
    table.map vpn ppn flags = .error (.alreadyMapped vpn.base) := by
  rw [map, h]

/-- **A call to a table is a call to the map** of its translations. -/
theorem perform_translations (table : PageTable) (call : Call) :
    (table.perform call).map translations = table.translations.perform call := by
  cases call with
  | map vpn ppn flags =>
    simp only [perform, Translations.perform]
    cases h : table.lookup? vpn with
    | some e =>
      rw [map_error h, show table.translations vpn = some e.translation by rw [translations, h]; rfl]
      rfl
    | none =>
      obtain ⟨table', hok, hlookup⟩ := map_ok h ppn flags
      rw [hok, translations_eq_none.mpr h]
      refine congrArg Except.ok (funext fun v => ?_)
      rw [translations, hlookup]
      by_cases hv : vpn = v
      · rw [if_pos hv, if_pos hv.symm, Option.map_some, translation_make]
      · rw [if_neg hv, if_neg (Ne.symm hv), translations]
  | unmap vpn =>
    refine congrArg Except.ok (funext fun v => ?_)
    rw [translations, lookup?_unmap]
    by_cases hv : vpn = v
    · rw [if_pos hv, if_pos hv.symm, Option.map_none]
    · rw [if_neg hv, if_neg (Ne.symm hv), translations]
  | put vpn flag value =>
    refine congrArg Except.ok (funext fun v => ?_)
    rw [translations, lookup?_put _ _ _ flag.2]
    by_cases hv : vpn = v
    · rw [if_pos hv, if_pos hv.symm, translations, Option.map_map, Option.map_map]
      exact congrArg (Option.map · _) (funext fun e => translation_put e flag value)
    · rw [if_neg hv, if_neg (Ne.symm hv), translations]

/-- A page that is not mapped has no flag to change. -/
theorem put_eq_self (hvalid : table.AllValid) (h : table.lookup? vpn = none) :
    table.put vpn flag value = table := by
  have hnone : table.entries[vpn]? = none := by
    cases he : table.entries[vpn]? with
    | none => rfl
    | some e =>
      rw [lookup?, he, Option.filter_some, if_pos (hvalid vpn e he)] at h
      cases h
  unfold put
  refine congrArg mk (Std.ExtTreeMap.ext_getElem? fun k => ?_)
  simp only [Std.ExtTreeMap.getElem?_modify, Nat.compare_eq_eq]
  split
  · rename_i hk
    rw [← hk, hnone]
    rfl
  · rfl

/-- Pages are listed in increasing order. -/
theorem pairwise_toList (table : PageTable) :
    table.toList.Pairwise fun mapping mapping' => mapping.1 < mapping'.1 :=
  (Std.ExtTreeMap.ordered_keys_toList.imp fun h => Nat.compare_eq_lt.mp h).filter _

/-! ## Every call -/

/-- What every call keeps, the table that calls leave has. -/
theorem after_induction {I : PageTable → Prop} (hstart : I {})
    (hcall : ∀ table call table', I table → table.perform call = .ok table' → I table')
    (calls : List Call) : I (after calls) := by
  induction calls with
  | nil => exact hstart
  | cons call before ih =>
    show I (((after before).perform call).toOption.getD (after before))
    cases hok : (after before).perform call with
    | ok table => exact hcall _ _ _ ih hok
    | error cause => exact ih

/-- No entry ever loses the valid flag. -/
theorem allValid_after (calls : List Call) : (after calls).AllValid := by
  refine after_induction (I := AllValid) (fun v e he => ?_)
    (fun table call table' hvalid hok v e he => ?_) calls
  · cases he.symm.trans Std.ExtTreeMap.getElem?_empty
  · cases call with
    | map vpn ppn flags =>
      simp only [perform, map] at hok
      split at hok
      · cases hok
      · obtain rfl := Except.ok.inj hok
        rw [Std.ExtTreeMap.getElem?_insert] at he
        split at he
        · rw [← Option.some.inj he, Entry.has_make, Flags.has_put, if_pos rfl]
        · exact hvalid v e he
    | unmap vpn =>
      obtain rfl := Except.ok.inj hok
      simp only [unmap, Std.ExtTreeMap.getElem?_erase] at he
      split at he
      · cases he
      · exact hvalid v e he
    | put vpn flag value =>
      obtain rfl := Except.ok.inj hok
      simp only [put, Std.ExtTreeMap.getElem?_modify] at he
      split at he
      · obtain ⟨e', he', rfl⟩ := Option.map_eq_some_iff.mp he
        have hthere := hvalid _ e' he'
        rw [if_pos hthere, Entry.has_put, if_neg (Ne.symm flag.2), hthere]
      · exact hvalid v e he

/-- **The table that calls leave** has the translations of the map they leave. -/
theorem translations_after (calls : List Call) : (after calls).translations = recorded calls := by
  induction calls with
  | nil => exact funext fun v => congrArg (Option.map _) (lookup?_empty v)
  | cons call before ih =>
    have hcall := (after before).perform_translations call
    rw [ih] at hcall
    show (((after before).perform call).toOption.getD (after before)).translations =
      ((recorded before).perform call).toOption.getD (recorded before)
    rw [← hcall]
    cases (after before).perform call with
    | ok table => rfl
    | error cause => exact ih

theorem mappedSince_cons : MappedSince (call :: before) vpn ↔
    (∃ ppn flags, call = .map vpn ppn flags) ∨ call ≠ .unmap vpn ∧ MappedSince before vpn := by
  constructor
  · rintro ⟨later, earlier, ppn, flags, heq, hnot⟩
    cases later with
    | nil => exact .inl ⟨ppn, flags, (List.cons.inj heq).1⟩
    | cons first later =>
      obtain ⟨rfl, rfl⟩ := List.cons.inj heq
      obtain ⟨hfirst, hlater⟩ := not_or.mp (mt List.mem_cons.mpr hnot)
      exact .inr ⟨Ne.symm hfirst, later, earlier, ppn, flags, rfl, hlater⟩
  · rintro (⟨ppn, flags, rfl⟩ | ⟨hcall, later, earlier, ppn, flags, rfl, hnot⟩)
    · exact ⟨[], before, ppn, flags, rfl, List.not_mem_nil⟩
    · exact ⟨call :: later, earlier, ppn, flags, rfl, fun h =>
        (List.mem_cons.mp h).elim (fun heq => hcall heq.symm) hnot⟩

/-- A call leaves a page recorded if it maps the page, or if the page was recorded and the call does not
unmap it. -/
theorem isSome_recorded_cons : (recorded (call :: before) vpn).isSome = true ↔
    (∃ ppn flags, call = .map vpn ppn flags) ∨
      call ≠ .unmap vpn ∧ (recorded before vpn).isSome = true := by
  show ((((recorded before).perform call).toOption.getD (recorded before)) vpn).isSome = true ↔ _
  cases call with
  | map v ppn flags =>
    by_cases hv : vpn = v
    · subst hv
      refine iff_of_true ?_ (.inl ⟨ppn, flags, rfl⟩)
      cases hr : recorded before vpn <;> simp [Translations.perform, Except.toOption, hr]
    · have hcall : ¬∃ ppn' flags', Call.map v ppn flags = .map vpn ppn' flags' := fun ⟨_, _, h⟩ =>
        hv (Call.map.inj h).1.symm
      refine Iff.trans ?_ (or_iff_right hcall).symm
      cases hr : recorded before v <;> simp [Translations.perform, Except.toOption, hr, hv]
  | unmap v =>
    by_cases hv : vpn = v
    · simp [Translations.perform, Except.toOption, hv]
    · simp [Translations.perform, Except.toOption, hv, Ne.symm hv]
  | put v flag value =>
    by_cases hv : vpn = v <;> simp [Translations.perform, Except.toOption, hv]

/-- **A page is recorded** if it was mapped and not unmapped since. -/
theorem isSome_recorded : (recorded calls vpn).isSome = true ↔ MappedSince calls vpn := by
  induction calls with
  | nil =>
    refine iff_of_false Bool.false_ne_true ?_
    rintro ⟨later, before, ppn, flags, heq, -⟩
    cases later <;> cases heq
  | cons call before ih => rw [isSome_recorded_cons, mappedSince_cons, ih]

/-! ## What a table answers -/

/-- The answers of a page table after calls. -/
structure Answers (calls : List Call) (table : PageTable) : Prop where
  /-- A page is translated to the record of the map. -/
  translations : table.translations = recorded calls
  /-- A page is mapped if it was mapped and not unmapped since. -/
  mapped : ∀ vpn, (table.lookup? vpn).isSome = true ↔ MappedSince calls vpn
  /-- The next call ends as it does with the map. -/
  next : ∀ call, (table.perform call).map PageTable.translations = (recorded calls).perform call
  /-- Just a page that is mapped cannot be mapped. -/
  refused : ∀ vpn ppn flags, table.map vpn ppn flags = .error (.alreadyMapped vpn.base) ↔
    (table.lookup? vpn).isSome = true
  accepted : ∀ vpn ppn flags, (∃ table', table.map vpn ppn flags = .ok table') ↔
    table.lookup? vpn = none
  /-- A flag that is changed is changed in one mapping, and nothing else is. -/
  put : ∀ vpn flag value, flag ≠ .valid → ∀ v, (table.put vpn flag value).lookup? v =
    if vpn = v then (table.lookup? v).map (·.put flag value) else table.lookup? v
  frame : ∀ (e : Entry) flag value, (e.put flag value).frame = e.frame
  flags : ∀ (e : Entry) flag value x, (e.put flag value).has x = if x = flag then value else e.has x
  /-- Nothing is changed in a page that is not mapped. -/
  absent : ∀ vpn flag value, table.lookup? vpn = none → table.put vpn flag value = table
  valid : table.AllValid
  /-- The mappings are listed, in increasing order of page. -/
  listed : ∀ vpn e, (vpn, e) ∈ table.toList ↔ table.lookup? vpn = some e
  ordered : table.toList.Pairwise fun mapping mapping' => mapping.1 < mapping'.1

/-- **A page table is a map from pages to frames and flags.** After any calls it answers what the map
answers that the calls leave. -/
theorem answers_as_recorded (calls : List Call) : (after calls).Answers calls where
  translations := translations_after calls
  mapped vpn := by
    rw [← isSome_recorded, ← translations_after, PageTable.translations, Option.isSome_map]
  next call := translations_after calls ▸ perform_translations _ call
  refused vpn ppn flags := by
    cases h : (after calls).lookup? vpn with
    | some e => exact iff_of_true (map_error h ppn flags) rfl
    | none =>
      obtain ⟨table', hok, -⟩ := map_ok h ppn flags
      rw [hok]
      exact iff_of_false nofun Bool.false_ne_true
  accepted vpn ppn flags := by
    cases h : (after calls).lookup? vpn with
    | some e =>
      rw [map_error h]
      exact iff_of_false nofun nofun
    | none =>
      obtain ⟨table', hok, -⟩ := map_ok h ppn flags
      exact iff_of_true ⟨table', hok⟩ rfl
  put vpn flag value hflag v := lookup?_put _ vpn v hflag value
  frame := Entry.frame_put
  flags e flag value x := e.has_put flag x value
  absent vpn flag value := put_eq_self (allValid_after calls)
  valid := allValid_after calls
  listed vpn e := mem_toList
  ordered := pairwise_toList _

/-- A page that was written is made read only, and stays dirty. -/
example : ((after [.put 1 ⟨.writable, by decide⟩ false, .put 1 ⟨.dirty, by decide⟩ true,
    .map 1 ⟨3, by decide⟩ (.ofList [.readable, .writable])]).lookup? 1).map
      (fun e => (e.frame, e.flags.toList)) = some (3, [.valid, .readable, .dirty]) := by decide +kernel

end PageTable

end DemandPaging
