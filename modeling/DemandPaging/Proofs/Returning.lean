import DemandPaging.Proofs.Ledger.Keeping
import DemandPaging.Proofs.Ledger.Stashing
import DemandPaging.Proofs.Run

/-!
# Evicting a frame and bringing it back

The content of a frame that is evicted is stored once, however many pages share the frame, and all of
them are unmapped (`Machine.PutAway`). Whatever is done then, as long as none of them is loaded, the
first that is claimed brings all those back that are still there, in one frame with what was stored
(`Machine.Returned`).

Headline: **`Reachable.evict_lossless`**.
-/

namespace DemandPaging

open Machine (Sound)

namespace Machine

variable {lax : Tolerance} {m m' m₁ m₂ m₃ m₄ : Machine} {f f' : FrameNum} {l : List Owner}
  {p q : Page} {b : PageBytes} {o : Owner} {R : Owner → Prop} {hand pin : Option FrameNum}

/-- How often a page was claimed while it was not resident, as the journal tells. -/
def loads (m : Machine) (o : Owner) : Nat := m.journal.countP (Event.claims o)

theorem loads_ledger (o : Owner) : (m.ledger hand pin).loads o = m.loads o := by
  show (m.journal.toList.filter Event.isPlacing).countP (Event.claims o) = m.journal.countP _
  rw [List.countP_filter, ← Array.countP_toList]
  refine List.countP_congr fun event _ => ?_
  cases event <;> simp [Event.claims, Event.isPlacing]

/-- **A frame was put away**: the content `b` of the frame `f`, which was that of the pages `l`, is
stored, and exactly these pages are unmapped and evicted. -/
structure PutAway (m m₁ : Machine) (f : FrameNum) (l : List Owner) (p : Page) (b : PageBytes)
    (ev : Evicted) : Prop where
  inhabited : l ≠ []
  owners : ∀ o, o ∈ l ↔ m.frameOf o = some f
  /-- The pages of the frame are alike, but for the handles they have on their file. -/
  alike : ∀ o ∈ l, (m.page? o).map (Page.located m.backing.files) = some (p.located m.backing.files)
  bytes : m.frames.bytes? f = some b
  evicted : EvictedFrom m m₁ f l p b (l.any (m.hasFlag · .dirty)) ev
  marked : ∀ o ∈ l, (m₁.page? o).map Page.state = some .evicted

/-- What is done with the frame in the hand: it is given back, or a page that is not one of `l` is
loaded into it, or a page could not be loaded into it and it is given back after all, or a page that
shares its frame is moved to it. -/
inductive Reuses (f : FrameNum) (l : List Owner) (m : Machine) : Machine → Prop
  | released {m' : Machine} (h : releaseFrame f m = .ok () m') : Reuses f l m m'
  | filled {m' : Machine} {o : Owner} {p : Page} (ho : o ∉ l) (hp : m.page? o = some p)
      (hframe : p.frame = none) (h : populate o f m = .ok () m') : Reuses f l m m'
  | unfilled {m' m'' : Machine} {o : Owner} {p : Page} {cause : Refusal} (hp : m.page? o = some p)
      (hframe : p.frame = none) (h : populate o f m = .error (.refused cause) m')
      (h' : releaseFrame f m' = .ok () m'') : Reuses f l m m''
  | split {m' : Machine} {o : Owner} {p : Page} {old : Entry} (hp : m.page? o = some p)
      (hw : p.writable = true) (hold : m.entryAt? o = some old)
      (hshared : 1 < m.resident.shareCount old.frame) (h : moveToCopy o old f m = .ok () m') :
      Reuses f l m { m' with
        counters := { m'.counters with cowBreaks := m'.counters.cowBreaks + 1 }
        journal := m'.journal.push (.unshared o old.frame f) }

/-- **The pages came back**: those of `R`, and nobody else, are in the frame `f'`, which holds what was
stored when `l` were evicted. A file page has what was in the frame if its window was not changed, and
nothing after its window. -/
structure Returned (m m₁ m₄ : Machine) (l : List Owner) (R : Owner → Prop) (p : Page) (b : PageBytes)
    (ev : Evicted) (f' : FrameNum) : Prop where
  together : ∀ x, m₄.frameOf x = some f' ↔ R x
  listed : ∃ c, m₄.resident.get? f' = some c ∧ ∀ x, x ∈ c.owners ↔ R x
  /-- Those who share the frame may only read it. -/
  mapped : ∀ {x}, R x → ∃ e, m₄.entryAt? x = some e ∧ e.frame = f' ∧
    (e.has .writable = true ↔ p.writable = true ∧ ∀ y, R y → y = x)
  anon : (∃ a, p.content = .anon a) → m₄.frames.bytes? f' = some b
  file : ∀ {w}, (p.located m.backing.files).content = .file w →
    (∀ k < w.readBytes, (m₄.backing.files.file w.handle).data.get (w.offset + k) =
      (m₁.backing.files.file w.handle).data.get (w.offset + k)) →
    (l.any (m.hasFlag · .dirty) = false → ∀ k < w.readBytes,
      b[k]? = some ((m.backing.files.file w.handle).data.get (w.offset + k))) →
    m₄.frames.bytes? f' = some (b.clearFrom w.readBytes)
  freed : ∀ {s}, ev.slot = some s → m₄.backing.swap.occupied s = false
  ungrouped : ∀ {x}, R x → m₄.groupOf x = none

end Machine

/-- From `m₂` on, steps were made by which none of the pages `l` was loaded that was still there. `R` are
those that are still there. -/
inductive Absence (lax : Tolerance) (l : List Owner) (m₂ : Machine) : (Owner → Prop) → Machine → Prop
  | start : Absence lax l m₂ (· ∈ l) m₂
  | step {R : Owner → Prop} {label : Label} {m m' : Machine} (h : Absence lax l m₂ R m)
      (hs : Step lax m label m') (hquiet : ∀ o, R o → m'.loads o = m.loads o) :
      Absence lax l m₂ (fun o => R o ∧ (m'.page? o).isSome) m'

namespace Machine

variable {lax : Tolerance} {m m' m₁ m₂ m₃ m₄ : Machine} {f f' : FrameNum} {l : List Owner}
  {p q : Page} {b : PageBytes} {o : Owner} {R : Owner → Prop} {c : Frame} {ev : Evicted}

/-! ## Putting a frame away -/

/-- **Evicting a frame puts it away.** -/
theorem Sound.putAway {pin : Option FrameNum} (hm : Sound lax m none pin)
    (hc : m.resident.get? f = some c) (hevict : evict f m = .ok () m₁) :
    ∃ p b ev, m.PutAway m₁ f c.owners p b ev := by
  have hmem := hm.mem_owners hc
  have hsome := hm.books.crewed (owners_ledger_of_get? hc)
  obtain ⟨leader, others, hl⟩ := List.exists_cons_of_ne_nil hsome
  obtain ⟨p, hp, hpf⟩ := Option.bind_eq_some_iff.mp
    ((hmem leader).mp (by rw [hl]; exact List.mem_cons_self))
  obtain ⟨b, hb⟩ := hm.exists_bytes? (hm.held hc)
  obtain ⟨ev, hev⟩ := (meets_evict_machine hm hc hl hp hb).of_ok hevict
  refine ⟨p, b, ev, hsome, hmem, fun o ho => ?_, hb, hev, fun o ho => ?_⟩
  · exact hm.books.page_of_mem hc (by rw [hl]; exact List.mem_cons_self) (page_ledger_of_page? hp) ho
  · obtain ⟨q, hq, hqf⟩ := Option.bind_eq_some_iff.mp ((hmem o).mp ho)
    rw [hev.page, if_pos ho, hq]
    exact congrArg some (Page.state_markEvicted ((hm.shaped hq).content_ne_uninit hqf) ev _)

/-- The pages of a frame that was put away wait for each other. -/
theorem PutAway.stashed (h : m.PutAway m₁ f c.owners p b ev) (hm : Sound lax m none none)
    (hc : m.resident.get? f = some c) :
    Sound lax m₁ (some f) none ∧ (m₁.ledger (some f) none).Stashed (· ∈ c.owners)
      ((p.located m.backing.files).evictedTo ev.slot none) b ∧
    (m₁.ledger (some f) none).file = if c.owners.any (m.hasFlag · .dirty)
      then (m.ledger none none).flush (p.located m.backing.files) f
      else (m.ledger none none).file := by
  have hcrew : (m.ledger none none).crew f = some c := hc
  have hall : ∀ x ∈ c.owners, (m.ledger none none).page x = some (p.located m.backing.files) := h.alike
  obtain ⟨leader, ho⟩ := List.exists_mem_of_ne_nil _ h.inhabited
  have hframe : (p.located m.backing.files).frame = some f := by
    rw [← Ledger.frame_of_page (hall leader ho), frame_ledger]
    exact (h.owners leader).mp ho
  have hgid : (m.ledger none none).team m.groupIds.take.1 = none := by
    exact hm.nextGroup
  have hslot : (∃ a, (p.located m.backing.files).content = .anon a) ↔ ev.slot.isSome := by
    rw [← h.evicted.stored.slot]
    exact exists_congr fun a => Content.located_eq_anon m.backing.files p.content
  have hledger := h.evicted.ledger hm.kept hall
    ((hm.books.shaped (hall leader ho)).group_eq_none hframe) h.bytes
  have hsound : (m₁.ledger (some f) none).Sound := by
    rw [hledger]
    exact hm.books.evict hcrew ho (hall leader ho) rfl hgid hslot h.evicted.stored.free
  refine ⟨⟨hsound, h.evicted.kept hm.kept⟩, ?_, by rw [hledger]; rfl⟩
  rw [hledger] at hsound ⊢
  rw [← bytes_ledger h.bytes]
  exact hm.books.stashed_evict hsound hgid hslot

/-- **While the frame is put to use**, they wait. -/
theorem Reuses.stashed (h : m.Reuses f l m') (hm : Sound lax m (some f) none)
    (hzero : m.frames.bytes? f = some .zero)
    (hstashed : (m.ledger (some f) none).Stashed (· ∈ l) q b) :
    Sound lax m' none none ∧ (m'.ledger none none).Stashed (· ∈ l) q b := by
  have hgiveBack : ∀ {m₁ m₂ : Machine}, Sound lax m₁ (some f) none →
      (m₁.ledger (some f) none).Stashed (· ∈ l) q b → releaseFrame f m₁ = .ok () m₂ →
      Sound lax m₂ none none ∧ (m₂.ledger none none).Stashed (· ∈ l) q b := by
    intro m₁ m₂ hm₁ h₁ hrelease
    obtain ⟨frames, rfl, hkept, hheld, hbytes⟩ :=
      (meets_releaseFrame (F := fun _ _ => True) (R := fun _ _ => True) hm₁.kept
        hm₁.held_of_hand).of_ok hrelease
    have hshift : Ledger.Shift (m₁.ledger (some f) none) _ := .giveBack rfl
    rw [← ledger_giveBack hheld hbytes] at hshift
    exact ⟨⟨hshift.sound hm₁.books, hkept⟩, h₁.shift hm₁.books hshift fun _ _ => rfl⟩
  cases h with
  | released h => exact hgiveBack hm hstashed h
  | filled ho hp hframe h =>
    obtain ⟨⟨hkept, hgiven, hledger⟩, -⟩ := (meets_populate hm hp hframe hzero).of_ok h
    have hshift : Ledger.Shift (m.ledger (some f) none) (m'.ledger none none) :=
      hledger ▸ .fill (page_ledger_of_page? hp) hframe rfl rfl hgiven
    refine ⟨⟨hshift.sound hm.books, hkept⟩, hstashed.shift hm.books hshift fun x hx => ?_⟩
    rename_i o p
    have hne : o ≠ x := fun heq => ho (heq ▸ hx)
    rw [hledger, Ledger.loads, Ledger.note, List.countP_append]
    simp [Event.claims, hne, Ledger.loads, Ledger.fill]
  | unfilled hp hframe h h' =>
    obtain ⟨-, -, hkept, ⟨bytes, hledger⟩, -⟩ := (meets_populate hm hp hframe hzero).of_refused h
    rename_i m' o p cause
    have hshift : Ledger.Shift (m.ledger (some f) none) (m'.ledger (some f) none) :=
      hledger ▸ .scrub bytes rfl
    refine hgiveBack ⟨hshift.sound hm.books, hkept⟩ (hstashed.shift hm.books hshift fun _ _ => ?_) h'
    rw [hledger]
    rfl
  | split hp hw hold hshared h =>
    rename_i m' o p old
    have hframe : p.frame = some old.frame := by
      rw [← frameOf_of_page? hp, ← hm.frame_entryAt? o, hold]
      rfl
    obtain ⟨c, hc⟩ : ∃ c, m.resident.get? old.frame = some c := by
      cases hc : m.resident.get? old.frame with
      | some c => exact ⟨c, rfl⟩
      | none =>
        rw [FrameTable.shareCount, FrameTable.owners_eq, hc] at hshared
        cases hshared
    rw [FrameTable.shareCount, FrameTable.owners_eq, hc] at hshared
    obtain ⟨hkept, hledger⟩ := (meets_moveToCopy (F := fun _ _ => True) (R := fun _ _ => True) hm hp
      hframe hc hshared hw (congrArg (Option.map Entry.grant) hold)).of_ok h
    have hshift : Ledger.Shift (m.ledger (some f) none)
        ((m'.ledger none none).note (.unshared o old.frame f)) := by
      rw [hledger]
      exact .unshare (page_ledger_of_page? hp) hframe (owners_ledger_of_get? hc) hshared hw
        rfl rfl
    rw [← ledger_note m' { m'.counters with cowBreaks := m'.counters.cowBreaks + 1 } rfl] at hshift
    refine ⟨⟨hshift.sound hm.books, { hkept with }⟩, hstashed.shift hm.books hshift fun x _ => ?_⟩
    rw [ledger_note m' _ rfl, hledger, Ledger.loads, Ledger.note, List.countP_append]
    rfl

/-! ## While the pages are away -/

/-- **Steps that load none of them** leave them waiting. -/
theorem stashed_of_absence (h : Absence lax l m₂ R m₃) (hm : Sound lax m₂ none none)
    (hstashed : (m₂.ledger none none).Stashed (· ∈ l) q b) :
    Sound lax m₃ none none ∧ (m₃.ledger none none).Stashed R q b := by
  induction h with
  | start => exact ⟨hm, hstashed⟩
  | step _ hs hquiet ih =>
    obtain ⟨hA, hA'⟩ := ih
    rename_i R label A B _
    refine ⟨hs.sound hA, ?_⟩
    obtain ⟨ks, htrace, hleave⟩ := (hs.tells hA).told.stays hA.books
    have hB := hA'.trace hA.books htrace fun x hx => by
      rw [loads_ledger, loads_ledger]
      exact hquiet x hx
    have hregistered : ∀ x, ((B.ledger none none).page x).isSome = (B.page? x).isSome :=
      fun x => registered_ledger
    refine hB.congr fun x => and_congr_right fun hx => ⟨fun hstays => ?_, fun hthere => ?_⟩
    · obtain ⟨group, hp⟩ := hB.page ⟨hx, hstays⟩
      rw [← hregistered, hp]
      rfl
    · obtain ⟨group, hp⟩ := hA'.page hx
      exact hleave x (by rw [hp]; rfl) ((hregistered x).trans hthere)

/-! ## Coming back -/

/-- What was in the window of a page that was put away is in its file, if it was written back or was
there before. -/
theorem PutAway.stored (h : m.PutAway m₁ f c.owners p b ev) (hm : Sound lax m none none)
    (hc : m.resident.get? f = some c) {w : FileWindow}
    (hw : (p.located m.backing.files).content = .file w)
    (hclean : c.owners.any (m.hasFlag · .dirty) = false → ∀ k < w.readBytes,
      b[k]? = some ((m.backing.files.file w.handle).data.get (w.offset + k)))
    {k : Nat} (hk : k < w.readBytes) (hpage : k < pageSize) :
    (m₁.backing.files.file w.handle).data.get (w.offset + k) = b[k] := by
  have hbk : b[k]? = some b[k] := Vector.getElem?_eq_getElem hpage
  rw [show m₁.backing.files.file = _ from (h.stashed hm hc).2.2]
  cases hdirty : c.owners.any (m.hasFlag · .dirty) with
  | false =>
    have hsame := hclean hdirty k hk
    rw [hbk] at hsame
    exact (Option.some.inj hsame).symm
  | true =>
    rw [if_pos rfl]
    refine Ledger.get_flush hw hk ?_ ((congrArg (·[k]?) (bytes_ledger h.bytes)).trans hbk)
    rw [bytes_ledger h.bytes]
    exact h.evicted.stored.taken hdirty

/-- **The first that is claimed** brings the others back. -/
theorem PutAway.returned (h : m.PutAway m₁ f c.owners p b ev) (hm : Sound lax m none none)
    (hc : m.resident.get? f = some c) (hm₃ : Sound lax m₃ none none)
    (hstashed : (m₃.ledger none none).Stashed R
      ((p.located m.backing.files).evictedTo ev.slot none) b)
    (ho : R o) (hclaim : claim o m₃ = .ok f' m₄) : Returned m m₁ m₄ c.owners R p b ev f' := by
  obtain ⟨group, hpage⟩ := hstashed.page ho
  obtain ⟨p₃, hp₃, -⟩ := Option.map_eq_some_iff.mp hpage
  have hreach := ((meets_claim_of_page hm₃ hp₃).of_ok hclaim).1
  have hm₄ := hreach.shifts_of_claims.sound hm₃
  have hback := hstashed.claims hm₃.books hreach.told ho
  have htogether : ∀ x, m₄.frameOf x = some f' ↔ R x := fun x => by
    rw [← @frame_ledger _ none none]
    exact hback.together x
  have hslot : (∃ a, (p.located m.backing.files).content = .anon a) ↔ ev.slot.isSome := by
    rw [← h.evicted.stored.slot]
    exact exists_congr fun a => Content.located_eq_anon m.backing.files p.content
  have hswapped : ∀ {s}, ev.slot = some s → _ := fun {s} hs =>
    hback.swapped ((Page.slot_evictedTo hslot).trans hs)
  obtain ⟨c', hc', hmem'⟩ : ∃ c', m₄.resident.get? f' = some c' ∧ ∀ x, x ∈ c'.owners ↔ R x := by
    obtain ⟨l, hl⟩ := hm₄.books.crews.listed ((hback.together o).mpr ho)
    obtain ⟨c', hc', rfl⟩ := Option.map_eq_some_iff.mp hl
    exact ⟨c', hc', fun x => (hm₄.mem_owners hc' x).trans (htogether x)⟩
  obtain ⟨b', hb'⟩ := hm₄.exists_bytes? (hm₄.held hc')
  have hbytes := @bytes_ledger _ none none _ _ hb'
  refine ⟨htogether, ⟨c', hc', hmem'⟩, fun {x} hx => ?_, fun hanon => ?_, fun {w} hw hsame hclean => ?_,
    fun hs => (hswapped hs).2, fun {x} hx => ?_⟩
  · obtain ⟨e, he, hframe⟩ := Option.map_eq_some_iff.mp
      ((hm₄.books.mapped x).trans ((hback.together x).mpr hx))
    have hwrites := hm₄.books.writes (hback.page hx) he
    rw [hframe, hm₄.books.owners_eq_singleton ((hback.together x).mpr hx)] at hwrites
    obtain ⟨entry, hentry, rfl⟩ := Option.map_eq_some_iff.mp he
    refine ⟨entry, hentry, hframe, hwrites.trans (and_congr_right fun _ => ?_)⟩
    exact forall_congr' fun y => imp_congr_left (hback.together y)
  · obtain ⟨s, hs⟩ := Option.isSome_iff_exists.mp (h.evicted.stored.slot.mp hanon)
    rw [hb', ← hbytes, (hswapped hs).1]
  · have hw' : ((p.located m.backing.files).evictedTo ev.slot none).content = .file w := by
      rw [Page.evictedTo, hw]
      rfl
    obtain ⟨hgiven, hwindow⟩ := hback.window hw'
    rw [hb', ← hbytes, hwindow]
    refine congrArg some (Vector.ext fun k hk => ?_)
    rw [hgiven.getElem_windowBytes hk, PageBytes.getElem_clearFrom]
    by_cases hread : k < w.readBytes
    · rw [if_pos hread, if_neg (Nat.not_le.mpr hread)]
      exact (hsame k hread).trans (h.stored hm hc hw hclean hread hk)
    · rw [if_neg hread, if_pos (Nat.le_of_not_lt hread)]
  · rw [← @group_ledger _ none none, Ledger.group, hback.page hx]
    rfl

end Machine

open Machine

/-- **Evicting a frame and bringing it back is lossless for everyone who shares it.** A frame that is
evicted is put away: its content is stored once, and its pages, and no other, are unmapped and evicted.
The frame is put to use, and steps are made by which none of the pages that are still there is loaded.
Then the first of them that is claimed brings all of them back in one frame, with what was stored. -/
theorem Reachable.evict_lossless {lax : Tolerance} {m m₁ : Machine} {f : FrameNum} {c : Frame}
    (h : Reachable lax m) (hc : m.resident.get? f = some c) (hevict : evict f m = .ok () m₁) :
    ∃ p b ev, m.PutAway m₁ f c.owners p b ev ∧ ∀ {m₂ m₃ m₄ : Machine} {R : Owner → Prop} {o : Owner}
      {f' : FrameNum}, Reuses f c.owners { m₁ with frames := m₁.frames.setBytes f .zero } m₂ →
      Absence lax c.owners m₂ R m₃ → R o → claim o m₃ = .ok f' m₄ →
      Returned m m₁ m₄ c.owners R p b ev f' := by
  have hm := h.sound
  obtain ⟨p, b, ev, hput⟩ := hm.putAway hc hevict
  refine ⟨p, b, ev, hput, fun hreuse habsence ho hclaim => ?_⟩
  obtain ⟨hm₁, hstashed₁, -⟩ := hput.stashed hm hc
  have hlt := hm₁.kept.frames.lt_total hm₁.held_of_hand
  have hscrub : Ledger.Shift (m₁.ledger (some f) none) _ := .scrub .zero rfl
  rw [← ledger_setBytes hlt] at hscrub
  have hzeroed : Sound lax { m₁ with frames := m₁.frames.setBytes f .zero } (some f) none :=
    ⟨hscrub.sound hm₁.books, hm₁.kept.setBytes f .zero⟩
  have hzero : (m₁.frames.setBytes f .zero).bytes? f = some .zero := by
    rw [FramePool.bytes?_setBytes, if_pos ⟨rfl, hlt⟩]
  obtain ⟨hm₂, hstashed₂⟩ := hreuse.stashed hzeroed hzero
    (hstashed₁.shift hm₁.books hscrub fun _ _ => rfl)
  obtain ⟨hm₃, hstashed₃⟩ := stashed_of_absence habsence hm₂ hstashed₂
  exact hput.returned hm hc hm₃ hstashed₃ ho hclaim

/-- Requests by which three pages share a frame. -/
def Operation.sharing : List Operation :=
  [.create, .register 0 .anon ⟨0x1000⟩ true .zero, .write 0 ⟨0x1000⟩ #[7], .fork 0, .fork 0]

/-- Three pages share a frame, one leaves while they are evicted, and the others come back. -/
theorem Reachable.evict_lossless_shared : ∃ m m₁ m₂ m₃ m₄ c f' p b ev R, Reachable .all m ∧
    m.resident.get? 0 = some c ∧ c.owners = [⟨0, 1⟩, ⟨1, 1⟩, ⟨2, 1⟩] ∧ evict 0 m = .ok () m₁ ∧
    m.PutAway m₁ 0 c.owners p b ev ∧
    Reuses 0 c.owners { m₁ with frames := m₁.frames.setBytes 0 .zero } m₂ ∧
    Absence .all c.owners m₂ R m₃ ∧ R ⟨1, 1⟩ ∧ ¬R ⟨0, 1⟩ ∧ claim ⟨1, 1⟩ m₃ = .ok f' m₄ ∧
    Returned m m₁ m₄ c.owners R p b ev f' := by
  have h : ((Machine.start { userFrames := 2 } (.blank 16)).carry Operation.sharing).any (fun r =>
      decide ((r.2.resident.get? 0).map Frame.owners = some [⟨0, 1⟩, ⟨1, 1⟩, ⟨2, 1⟩]) &&
      ((evict 0).result? r.2).any fun r₁ =>
      ((releaseFrame 0).result? { r₁.2 with frames := r₁.2.frames.setBytes 0 .zero }).any fun r₂ =>
      ((Operation.drop 0).perform.result? r₂.2).any fun r₃ => ((claim ⟨1, 1⟩).result? r₃.2).isSome &&
      decide ((∀ o ∈ [(⟨0, 1⟩ : Owner), ⟨1, 1⟩, ⟨2, 1⟩], r₃.2.loads o = r₂.2.loads o) ∧
        (r₃.2.page? ⟨1, 1⟩).isSome ∧ ¬(r₃.2.page? ⟨0, 1⟩).isSome)) = true := by decide +kernel
  obtain ⟨r, -, hm, hrest⟩ := Reachable.exists_of_carry (by decide) h
  obtain ⟨hc, hrest⟩ := Bool.and_eq_true_iff.mp hrest
  obtain ⟨c, hc, howners⟩ := Option.map_eq_some_iff.mp (of_decide_eq_true hc)
  obtain ⟨_, m₁, hevict, hrest⟩ := Action.exists_ok_of_any hrest
  obtain ⟨_, m₂, hrelease, hrest⟩ := Action.exists_ok_of_any hrest
  obtain ⟨_, m₃, hdrop, hrest⟩ := Action.exists_ok_of_any hrest
  obtain ⟨hclaim, hfacts⟩ := Bool.and_eq_true_iff.mp hrest
  obtain ⟨hquiet, hthere, hgone⟩ := of_decide_eq_true hfacts
  obtain ⟨f', m₄, hclaim⟩ := Action.exists_ok_of_isSome hclaim
  obtain ⟨p, b, ev, hput, hback⟩ := hm.evict_lossless hc hevict
  have habsence : Absence .all c.owners m₂ _ m₃ :=
    .step .start (.ask (Operation.admissible_of_handles fun _ hk => by cases hk) (.ok hdrop))
      (howners ▸ hquiet)
  have hmem : ⟨1, 1⟩ ∈ c.owners ∧ (m₃.page? ⟨1, 1⟩).isSome := ⟨by rw [howners]; decide, hthere⟩
  exact ⟨r.2, m₁, m₂, m₃, m₄, c, f', p, b, ev, _, hm, hc, howners, hevict, hput,
    .released hrelease, habsence, hmem, fun h => hgone h.2, hclaim, hback (.released hrelease) habsence hmem hclaim⟩

end DemandPaging
