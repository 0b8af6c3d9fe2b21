import DemandPaging.Proofs.Ledger.Contents
import DemandPaging.Proofs.Ledger.Transfers

/-!
# Plain memory

Writable memory that was registered as zeros needs no file and no initializer. It is zeros until it is
loaded, and anonymous memory after that. What it holds changes when it is written and not otherwise
(`Shows.shift`, `Shows.move`, `Trace.shows_write`).
-/

namespace DemandPaging

namespace Page

/-- Writable memory that was registered as zeros. -/
structure Plain (p : Page) : Prop where
  writable : p.writable = true
  content : p.content = .uninit .anon .zero ∨ ∃ a, p.content = .anon a

/-- A page that was loaded as anonymous memory. -/
def IsLoaded (p : Page) : Prop := ∃ a, p.content = .anon a

variable {p : Page} {f : FrameNum}

theorem plain_fresh (vpn : PageNum) : (Page.fresh vpn true .anon .zero).Plain := ⟨rfl, Or.inl rfl⟩

namespace Plain

theorem window? (h : p.Plain) : p.window? = none := by
  unfold Page.window?
  rcases h.content with hc | ⟨a, hc⟩
  all_goals
    rw [hc]
    rfl

/-- A plain page that is resident was loaded. -/
theorem isLoaded (h : p.Plain) (hp : p.Shaped) (hf : p.frame = some f) : p.IsLoaded :=
  h.content.resolve_left (hp.content_ne_uninit hf _ _)

/-- Eviction loads nothing. -/
theorem evictedTo (h : p.Plain) (slot group : Option Nat) : (p.evictedTo slot group).Plain := by
  refine ⟨h.writable, h.content.imp Page.content_evictedTo_uninit.mpr ?_⟩
  rintro ⟨a, ha⟩
  exact ⟨⟨slot⟩, by rw [Page.evictedTo, ha]; rfl⟩

/-- Plain memory is loaded as anonymous memory. -/
theorem isLoaded_loadedInto (h : p.Plain) (f : FrameNum) : (p.loadedInto f).IsLoaded := by
  unfold IsLoaded loadedInto
  rcases h.content with hc | ⟨a, hc⟩
  all_goals
    rw [hc]
    exact ⟨{}, rfl⟩

theorem loadedInto (h : p.Plain) (f : FrameNum) : (p.loadedInto f).Plain :=
  ⟨h.writable, Or.inr (h.isLoaded_loadedInto f)⟩

end Plain

/-- Eviction leaves a page loaded as anonymous memory. -/
theorem IsLoaded.evictedTo (h : p.IsLoaded) (slot group : Option Nat) :
    (p.evictedTo slot group).IsLoaded := by
  obtain ⟨a, ha⟩ := h
  exact ⟨⟨slot⟩, by rw [Page.evictedTo, ha]; rfl⟩

end Page

namespace Ledger

variable {L L' : Ledger} {x : Owner} {p : Page} {loaded : Bool} {b : PageBytes} {k : Kind}
  {bytes : Bytes}

/-- The page of an owner is plain memory that holds `b`, and it was loaded if `loaded` says so. -/
def Shows (L : Ledger) (x : Owner) (loaded : Bool) (b : PageBytes) : Prop :=
  ∃ p, L.page x = some p ∧ p.Plain ∧ (loaded = true → p.IsLoaded) ∧ L.contentOf p = b

namespace Shows

/-- **A shift** changes nothing that plain memory holds. -/
theorem shift (h : L.Shows x loaded b) (hL : L.Sound) (hs : Shift L L') : L'.Shows x loaded b := by
  obtain ⟨p, hp, hplain, hloaded, rfl⟩ := h
  have hdetached : p.Detached fun _ => False := Page.detached_of_window? hplain.window?
  obtain ⟨q, hq, -, hcontent⟩ := hs.contentOf hL hp hdetached nofun
  suffices hbecomes : q.Plain ∧ (p.IsLoaded → q.IsLoaded) from
    ⟨q, hq, hbecomes.1, fun h => hbecomes.2 (hloaded h), hcontent⟩
  cases hs.fate hL hp with
  | stays hp' =>
    obtain rfl := Option.some.inj (hq.symm.trans hp')
    exact ⟨hplain, id⟩
  | evicted hf hl hgid hp' =>
    have hx := hL.mem_of_page hl hp hf
    obtain rfl := Option.some.inj (hq.symm.trans (hp' x hx))
    exact ⟨hplain.evictedTo _ _, fun h => h.evictedTo _ _⟩
  | loaded hf hx hhand hp' =>
    obtain rfl := Option.some.inj (hq.symm.trans (hp' x hx))
    exact ⟨hplain.loadedInto _, fun _ => hplain.isLoaded_loadedInto _⟩
  | copied hf hl hshared hhand hp' =>
    obtain rfl := Option.some.inj (hq.symm.trans hp')
    exact ⟨⟨hplain.writable, hplain.content⟩, id⟩

theorem shifts (h : L.Shows x loaded b) (hL : L.Sound) (hs : Shifts L L') : L'.Shows x loaded b :=
  hs.induction (P := fun A => A.Shows x loaded b) hL h fun hA hs hx => hx.shift hA hs

/-- **A move that is not made to a page** changes nothing that plain memory holds. -/
theorem move (h : L.Shows x loaded b) (hL : L.Sound) (hm : Move k L L')
    (hleave : ∀ writeBack, k ≠ .leave x writeBack)
    (hwrite : ∀ start bytes, k ≠ .write x start bytes) : L'.Shows x loaded b := by
  obtain ⟨p, hp, hplain, hloaded, rfl⟩ := h
  have hdetached : p.Detached fun _ => False := Page.detached_of_window? hplain.window?
  obtain ⟨q, hq, -, hcontent⟩ := hm.contentOf hL hp hdetached nofun hleave hwrite
  rcases (hm.remains hL hp hleave hwrite).1 with hq' | hq'
  all_goals
    obtain rfl := Option.some.inj (hq.symm.trans hq')
    exact ⟨_, hq, ⟨hplain.writable, hplain.content⟩, hloaded, hcontent⟩

/-- A page that is registered as zeros holds zeros. -/
theorem enter (hm : Move (.enter x true .anon .zero) L L') : L'.Shows x false .zero := by
  obtain ⟨hp, hcontent⟩ := hm.contentOf_enter
  exact ⟨_, hp, Page.plain_fresh _, nofun, hcontent⟩

/-- A page that is written over holds what it was written with, and was loaded for that. -/
theorem write (h : L.Shows x loaded b) (hL : L.Sound) (hm : Move (.write x 0 bytes) L L')
    (hsize : bytes.size = pageSize) : L'.Shows x true ⟨bytes, hsize⟩ := by
  obtain ⟨p, hp, hplain, -⟩ := h
  obtain ⟨q, f, hq, hf, hq', hbytes⟩ := hm.bytes_write hL
  obtain rfl := Option.some.inj (hp.symm.trans hq)
  refine ⟨p, hq', hplain, fun _ => hplain.isLoaded (hL.shaped hp) hf, ?_⟩
  rw [contentOf_resident hf, hbytes, PageBytes.blit, dif_pos ⟨rfl, hsize⟩]

end Shows

/-- One move has shifts before it and after it. -/
theorem Trace.of_single (h : Trace [k] L L') :
    ∃ A B, Shifts L A ∧ Move k A B ∧ Shifts B L' := by
  have h : Trace ([] ++ [k]) L L' := h
  exact h.of_concat

/-! ## Transfers of whole pages -/

section

variable {id : SpaceId} {va : Address} {r : Machine.ReadResult}

theorem Shows.registered (h : L.Shows x loaded b) : L.layout.registered x = true := by
  obtain ⟨p, hp, -⟩ := h
  show (L.page x).isSome = true
  rw [hp]
  rfl

/-- A page that is mapped holds what its frame holds. -/
theorem Shows.bytes_eq (h : L.Shows x loaded b) (hL : L.Sound) {e : Grant} (he : L.grant x = some e) :
    L.bytes e.frame = b := by
  obtain ⟨p, hp, -, -, rfl⟩ := h
  obtain ⟨q, hq, hf⟩ := hL.page_of_grant he
  obtain rfl := Option.some.inj (hp.symm.trans hq)
  exact (contentOf_resident hf).symm

/-- **A page that is read** in one span reads as what it holds, and reading it changes no page. -/
theorem ReadsUpTo.span {n : Nat} (h : L.ReadsUpTo id [⟨va, n⟩] r L') (hL : L.Sound)
    (hshows : L.Shows ⟨id, va.page⟩ loaded b) :
    Shifts L L' ∧ r.bytes = if r.stopped = none then b.slice va.offset n else #[] := by
  generalize hspans : [(⟨va, n⟩ : Machine.Span)] = spans at h
  cases h with
  | all h =>
    cases h with
    | nil => cases hspans
    | cons h hg he hrest =>
      obtain ⟨rfl, rfl⟩ := List.cons.inj hspans
      cases hrest
      obtain rfl := hg.eq_nil hshows.registered
      refine ⟨h, ?_⟩
      rw [(hshows.shifts hL h).bytes_eq (h.sound hL) he, Array.append_empty, if_pos rfl]
  | part h hg hs =>
    rename_i before _ _ _ _ _ _
    cases before with
    | cons => simp at hspans
    | nil =>
      obtain ⟨rfl, -⟩ := List.cons.inj hspans
      cases h
      obtain rfl := hg.eq_nil hshows.registered
      exact ⟨hs, rfl⟩

/-- A page that is read as a whole reads as what it holds. -/
theorem ReadsUpTo.page (h : L.ReadsUpTo id [⟨va, pageSize⟩] r L') (hL : L.Sound)
    (hva : va.offset = 0) (hshows : L.Shows ⟨id, va.page⟩ loaded b) :
    Shifts L L' ∧ (r.stopped = none → r.bytes = b.toArray) := by
  obtain ⟨hshifts, hbytes⟩ := h.span hL hshows
  refine ⟨hshifts, fun hstopped => ?_⟩
  rw [hbytes, if_pos hstopped, hva]
  show b.toArray.extract 0 (0 + pageSize) = b.toArray
  rw [Nat.zero_add]
  exact Array.extract_eq_self_of_le (Nat.le_of_eq b.size_toArray)

/-- What is written to a page as a whole is what it holds then. -/
theorem Trace.shows_write (h : Trace [.write x 0 bytes] L L') (hL : L.Sound)
    (hshows : L.Shows x loaded b) (hsize : bytes.size = pageSize) :
    L'.Shows x true ⟨bytes, hsize⟩ := by
  obtain ⟨A, B, hA, hm, hB⟩ := h.of_single
  have hsound := hA.sound hL
  exact ((hshows.shifts hL hA).write hsound hm hsize).shifts (hm.sound hsound) hB

/-- Other pages hold what they held. -/
theorem Trace.shows_of_write {y : Owner} {start : Nat} (h : Trace [.write x start bytes] L L')
    (hL : L.Sound) (hne : y ≠ x) (hshows : L.Shows y loaded b) : L'.Shows y loaded b := by
  obtain ⟨A, B, hA, hm, hB⟩ := h.of_single
  have hsound := hA.sound hL
  refine ((hshows.shifts hL hA).move hsound hm (fun _ => nofun) fun start bytes hk => ?_).shifts
    (hm.sound hsound) hB
  exact hne (Kind.write.inj hk).1.symm

end

end Ledger

end DemandPaging
