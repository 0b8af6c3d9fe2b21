import Mathlib.Data.List.Nodup
import DemandPaging.Proofs.Ledger.Files
import DemandPaging.Proofs.Run

/-!
# Who may write

The page tables grant writing exactly where it is safe: a resident page is mapped writable when it
may be written and no other page is in its frame (`Machine.Guarded`). So a write goes to a frame that
nobody else sees, a page that is alone in its frame is written without a fault, and what is ever
written back to a file comes from a writable page.

Headline: **`Reachable.guarded`**.
-/

namespace DemandPaging

namespace Machine

/-- **Page tables grant writing exactly where it is safe.** -/
structure Guarded (m : Machine) : Prop where
  /-- A resident page is mapped to its frame, and writable there if it may be written and is the only
  page in the frame. -/
  writable : ∀ {o p f}, m.page? o = some p → p.frame = some f →
    ∃ e c, m.entryAt? o = some e ∧ e.frame = f ∧ m.resident.get? f = some c ∧
      (e.has .writable = true ↔ p.writable = true ∧ c.owners = [o])
  /-- A dirty mapping belongs to a page that may be written. -/
  dirty : ∀ {o e}, m.entryAt? o = some e → e.has .dirty = true →
    ∃ p, m.page? o = some p ∧ p.writable = true
  /-- A frame is shared by different spaces. -/
  spaces : ∀ {f c}, m.resident.get? f = some c → (c.owners.map Owner.space).Nodup
  /-- The pages in a frame are alike, but for the handles they use. -/
  alike : ∀ {f c o o'}, m.resident.get? f = some c → o ∈ c.owners → o' ∈ c.owners →
    o.vpn = o'.vpn ∧ ∃ p p', m.page? o = some p ∧ m.page? o' = some p' ∧ p.type = p'.type ∧
      p.writable = p'.writable ∧ p.mapping = p'.mapping ∧
      p.window?.map (·.located m.backing.files) = p'.window?.map (·.located m.backing.files)

/-- A writable page is kept in a window. -/
def KeepsWritable (m : Machine) (w : FileWindow) : Prop :=
  ∃ o p, m.page? o = some p ∧ p.writable = true ∧ m.homeOf o = some w

variable {lax : Tolerance} {m m' : Machine} {id : SpaceId} {va : Address} {o : Owner} {p : Page}
  {f : FrameNum} {c : Frame}

/-- **The books guard the frames.** -/
theorem Sound.guards (hm : Sound lax m none none) : m.Guarded := by
  have halike : ∀ {f c o o'}, m.resident.get? f = some c → o ∈ c.owners → o' ∈ c.owners →
      ∃ p p', m.page? o = some p ∧ m.page? o' = some p' ∧
        p.located m.backing.files = p'.located m.backing.files ∧ p.vpn = o.vpn ∧ p'.vpn = o'.vpn := by
    intro f c o o' hc ho ho'
    have hof := (hm.books.mem_owners hc o).mp ho
    have hof' := (hm.books.mem_owners hc o').mp ho'
    obtain ⟨q, hq, -⟩ := Option.bind_eq_some_iff.mp hof
    have hq' : (m.ledger none none).page o' = some q := (hm.books.crewAlike hof' hof).trans hq
    have hnumber := hm.books.numbered hq
    have hnumber' := hm.books.numbered hq'
    obtain ⟨p, hp, rfl⟩ := Option.map_eq_some_iff.mp hq
    obtain ⟨p', hp', heq⟩ := Option.map_eq_some_iff.mp hq'
    rw [← heq] at hnumber'
    exact ⟨p, p', hp, hp', heq.symm, hnumber, hnumber'⟩
  have hvpn : ∀ {f c o o'}, m.resident.get? f = some c → o ∈ c.owners → o' ∈ c.owners →
      o.vpn = o'.vpn := fun hc ho ho' => by
    obtain ⟨p, p', -, -, heq, hnumber, hnumber'⟩ := halike hc ho ho'
    rw [← hnumber, ← hnumber']
    have hsame := congrArg Page.vpn heq
    exact hsame
  constructor
  case writable =>
    intro o p f hp hf
    obtain ⟨e, he, rfl⟩ := hm.exists_entry hp hf
    obtain ⟨c, hc, -⟩ := hm.exists_crew hp hf
    refine ⟨e, c, he, rfl, hc, ?_⟩
    have hwrites := hm.books.writes (page_ledger_of_page? hp) (grant_ledger_of_entryAt? he)
    rw [show e.grant.frame = e.frame from rfl, owners_ledger, hc, Option.map_some,
      Option.some.injEq] at hwrites
    exact hwrites
  case dirty =>
    intro o e he hdirty
    have hgrant : (m.ledger none none).grant o = some e.grant := grant_ledger_of_entryAt? he
    obtain ⟨q, hq, -⟩ := hm.books.page_of_grant hgrant
    have hwritable := hm.books.dirties hq hgrant hdirty
    obtain ⟨p, hp, rfl⟩ := Option.map_eq_some_iff.mp hq
    exact ⟨p, hp, hwritable⟩
  case spaces =>
    intro f c hc
    have hcrew := @owners_ledger_of_get? m none none f c hc
    -- Pages of one space in one frame would have the same number and be the same.
    refine List.Nodup.map_on (fun o ho o' ho' hspace => ?_) (hm.books.crews.nodup hcrew)
    have hsame := hvpn hc ho ho'
    cases o
    cases o'
    exact congrArg₂ Owner.mk hspace hsame
  case alike =>
    intro f c o o' hc ho ho'
    obtain ⟨p, p', hp, hp', heq, -, -⟩ := halike hc ho ho'
    have hwritable := congrArg Page.writable heq
    refine ⟨hvpn hc ho ho', p, p', hp, hp', ?_, hwritable, ?_, ?_⟩
    · rw [← p.type_located m.backing.files, heq, Page.type_located]
    · rw [← Page.mapping_located m.backing.files p, heq, Page.mapping_located]
    · rw [← Page.window?_located, heq, Page.window?_located]

/-- **A write goes to a frame nobody else sees.** -/
theorem Sound.owners_of_write (hm : Sound .all m none none)
    (h : access id va true m = .ok f m') : ∃ c, m'.resident.get? f = some c ∧
      c.owners = [⟨id, va.page⟩] := by
  have hreach := ((meets_access hm).of_ok h).reaches
  obtain ⟨ks, A, e, -, htrace, he, rfl, hw, htouched⟩ := hreach.told.write
  have hA := htrace.sound hm.books
  obtain ⟨p, hp, -⟩ := hA.page_of_grant he
  have halone := ((hA.writes hp he).mp hw).2
  have howners : (m'.ledger none none).owners e.frame = some [⟨id, va.page⟩] := by
    rw [htouched]
    exact halone
  exact Option.map_eq_some_iff.mp howners

/-- **A page alone in its frame is written without a fault.** -/
theorem Guarded.access_of_alone (hm : m.Guarded) (hp : m.page? ⟨id, va.page⟩ = some p)
    (hf : p.frame = some f) (hw : p.writable = true) (hc : m.resident.get? f = some c)
    (halone : c.owners = [⟨id, va.page⟩]) :
    ∃ m', access id va true m = .ok f m' ∧ m'.counters = m.counters := by
  obtain ⟨e, c', he, rfl, hc', hiff⟩ := hm.writable hp hf
  obtain rfl := Option.some.inj (hc.symm.trans hc')
  have hgrants : grants e true = true := hiff.mpr ⟨hw, halone⟩
  obtain ⟨f, m', hok, rfl, change, rfl⟩ := (meets_access_of_grants he hgrants).exists_ok
  exact ⟨_, hok, rfl⟩

end Machine

/-! ## What is written back -/

variable {lax : Tolerance} {m m' : Machine} {op : Operation} {outcome : Except Refusal Reply}

/-- **A step writes back windows of `P`**, if all pages that are dirty or that it writes are kept in
such windows. -/
theorem Step.rewritten {label : Label} {P : Owner → FileWindow → Prop} {i : Nat}
    (hs : Step lax m label m') (hm : Machine.Sound lax m none none)
    (hP : (m.ledger none none).Soils (· ∈ label.written) P)
    (hfile : label = .outside → m'.backing.files.file i = m.backing.files.file i) :
    (m'.ledger none none).Soils (fun _ => False) P ∧ (m.backing.files.file i).Rewritten
      (fun w => w.handle = i ∧ ∃ x, P x w) (m'.backing.files.file i) := by
  cases label with
  | ask op outcome =>
    have htells : op.Tells outcome (m.ledger none none) (m'.ledger none none) := (hs.tells hm).told
    obtain ⟨ks, hks, htrace⟩ := htells.moves hm.books
    obtain ⟨hafter, hrewritten⟩ := htrace.rewritten hm.books hP hks.within
    exact ⟨hafter.mono nofun, hrewritten i⟩
  | outside =>
    rw [hfile rfl]
    cases hs with
    | outside hchanged =>
      rw [hchanged.ledger hm]
      exact ⟨hP.mono nofun, .refl⟩

namespace Machine

/-- The windows of writable pages, in the ledger. -/
theorem keepsWritable_ledger {w : FileWindow} : m.KeepsWritable w ↔
    ∃ o p, (m.ledger none none).page o = some p ∧ p.writable = true ∧ p.home? = some w := by
  constructor
  · rintro ⟨o, p, hp, hw, hhome⟩
    rw [homeOf, hp] at hhome
    exact ⟨o, _, page_ledger_of_page? hp, hw, hhome⟩
  · rintro ⟨o, q, hq, hw, hhome⟩
    obtain ⟨p, hp, rfl⟩ := Option.map_eq_some_iff.mp hq
    exact ⟨o, p, hp, hw, by rw [homeOf, hp]; exact hhome⟩

/-- **An operation writes nothing back but writable pages.** -/
theorem Sound.rewritten (hm : Sound .all m none none) (hop : op.Admissible .all m)
    (h : op.Ends m outcome m') (i : Nat) :
    (m.backing.files.file i).Rewritten
      (fun w => w.handle = i ∧ m.KeepsWritable w) (m'.backing.files.file i) := by
  have hsoils : (m.ledger none none).Soils (· ∈ op.written) fun _ w => m.KeepsWritable w :=
    fun x p w hp hw hwritable _ => keepsWritable_ledger.mpr ⟨x, p, hp, hwritable, hw⟩
  exact ((Step.ask hop h).rewritten hm hsoils nofun).2.mono fun w ⟨hi, _, hw⟩ => ⟨hi, hw⟩

end Machine

/-- **Write permission is exact.** After any run a resident page is mapped writable when it may be
written and is alone in its frame, and only then; dirty mappings belong to pages that may be written;
and the pages in one frame belong to different spaces and are alike. So a write goes to a frame nobody
else sees; a page that is alone in its frame is written without a fault; and what an operation changes
in a file are windows of pages that may be written. -/
theorem Reachable.guarded {m : Machine} (h : Reachable .all m) :
    m.Guarded ∧
      (∀ id va f m', Machine.access id va true m = .ok f m' →
        ∃ c, m'.resident.get? f = some c ∧ c.owners = [⟨id, va.page⟩]) ∧
      (∀ id va p f c, m.page? ⟨id, va.page⟩ = some p → p.frame = some f → p.writable = true →
        m.resident.get? f = some c → c.owners = [⟨id, va.page⟩] →
        ∃ m', Machine.access id va true m = .ok f m' ∧ m'.counters = m.counters) ∧
      ∀ (op : Operation) outcome (m' : Machine), op.Admissible .all m → op.Ends m outcome m' → ∀ i,
        (m.backing.files.file i).Rewritten
          (fun w => w.handle = i ∧ m.KeepsWritable w) (m'.backing.files.file i) :=
  ⟨h.sound.guards, fun _ _ _ _ haccess => h.sound.owners_of_write haccess,
    fun _ _ _ _ _ hp hf hw hc halone => h.sound.guards.access_of_alone hp hf hw hc halone,
    fun _ _ _ hop hends => h.sound.rewritten hop hends⟩

/-- A frame is shared after a fork, and another one was written. -/
theorem Reachable.guarded_forked : ∃ m, Reachable .all m ∧ m.Guarded ∧
    ∃ c, m.resident.get? 0 = some c ∧ c.owners.length = 2 ∧
      m.hasFlag ⟨0, 1⟩ .writable = false ∧ m.hasFlag ⟨0, 2⟩ .writable = true ∧
      m.hasFlag ⟨0, 2⟩ .dirty = true := by
  have h : ((Machine.start { userFrames := 2 } (.blank 16)).carry (Operation.crowding.take 6)).any
      (fun r => decide (((r.2.resident.get? 0).map fun c => c.owners.length) = some 2 ∧
        r.2.hasFlag ⟨0, 1⟩ .writable = false ∧ r.2.hasFlag ⟨0, 2⟩ .writable = true ∧
        r.2.hasFlag ⟨0, 2⟩ .dirty = true)) = true := by decide +kernel
  obtain ⟨r, -, hm, hrest⟩ := Reachable.exists_of_carry (by decide) h
  obtain ⟨hshared, hrest⟩ := of_decide_eq_true hrest
  obtain ⟨c, hc, hlength⟩ := Option.map_eq_some_iff.mp hshared
  exact ⟨r.2, hm, hm.guarded.1, c, hc, hlength, hrest⟩

end DemandPaging
