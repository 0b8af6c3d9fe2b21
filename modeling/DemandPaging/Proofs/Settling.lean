import DemandPaging.Proofs.Legality

/-!
# Accesses settle

An access to an address of user memory takes two faults at most, and it never runs out of them. Whether
it is refused as illegal is decided by what is registered when it starts: by the page, or by the gap
the stack may grow into. An access that is legal ends in the frame of the page, which holds what it held
before if the page was resident, or is refused for want of a frame, of a slot or of the content.

A page can be registered with a window or an initializer that is longer than a frame. No such page ever
is in a frame (`Reachable.fitted`), because loading one breaks an assertion. An access to one is
therefore no refusal (`Reachable.not_always_answered`).

Headline: **`Reachable.settles`**.
-/

namespace DemandPaging

/-- A refusal of a legal access: no frame or no slot is left, or the page cannot be loaded. -/
inductive Refusal.IsShortage : Refusal → Prop
  | outOfFrames : IsShortage .outOfFrames
  | outOfSwap : IsShortage .outOfSwap
  | shortRead (expected actual : Nat) : IsShortage (.shortRead expected actual)
  | initializer : IsShortage (.invalidArgument "page initializer failed")

theorem Refusal.isShortage {cause : Refusal} (h : cause.isExhaustion = true ∨ cause.IsLoading) :
    cause.IsShortage := by
  rcases h with h | h
  · cases cause
    case outOfFrames => exact .outOfFrames
    case outOfSwap => exact .outOfSwap
    all_goals cases h
  · cases h with
    | short expected actual => exact .shortRead expected actual
    | initializer => exact .initializer

namespace Machine

/-- The page is in the frame `f`, its mapping tells of the access, no other page is in the frame after a
write, and the frame holds what the page held if it was resident before. -/
structure Settled (m m' : Machine) (o : Owner) (write : Bool) (f : FrameNum) : Prop where
  resident : m'.frameOf o = some f
  mapped : ∃ e, m'.entryAt? o = some e ∧ e.frame = f ∧ e.Used write
  alone : write = true → ∃ c, m'.resident.get? f = some c ∧ c.owners = [o]
  keeps : ∀ {g}, m.frameOf o = some g →
    ∃ bytes, m.frames.bytes? g = some bytes ∧ m'.frames.bytes? f = some bytes

variable {lax : Tolerance} {m m' : Machine} {id : SpaceId} {va : Address} {write : Bool}
  {faults : Nat} {f : FrameNum} {cause : Refusal}

/-- A machine is in order after an access was served. -/
theorem Served.sound (h : Served lax m m' id va write faults f) (hm : Sound lax m none none) :
    Sound lax m' none none := by
  refine ⟨?_, h.reaches.kept⟩
  cases write with
  | false =>
    obtain ⟨ks, e, -, htrace, -⟩ := h.reaches.told.read
    exact htrace.sound hm.books
  | true =>
    obtain ⟨ks, A, e, -, htrace, he, -, hw, htouched⟩ := h.reaches.told.write
    rw [htouched]
    exact (htrace.sound hm.books).touch he hw

/-- The content of a frame with a page in it. -/
theorem Sound.bytes?_of_frameOf {o : Owner} (hm : Sound lax m none none)
    (hf : m.frameOf o = some f) : m.frames.bytes? f = some ((m.ledger none none).bytes f) := by
  obtain ⟨p, hp, hpf⟩ := Option.bind_eq_some_iff.mp hf
  obtain ⟨c, hc, -⟩ := hm.exists_crew hp hpf
  obtain ⟨bytes, hbytes⟩ := hm.exists_bytes? (hm.held hc)
  rw [hbytes, bytes_ledger hbytes]

/-- **An access that is served settles.** -/
theorem Served.settled (h : Served lax m m' id va write faults f) (hm : Sound lax m none none) :
    m.Settled m' ⟨id, va.page⟩ write f := by
  have hm' := h.sound hm
  obtain ⟨e, he, rfl, hused⟩ := h.used
  have hresident : m'.frameOf ⟨id, va.page⟩ = some e.frame := by
    rw [← hm'.frame_entryAt?, he]
    rfl
  obtain ⟨p, hp, hpf⟩ := Option.bind_eq_some_iff.mp hresident
  refine ⟨hresident, ⟨e, he, rfl, hused⟩, fun hwrite => ?_, fun {g} hg => ?_⟩
  · obtain ⟨e', c, he', -, hc, hiff⟩ := hm'.guards.writable hp hpf
    obtain rfl := Option.some.inj (he.symm.trans he')
    exact ⟨c, hc, (hiff.mp (hused.writable hwrite)).2⟩
  · refine ⟨_, hm.bytes?_of_frameOf hg, ?_⟩
    rw [hm'.bytes?_of_frameOf hresident, h.keeps hg]

/-- There is no page at the address, and the stack may not grow there. -/
def Lacks (m : Machine) (id : SpaceId) (va : Address) : Prop :=
  m.page? ⟨id, va.page⟩ = none ∧ ¬m.InGap id va

/-- The page at the address may not be written. -/
def Shields (m : Machine) (id : SpaceId) (va : Address) : Prop :=
  ∃ p, m.page? ⟨id, va.page⟩ = some p ∧ p.writable = false

theorem Allows.not_lacks (h : m.Allows id va write) : ¬m.Lacks id va := by
  rintro ⟨hfree, hgap⟩
  cases h with
  | page hp =>
    rw [hp] at hfree
    cases hfree
  | gap _ h => exact hgap h

theorem Allows.not_shields (h : m.Allows id va write) : ¬(write = true ∧ m.Shields id va) := by
  rintro ⟨hwrite, p, hp, hno⟩
  cases h with
  | page hp' hw =>
    rw [Option.some.inj (hp'.symm.trans hp), hno] at hw
    exact Bool.false_ne_true (hw hwrite)
  | gap hfree =>
    rw [hp] at hfree
    cases hfree

/-- **Why an access to user memory is refused.** -/
theorem Denied.cases_of_not_bars (h : m.Denied id va true write cause)
    (hid : m.spaces[id]?.isSome) (hva : ¬m.config.Bars va) :
    (cause = .notMapped va ∧ m.Lacks id va) ∨
      (cause = .writeProtected va ∧ write = true ∧ m.Shields id va) ∨
      (cause.IsShortage ∧ m.Allows id va write) := by
  cases h with
  | barred hbars =>
    refine absurd ?_ hva
    rwa [Bool.true_and, Bool.or_eq_true, decide_eq_true_eq] at hbars
  | absent hnone =>
    rw [floorAt?, Option.map_eq_none_iff] at hnone
    rw [hnone] at hid
    cases hid
  | unmapped hfree hgap => exact Or.inl ⟨rfl, hfree, fun h => hgap ⟨rfl, h⟩⟩
  | shielded hp hwrite hw => exact Or.inr (Or.inl ⟨rfl, hwrite, _, hp, hw⟩)
  | unavailable hallowed hcause => exact Or.inr (Or.inr ⟨Refusal.isShortage hcause, hallowed⟩)

/-- The page is not in a frame, and its window or what its initializer writes is longer than one. -/
def Overlong (m : Machine) (o : Owner) : Prop :=
  ∃ p, m.page? o = some p ∧ p.frame = none ∧ ¬p.Fits m.backing.initial

/-- Where the pages in frames fit, a page that does not fit is in none. -/
theorem overlong_of_not_admits {o : Owner} (hfit : (m.ledger none none).Fitted)
    (h : ¬(m.ledger none none).Admits o) : m.Overlong o := by
  have hno : ¬(m.ledger none none).Fits o := fun hfits => h ⟨hfit, hfits⟩
  obtain ⟨q, hno⟩ := not_forall.mp hno
  obtain ⟨hq, hlong⟩ := Classical.not_imp.mp hno
  obtain ⟨p, hp, rfl⟩ := Option.map_eq_some_iff.mp hq
  refine ⟨p, hp, Option.eq_none_iff_forall_ne_some.mpr fun f hf => hlong ?_,
    fun hfits => hlong (Page.fits_located.mpr hfits)⟩
  exact hfit o f ((frame_ledger_of_page? hp).trans hf) _ hq

end Machine

open Machine

variable {m : Machine} {id : SpaceId} {va : Address}

/-- **The pages in frames fit there**, in every machine on a run. -/
theorem Reachable.fitted {lax : Tolerance} (h : Reachable lax m) : (m.ledger none none).Fitted := by
  obtain ⟨config, disk, files, labels, hframes, hrun⟩ := h
  induction hrun with
  | refl =>
    intro o f hf
    rw [Ledger.frame, page_ledger, page?_start] at hf
    cases hf
  | step hrun hs ih =>
    have hm := hrun.sound (sound_start disk files hframes)
    obtain ⟨ks, htrace⟩ := (hs.tells hm).told.trace hm.books
    exact htrace.fitted hm.books ih

/-- **An access to user memory settles after two faults at most**, unless a file takes less than was
written back. It is refused as unmapped exactly where there is no page and no stack may grow, and as a
write to a read-only page exactly where there is one. Otherwise it goes through and settles, or something
it needs is short, or the page has to be loaded and is longer than a frame. -/
theorem Reachable.settles (h : Reachable .all m) (hid : m.spaces[id]?.isSome)
    (hva : ¬m.config.Bars va) (write : Bool)
    (hfull : ∀ inode offset m',
      access id va write m ≠ .error (.fatal (.shortWriteBack inode offset)) m') :
    ∃ m', m'.counters.faults ≤ m.counters.faults + 2 ∧
      (access id va write m = .error (.refused (.notMapped va)) m' ↔ m.Lacks id va) ∧
      (access id va write m = .error (.refused (.writeProtected va)) m' ↔
        write = true ∧ m.Shields id va) ∧
      (¬m.Lacks id va → ¬(write = true ∧ m.Shields id va) →
        (∃ f, access id va write m = .ok f m' ∧ m.Settled m' ⟨id, va.page⟩ write f) ∨
          (∃ cause, access id va write m = .error (.refused cause) m' ∧ cause.IsShortage) ∨
          access id va write m = .error (.fatal .outOfBounds) m' ∧ m.Overlong ⟨id, va.page⟩) := by
  have hm := h.sound
  have hmeets : Action.Meets (fun v m' => Stopped .all m m' id va write 2 v) (access id va write) m
      (fun f m' => Served .all m m' id va write 2 f)
      fun cause m' => Refused .all m m' id va write 2 cause := meets_access hm
  cases hx : access id va write m with
  | ok f m' =>
    have hserved := hmeets.of_ok hx
    refine ⟨m', hserved.counted, ?_, ?_, fun _ _ => Or.inl ⟨f, rfl, hserved.settled hm⟩⟩
    · exact iff_of_false nofun hserved.allowed.not_lacks
    · exact iff_of_false nofun hserved.allowed.not_shields
  | error failure m' =>
    cases failure with
    | fatal broken =>
      have hstopped := hmeets.of_fatal hx
      cases hstopped.broken.overrun with
      | short inode offset => exact absurd hx (hfull inode offset m')
      | long _ hlong =>
        refine ⟨m', hstopped.counted, ?_, ?_, fun _ _ =>
          Or.inr (Or.inr ⟨rfl, overlong_of_not_admits h.fitted hlong⟩)⟩
        · exact iff_of_false nofun hstopped.broken.allowed.not_lacks
        · exact iff_of_false nofun hstopped.broken.allowed.not_shields
    | refused cause =>
      have hrefused := hmeets.of_refused hx
      refine ⟨m', hrefused.counted, ?_⟩
      rcases hrefused.denied.cases_of_not_bars hid hva with ⟨rfl, hlacks⟩ | ⟨rfl, hwrite, hshields⟩ |
        ⟨hshort, hallowed⟩
      · refine ⟨iff_of_true rfl hlacks, iff_of_false nofun ?_, fun hno => absurd hlacks hno⟩
        rintro ⟨-, p, hp, -⟩
        rw [hlacks.1] at hp
        cases hp
      · refine ⟨iff_of_false nofun ?_, iff_of_true rfl ⟨hwrite, hshields⟩,
          fun _ hno => absurd ⟨hwrite, hshields⟩ hno⟩
        rintro ⟨hfree, -⟩
        obtain ⟨p, hp, -⟩ := hshields
        rw [hfree] at hp
        cases hp
      · refine ⟨iff_of_false ?_ hallowed.not_lacks, iff_of_false ?_ hallowed.not_shields,
          fun _ _ => Or.inr (Or.inl ⟨cause, rfl, hshort⟩)⟩
        all_goals
          intro heq
          obtain ⟨heq, -⟩ := EStateM.Result.error.inj heq
          obtain rfl := Failure.refused.inj heq
          cases hshort

/-- A write to a page that was shared when it was evicted faults twice: the page is loaded for all who
share it, and then copied for the one who writes. -/
theorem Reachable.settles_twice : ∃ m m' f, Reachable .all m ∧
    access 0 ⟨0x1000⟩ true m = .ok f m' ∧ m'.counters.faults = m.counters.faults + 2 ∧
    m.Settled m' ⟨0, 1⟩ true f := by
  have h : ((Machine.start { userFrames := 2 } (.blank 16)).carry Operation.crowding).any
      (fun r => decide (r.2.spaces[(0 : SpaceId)]?.isSome ∧ ¬r.2.config.Bars ⟨0x1000⟩) &&
        ((access 0 ⟨0x1000⟩ true).result? r.2).any fun r' =>
          decide (r'.2.counters.faults = r.2.counters.faults + 2)) = true := by decide +kernel
  obtain ⟨r, -, hm, hrest⟩ := Reachable.exists_of_carry (by decide) h
  obtain ⟨hlive, haccess⟩ := Bool.and_eq_true_iff.mp hrest
  obtain ⟨hid, hva⟩ := of_decide_eq_true hlive
  obtain ⟨f, m', hx, hfaults⟩ := Action.exists_ok_of_any haccess
  obtain ⟨m'', -, hlacks, hshields, hrest⟩ := hm.settles hid hva true (by rw [hx]; nofun)
  rw [hx] at hlacks hshields hrest
  obtain ⟨f', hok, hsettled⟩ | ⟨cause, hno, -⟩ | ⟨hno, -⟩ :=
    hrest (fun h => nomatch hlacks.mpr h) fun h => nomatch hshields.mpr h
  · obtain ⟨rfl, rfl⟩ := EStateM.Result.ok.inj hok
    exact ⟨r.2, m', f, hm, hx, of_decide_eq_true hfaults, hsettled⟩
  · cases hno
  · cases hno

/-- A page is loaded from a window of 5000 bytes. -/
def Operation.overreaching : List Operation :=
  [.create, .register 0 .file ⟨0x1000⟩ true
    (.file { handle := 0, offset := 0, readBytes := 5000, zeroBytes := 0 })]

/-- **An access need not be answered**, though every file takes every write-back in full: the page may be
longer than a frame. -/
theorem Reachable.not_always_answered : ¬∀ (m : Machine) (id : SpaceId) (va : Address) (write : Bool),
    Reachable .all m → m.spaces[id]?.isSome → ¬m.config.Bars va →
      (∀ inode offset m', access id va write m ≠ .error (.fatal (.shortWriteBack inode offset)) m') →
        (∃ f m', access id va write m = .ok f m') ∨
          ∃ cause m', access id va write m = .error (.refused cause) m' := by
  intro hall
  have h : ((Machine.start { userFrames := 2 } (.blank 16)
      (.ofFiles #[{ data := .zeros 8192 }])).carry Operation.overreaching).any
      (fun r => decide (r.2.spaces[(0 : SpaceId)]?.isSome ∧ ¬r.2.config.Bars ⟨0x1000⟩) &&
        ((access 0 ⟨0x1000⟩ false).violation? r.2).any fun r' => decide (r'.1 = .outOfBounds)) =
          true := by decide +kernel
  obtain ⟨r, -, hm, hrest⟩ := Reachable.exists_of_carry (by decide) h
  obtain ⟨hlive, haccess⟩ := Bool.and_eq_true_iff.mp hrest
  obtain ⟨hid, hva⟩ := of_decide_eq_true hlive
  obtain ⟨broken, m', hx, hbroken⟩ := Action.exists_fatal_of_any haccess
  obtain rfl : broken = .outOfBounds := of_decide_eq_true hbroken
  obtain ⟨f, m'', hok⟩ | ⟨cause, m'', hno⟩ :=
    hall r.2 0 ⟨0x1000⟩ false hm hid hva (by rw [hx]; nofun)
  · rw [hx] at hok
    cases hok
  · rw [hx] at hno
    cases hno

end DemandPaging
