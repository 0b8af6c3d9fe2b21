import DemandPaging.Proofs.StackSetup

/-!
# Using a stack from its top down

The first page of a stack holds the address `pageSize` below its top. It is the page just below the top if
the top starts a page. If not, there is one more page below the top, which a space that was just made still
counts to the gap its stack may grow in; when the stack is set up the floor is moved below that page, and a
fault there is refused from then on unless it was registered before. Above the floor nothing is missing
otherwise (`Layout.Covers`), and that stays so in the space and in those forked from it until a request
takes pages away (`Lineage`).

Headline: **`Reachable.stack_usable_iff`**.
-/

namespace DemandPaging

open Machine (Sound)

theorem Config.toNat_stackBottom (c : Config) :
    c.stackBottom.toNat = c.stackTop.toNat - c.stackLimit :=
  Address.toNat_ofNat (Nat.lt_of_le_of_lt (Nat.sub_le ..) c.stackTop.word.toNat_lt)

/-! ## A stack without holes -/

/-- The moves that take no page of a space away and leave its floor where it is. -/
def Ledger.Kind.Retains (id : SpaceId) : Ledger.Kind → Prop
  | .leave o _ => o.space ≠ id
  | .floor x _ => x ≠ id
  | _ => True

namespace Layout

open Ledger (Kind)

variable {Y Y' : Layout} {id x child : SpaceId} {va : Address} {k : Kind} {ks : List Kind}
  {bytes : Bytes} {done : Nat} {spans : List Machine.Span}

/-- The page just below the top of every stack. -/
def lastStackPage (Y : Layout) : PageNum := (Y.config.stackTop.retreat 1).page

/-- The stack of a space has no hole above its floor. -/
def Covers (Y : Layout) (id : SpaceId) : Prop :=
  ∃ floor, Y.floor id = some floor ∧ floor ≤ Y.firstStackPage ∧
    ∀ v, floor ≤ v → v ≤ Y.lastStackPage → Y.registered ⟨id, v⟩ = true

theorem Covers.live (h : Y.Covers id) (hnew : Y.floor x = none) : x ≠ id := by
  rintro rfl
  obtain ⟨floor, hfloor, -⟩ := h
  rw [hnew] at hfloor
  cases hfloor

theorem Covers.mono (h : Y.Covers id) (hconfig : Y'.config = Y.config) (hfloor : Y'.floor id = Y.floor id)
    (hpages : ∀ v, Y.registered ⟨id, v⟩ = true → Y'.registered ⟨id, v⟩ = true) : Y'.Covers id := by
  obtain ⟨floor, htop, hfirst, hall⟩ := h
  refine ⟨floor, hfloor.trans htop, ?_, fun v hlow hhigh => hpages v (hall v hlow ?_)⟩
  · rwa [firstStackPage, hconfig]
  · rwa [lastStackPage, hconfig] at hhigh

/-- Moves that spare a space make no hole in its stack. -/
theorem Covers.after (h : Y.Covers id) (hk : k.Retains id) : (Y.after k).Covers id := by
  cases k with
  | enter | copy => exact h.mono rfl rfl fun v hv => Bool.or_eq_true_iff.mpr (Or.inr hv)
  | leave o =>
    refine h.mono rfl rfl fun v hv => Bool.and_eq_true_iff.mpr ⟨?_, hv⟩
    have hne : (⟨id, v⟩ : Owner) ≠ o := fun heq => hk (heq ▸ rfl)
    simpa using hne
  | floor x v => exact h.mono rfl (if_neg (Ne.symm hk)) fun _ h => h
  | write | supply | outside => exact h

theorem Covers.afterAll (h : Y.Covers id) (hks : ∀ k ∈ ks, k.Retains id) : (Y.afterAll ks).Covers id := by
  induction ks generalizing Y with
  | nil => exact h
  | cons k ks ih =>
    exact ih (h.after (hks k List.mem_cons_self)) fun k hk => hks k (List.mem_cons_of_mem _ hk)

/-- The floor of a stack is moved. -/
theorem Covers.floor {v : PageNum} (hfirst : v ≤ Y.firstStackPage)
    (hall : ∀ w, v ≤ w → w ≤ Y.lastStackPage → Y.registered ⟨id, w⟩ = true) :
    (Y.afterAll [.floor id (some v)]).Covers id := ⟨v, if_pos rfl, hfirst, hall⟩

/-- A stack that grows has no hole. -/
theorem Grows.covers (h : Y.Grows x va ks) (hc : Y.Covers id) : (Y.afterAll ks).Covers id := by
  cases h with
  | stays => exact hc
  | grows hfree htop hbottom hbelow =>
    rename_i top
    have hlt : va.page < top := PageNum.page_lt_of_lt_base hbelow
    rw [afterAll_append]
    by_cases hx : x = id
    · subst hx
      obtain ⟨floor, hfloor, hfirst, hall⟩ := hc
      obtain rfl := Option.some.inj (htop.symm.trans hfloor)
      have hconfig := Y.config_afterAll (Y.stackKinds x (List.range' va.page (top - va.page)))
      have hpages := Y.registered_stackKinds x (List.range' va.page (top - va.page))
      generalize Y.afterAll _ = A at hconfig hpages
      refine Covers.floor (v := va.page) (Nat.le_trans (Nat.le_of_lt hlt) ?_) fun v hlow hhigh => ?_
      · rwa [firstStackPage, hconfig]
      · rw [lastStackPage, hconfig] at hhigh
        rw [hpages, Bool.or_eq_true, decide_eq_true_eq, List.mem_range'_1,
          Nat.add_sub_of_le (Nat.le_of_lt hlt)]
        rcases Nat.lt_or_ge v top with hv | hv
        · exact Or.inr ⟨rfl, hlow, hv⟩
        · exact Or.inl (hall v hv hhigh)
    · refine Covers.after (k := .floor x _) (hc.afterAll fun k hk => ?_) hx
      obtain ⟨v, rfl⟩ := mem_stackKinds hk
      trivial

theorem Visits.covers (h : Visits x spans Y ks) (hc : Y.Covers id) : (Y.afterAll ks).Covers id := by
  induction h with
  | nil => exact hc
  | cons h _ ih =>
    rw [afterAll_append]
    exact ih (h.covers hc)

theorem Writes.covers (h : Writes x bytes done spans Y ks) (hc : Y.Covers id) :
    (Y.afterAll ks).Covers id := by
  induction h with
  | nil => exact hc
  | cons h _ ih =>
    rw [afterAll_append]
    exact ih (h.covers hc)

theorem Stops.covers {T : List Machine.Span → Layout → List Kind → Prop}
    (h : Stops x T spans Y ks) (hT : ∀ {spans ks}, T spans Y ks → (Y.afterAll ks).Covers id) :
    (Y.afterAll ks).Covers id := by
  obtain ⟨h, hs⟩ := h
  rw [afterAll_append]
  exact hs.covers (hT h)

/-- The stack of a space that is forked has no hole. -/
theorem Forks.covers (h : Y.Forks id child ks) (hc : Y.Covers id)
    (habove : Y.firstStackPage ≤ Y.config.stackTop.pageAbove) : (Y.afterAll ks).Covers child := by
  obtain ⟨hnew, h⟩ := h
  obtain ⟨hall, hs, ht⟩ := h
  rename_i vs a b
  have hne := hc.live hnew
  obtain ⟨floor, hfloor, hfirst, hpages⟩ := hc
  have hs : Y.floor id = some a := (if_neg (Ne.symm hne)).symm.trans hs
  obtain rfl := Option.some.inj (hs.symm.trans hfloor)
  have hb : Y.config.stackTop.pageAbove = b := Option.some.inj ((if_pos rfl).symm.trans ht)
  have hmin : min b a = a := Nat.min_eq_right (Nat.le_trans hfirst (hb ▸ habove))
  have hconfig : ((Y.after (Y.createKind child)).afterAll (copyKinds id child vs)).config = Y.config :=
    config_afterAll ..
  have hcopied := registered_copyKinds id child
  rw [hmin]
  show (Layout.afterAll (Y.after (Y.createKind child)) (_ ++ _)).Covers child
  rw [afterAll_append]
  refine Covers.floor ?_ fun v hlow hhigh => ?_
  · rw [firstStackPage, hconfig]
    exact hfirst
  · rw [lastStackPage, hconfig] at hhigh
    rw [hcopied, Bool.or_eq_true, decide_eq_true_eq, hall]
    exact Or.inl ⟨rfl, hpages v hlow hhigh⟩

end Layout

namespace Operation

variable {op : Operation} {outcome : Except Refusal Reply} {Y : Layout} {k : Ledger.Kind}
  {ks : List Ledger.Kind} {id : SpaceId}

/-- The requests that take no page of a space away. -/
def Retains (id : SpaceId) : Operation → Prop
  | .drop x | .remove x _ | .unmap x _ | .copy x _ => x ≠ id
  | _ => True

theorem Does.retains (h : op.Does Y k) (hretains : op.Retains id) (hc : Y.Covers id)
    (hfloor : ∀ x v, k = .floor x v → x ≠ id) : k.Retains id := by
  cases h with
  | floor _ x v => exact hfloor x v rfl
  | undo v hnew => exact hc.live hnew
  | drop | remove | unmap => exact hretains
  | grow | supply | register | map | copy | share | write => trivial

/-- The requests that set up the stack of a space or let it grow. -/
def Stretches (id : SpaceId) : Operation → Prop
  | resolve x _ | setupStack x | read x _ _ | write x _ _ => x = id
  | _ => False

/-- **A floor moves** where a stack is set up or grows, and in a space that is made, dropped or copied
into. -/
theorem Moves.floor_mem {v : Option PageNum} (h : op.Moves outcome Y ks) (hk : .floor id v ∈ ks) :
    Y.floor id = none ∨ op.Stretches id ∨ op = .drop id ∨ ∃ source, op = .copy id source := by
  cases h with
  | create h =>
    obtain ⟨hnew⟩ := h
    cases List.mem_singleton.mp hk
    exact Or.inl hnew
  | fork h =>
    obtain ⟨hnew, h⟩ := h
    rcases List.mem_cons.mp hk with hk | hk
    · cases hk
      exact Or.inl hnew
    · rcases h.mem hk with ⟨_, h⟩ | ⟨_, h⟩ <;> cases h
      exact Or.inl hnew
  | forkRefused h =>
    obtain ⟨hnew, h, h'⟩ := h
    rcases List.mem_cons.mp hk with hk | hk
    · cases hk
      exact Or.inl hnew
    rcases List.mem_append.mp hk with hk | hk
    · obtain ⟨_, h⟩ := h.mem hk
      cases h
    · rcases h'.mem hk with ⟨_, h⟩ | h <;> cases h
      exact Or.inl hnew
  | drop h =>
    rcases h.mem hk with ⟨_, h⟩ | h <;> cases h
    exact Or.inr (Or.inr (Or.inl rfl))
  | copy h =>
    rcases h.mem hk with ⟨_, h⟩ | ⟨_, h⟩ <;> cases h
    exact Or.inr (Or.inr (Or.inr ⟨_, rfl⟩))
  | copyRefused h =>
    obtain ⟨_, h⟩ := h.mem hk
    cases h
  | register h =>
    obtain ⟨h, -⟩ := h
    rcases List.mem_append.mp hk with hk | hk
    · obtain ⟨_, _, h⟩ := h.mem hk
      cases h
    · cases List.mem_singleton.mp hk
  | registerRefused h =>
    obtain ⟨_, _, h⟩ := h.mem hk
    cases h
  | resolve h | resolveRefused h =>
    rcases h.mem hk with ⟨_, h⟩ | ⟨_, h⟩ <;> cases h
    exact Or.inr (Or.inl rfl)
  | remove => cases List.mem_singleton.mp hk
  | map h =>
    obtain ⟨-, -⟩ := h
    obtain ⟨_, _, h⟩ := Layout.mem_mapKinds hk
    cases h
  | unmap =>
    obtain ⟨_, -, h⟩ := List.mem_map.mp hk
    cases h
  | setupStack =>
    rcases List.mem_cons.mp hk with hk | hk
    · cases hk
    · cases List.mem_singleton.mp hk
      exact Or.inr (Or.inl rfl)
  | setupStackRefused h =>
    rcases h with rfl | rfl
    · cases hk
    · cases List.mem_singleton.mp hk
  | read h =>
    rcases h.mem hk with ⟨_, h⟩ | ⟨_, h⟩ <;> cases h
    exact Or.inr (Or.inl rfl)
  | readStopped h =>
    rcases h.mem_visits hk with ⟨_, h⟩ | ⟨_, h⟩ <;> cases h
    exact Or.inr (Or.inl rfl)
  | write h =>
    rcases h.mem hk with (⟨_, h⟩ | ⟨_, h⟩) | ⟨_, _, _, h⟩ <;> cases h
    exact Or.inr (Or.inl rfl)
  | writeRefused h =>
    rcases h.mem_writes hk with (⟨_, h⟩ | ⟨_, h⟩) | ⟨_, _, _, h⟩ <;> cases h
    exact Or.inr (Or.inl rfl)
  | copyForeign | claim | claimRefused | removeRefused | mapRefused => cases hk

theorem Moves.retains (h : op.Moves outcome Y ks) (hretains : op.Retains id) (hc : Y.Covers id)
    (hstays : ¬ op.Stretches id) : ∀ k ∈ ks, k.Retains id := by
  refine fun k hk => (h.does k hk).retains hretains hc fun x v hfloor => ?_
  rintro rfl
  rcases h.floor_mem (hfloor ▸ hk) with hnew | hgrows | rfl | ⟨_, rfl⟩
  · exact hc.live hnew rfl
  · exact hstays hgrows
  · exact hretains rfl
  · exact hretains rfl

/-- **Requests that take no page of a space away** make no hole in its stack. -/
theorem Moves.covers (h : op.Moves outcome Y ks) (hretains : op.Retains id) (hc : Y.Covers id) :
    (Y.afterAll ks).Covers id := by
  by_cases hgrows : op.Stretches id
  case neg => exact hc.afterAll (h.retains hretains hc hgrows)
  cases h with
  | resolve h | resolveRefused h => exact h.covers hc
  | read h => exact h.covers hc
  | write h => exact h.covers hc
  | readStopped h => exact h.covers fun h => h.covers hc
  | writeRefused h => exact h.covers fun h => h.covers hc
  | setupStack =>
    obtain rfl : _ = id := hgrows
    obtain ⟨floor, hfloor, hfirst, hall⟩ := hc
    exact Layout.Covers.floor (Y := Y.after (Y.stackKind _)) (Nat.le_refl _) fun v hlow hhigh =>
      Bool.or_eq_true_iff.mpr (Or.inr (hall v (Nat.le_trans hfirst hlow) hhigh))
  | setupStackRefused h =>
    rcases h with rfl | rfl
    · exact hc
    · exact hc.after (k := Y.stackKind _) trivial
  | _ => exact False.elim hgrows

end Operation

/-! ## A stack and those that are forked from it -/

/-- The steps that take no page of a space away. -/
def Label.Retains (id : SpaceId) : Label → Prop
  | ask op _ => op.Retains id
  | outside => True

/-- **What becomes of a space**, and of the spaces forked from it, as long as no request takes pages away
from the space that is followed. -/
inductive Lineage (lax : Tolerance) (m₀ : Machine) (id₀ : SpaceId) : Machine → SpaceId → Prop
  | root : Lineage lax m₀ id₀ m₀ id₀
  | step {m m' : Machine} {id : SpaceId} {label : Label} (h : Lineage lax m₀ id₀ m id)
      (hs : Step lax m label m') (hretains : label.Retains id) : Lineage lax m₀ id₀ m' id
  | fork {m m' : Machine} {id child : SpaceId} (h : Lineage lax m₀ id₀ m id)
      (hs : Step lax m (.ask (.fork id) (.ok (.space child))) m') : Lineage lax m₀ id₀ m' child

namespace Machine

variable {lax : Tolerance} {m m₀ m' : Machine} {id id₀ child : SpaceId} {cause : Refusal} {sp : Address}

/-- The page just below the top of every stack. -/
def lastStackPage (m : Machine) : PageNum := (m.config.stackTop.retreat 1).page

/-- A stack starts in one page, or in two if its top lies inside a page. -/
theorem lastStackPage_eq (htop : pageSize ≤ m.config.stackTop.toNat) :
    m.lastStackPage = m.firstStackPage + if m.config.stackTop.toNat % pageSize = 0 then 0 else 1 := by
  unfold lastStackPage firstStackPage Address.page
  rw [Address.toNat_retreat htop, Address.toNat_retreat (Nat.le_trans (by decide) htop)]
  have htop : 4096 ≤ m.config.stackTop.toNat := htop
  show (m.config.stackTop.toNat - 1) / 4096 = (m.config.stackTop.toNat - 4096) / 4096 +
    if m.config.stackTop.toNat % 4096 = 0 then 0 else 1
  split <;> omega

theorem firstStackPage_le (htop : pageSize ≤ m.config.stackTop.toNat) :
    m.firstStackPage ≤ m.config.stackTop.pageAbove := by
  refine Nat.div_le_div_right ?_
  rw [Address.toNat_retreat htop]
  exact Nat.le_trans (Nat.sub_le ..) (Nat.le_add_right ..)

/-- The stack of a space has no hole above its floor. -/
def Covers (m : Machine) (id : SpaceId) : Prop := (m.ledger none none).layout.Covers id

/-- **The stack of a space can be used** from its top down to its bottom: no user fault there is refused
because nothing is mapped. -/
def StackUsable (m : Machine) (id : SpaceId) : Prop :=
  ∀ fault : PageFault, fault.user = true → fault.va.isNull = false →
    m.config.stackBottom.toNat ≤ fault.va.toNat → fault.va.toNat < m.config.stackTop.toNat →
    ∀ {cause m'}, resolveFault id fault m = .error (.refused cause) m' → ∀ va, cause ≠ .notMapped va

/-- A stack without a hole can be used. -/
theorem Covers.usable (h : m.Covers id) (hm : Sound lax m none none) : m.StackUsable id := by
  intro fault huser hnull hbottom htop cause m' hrefused va
  rintro rfl
  have hdenied := ((meets_resolveFault hm).of_refused hrefused).2
  obtain ⟨floor, hfloor, hfirst, hall⟩ := h
  have hfloor : m.floorAt? id = some floor := hfloor
  cases hdenied with
  | absent hnone =>
    rw [hnone] at hfloor
    cases hfloor
  | unavailable _ hcause =>
    rcases hcause with hcause | hcause
    · cases hcause
    · cases hcause
  | unmapped hfree hgap =>
    rcases Nat.lt_or_ge fault.va.page floor with hlow | hhigh
    · have hlimit : floor < PageNum.limit := Nat.lt_of_le_of_lt hfirst (Address.page_lt _)
      refine hgap ⟨huser, floor, hfloor, hbottom, ?_⟩
      rw [PageNum.toNat_base hlimit]
      exact (Nat.div_lt_iff_lt_mul (by decide)).mp hlow
    · have hlast : fault.va.page ≤ m.lastStackPage := by
        refine Nat.div_le_div_right ?_
        rw [Address.toNat_retreat (Nat.zero_lt_of_lt htop)]
        exact Nat.le_sub_one_of_lt htop
      have hthere := registered_ledger.symm.trans (hall _ hhigh hlast)
      rw [hfree] at hthere
      cases hthere

end Machine

section

variable {lax : Tolerance} {m m₀ m' : Machine} {id id₀ child : SpaceId} {label : Label}

theorem Step.covers (hs : Step lax m label m') (hm : Sound lax m none none) (hretains : label.Retains id)
    (h : m.Covers id) : m'.Covers id := by
  have htells := (hs.tells hm).told
  cases label with
  | ask op outcome =>
    obtain ⟨ks, hks, htrace⟩ := Operation.Tells.moves htells hm.books
    rw [Machine.Covers, htrace.layout hm.books]
    exact hks.covers hretains h
  | outside =>
    have hlayout := Ledger.Trace.layout htells hm.books
    rw [Machine.Covers, hlayout]
    exact h

theorem Step.covers_child (hs : Step lax m (.ask (.fork id) (.ok (.space child))) m')
    (hm : Sound lax m none none) (habove : m.firstStackPage ≤ m.config.stackTop.pageAbove)
    (h : m.Covers id) : m'.Covers child := by
  obtain ⟨ks, hks, htrace⟩ := Operation.Tells.moves (hs.tells hm).told hm.books
  rw [Machine.Covers, htrace.layout hm.books]
  cases hks with
  | fork hforks => exact hforks.covers h habove

theorem Lineage.sound (h : Lineage lax m₀ id₀ m id) (hm₀ : Sound lax m₀ none none) :
    Sound lax m none none ∧ m.config = m₀.config := by
  induction h with
  | root => exact ⟨hm₀, rfl⟩
  | step _ hs _ ih => exact ⟨hs.sound ih.1, ((Run.refl.step hs).config ih.1).trans ih.2⟩
  | fork _ hs ih => exact ⟨hs.sound ih.1, ((Run.refl.step hs).config ih.1).trans ih.2⟩

/-- A stack without a hole stays so, in the space and in those forked from it. -/
theorem Lineage.covers (h : Lineage lax m₀ id₀ m id) (hm₀ : Sound lax m₀ none none)
    (habove : m₀.firstStackPage ≤ m₀.config.stackTop.pageAbove) (h₀ : m₀.Covers id₀) : m.Covers id := by
  induction h with
  | root => exact h₀
  | step h hs hretains ih => exact hs.covers (h.sound hm₀).1 hretains ih
  | fork h hs ih =>
    obtain ⟨hm, hconfig⟩ := h.sound hm₀
    refine hs.covers_child hm ?_ ih
    rwa [Machine.firstStackPage, hconfig]

end

namespace Machine

variable {lax : Tolerance} {m m' : Machine} {id : SpaceId} {sp : Address}

/-- A stack was set up. -/
theorem Sound.layout_of_setupStack (hm : Sound lax m none none) (hsetup : setupStack id m = .ok sp m') :
    sp = m.config.stackTop ∧ Sound lax m' none none ∧ m'.config = m.config ∧
      m'.floorAt? id = some m.firstStackPage ∧
      ∀ v, (m'.page? ⟨id, v⟩).isSome ↔ v = m.firstStackPage ∨ (m.page? ⟨id, v⟩).isSome := by
  obtain ⟨hsp, hreach⟩ := (meets_setupStack hm).of_ok hsetup
  have hlayout := hreach.told.layout hm.books
  refine ⟨hsp, hreach.sound hm, congrArg Layout.config hlayout, ?_, fun v => ?_⟩
  · exact (congrFun (congrArg Layout.floor hlayout) id).trans (if_pos rfl)
  · have hv := congrFun (congrArg Layout.registered hlayout) ⟨id, v⟩
    rw [registered_ledger] at hv
    rw [hv]
    show (decide (_ = Owner.mk id m.firstStackPage) || (m.ledger none none).layout.registered _) = true ↔ _
    rw [registered_ledger]
    simp

/-- A stack has no hole if its top starts a page or the page just below was registered. -/
theorem Sound.covers_of_setupStack (hm : Sound lax m none none) (htop : pageSize ≤ m.config.stackTop.toNat)
    (hsetup : setupStack id m = .ok sp m')
    (hgood : m.config.stackTop.toNat % pageSize = 0 ∨ (m.page? ⟨id, m.lastStackPage⟩).isSome) :
    m'.Covers id := by
  obtain ⟨-, hm', hconfig, hfloor, hpages⟩ := hm.layout_of_setupStack hsetup
  have hlast := lastStackPage_eq htop
  refine ⟨_, hfloor, ?_, fun v hlow hhigh => registered_ledger.trans ((hpages v).mpr ?_)⟩
  · show _ ≤ (m'.config.stackTop.retreat pageSize).page
    rw [hconfig]
    exact Nat.le_refl _
  · have hhigh : v ≤ (m'.config.stackTop.retreat 1).page := hhigh
    rw [hconfig] at hhigh
    rcases Nat.eq_or_lt_of_le hlow with heq | hlt
    · exact Or.inl heq.symm
    · have hle : m.lastStackPage ≤ v := by
        rw [hlast]
        split
        · exact hlow
        · exact hlt
      obtain rfl : v = m.lastStackPage := Nat.le_antisymm hhigh hle
      rcases hgood with haligned | hthere
      · exact Or.inl (by rw [hlast, if_pos haligned]; rfl)
      · exact Or.inr hthere

/-- A fault on the last byte of a stack is refused if no page is registered there. -/
theorem not_stackUsable (htop : pageSize ≤ m.config.stackTop.toNat)
    (hceiling : m.config.stackTop.toNat ≤ m.config.ceiling.toNat) (hlimit : m.config.stackLimit ≠ 0)
    (hfloor : m.floorAt? id = some m.firstStackPage) (hfree : m.page? ⟨id, m.lastStackPage⟩ = none) :
    ¬m.StackUsable id := by
  have hpos : 4096 ≤ m.config.stackTop.toNat := htop
  have hva : (m.config.stackTop.retreat 1).toNat = m.config.stackTop.toNat - 1 :=
    Address.toNat_retreat (by omega)
  have hnull : (m.config.stackTop.retreat 1).isNull = false := by
    unfold Address.isNull
    rw [hva]
    exact beq_false_of_ne (by omega)
  have hbelow : (m.config.stackTop.retreat 1).toNat < m.config.stackTop.toNat := by omega
  have hbottom : m.config.stackBottom.toNat ≤ (m.config.stackTop.retreat 1).toNat := by
    rw [Config.toNat_stackBottom]
    omega
  have hgap : ¬(true = true ∧ m.InGap id (m.config.stackTop.retreat 1)) := by
    rintro ⟨-, floor, hfloor', -, hbelow⟩
    obtain rfl := Option.some.inj (hfloor.symm.trans hfloor')
    have hlt : m.lastStackPage < m.firstStackPage := PageNum.page_lt_of_lt_base hbelow
    rw [lastStackPage_eq htop] at hlt
    exact Nat.not_lt.mpr (Nat.le_add_right ..) hlt
  have hlive : (m.floorAt? id).isSome := by rw [hfloor]; rfl
  obtain ⟨counters, journal, h⟩ :=
    @resolveFault_eq_notMapped _ _ (.missing (m.config.stackTop.retreat 1) false) hlive hnull
      (fun _ => Nat.lt_of_lt_of_le hbelow hceiling) hfree hgap
  exact fun husable => husable _ rfl hnull hbottom hbelow h _ rfl

end Machine

open Machine

variable {lax : Tolerance} {m m' : Machine} {id : SpaceId} {sp : Address}

/-- **A stack can be used from its top down**, in the space it was set up in and in those forked from it,
just if its top starts a page or the page just below was registered before. -/
theorem Reachable.stack_usable_iff (h : Reachable lax m) (htop : pageSize ≤ m.config.stackTop.toNat)
    (hceiling : m.config.stackTop.toNat ≤ m.config.ceiling.toNat) (hsetup : setupStack id m = .ok sp m') :
    sp = m.config.stackTop ∧
      ((∀ m'' child, Lineage lax m' id m'' child → m''.StackUsable child) ↔
        m.config.stackLimit = 0 ∨ m.config.stackTop.toNat % pageSize = 0 ∨
          (m.page? ⟨id, m.lastStackPage⟩).isSome) := by
  obtain ⟨hsp, hm', hconfig, hfloor, hpages⟩ := h.sound.layout_of_setupStack hsetup
  refine ⟨hsp, fun husable => ?_, fun hgood m'' child hlineage => ?_⟩
  · by_contra hbad
    obtain ⟨hlimit, haligned, hfree⟩ : m.config.stackLimit ≠ 0 ∧ m.config.stackTop.toNat % pageSize ≠ 0 ∧
        m.page? ⟨id, m.lastStackPage⟩ = none := by simpa using hbad
    have hlast := lastStackPage_eq htop
    rw [if_neg haligned] at hlast
    refine not_stackUsable (by rwa [hconfig]) (by rwa [hconfig]) (by rwa [hconfig]) ?_ ?_
      (husable m' id .root)
    · rw [hfloor, firstStackPage, firstStackPage, hconfig]
    · rw [lastStackPage, hconfig, ← Option.not_isSome_iff_eq_none, hpages]
      show ¬(m.lastStackPage = _ ∨ (m.page? ⟨id, m.lastStackPage⟩).isSome)
      rw [hfree, hlast]
      exact not_or.mpr ⟨Nat.succ_ne_self _, Bool.false_ne_true⟩
  · obtain ⟨hm'', hconfig''⟩ := hlineage.sound hm'
    rcases hgood with hlimit | hgood
    · intro fault _ _ hbottom hbelow
      rw [Config.toNat_stackBottom, hconfig'', hconfig, hlimit] at hbottom
      rw [hconfig'', hconfig] at hbelow
      exact absurd hbelow (Nat.not_lt.mpr hbottom)
    · have hcovers := h.sound.covers_of_setupStack htop hsetup hgood
      exact (hlineage.covers hm' (firstStackPage_le (hconfig ▸ htop)) hcovers).usable hm''

/-- The stack of a space that was forked after it was set up can be used. -/
theorem Reachable.stack_usable_forked : ∃ m m' m'' sp, Reachable .all m ∧
    setupStack 0 m = .ok sp m' ∧ fork 0 m' = .ok 1 m'' ∧ m''.StackUsable 1 := by
  have h : ((start {} (.blank 0)).carry [.create]).any (fun r => decide (r.2.config = {}) &&
      ((setupStack 0).result? r.2).any fun r' => ((fork 0).result? r'.2).any fun r'' =>
        decide (r''.1 = 1)) = true := by decide +kernel
  obtain ⟨r, -, hm, hrest⟩ := Reachable.exists_of_carry (by decide) h
  obtain ⟨hconfig, hrest⟩ := Bool.and_eq_true_iff.mp hrest
  replace hconfig : r.2.config = {} := of_decide_eq_true hconfig
  obtain ⟨sp, m', hsetup, hrest⟩ := Action.exists_ok_of_any hrest
  obtain ⟨child, m'', hfork, hchild⟩ := Action.exists_ok_of_any hrest
  obtain rfl := of_decide_eq_true hchild
  have hperform : (Operation.fork 0).perform m' = .ok (.space 1) m'' := by
    show EStateM.bind (fork 0) _ m' = _
    unfold EStateM.bind
    rw [hfork]
    rfl
  have husable := (hm.stack_usable_iff (by rw [hconfig]; decide) (by rw [hconfig]; decide) hsetup).2.mpr
    (Or.inr (Or.inl (by rw [hconfig]; decide)))
  exact ⟨r.2, m', m'', sp, hm, hsetup, hfork, husable m'' 1 (.fork .root (.ask trivial (.ok hperform)))⟩

/-- **A stack cannot always be used from its top down.** Its top lies inside a page, and no page was
registered there. -/
theorem Reachable.not_always_stack_usable : ∃ m sp m' m'', Reachable .all m ∧
    pageSize ≤ m.config.stackTop.toNat ∧ m.config.stackTop.toNat ≤ m.config.ceiling.toNat ∧
    setupStack 0 m = .ok sp m' ∧ (sp.retreat 1).isNull = false ∧
    m'.config.stackBottom.toNat ≤ (sp.retreat 1).toNat ∧ (sp.retreat 1).toNat < sp.toNat ∧
    resolveFault 0 (.missing (sp.retreat 1) true) m' =
      .error (.refused (.notMapped (sp.retreat 1))) m'' := by
  have h : ((start { stackTop := ⟨0x3ffffff800⟩ } (.blank 0)).carry [.create]).any (fun r =>
      decide (pageSize ≤ r.2.config.stackTop.toNat) &&
      decide (r.2.config.stackTop.toNat ≤ r.2.config.ceiling.toNat) &&
      ((setupStack 0).result? r.2).any fun r' => !(r'.1.retreat 1).isNull &&
        decide (r'.2.config.stackBottom.toNat ≤ (r'.1.retreat 1).toNat) &&
        decide ((r'.1.retreat 1).toNat < r'.1.toNat) &&
        ((resolveFault 0 (.missing (r'.1.retreat 1) true)).refusal? r'.2).any fun r'' =>
          decide (r''.1 = .notMapped (r'.1.retreat 1))) = true := by decide +kernel
  obtain ⟨r, -, hm, hrest⟩ := Reachable.exists_of_carry (by decide) h
  simp only [Bool.and_eq_true, decide_eq_true_eq] at hrest
  obtain ⟨⟨htop, hceiling⟩, hrest⟩ := hrest
  obtain ⟨sp, m', hsetup, hrest⟩ := Action.exists_ok_of_any hrest
  simp only [Bool.and_eq_true, Bool.not_eq_true', decide_eq_true_eq] at hrest
  obtain ⟨⟨⟨hnull, hbottom⟩, hbelow⟩, hrefused⟩ := hrest
  obtain ⟨cause, m'', hfault, hcause⟩ := Action.exists_refused_of_any hrefused
  obtain rfl := of_decide_eq_true hcause
  exact ⟨r.2, sp, m', m'', hm, htop, hceiling, hsetup, hnull, hbottom, hbelow, hfault⟩

end DemandPaging
