import DemandPaging.Proofs.Ledger.Files
import DemandPaging.Proofs.Run

/-!
# Memory without paging

A `Reference` is what spaces may know of their memory: where pages are registered, and which bytes
they hold as far as that does not depend on when files are written. It has no frames, no swap and no
eviction. Every kind of move changes it in a fixed way (`Reference.after`), and a read has to give the
bytes it knows (`Reference.Answers`).

`Operation.Tells.exists_step` says when what happened to a ledger is a step of a reference: when each
frame that was mapped on the way held what was known of its page (`Reference.Agrees`).
-/

namespace DemandPaging

open Ledger (Kind)

/-- What is known of the memory of spaces. -/
structure Reference where
  layout : Layout
  /-- What the initializers supplied so far write. -/
  initial : Nat → Option Bytes
  /-- The files that stay what they are. -/
  fixed : Nat → Option File
  /-- What pages were registered as, where that is known. -/
  entered : Owner → Option (PageType × Origin)
  /-- The bytes of a page, where they are known. -/
  memory : Owner → Nat → Option UInt8

namespace Reference

/-- The first content of a page, if it is known. That of a file page is not, nor is that of an
anonymous page that is loaded from a file that may change. -/
def first (S : Reference) : PageType → Origin → Option PageBytes
  | .anon, .zero => some .zero
  | .anon, .custom n => (S.initial n).map .ofBytes
  | .anon, .file w => (S.fixed w.handle).map (·.windowBytes w)
  | .file, _ => none

/-- A page is anonymous memory. -/
def isAnonymous (S : Reference) (o : Owner) : Bool :=
  match S.entered o with
  | some (.anon, _) => true
  | _ => false

/-- A page is anonymous memory that was not registered from a file. -/
def isPlain (S : Reference) (o : Owner) : Bool :=
  match S.entered o with
  | some (.anon, .zero) | some (.anon, .custom _) => true
  | _ => false

/-- What is known of a page after bytes of it were written. -/
def patch (known : Nat → Option UInt8) (start : Nat) (bytes : Bytes) (k : Nat) : Option UInt8 :=
  (known k).map fun old =>
    if start ≤ k ∧ k - start < bytes.size then bytes[k - start]?.getD 0 else old

/-- The reference after a move. What is known of a file page is not known of its copies, which may be
written back over each other. -/
def after (S : Reference) (k : Kind) : Reference :=
  let S' := { S with layout := S.layout.after k }
  match k with
  | .enter o _ type origin => { S' with
      entered := fun x => if x = o then some (type, origin) else S.entered x
      memory := fun x => if x = o then fun i => (S.first type origin).bind (·[i]?) else S.memory x }
  | .copy src o => { S' with
      entered := fun x => if x = o then S.entered src else S.entered x
      memory := fun x =>
        if x = o then (if S.isAnonymous src then S.memory src else fun _ => none) else S.memory x }
  | .leave o _ => { S' with
      entered := fun x => if x = o then none else S.entered x
      memory := fun x => if x = o then fun _ => none else S.memory x }
  | .write o start bytes => { S' with
      memory := fun x => if x = o then patch (S.memory o) start bytes else S.memory x }
  | .supply n content => { S' with
      initial := fun x => if x = n then some content else S.initial x }
  | .floor .. | .outside => S'

/-- The reference after a sequence of moves. -/
def afterAll (S : Reference) (ks : List Kind) : Reference := ks.foldl after S

/-- The bytes from an address on are these, where they are known. -/
def Shows (S : Reference) (id : SpaceId) (va : Address) (bytes : Bytes) : Prop :=
  ∀ i < bytes.size, S.layout.registered ⟨id, (va.advance i).page⟩ = true ∧
    ∀ b, S.memory ⟨id, (va.advance i).page⟩ (va.advance i).offset = some b → bytes[i]? = some b

/-- What a step from `S` to `S'` has to tell: a read gives the bytes that are known, and all it was
asked for unless it is stopped; unmapping removes no plain page. -/
def Answers (S S' : Reference) : Label → Prop
  | .ask (.read id va length) (.ok (.bytes r)) =>
    S'.Shows id va r.bytes ∧ (r.stopped = none → r.bytes.size = length)
  | .ask (.unmap _ _) _ => ∀ o, S.isPlain o = true → S'.layout.registered o = true
  | _ => True

end Reference

/-- The moves a step comes to. -/
def Label.Moves : Label → Layout → List Kind → Prop
  | ask op outcome => op.Moves outcome
  | outside => fun _ ks => ks = [.outside]

namespace Reference

/-- One step. -/
inductive Step (S : Reference) (label : Label) : Reference → Prop
  | intro {ks : List Kind} (hks : label.Moves S.layout ks)
      (hanswers : S.Answers (S.afterAll ks) label) : Step S label (S.afterAll ks)

/-- A sequence of steps. -/
inductive Run (S₀ : Reference) : List Label → Reference → Prop
  | refl : Run S₀ [] S₀
  | step {labels : List Label} {label : Label} {S S' : Reference} (h : Run S₀ labels S)
      (hs : Step S label S') : Run S₀ (labels ++ [label]) S'

/-- No space is there and nothing is registered. -/
def start (config : Config) (fixed : Nat → Option File) : Reference where
  layout := { config, registered := fun _ => false, floor := fun _ => none }
  initial _ := none
  fixed
  entered _ := none
  memory _ _ := none

variable {S : Reference} {L L' : Ledger} {k : Kind} {ks ks' : List Kind} {x : Owner} {p : Page}

@[simp]
theorem layout_after : (S.after k).layout = S.layout.after k := by
  cases k <;> rfl

@[simp]
theorem fixed_after : (S.after k).fixed = S.fixed := by
  cases k <;> rfl

theorem afterAll_append : S.afterAll (ks ++ ks') = (S.afterAll ks).afterAll ks' := List.foldl_append

theorem layout_afterAll (S : Reference) (ks : List Kind) :
    (S.afterAll ks).layout = S.layout.afterAll ks := by
  induction ks generalizing S with
  | nil => rfl
  | cons k ks ih => exact (ih (S.after k)).trans (by rw [layout_after]; rfl)

theorem fixed_afterAll (S : Reference) (ks : List Kind) : (S.afterAll ks).fixed = S.fixed := by
  induction ks generalizing S with
  | nil => rfl
  | cons k ks ih => exact (ih (S.after k)).trans fixed_after

theorem memory_enter {writable : Bool} {type : PageType} {origin : Origin} {i : Nat} :
    (S.after (.enter x writable type origin)).memory x i = (S.first type origin).bind (·[i]?) :=
  congrFun (if_pos rfl) i

theorem memory_copy {src : Owner} : (S.after (.copy src x)).memory x =
    if S.isAnonymous src then S.memory src else fun _ => none := if_pos rfl

theorem memory_leave {writeBack : Bool} {i : Nat} :
    (S.after (.leave x writeBack)).memory x i = none := congrFun (if_pos rfl) i

theorem memory_write {start : Nat} {bytes : Bytes} :
    (S.after (.write x start bytes)).memory x = patch (S.memory x) start bytes := if_pos rfl

theorem entered_enter {writable : Bool} {type : PageType} {origin : Origin} :
    (S.after (.enter x writable type origin)).entered x = some (type, origin) := if_pos rfl

theorem entered_copy {src : Owner} : (S.after (.copy src x)).entered x = S.entered src := if_pos rfl

theorem entered_leave {writeBack : Bool} : (S.after (.leave x writeBack)).entered x = none :=
  if_pos rfl

/-- What is known of a page that is written is known after that. -/
theorem patch_of_getElem? {known : Nat → Option UInt8} {page : PageBytes} {start i : Nat}
    {bytes : Bytes} {b : UInt8} (hknown : ∀ old, known i = some old → page[i]? = some old)
    (hb : patch known start bytes i = some b) : (page.blit start bytes)[i]? = some b := by
  obtain ⟨old, hold, rfl⟩ := Option.map_eq_some_iff.mp hb
  obtain ⟨hi, rfl⟩ := Vector.getElem?_eq_some_iff.mp (hknown old hold)
  rw [Vector.getElem?_eq_getElem hi, PageBytes.getElem_blit]

/-- A page stays what it was registered as. -/
theorem entered_after (henter : ∀ writable type origin, k ≠ .enter x writable type origin)
    (hcopy : ∀ src, k ≠ .copy src x) (hleave : ∀ writeBack, k ≠ .leave x writeBack) :
    (S.after k).entered x = S.entered x := by
  cases k with
  | enter => exact if_neg fun hx => henter _ _ _ (by rw [hx])
  | copy => exact if_neg fun hx => hcopy _ (by rw [hx])
  | leave => exact if_neg fun hx => hleave _ (by rw [hx])
  | write | supply | floor | outside => rfl

/-- What is known of a page changes only in moves that are made to it. -/
theorem memory_after (henter : ∀ writable type origin, k ≠ .enter x writable type origin)
    (hcopy : ∀ src, k ≠ .copy src x) (hleave : ∀ writeBack, k ≠ .leave x writeBack)
    (hwrite : ∀ start bytes, k ≠ .write x start bytes) : (S.after k).memory x = S.memory x := by
  cases k with
  | enter => exact if_neg fun hx => henter _ _ _ (by rw [hx])
  | copy => exact if_neg fun hx => hcopy _ (by rw [hx])
  | leave => exact if_neg fun hx => hleave _ (by rw [hx])
  | write => exact if_neg fun hx => hwrite _ _ (by rw [hx])
  | supply | floor | outside => rfl

/-- What is known of a page that neither leaves nor is written stays what it is. -/
theorem memory_afterAll (h : Ledger.Trace ks L L') (hL : L.Sound) (hp : L.page x = some p)
    (hleave : ∀ writeBack, .leave x writeBack ∉ ks)
    (hwrite : ∀ start bytes, .write x start bytes ∉ ks) :
    (S.afterAll ks).memory x = S.memory x := by
  induction h with
  | refl => rfl
  | shift _ _ ih => exact ih hL hp hleave hwrite
  | move h hm ih =>
    have hleft := fun b hb => hleave b (List.mem_append_left _ hb)
    have hwrote := fun start bytes hb => hwrite start bytes (List.mem_append_left _ hb)
    obtain ⟨q, hq, -⟩ := h.face_of_page hL hp hleft
    obtain ⟨henter, hcopy⟩ := hm.not_into hq
    rw [afterAll_append, ← ih hL hp hleft hwrote]
    refine memory_after henter hcopy (fun b hb => ?_) fun start bytes hb => ?_
    · exact hleave b (List.mem_append_right _ (List.mem_singleton.mpr hb.symm))
    · exact hwrite start bytes (List.mem_append_right _ (List.mem_singleton.mpr hb.symm))

/-- As much is known of a page that does not leave as was known of it. -/
theorem isSome_memory_afterAll (h : Ledger.Trace ks L L') (hL : L.Sound) (hp : L.page x = some p)
    (hleave : ∀ writeBack, .leave x writeBack ∉ ks) (i : Nat) :
    ((S.afterAll ks).memory x i).isSome = (S.memory x i).isSome := by
  induction h with
  | refl => rfl
  | shift _ _ ih => exact ih hL hp hleave
  | move h hm ih =>
    rename_i k
    have hleft := fun b hb => hleave b (List.mem_append_left _ hb)
    obtain ⟨q, hq, -⟩ := h.face_of_page hL hp hleft
    obtain ⟨henter, hcopy⟩ := hm.not_into hq
    rw [afterAll_append, ← ih hL hp hleft]
    by_cases hwritten : ∃ start bytes, k = .write x start bytes
    · obtain ⟨start, bytes, rfl⟩ := hwritten
      refine (congrArg Option.isSome (congrFun memory_write i)).trans ?_
      rw [patch, Option.isSome_map]
    · refine congrArg Option.isSome (congrFun (memory_after henter hcopy (fun b hb => ?_) ?_) i)
      · exact hleave b (List.mem_append_right _ (List.mem_singleton.mpr hb.symm))
      · exact fun start bytes hk => hwritten ⟨start, bytes, hk⟩

/-! ## Frames hold what is known -/

/-- The frame a page is mapped to holds what is known of the page. -/
structure Agrees (S : Reference) (L : Ledger) : Prop where
  layout : S.layout = L.layout
  bytes : ∀ {x e i b}, L.grant x = some e → S.memory x i = some b → (L.bytes e.frame)[i]? = some b

end Reference

/-- A mapped page is registered, and stays so if it does not leave. -/
theorem Ledger.Trace.registered_of_grant {L L' : Ledger} {ks : List Kind} {x : Owner} {e : Grant}
    (h : Trace ks L L') (hL : L.Sound) (he : L.grant x = some e)
    (hks : ∀ writeBack, .leave x writeBack ∉ ks) : L'.layout.registered x = true := by
  obtain ⟨p, hp, -⟩ := hL.page_of_grant he
  obtain ⟨q, hq, -⟩ := h.face_of_page hL hp hks
  show (L'.page x).isSome = true
  rw [hq]
  rfl

/-- The moves of a read remove and write nothing. -/
theorem Operation.Does.of_read {id : SpaceId} {va : Address} {length : Nat} {Y : Layout} {k : Kind}
    (h : (Operation.read id va length).Does Y k) (x : Owner) :
    (∀ writeBack, k ≠ .leave x writeBack) ∧ ∀ start bytes, k ≠ .write x start bytes := by
  cases h <;> exact ⟨nofun, nofun⟩

variable {S : Reference} {L L' : Ledger} {op : Operation} {outcome : Except Refusal Reply}

/-- What a read gives is what is known. -/
theorem Ledger.Gives.shows {id : SpaceId} {va : Address} {length : Nat} {bytes : Bytes}
    {ks : List Kind} {Y : Layout} (h : Ledger.Gives id va bytes ks L L') (hL : L.Sound)
    (htrace : Ledger.Trace ks L L') (hlayout : S.layout = L.layout)
    (hdoes : ∀ k ∈ ks, (Operation.read id va length).Does Y k)
    (hagrees : ∀ {ks₁ ks₂ A}, ks = ks₁ ++ ks₂ → Ledger.Trace ks₁ L A → Ledger.Trace ks₂ A L' →
      (S.afterAll ks₁).Agrees A) : (S.afterAll ks).Shows id va bytes := by
  intro i hi
  obtain ⟨A, ks₁, ks₂, e, rfl, h₁, h₂, he, hbyte⟩ := h i hi
  have hA := h₁.sound hL
  have hrest : ∀ k ∈ ks₂, _ := fun k hk => (hdoes k (List.mem_append_right _ hk)).of_read
    ⟨id, (va.advance i).page⟩
  have hleave : ∀ b, .leave ⟨id, (va.advance i).page⟩ b ∉ ks₂ :=
    fun b hb => (hrest _ hb).1 b rfl
  refine ⟨?_, fun b hb => ?_⟩
  · rw [Reference.layout_afterAll, hlayout, ← htrace.layout hL]
    exact h₂.registered_of_grant hA he hleave
  · obtain ⟨p, hp, -⟩ := hA.page_of_grant he
    rw [Reference.afterAll_append, Reference.memory_afterAll h₂ hA hp hleave
      fun start bytes hb => (hrest _ hb).2 start bytes rfl] at hb
    rw [hbyte]
    exact (hagrees rfl h₁ h₂).bytes he hb

/-- A page without a window is in no mapping. -/
theorem Page.mapping_of_window? {p : Page} (h : p.window? = none) : p.mapping = 0 := by
  unfold window? Content.window? at h
  unfold mapping
  cases hc : p.content with
  | anon => rfl
  | file => rw [hc] at h; cases h
  | uninit t g =>
    cases g with
    | zero | custom => rfl
    | file => rw [hc] at h; cases h

/-- **What happened is a step of the reference** if, while a read was carried out, each frame that was
mapped held what was known of its page. -/
theorem Operation.Tells.exists_step (h : op.Tells outcome L L') (hL : L.Sound)
    (hlayout : S.layout = L.layout)
    (hplain : ∀ x, S.isPlain x = true → ∃ p, L.page x = some p ∧ p.window? = none)
    (hagrees : ∀ {id va length ks ks' A}, op = .read id va length →
      op.Moves outcome L.layout (ks ++ ks') → Ledger.Trace ks L A → Ledger.Trace ks' A L' →
      (S.afterAll ks).Agrees A) :
    ∃ ks, op.Moves outcome L.layout ks ∧ Ledger.Trace ks L L' ∧
      S.Step (.ask op outcome) (S.afterAll ks) := by
  cases h with
  | told h hread hunmap =>
    obtain ⟨ks, hks, htrace⟩ := h
    refine ⟨ks, hks, htrace, .intro (hlayout ▸ hks) ?_⟩
    unfold Reference.Answers
    split
    · rename_i heq
      exact absurd (Label.ask.inj heq).1 (hread _ _ _)
    · rename_i heq
      exact absurd (Label.ask.inj heq).1 (hunmap _ _)
    · trivial
  | read hop houtcome h =>
    subst hop houtcome
    obtain ⟨ks, hks, htrace, hgives, hsize⟩ := h.gives hL
    refine ⟨ks, hks, htrace, .intro (hlayout ▸ hks) ⟨?_, hsize⟩⟩
    exact hgives.shows hL htrace hlayout hks.does fun heq h₁ h₂ => hagrees rfl (heq ▸ hks) h₁ h₂
  | unmap hop houtcome h =>
    subst hop houtcome
    rename_i id va
    have hregistered : ∀ x, S.isPlain x = true → L.layout.registered x = true := fun x hx => by
      obtain ⟨p, hp, -⟩ := hplain x hx
      show (L.page x).isSome = true
      rw [hp]
      rfl
    cases h with
    | stays _ h =>
      refine ⟨_, .unmap (n := 0) nofun, h, .intro (.unmap (n := 0) nofun) fun x hx => ?_⟩
      show S.layout.registered x = true
      rw [hlayout]
      exact hregistered x hx
    | run hstart hrun hstop h =>
      rename_i n mapping
      have hall : ∀ v ∈ List.range' va.page n, L.layout.registered ⟨id, v⟩ = true := fun v hv => by
        obtain ⟨p, hp, -⟩ := hrun v hv
        show (L.page _).isSome = true
        rw [hp]
        rfl
      refine ⟨_, .unmap hall, h, .intro (.unmap (hlayout ▸ hall)) fun x hx => ?_⟩
      rw [Reference.layout_afterAll, hlayout, Layout.registered_leaveKinds, hregistered x hx,
        Bool.true_and, Bool.not_eq_true', decide_eq_false_iff_not]
      rintro ⟨rfl, hv⟩
      obtain ⟨p, hp, hwindow⟩ := hplain x hx
      obtain ⟨q, hq, hmapping⟩ := hrun x.vpn hv
      rw [Option.some.inj (hq.symm.trans hp), Page.mapping_of_window? hwindow] at hmapping
      exact hstart.1 hmapping.symm

end DemandPaging
