import DemandPaging.Operation
import DemandPaging.Proofs.Ledger.Layout

/-!
# What an operation comes to

`Operation.Moves` lists, for every operation and every way it can end, the sequences of moves it may
come to. `Operation.Tells` says what happened to the ledger: one of these sequences, and for a read
the bytes it gave.
-/

namespace DemandPaging

open Ledger (Kind)

namespace Operation

/-- The spaces an operation is asked of. -/
def spaces : Operation → List SpaceId
  | create => []
  | fork parent => [parent]
  | drop id => [id]
  | copy target (.own source) => [source, target]
  | copy _ (.foreign _) => []
  | register id _ _ _ _ | claim id _ | resolve id _ | remove id _ | map id _ _ _ _ _ | unmap id _
  | setupStack id | read id _ _ | write id _ _ => [id]

/-- The pages an operation writes if it goes through. -/
def written : Operation → List Owner
  | write id va bytes => (Machine.spans va bytes.size).map fun span => ⟨id, span.va.page⟩
  | _ => []

/-- The moves an operation comes to, by the way it ends and the layout it starts in. -/
inductive Moves : Operation → Except Refusal Reply → Layout → List Kind → Prop
  | create {id : SpaceId} {Y : Layout} {ks : List Kind} (h : Y.Creates id ks) :
      Moves .create (.ok (.space id)) Y ks
  | fork {parent child : SpaceId} {Y : Layout} {ks : List Kind} (h : Y.Forks parent child ks) :
      Moves (.fork parent) (.ok (.space child)) Y ks
  | forkRefused {parent : SpaceId} {cause : Refusal} {Y : Layout} {ks : List Kind}
      (h : Y.ForksInVain parent ks) : Moves (.fork parent) (.error cause) Y ks
  | drop {id : SpaceId} {Y : Layout} {ks : List Kind} (h : Y.Destroys id ks) :
      Moves (.drop id) (.ok .done) Y ks
  | copy {target source : SpaceId} {Y : Layout} {ks : List Kind} (h : Y.CopiesAll source target ks) :
      Moves (.copy target (.own source)) (.ok .done) Y ks
  | copyRefused {target source : SpaceId} {cause : Refusal} {Y : Layout} {ks : List Kind}
      (h : Y.CopiesSome source target ks) :
      Moves (.copy target (.own source)) (.error cause) Y ks
  | copyForeign {target source : SpaceId} {cause : Refusal} {Y : Layout} :
      Moves (.copy target (.foreign source)) (.error cause) Y []
  | register {id : SpaceId} {type : PageType} {va : Address} {writable : Bool} {setup : Setup}
      {Y : Layout} {ks : List Kind} (h : Y.Registers id type va writable setup ks) :
      Moves (.register id type va writable setup) (.ok .done) Y ks
  | registerRefused {id : SpaceId} {type : PageType} {va : Address} {writable : Bool}
      {setup : Setup} {cause : Refusal} {origin : Origin} {Y : Layout} {ks : List Kind}
      (h : Layout.Supplies setup origin ks) :
      Moves (.register id type va writable setup) (.error cause) Y ks
  | claim {id : SpaceId} {va : Address} {f : FrameNum} {Y : Layout} :
      Moves (.claim id va) (.ok (.frame f)) Y []
  | claimRefused {id : SpaceId} {va : Address} {cause : Refusal} {Y : Layout} :
      Moves (.claim id va) (.error cause) Y []
  | resolve {id : SpaceId} {fault : PageFault} {Y : Layout} {ks : List Kind}
      (h : Y.Grows id fault.va ks) : Moves (.resolve id fault) (.ok .done) Y ks
  | resolveRefused {id : SpaceId} {fault : PageFault} {cause : Refusal} {Y : Layout}
      {ks : List Kind} (h : Y.Grows id fault.va ks) :
      Moves (.resolve id fault) (.error cause) Y ks
  | remove {id : SpaceId} {va : Address} {Y : Layout} :
      Moves (.remove id va) (.ok .done) Y [.leave ⟨id, va.page⟩ false]
  | removeRefused {id : SpaceId} {va : Address} {cause : Refusal} {Y : Layout} :
      Moves (.remove id va) (.error cause) Y []
  | map {id : SpaceId} {va : Address} {length : Nat} {writable : Bool} {handle : HandleNum}
      {offset : Nat} {Y : Layout} {ks : List Kind} (h : Y.Maps id va length writable offset ks) :
      Moves (.map id va length writable handle offset) (.ok (.address va)) Y ks
  | mapRefused {id : SpaceId} {va : Address} {length : Nat} {writable : Bool}
      {handle : HandleNum} {offset : Nat} {cause : Refusal} {Y : Layout} :
      Moves (.map id va length writable handle offset) (.error cause) Y []
  | unmap {id : SpaceId} {va : Address} {n : Nat} {Y : Layout}
      (hrun : ∀ v ∈ List.range' va.page n, Y.registered ⟨id, v⟩ = true) :
      Moves (.unmap id va) (.ok .done) Y (Layout.leaveKinds id true (List.range' va.page n))
  | setupStack {id : SpaceId} {Y : Layout} : Moves (.setupStack id)
      (.ok (.address Y.config.stackTop)) Y
      [Y.stackKind id, .floor id (some Y.firstStackPage)]
  | setupStackRefused {id : SpaceId} {cause : Refusal} {Y : Layout} {ks : List Kind}
      (h : ks = [] ∨ ks = [Y.stackKind id]) : Moves (.setupStack id) (.error cause) Y ks
  | read {id : SpaceId} {va : Address} {length : Nat} {bytes : Bytes} {Y : Layout}
      {ks : List Kind} (h : Y.Visits id (Machine.spans va length) ks) :
      Moves (.read id va length) (.ok (.bytes { bytes })) Y ks
  | readStopped {id : SpaceId} {va : Address} {length : Nat} {bytes : Bytes} {cause : Refusal}
      {Y : Layout} {ks : List Kind}
      (h : Y.Stops id (Layout.Visits id) (Machine.spans va length) ks) :
      Moves (.read id va length) (.ok (.bytes { bytes, stopped := some cause })) Y ks
  | write {id : SpaceId} {va : Address} {bytes : Bytes} {Y : Layout} {ks : List Kind}
      (h : Y.Writes id bytes 0 (Machine.spans va bytes.size) ks) :
      Moves (.write id va bytes) (.ok .done) Y ks
  | writeRefused {id : SpaceId} {va : Address} {bytes : Bytes} {cause : Refusal} {Y : Layout}
      {ks : List Kind}
      (h : Y.Stops id (Layout.Writes id bytes 0) (Machine.spans va bytes.size) ks) :
      Moves (.write id va bytes) (.error cause) Y ks

/-- What happened to the ledger while an operation was carried out. -/
inductive Tells (op : Operation) (outcome : Except Refusal Reply) (L L' : Ledger) : Prop
  | told (h : Ledger.Told (op.Moves outcome) L L')
      (hread : ∀ id va length, op ≠ .read id va length) (hunmap : ∀ id va, op ≠ .unmap id va) :
      Tells op outcome L L'
  | read {id : SpaceId} {va : Address} {length : Nat} {r : Machine.ReadResult}
      (hop : op = .read id va length) (houtcome : outcome = .ok (.bytes r))
      (h : Ledger.ReadsUpTo id (Machine.spans va length) r L L') : Tells op outcome L L'
  | unmap {id : SpaceId} {va : Address} (hop : op = .unmap id va) (houtcome : outcome = .ok .done)
      (h : Ledger.Unmaps id va L L') : Tells op outcome L L'

/-- Whatever an operation came to is one of its sequences of moves. -/
theorem Tells.moves {op : Operation} {outcome : Except Refusal Reply} {L L' : Ledger}
    (h : op.Tells outcome L L') (hL : L.Sound) : Ledger.Told (op.Moves outcome) L L' := by
  cases h with
  | told h => exact h
  | read hop houtcome h =>
    subst hop houtcome
    rename_i r
    obtain ⟨bytes, stopped⟩ := r
    rcases h.told hL with ⟨rfl, ks, hks, h⟩ | ⟨⟨cause, rfl⟩, ks, hks, h⟩
    · exact ⟨ks, .read hks, h⟩
    · exact ⟨ks, .readStopped hks, h⟩
  | unmap hop houtcome h =>
    subst hop houtcome
    cases h with
    | stays _ h => exact ⟨_, .unmap (n := 0) nofun, h⟩
    | run _ hrun _ h =>
      refine ⟨_, .unmap fun v hv => ?_, h⟩
      obtain ⟨p, hp, -⟩ := hrun v hv
      show (L.page _).isSome = true
      rw [hp]
      rfl

/-! ## What a move can belong to -/

/-- A move an operation may come to. -/
inductive Does (Y : Layout) : Operation → Kind → Prop
  /-- A stack grows. -/
  | grow {op : Operation} {id : SpaceId} (v : PageNum) (hid : op.spaces = [id]) :
      Does Y op (.enter ⟨id, v⟩ true .anon .zero)
  /-- A space comes or goes, or its stack grew. -/
  | floor (op : Operation) (id : SpaceId) (v : Option PageNum) : Does Y op (.floor id v)
  | supply (op : Operation) (n : Nat) (content : Bytes) : Does Y op (.supply n content)
  | register {id : SpaceId} {type : PageType} {va : Address} {writable : Bool} {setup : Setup}
      {origin : Origin} {ks : List Kind} (h : Layout.Supplies setup origin ks) :
      Does Y (.register id type va writable setup) (.enter ⟨id, va.page⟩ writable type origin)
  | map {id : SpaceId} {va : Address} {length : Nat} {writable : Bool} {handle : HandleNum}
      {offset : Nat} (v : PageNum) (w : FileWindow) :
      Does Y (.map id va length writable handle offset) (.enter ⟨id, v⟩ writable .file (.file w))
  | copy {target source : SpaceId} (v : PageNum) :
      Does Y (.copy target (.own source)) (.copy ⟨source, v⟩ ⟨target, v⟩)
  | share {parent child : SpaceId} (v : PageNum) (hnew : Y.floor child = none) :
      Does Y (.fork parent) (.copy ⟨parent, v⟩ ⟨child, v⟩)
  /-- A fork that was refused is undone. -/
  | undo {parent child : SpaceId} (v : PageNum) (hnew : Y.floor child = none) :
      Does Y (.fork parent) (.leave ⟨child, v⟩ true)
  | drop {id : SpaceId} (v : PageNum) : Does Y (.drop id) (.leave ⟨id, v⟩ true)
  | remove (id : SpaceId) (va : Address) : Does Y (.remove id va) (.leave ⟨id, va.page⟩ false)
  | unmap {id : SpaceId} {va : Address} (v : PageNum) : Does Y (.unmap id va) (.leave ⟨id, v⟩ true)
  | write {id : SpaceId} {va : Address} {bytes : Bytes} {span : Machine.Span} (written : Bytes)
      (hspan : span ∈ Machine.spans va bytes.size) :
      Does Y (.write id va bytes) (.write ⟨id, span.va.page⟩ span.va.offset written)

theorem Does.of_growth {op : Operation} {Y : Layout} {id : SpaceId} {k : Kind}
    (hid : op.spaces = [id]) (h : Layout.IsGrowth id k) : op.Does Y k := by
  rcases h with ⟨v, rfl⟩ | ⟨v, rfl⟩
  · exact .grow v hid
  · exact .floor op id _

/-- **An operation comes to moves of its own kind only.** -/
theorem Moves.does {op : Operation} {outcome : Except Refusal Reply} {Y : Layout} {ks : List Kind}
    (h : op.Moves outcome Y ks) : ∀ k ∈ ks, op.Does Y k := by
  cases h with
  | create h =>
    cases h
    exact fun k hk => List.mem_singleton.mp hk ▸ .floor _ _ _
  | fork h =>
    obtain ⟨hnew, h⟩ := h
    intro k hk
    rcases List.mem_cons.mp hk with rfl | hk
    · exact .floor _ _ _
    · rcases h.mem hk with ⟨v, rfl⟩ | ⟨v, rfl⟩
      · exact .share v hnew
      · exact .floor _ _ _
  | forkRefused h =>
    obtain ⟨hnew, h, h'⟩ := h
    intro k hk
    rcases List.mem_cons.mp hk with rfl | hk
    · exact .floor _ _ _
    · rcases List.mem_append.mp hk with hk | hk
      · obtain ⟨v, rfl⟩ := h.mem hk
        exact .share v hnew
      · rcases h'.mem hk with ⟨v, rfl⟩ | rfl
        · exact .undo v hnew
        · exact .floor _ _ _
  | drop h =>
    intro k hk
    rcases h.mem hk with ⟨v, rfl⟩ | rfl
    · exact .drop v
    · exact .floor _ _ _
  | copy h =>
    intro k hk
    rcases h.mem hk with ⟨v, rfl⟩ | ⟨v, rfl⟩
    · exact .copy v
    · exact .floor _ _ _
  | copyRefused h =>
    intro k hk
    obtain ⟨v, rfl⟩ := h.mem hk
    exact .copy v
  | copyForeign | claim | claimRefused | removeRefused | mapRefused => exact nofun
  | register h =>
    obtain ⟨h, -⟩ := h
    intro k hk
    rcases List.mem_append.mp hk with hk | hk
    · obtain ⟨n, content, rfl⟩ := h.mem hk
      exact .supply _ n content
    · rw [List.mem_singleton.mp hk]
      exact .register h
  | registerRefused h =>
    intro k hk
    obtain ⟨n, content, rfl⟩ := h.mem hk
    exact .supply _ n content
  | resolve h | resolveRefused h => exact fun k hk => .of_growth rfl (h.mem hk)
  | remove => exact fun k hk => List.mem_singleton.mp hk ▸ .remove _ _
  | map h =>
    obtain ⟨-, -⟩ := h
    intro k hk
    obtain ⟨v, w, rfl⟩ := Layout.mem_mapKinds hk
    exact .map v w
  | unmap hrun =>
    intro k hk
    obtain ⟨v, -, rfl⟩ := List.mem_map.mp hk
    exact .unmap v
  | setupStack =>
    intro k hk
    rcases List.mem_cons.mp hk with rfl | hk
    · exact .grow _ rfl
    · rw [List.mem_singleton.mp hk]
      exact .floor _ _ _
  | setupStackRefused h =>
    rcases h with rfl | rfl
    · exact nofun
    · exact fun k hk => List.mem_singleton.mp hk ▸ .grow _ rfl
  | read h => exact fun k hk => .of_growth rfl (h.mem hk)
  | readStopped h => exact fun k hk => .of_growth rfl (h.mem_visits hk)
  | write h =>
    intro k hk
    rcases h.mem hk with hk | ⟨span, hspan, written, rfl⟩
    · exact .of_growth rfl hk
    · exact .write written hspan
  | writeRefused h =>
    intro k hk
    rcases h.mem_writes hk with hk | ⟨span, hspan, written, rfl⟩
    · exact .of_growth rfl hk
    · exact .write written hspan

/-- **An operation writes a page as often as it says**, or less often if it is refused. -/
theorem Moves.countP_writes_le {op : Operation} {outcome : Except Refusal Reply} {Y : Layout}
    {ks : List Kind} (h : op.Moves outcome Y ks) (x : Owner) :
    ks.countP (Kind.writes x) ≤ op.written.count x := by
  by_cases hwrite : ∃ id va bytes, op = .write id va bytes
  · obtain ⟨id, va, bytes, rfl⟩ := hwrite
    cases h with
    | write h => exact Nat.le_of_eq (h.countP_writes x)
    | writeRefused h => exact h.countP_writes_le x
  · rw [List.countP_eq_zero.mpr fun k hk hx => ?_]
    · exact Nat.zero_le _
    cases h.does k hk with
    | write => exact hwrite ⟨_, _, _, rfl⟩
    | _ => cases hx

/-- **A page that is there when an operation has ended** did not leave on the way. -/
theorem Moves.leave_notMem {op : Operation} {outcome : Except Refusal Reply} {Y : Layout}
    {ks : List Kind} {x : Owner} (h : op.Moves outcome Y ks) (hlive : (Y.floor x.space).isSome)
    (hthere : (Y.afterAll ks).registered x = true) (writeBack : Bool) :
    .leave x writeBack ∉ ks := by
  intro hk
  cases h.does _ hk with
  | undo v hnew =>
    rw [hnew] at hlive
    cases hlive
  | drop v =>
    cases h with
    | drop h =>
      cases h with
      | absent => cases hk
      | intro _ hall =>
        rcases List.mem_append.mp hk with hk | hk
        · obtain ⟨_, hv, heq⟩ := List.mem_map.mp hk
          cases heq
          rw [Layout.afterAll_append] at hthere
          have hgone := (Layout.registered_leaveKinds _ true _ _ Y).symm.trans hthere
          simp [hv] at hgone
        · simp at hk
  | remove id va =>
    cases h with
    | remove => simp [Layout.afterAll, Layout.after] at hthere
    | removeRefused => cases hk
  | unmap v =>
    cases h with
    | unmap =>
      obtain ⟨_, hv, heq⟩ := List.mem_map.mp hk
      cases heq
      rw [Layout.registered_leaveKinds] at hthere
      simp [hv] at hthere

/-- **A page that was copied to** does not leave on the way, unless a fork is undone. -/
theorem Moves.leave_notMem_of_copy {op : Operation} {outcome : Except Refusal Reply} {Y : Layout}
    {ks : List Kind} {src x : Owner} (h : op.Moves outcome Y ks)
    (hvain : ∀ parent cause, op = .fork parent → outcome ≠ .error cause) (hk : .copy src x ∈ ks)
    (writeBack : Bool) : .leave x writeBack ∉ ks := by
  intro hleave
  cases h.does _ hk with
  | copy v => cases h.does _ hleave
  | share v hnew =>
    cases h with
    | forkRefused => exact hvain _ _ rfl rfl
    | fork h =>
      obtain ⟨-, h⟩ := h
      rcases List.mem_cons.mp hleave with heq | hleave
      · cases heq
      · rcases h.mem hleave with ⟨_, heq⟩ | ⟨_, heq⟩ <;> cases heq

end Operation

end DemandPaging
