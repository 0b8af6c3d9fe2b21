import DemandPaging.Proofs.Machine.Numbering
import DemandPaging.Proofs.Mapping
import Mathlib.Algebra.Ring.Nat

/-!
# Mapping a file is all or nothing

A request to map a file goes through just when it is well formed and the pages it covers are free
(`Machine.MayMap`). If it is refused, nothing but the number it used up has changed. If it goes
through, the pages it covers wait to be loaded from their windows, which tile the mapped part of the
file, and no other page has changed (`FileMapping.Laid`). Pages of two mappings carry different numbers.

Headline: **`RunWith.maps`**.
-/

namespace DemandPaging

open Machine (Sound)

/-! ## What a mapping lays out -/

/-- Everything of a machine but the spaces, the files, the journal and the number of the next mapping. -/
def Machine.besides (m : Machine) : Config × FramePool × FrameTable × Swap × Array Initializer ×
    IdPool × Table EvictionGroup × IdPool × Counters :=
  (m.config, m.frames, m.resident, m.backing.swap, m.backing.initializers, m.spaceIds, m.groups,
    m.groupIds, m.counters)

/-- The `n` pages from `p` on were registered where there were none, each waiting to be loaded from its
window of the mapping through a handle of its own. No other page has changed, and no mapping, frame,
group, slot or file. -/
structure FileMapping.Laid (M : FileMapping) (writable : Bool) (p : PageNum) (n : Nat)
    (m m' : Machine) : Prop where
  free : ∀ j, j < n → m.page? ⟨M.id, p + j⟩ = none
  pages : ∀ j, j < n → ∃ h, m.backing.files.handles.size ≤ h ∧
    (m'.backing.files.handle h).file = M.file ∧ m'.page? ⟨M.id, p + j⟩ =
      some (.fresh (p + j) writable .file (.file { M.windowAt j with handle := h }))
  others : ∀ o, (∀ j, j < n → o ≠ ⟨M.id, p + j⟩) → m'.page? o = m.page? o
  entries : ∀ o, m'.entryAt? o = m.entryAt? o
  floors : ∀ id, m'.floorAt? id = m.floorAt? id
  /-- Handles were opened, and nothing else was done to the files. -/
  handles : ∃ opened, m'.backing.files =
    { m.backing.files with handles := m.backing.files.handles ++ opened }
  besides : m'.besides = m.besides

namespace FileMapping.Laid

variable {M : FileMapping} {writable : Bool} {p : PageNum} {n : Nat} {m m₁ m' : Machine}
  {handle : HandleNum}

theorem nil (M : FileMapping) (writable : Bool) (p : PageNum) (m : Machine) :
    M.Laid writable p 0 m m :=
  ⟨nofun, nofun, fun _ _ => rfl, fun _ => rfl, fun _ => rfl, ⟨#[], by rw [Array.append_empty]⟩, rfl⟩

/-- A page before the others. -/
theorem cons (h : M.tail.Laid writable (p + 1) n m₁ m') (hfree : m.page? ⟨M.id, p⟩ = none)
    (hopen : (m.backing.files.handle handle).file = M.file)
    (hpage : ∀ x, m₁.page? x = if x = ⟨M.id, p⟩ then some (.fresh p writable .file
      (.file { M.windowAt 0 with handle := (m.backing.files.reopen handle).1 })) else m.page? x)
    (hentry : ∀ x, m₁.entryAt? x = m.entryAt? x) (hfloor : ∀ id, m₁.floorAt? id = m.floorAt? id)
    (hfiles : m₁.backing.files = (m.backing.files.reopen handle).2)
    (hbesides : m₁.besides = m.besides) :
    M.Laid writable p (n + 1) m m' := by
  have hnext : ∀ j : Nat, p + 1 + j = p + (j + 1) := fun j => by rw [Nat.add_assoc, Nat.add_comm 1 j]
  have hcount : m.backing.files.handles.size < m₁.backing.files.handles.size := by
    simp [hfiles, FileStore.reopen]
  have hother : ∀ j : Nat, (⟨M.id, p + (j + 1)⟩ : Owner) ≠ ⟨M.id, p⟩ := fun j heq =>
    Nat.succ_ne_zero j (Nat.add_eq_left.mp (Owner.mk.inj heq).2)
  obtain ⟨opened, hopened⟩ := h.handles
  refine ⟨fun j hj => ?_, fun j hj => ?_, fun o ho => ?_, fun o => (h.entries o).trans (hentry o),
    fun id => (h.floors id).trans (hfloor id), ?_, h.besides.trans hbesides⟩
  · cases j with
    | zero => exact hfree
    | succ j =>
      have hfree' : m₁.page? ⟨M.id, p + 1 + j⟩ = none := h.free j (Nat.lt_of_succ_lt_succ hj)
      rwa [hnext, hpage, if_neg (hother j)] at hfree'
  · cases j with
    | zero =>
      refine ⟨(m.backing.files.reopen handle).1, Nat.le_refl _, ?_, ?_⟩
      · have hkept : m'.backing.files.handle m.backing.files.handles.size =
            m₁.backing.files.handle m.backing.files.handles.size := by
          unfold FileStore.handle
          rw [hopened, Array.getElem?_append_left hcount]
        refine (congrArg Handle.file hkept).trans ?_
        rw [hfiles]
        exact (m.backing.files.file_handle_reopen handle).trans hopen
      · refine (h.others _ fun j _ heq => hother j (hnext j ▸ heq.symm)).trans ((hpage _).trans (if_pos rfl))
    | succ j =>
      obtain ⟨k, hk, hfile, hpage'⟩ := h.pages j (Nat.lt_of_succ_lt_succ hj)
      rw [M.windowAt_tail, hnext] at hpage'
      exact ⟨k, Nat.le_of_lt (Nat.lt_of_lt_of_le hcount hk), hfile, hpage'⟩
  · refine (h.others o fun j hj heq => ?_).trans ((hpage o).trans (if_neg (ho 0 (Nat.succ_pos n))))
    exact ho (j + 1) (Nat.succ_lt_succ hj) (hnext j ▸ heq)
  · refine ⟨#[{ file := (m.backing.files.handle handle).file }] ++ opened, hopened.trans ?_⟩
    rw [hfiles]
    simp [FileStore.reopen]

end FileMapping.Laid

/-! ## Making a mapping -/

namespace Machine

variable {lax : Tolerance} {m m' : Machine} {id : SpaceId} {va : Address} {length : Nat}
  {writable : Bool} {handle : HandleNum} {offset : Nat}

/-- **Registering the pages of a mapping** lays it out. -/
theorem meets_mapPages_laid {F : Violation → Machine → Prop} {R : Refusal → Machine → Prop}
    {start : PageNum} : ∀ {n : Nat} {M : FileMapping} {p : PageNum} {m : Machine},
      (∀ j, j < n → p + j < PageNum.limit ∧ m.page? ⟨M.id, p + j⟩ = none) →
      (m.floorAt? M.id).isSome → handle < m.backing.files.handles.size →
      (m.backing.files.handle handle).file = M.file →
      Action.Meets F (mapPages M.id writable handle M.number start (List.range' p n) M.offset M.size) m
        (fun _ m' => M.Laid writable p n m m') R
  | 0, M, p, m, _, _, _, _ => .nil M writable p m
  | n + 1, M, p, m, hfree, hlive, hopen, hfile => by
    obtain ⟨hlimit, hnone⟩ := hfree 0 (Nat.succ_pos n)
    have hbase : (PageNum.base p).page = p := PageNum.page_base hlimit
    have hhandles : (m.backing.files.reopen handle).2.handles.size = m.backing.files.handles.size + 1 := by
      simp [FileStore.reopen]
    rw [List.range'_succ]
    unfold mapPages reopen register
    rw [Action.meets_bind, Action.meets_modifyGet]
    dsimp only
    rw [hbase, Action.meets_bind, Action.meets_attempt]
    refine meets_insertPage (.fresh p writable .file (.file
      { M.windowAt 0 with handle := (m.backing.files.reopen handle).1 })) hlive hnone fun m₁ h₁ => ?_
    unfold note
    rw [Action.meets_modify]
    dsimp only
    have hparts : m₁.backing.files = (m.backing.files.reopen handle).2 ∧ m₁.besides = m.besides := by
      obtain ⟨spaces, rfl⟩ := h₁.rest
      exact ⟨rfl, rfl⟩
    have hpage : ∀ x, m₁.page? x = if x = ⟨M.id, p⟩ then some _ else m.page? x := h₁.page
    have hstays := m.backing.files.extends_reopen handle
    refine (meets_mapPages_laid (M := M.tail) (fun j hj => ?_) ((h₁.floor M.id).symm ▸ hlive) ?_ ?_).mono
      (fun _ m₂ h₂ => ?_) fun _ _ h => h
    · obtain ⟨hlimit, hnone⟩ := hfree (j + 1) (Nat.succ_lt_succ hj)
      have hnext : p + 1 + j = p + (j + 1) := by rw [Nat.add_assoc, Nat.add_comm 1 j]
      have hother : (⟨M.id, p + (j + 1)⟩ : Owner) ≠ ⟨M.id, p⟩ := fun heq =>
        Nat.succ_ne_zero j (Nat.add_eq_left.mp (Owner.mk.inj heq).2)
      rw [hnext]
      exact ⟨hlimit, (hpage _).trans ((if_neg hother).trans hnone)⟩
    · show handle < m₁.backing.files.handles.size
      rw [hparts.1]
      exact Nat.lt_of_lt_of_le hopen hstays.handles
    · show (m₁.backing.files.handle handle).file = M.file
      rw [hparts.1, hstays.stays _ hopen]
      exact hfile
    · exact h₂.cons hnone hfile hpage h₁.entry h₁.floor hparts.1 hparts.2

/-- When a request to map a file goes through: the space is there, the request is well formed, the part
of the file starts inside it, and no page is registered where the mapping would be. -/
structure MayMap (m : Machine) (id : SpaceId) (va : Address) (length : Nat) (handle : HandleNum)
    (offset : Nat) : Prop where
  space : (m.spaces[id]?).isSome
  notNull : va.toNat ≠ 0
  aligned : va.toNat % pageSize = 0
  nonempty : 0 < length
  offsetAligned : offset % pageSize = 0
  noOverflow : va.toNat + length < 2 ^ 64
  belowCeiling : va.toNat + length ≤ m.config.ceiling.toNat
  inside : offset < (m.backing.files.fileOf handle).size
  free : ∀ v, va.toNat / pageSize ≤ v → v * pageSize < va.toNat + length → m.page? ⟨id, v⟩ = none

theorem mappingEnd_eq_ok {config : Config} {stop : Address} :
    mappingEnd config va length = .ok stop ↔ stop = .ofNat (va.toNat + length) ∧
      va.toNat + length < 2 ^ 64 ∧ va.toNat + length ≤ config.ceiling.toNat := by
  unfold mappingEnd
  dsimp only
  split
  · rename_i hfits
    exact ⟨fun h => ⟨(Except.ok.inj h).symm, hfits⟩, fun h => by rw [h.1]⟩
  · rename_i hfits
    exact iff_of_false nofun fun h => hfits h.2

/-- Which requests are well formed. -/
theorem checkMapping_eq_ok {config : Config} {size : Nat} {stop : Address} :
    checkMapping config va length offset size = .ok stop ↔
      stop = .ofNat (va.toNat + length) ∧ va.toNat ≠ 0 ∧ va.toNat % pageSize = 0 ∧ 0 < length ∧
      offset % pageSize = 0 ∧ va.toNat + length < 2 ^ 64 ∧ va.toNat + length ≤ config.ceiling.toNat ∧
      offset < size := by
  have hend := @mappingEnd_eq_ok va length config stop
  have hplaced : (va.isNull || !va.isAligned) = true ↔ ¬(va.toNat ≠ 0 ∧ va.toNat % pageSize = 0) := by
    simp [Address.isNull, Address.isAligned, Address.offset, Classical.or_iff_not_imp_left]
  unfold checkMapping
  simp only [bind, Except.bind, pure, Except.pure, throw, throwThe, MonadExceptOf.throw, hplaced]
  cases hstop : mappingEnd config va length <;> rw [hstop] at hend
  all_goals
    repeat' split
    all_goals grind

/-- An aligned mapping of `length` bytes takes ⌈`length` / `pageSize`⌉ pages. -/
theorem length_mappedPages (haligned : va.toNat % pageSize = 0)
    (hfits : va.toNat + length < 2 ^ 64) :
    (Address.ofNat (va.toNat + length)).pageAbove - va.page =
      (length + (pageSize - 1)) / pageSize := by
  have hstop : (Address.ofNat (va.toNat + length)).toNat = va.toNat + length := Address.toNat_ofNat hfits
  have hpage : va.toNat % 4096 = 0 := haligned
  show ((Address.ofNat (va.toNat + length)).toNat + 4095) / 4096 - va.toNat / 4096 =
    (length + 4095) / 4096
  rw [hstop]
  omega

/-- The last page of a mapping is the last one that starts before its end. -/
theorem lt_pageAbove_iff {v : Nat} (hfits : va.toNat + length < 2 ^ 64) :
    v < (Address.ofNat (va.toNat + length)).pageAbove ↔ v * pageSize < va.toNat + length := by
  have hstop : (Address.ofNat (va.toNat + length)).toNat = va.toNat + length := Address.toNat_ofNat hfits
  show v < ((Address.ofNat (va.toNat + length)).toNat + 4095) / 4096 ↔ v * 4096 < va.toNat + length
  rw [hstop]
  omega

/-- **Mapping a file** is all or nothing. -/
theorem meets_mapFile_laid {F : Violation → Machine → Prop} (m : Machine) (id : SpaceId) (va : Address)
    (length : Nat) (writable : Bool) (handle : HandleNum) (offset : Nat) :
    Action.Meets F (mapFile id va length writable handle offset) m
      (fun a m' => a = va ∧ m.MayMap id va length handle offset ∧
        (m.mappingOf id va length handle offset).Laid writable va.page
          ((length + (pageSize - 1)) / pageSize) m m')
      (fun _ m' => ¬m.MayMap id va length handle offset ∧
        m' = { m with nextMapping := m.nextMapping + 1 }) := by
  unfold mapFile
  rw [Action.meets_bind, Action.meets_modifyGet, Action.meets_bind, Action.meets_get]
  dsimp only
  rw [Action.meets_bind, Action.meets_permit]
  refine ⟨fun stop hstop => ?_, fun cause hcause => ⟨fun h => ?_, rfl⟩⟩
  · obtain ⟨rfl, hnull, haligned, hlength, hoffset, hfits, hbelow, hinside⟩ := checkMapping_eq_ok.mp hstop
    have hlt : ∀ v, _ ↔ _ := fun v => @lt_pageAbove_iff va length v hfits
    have hle : va.page ≤ (Address.ofNat (va.toNat + length)).pageAbove :=
      (checkMapping_ok hstop).page_le
    have hcount := length_mappedPages haligned hfits
    have hrange : PageRange.between va.page (Address.ofNat (va.toNat + length)).pageAbove =
        .ok ⟨va.page, _, hle⟩ := dif_pos hle
    rw [hrange]
    show Action.Meets F (space id >>= fun _ => _) _ _ _
    rw [Action.meets_bind]
    refine (meets_space _ id).mono ?_ ?_
    · rintro space _ ⟨rfl, hspace⟩
      change m.spaces[id]? = some space at hspace
      have hget : ∀ v, m.page? ⟨id, v⟩ = space.registry.get? v := fun v => by
        rw [page?_eq, hspace]
        rfl
      split
      · rename_i v hfind
        refine ⟨fun h => ?_, rfl⟩
        have hin : va.page ≤ v ∧ v < (Address.ofNat (va.toNat + length)).pageAbove := by
          simpa [PageRange.contains] using List.find?_some hfind
        have hsome := Registry.mem_vpns.mp (List.mem_of_find?_eq_some hfind)
        rw [← hget, h.free v hin.1 ((hlt v).mp hin.2)] at hsome
        cases hsome
      · rename_i hfind
        have hfree : ∀ v, va.page ≤ v → v * pageSize < va.toNat + length → m.page? ⟨id, v⟩ = none := by
          intro v hlow hhigh
          rw [hget]
          refine Option.not_isSome_iff_eq_none.mp fun hsome =>
            List.find?_eq_none.mp hfind v (Registry.mem_vpns.mpr hsome) ?_
          simpa [PageRange.contains] using ⟨hlow, (hlt v).mpr hhigh⟩
        have hmay : m.MayMap id va length handle offset := ⟨by rw [hspace]; rfl, hnull, haligned, hlength,
          hoffset, hfits, hbelow, hinside, hfree⟩
        rw [Action.meets_bind]
        refine (meets_mapPages_laid (M := m.mappingOf id va length handle offset)
          (m := { m with nextMapping := m.nextMapping + 1 }) (fun j hj => ?_)
          (Option.isSome_map.trans hmay.space) (FileStore.opened_of_lt_size hinside) rfl).mono
          (fun _ m' h => ?_) fun _ _ h => h
        · have hin : va.page + j < (Address.ofNat (va.toNat + length)).pageAbove :=
            Nat.add_lt_of_lt_sub' hj
          exact ⟨Nat.lt_of_lt_of_le hin (Address.pageAbove_le _),
            hfree _ (Nat.le_add_right _ _) ((hlt _).mp hin)⟩
        · rw [← hcount]
          exact ⟨rfl, hmay, h.free, h.pages, h.others, h.entries, h.floors, h.handles, h.besides⟩
    · rintro cause _ ⟨rfl, hnone⟩
      refine ⟨fun h => ?_, rfl⟩
      have hsome := h.space
      rw [floorAt?, Option.map_eq_none_iff] at hnone
      rw [hnone] at hsome
      cases hsome
  · have hok := checkMapping_eq_ok.mpr ⟨rfl, h.notNull, h.aligned, h.nonempty, h.offsetAligned,
      h.noOverflow, h.belowCeiling, h.inside⟩
    rw [hok] at hcause
    cases hcause

/-- The numbers of the pages were all given out. -/
def Numbers (m : Machine) : Prop := ∀ o p, m.page? o = some p → p.mapping < m.nextMapping

/-- Every page carries a number that may stand at its place. -/
def NumberedBy (P : PageNum → Nat → Prop) (m : Machine) : Prop :=
  ∀ o p, m.page? o = some p → P o.vpn p.mapping

end Machine

/-! ## The numbers of mappings on a run -/

section

variable {lax : Tolerance} {m m' : Machine} {label : Label} {labels : List Label} {op : Operation}

/-- No page is registered as part of a mapping, except by mapping a file. -/
def Label.Unnumbered : Label → Prop
  | ask (.register _ _ _ _ (.file w)) _ => w.mapping = 0
  | _ => True

/-- Whether a step is `Unnumbered`. -/
def Label.isUnnumbered : Label → Bool
  | ask (.register _ _ _ _ (.file w)) _ => w.mapping = 0
  | _ => true

theorem Label.unnumbered_of_isUnnumbered {label : Label} (h : label.isUnnumbered = true) :
    label.Unnumbered := by
  unfold isUnnumbered at h
  unfold Unnumbered
  split at h
  · exact of_decide_eq_true h
  · trivial

/-- A page that is not registered by mapping a file is in no mapping. -/
theorem Operation.Does.mapping_eq_zero {Y : Layout} {o : Owner} {writable : Bool} {type : PageType}
    {origin : Origin} {outcome : Except Refusal Reply} (h : op.Does Y (.enter o writable type origin))
    (hmap : ∀ id va length writable handle offset, op ≠ .map id va length writable handle offset)
    (hlabel : (Label.ask op outcome).Unnumbered) :
    (Page.fresh o.vpn writable type origin).mapping = 0 := by
  cases h with
  | grow => rfl
  | register h =>
    cases h with
    | zero | custom => rfl
    | file w file => exact hlabel
  | map => exact absurd rfl (hmap _ _ _ _ _ _)

/-- No step takes a number back. -/
theorem Step.number_le (h : Step lax m label m') : m.nextMapping ≤ m'.nextMapping := by
  cases h with
  | ask hop h =>
    rename_i op outcome
    cases h with
    | ok h => exact (op.meets_perform_number m).of_ok h
    | refused h => exact (op.meets_perform_number m).of_refused h
    | reported h hevent =>
      have hle := (op.meets_perform_number m).of_refused h
      exact hle
  | outside h => exact Nat.le_refl _

theorem Run.number_le (h : Run lax m labels m') : m.nextMapping ≤ m'.nextMapping := by
  induction h with
  | refl => exact Nat.le_refl _
  | step _ hs ih => exact Nat.le_trans ih hs.number_le

/-- An attempt to map a file, told of the operation. -/
theorem Operation.meets_map {F : Violation → Machine → Prop} (m : Machine) (id : SpaceId) (va : Address)
    (length : Nat) (writable : Bool) (handle : HandleNum) (offset : Nat) :
    Action.Meets F (map id va length writable handle offset).perform m
      (fun _ m' => m.MayMap id va length handle offset ∧
        (m.mappingOf id va length handle offset).Laid writable va.page
          ((length + (pageSize - 1)) / pageSize) m m' ∧ m'.nextMapping = m.nextMapping + 1)
      (fun _ m' => m' = { m with nextMapping := m.nextMapping + 1 }) :=
  (((Machine.meets_mapFile_laid m id va length writable handle offset).and
    (Machine.meets_mapFile_number id va length writable handle offset m)).relax fun _ _ h => h.1).bind
    (fun _ _ h => ⟨h.1.2.1, h.1.2.2, h.2⟩) fun _ _ h => h.1.2

theorem FileMapping.Laid.numberedBy {P : PageNum → Nat → Prop} {M : FileMapping} {writable : Bool}
    {p : PageNum} {n : Nat} (h : M.Laid writable p n m m') (hn : m.NumberedBy P)
    (hM : ∀ j, j < n → P (p + j) M.number) : m'.NumberedBy P := by
  intro o q hq
  by_cases ho : ∃ j, j < n ∧ o = ⟨M.id, p + j⟩
  · obtain ⟨j, hj, rfl⟩ := ho
    obtain ⟨k, -, -, hpage⟩ := h.pages j hj
    obtain rfl := Option.some.inj (hpage.symm.trans hq)
    exact hM j hj
  · rw [h.others o fun j hj heq => ho ⟨j, hj, heq⟩] at hq
    exact hn o q hq

/-- **Every page carries a number that may stand at its place**, as long as this holds of a number that
is given out and no page is registered with another. -/
theorem Step.numberedBy {P : PageNum → Nat → Prop} (h : Step lax m label m')
    (hlabel : label.Unnumbered) (hm : Sound lax m none none) (hzero : ∀ v, P v 0)
    (hnew : m.nextMapping < m'.nextMapping → ∀ v, P v m.nextMapping) (hn : m.NumberedBy P) :
    m'.NumberedBy P := by
  have hstays : ∀ {m' : Machine}, m'.spaces = m.spaces → m'.NumberedBy P := fun hspaces o p hp =>
    hn o p (Machine.page?_congr hspaces o ▸ hp)
  cases h with
  | outside h => exact hstays rfl
  | ask hop h =>
    rename_i op outcome
    by_cases hmap : ∃ id va length writable handle offset, op = .map id va length writable handle offset
    · obtain ⟨id, va, length, writable, handle, offset, rfl⟩ := hmap
      have hmeets : Action.Meets (fun _ _ => True) _ m _ _ :=
        Operation.meets_map m id va length writable handle offset
      cases h with
      | ok h =>
        obtain ⟨-, hlaid, hnumber⟩ := hmeets.of_ok h
        exact hlaid.numberedBy hn fun j _ => hnew (hnumber ▸ Nat.lt_succ_self _) _
      | refused h =>
        obtain rfl := hmeets.of_refused h
        exact hstays rfl
      | reported h hevent => cases hevent
    · obtain ⟨ks, hks, htrace⟩ := ((Step.ask hop h).tells hm).told.moves hm.books
      intro o p hp
      rw [← Page.mapping_located m'.backing.files p]
      refine htrace.mapping_of hm.books hzero (fun o w t g hk => ?_) (fun o p hp => ?_)
        (Machine.page_ledger_of_page? hp)
      · rw [(hks.does _ hk).mapping_eq_zero (fun _ _ _ _ _ _ h => hmap ⟨_, _, _, _, _, _, h⟩) hlabel]
        exact hzero _
      · obtain ⟨q, hq, rfl⟩ := Option.map_eq_some_iff.mp hp
        rw [Page.mapping_located]
        exact hn o q hq

/-- **Every page has a number that was given out**, as long as no other is registered with one. -/
theorem Step.numbers (h : Step lax m label m') (hlabel : label.Unnumbered) (hm : Sound lax m none none)
    (hn : m.Numbers) : m'.Numbers :=
  h.numberedBy (P := fun _ k => k < m'.nextMapping) hlabel hm
    (fun _ => Nat.lt_of_lt_of_le hm.kept.numbers h.number_le) (fun hlt _ => hlt)
    fun o p hp => Nat.lt_of_lt_of_le (hn o p hp) h.number_le

theorem RunWith.numberedBy {P : PageNum → Nat → Prop} {Q : Machine → Label → Machine → Prop}
    {m₀ : Machine} (h : RunWith Q lax m₀ labels m) (hQ : ∀ {a label b}, Q a label b → label.Unnumbered)
    (hm : Sound lax m₀ none none) (hzero : ∀ v, P v 0)
    (hnew : ∀ k, m₀.nextMapping ≤ k → ∀ v, P v k) (hn : m₀.NumberedBy P) : m.NumberedBy P := by
  induction h with
  | refl => exact hn
  | step h hs hlabel ih =>
    exact hs.numberedBy (hQ hlabel) (h.run.sound hm) hzero (fun _ => hnew _ h.run.number_le) ih

theorem RunWith.numbers {m₀ : Machine} (h : RunWith (fun _ label _ => label.Unnumbered) lax m₀ labels m)
    (hm : Sound lax m₀ none none) (hn : m₀.Numbers) : m.Numbers := by
  induction h with
  | refl => exact hn
  | step h hs hlabel ih => exact hs.numbers hlabel (h.run.sound hm) ih

theorem Machine.numbers_start (config : Config) (disk : Disk) (files : FileStore) :
    (Machine.start config disk files).Numbers := fun o p hp => by
  rw [Machine.page?_start] at hp
  cases hp

end

/-! ## Mapping a file -/

section

variable {lax : Tolerance} {m m' : Machine} {labels : List Label} {config : Config} {disk : Disk}
  {files : FileStore}

/-- **The windows of a mapping tile the mapped part of the file.** -/
theorem FileMapping.tiles {M : FileMapping} (hsize : M.size ≤ M.length) (k : Nat) :
    (∃ j, j < (M.length + (pageSize - 1)) / pageSize ∧ (M.windowAt j).Contains M.file k) ↔ M.Maps k := by
  refine ⟨fun ⟨j, _, h⟩ => (FileMapping.windowAt_contains h).1, fun ⟨hlow, hhigh⟩ => ?_⟩
  refine ⟨(k - M.offset) / pageSize, ?_, rfl, ?_, ?_⟩
  all_goals
    simp only [windowAt, pageSize]
    omega

/-- **Mapping a file is all or nothing.** -/
theorem RunWith.maps (hframes : config.userFrames ≤ Entry.frameLimit)
    (hrun : RunWith (fun _ label _ => label.Unnumbered) lax (Machine.start config disk files) labels m)
    (id : SpaceId) (va : Address) (length : Nat) (writable : Bool) (handle : HandleNum) (offset : Nat) :
    let M := m.mappingOf id va length handle offset
    ((∃ m', Machine.mapFile id va length writable handle offset m = .ok va m') ↔
      m.MayMap id va length handle offset) ∧
    (∀ failure m', Machine.mapFile id va length writable handle offset m = .error failure m' →
      (∃ cause, failure = .refused cause) ∧ m' = { m with nextMapping := m.nextMapping + 1 }) ∧
    ∀ a m', Machine.mapFile id va length writable handle offset m = .ok a m' →
      a = va ∧ M.Laid writable va.page ((length + (pageSize - 1)) / pageSize) m m' ∧
      (∀ k, (∃ j, j < (length + (pageSize - 1)) / pageSize ∧ (M.windowAt j).Contains M.file k) ↔
        offset ≤ k ∧ k < offset + M.size) ∧
      (∀ i j k, (M.windowAt i).Contains M.file k → (M.windowAt j).Contains M.file k → i = j) ∧
      M.number ≠ 0 ∧ (∀ o p, m.page? o = some p → p.mapping ≠ M.number) ∧
      ∀ labels' m₁ id' va' length' writable' handle' offset' a' m₂, Run lax m' labels' m₁ →
        Machine.mapFile id' va' length' writable' handle' offset' m₁ = .ok a' m₂ →
        ∀ o p, m₁.page? o = none → m₂.page? o = some p → p.mapping ≠ M.number := by
  intro M
  have hm : Sound lax m none none := hrun.run.sound (Machine.sound_start disk files hframes)
  have hnumbers : m.Numbers := hrun.numbers (Machine.sound_start disk files hframes)
    (Machine.numbers_start config disk files)
  have hmeets : Action.Meets (fun _ _ => False) (Machine.mapFile id va length writable handle offset) m _ _ :=
    Machine.meets_mapFile_laid m id va length writable handle offset
  have hnumber := Machine.meets_mapFile_number id va length writable handle offset m
  refine ⟨⟨fun ⟨m', h⟩ => (hmeets.of_ok h).2.1, fun hmay => ?_⟩, fun failure m' h => ?_, fun a m' h => ?_⟩
  · obtain ⟨a, m', hok, rfl, -⟩ := ((hmeets.mono (fun a m' h => h) fun _ _ h => h.1 hmay)).exists_ok
    exact ⟨m', hok⟩
  · cases failure with
    | fatal broken => exact (hmeets.of_fatal h).elim
    | refused cause => exact ⟨⟨cause, rfl⟩, (hmeets.of_refused h).2⟩
  · obtain ⟨rfl, hmay, hlaid⟩ := hmeets.of_ok h
    refine ⟨rfl, hlaid, @FileMapping.tiles M (Nat.min_le_left _ _), fun i j k hi hj => ?_,
      Nat.pos_iff_ne_zero.mp hm.kept.numbers, fun o p hp => Nat.ne_of_lt (hnumbers o p hp), ?_⟩
    · rw [(FileMapping.windowAt_contains hi).2, (FileMapping.windowAt_contains hj).2]
    · intro labels' m₁ id' va' length' writable' handle' offset' a' m₂ hrun' h' o p hnone hp
      have hlater : m.nextMapping < m₁.nextMapping :=
        Nat.lt_of_lt_of_le (hnumber.of_ok h ▸ Nat.lt_succ_self _) hrun'.number_le
      have hlaid' := ((@Machine.meets_mapFile_laid (fun _ _ => True) m₁ id' va' length' writable' handle'
        offset').of_ok h').2.2
      by_cases ho : ∃ j, j < (length' + (pageSize - 1)) / pageSize ∧ o = ⟨id', va'.page + j⟩
      · obtain ⟨j, hj, rfl⟩ := ho
        obtain ⟨k, -, -, hpage⟩ := hlaid'.pages j hj
        obtain rfl := Option.some.inj (hpage.symm.trans hp)
        exact Nat.ne_of_gt hlater
      · rw [hlaid'.others o fun j hj heq => ho ⟨j, hj, heq⟩, hnone] at hp
        cases hp

/-- A file of one page that is mapped already is mapped once more, with a page beyond its end. -/
theorem RunWith.maps_twice : ∃ labels m m',
    RunWith (fun _ label _ => label.Unnumbered) .all Machine.withFile labels m ∧
    (m.page? ⟨0, 8⟩).map Page.mapping = some 1 ∧
    Machine.mapFile 0 ⟨0x1000⟩ 8192 true 0 0 m = .ok ⟨0x1000⟩ m' ∧
    (m.mappingOf 0 ⟨0x1000⟩ 8192 0 0).Laid true 1 2 m m' ∧
    ∀ o p, m.page? o = some p → p.mapping ≠ m.nextMapping := by
  have h : (Machine.withFile.carryWith (fun _ label _ => label.isUnnumbered)
      [.create, .map 0 ⟨0x8000⟩ 1 false 0 0]).any (fun r =>
      decide ((r.2.page? ⟨0, 8⟩).map Page.mapping = some 1) &&
      ((Machine.mapFile 0 ⟨0x1000⟩ 8192 true 0 0).result? r.2).isSome) = true := by decide +kernel
  obtain ⟨⟨labels, m⟩, hrun, hrest⟩ := Machine.exists_runWith (P := fun _ label _ => label.Unnumbered)
    (Operation.carryable_all _)
    (fun _ _ _ _ => Label.unnumbered_of_isUnnumbered) h
  obtain ⟨hmapping, hmapped⟩ := Bool.and_eq_true_iff.mp hrest
  obtain ⟨a, m', hok⟩ := Action.exists_ok_of_isSome hmapped
  obtain ⟨-, -, hlaid⟩ := RunWith.maps (by decide) hrun 0 ⟨0x1000⟩ 8192 true 0 0
  obtain ⟨rfl, hlaid, -, -, -, hnumbers, -⟩ := hlaid a m' hok
  exact ⟨labels, m, m', hrun, of_decide_eq_true hmapping, hok, hlaid, hnumbers⟩

end

end DemandPaging
