import DemandPaging.Machine.Mapping
import DemandPaging.Proofs.Machine.Removal
import DemandPaging.Proofs.Machine.Stack

/-!
# Mapping and unmapping keep the books

Once a mapping passed its checks none of its pages is refused, so nothing has to be undone. Every
window of a mapping lies in its file.
-/

namespace DemandPaging

namespace Machine

variable {lax : Tolerance} {m m' : Machine} {id : SpaceId} {va : Address} {vpn : PageNum}
  {writable : Bool} {handle : HandleNum} {mapping length offset remaining size : Nat}
  {config : Config}

/-! ## Checking a mapping -/

/-- What a mapping that passes the checks is like. -/
structure Checked (va : Address) (length offset size : Nat) (stop : Address) : Prop where
  stop_eq : stop = .ofNat (va.toNat + length)
  fits : va.toNat + length < UInt64.size
  inside : offset < size
  aligned : va.offset = 0

theorem mappingEnd_ok {stop : Address} (h : mappingEnd config va length = .ok stop) :
    stop = .ofNat (va.toNat + length) ∧ va.toNat + length < UInt64.size := by
  unfold mappingEnd at h
  dsimp only at h
  split at h
  · rename_i hfits
    exact ⟨(Except.ok.inj h).symm, hfits.1⟩
  · cases h

theorem checkMapping_ok {stop : Address}
    (h : checkMapping config va length offset size = .ok stop) :
    Checked va length offset size stop := by
  unfold checkMapping at h
  simp only [bind, Except.bind, pure, Except.pure, throw, throwThe, MonadExceptOf.throw] at h
  repeat' split at h
  all_goals cases h
  rename_i halign _ _ _ _ hinside hend
  obtain ⟨hstop, hfits⟩ := mappingEnd_ok hend
  refine ⟨hstop, hfits, Nat.lt_of_not_le hinside, ?_⟩
  simpa [Address.isAligned] using (not_or.mp (mt Bool.or_eq_true_iff.mpr halign)).2

/-- A mapping is refused for the request, not for the state of the machine. -/
theorem checkMapping_error {cause : Refusal}
    (h : checkMapping config va length offset size = .error cause) :
    ¬cause.isInternal = true := by
  unfold checkMapping mappingEnd at h
  simp only [bind, Except.bind, pure, Except.pure, throw, throwThe, MonadExceptOf.throw] at h
  repeat' split at h
  all_goals cases h
  all_goals try exact Bool.false_ne_true
  rename_i hend
  split at hend <;> cases hend
  exact Bool.false_ne_true

/-- The pages a checked mapping covers. -/
theorem Checked.page_le {stop : Address} (h : Checked va length offset size stop) :
    va.page ≤ stop.pageAbove := by
  have hstop : stop.toNat = va.toNat + length := by
    rw [h.stop_eq]
    exact Address.toNat_ofNat h.fits
  show va.toNat / 4096 ≤ (stop.toNat + 4095) / 4096
  omega

/-! ## Registering the pages of a mapping -/

/-- A mapping may be made from the file behind `handle`. -/
structure Mappable (lax : Tolerance) (files : FileStore) (handle : HandleNum)
    (offset remaining : Nat) : Prop where
  opened : handle < files.handles.size
  room : (∀ inode offset, lax (.shortWriteBack inode offset)) ∨
    ((files.fileOf handle).grows = false →
      offset + remaining ≤ (files.fileOf handle).size ∧ pageSize ≤ (files.fileOf handle).writeCap)

/-- The window of the next page can be used. -/
theorem Mappable.usable {files : FileStore} (h : Mappable lax files handle offset remaining) :
    FileWindow.Usable lax
      { handle := (files.reopen handle).1, offset, readBytes := min remaining pageSize,
        zeroBytes := pageSize - min remaining pageSize, mapping }
      (files.reopen handle).2 := by
  have hopened : (files.reopen handle).1 < (files.reopen handle).2.handles.size := by
    simp [FileStore.reopen]
  refine ⟨hopened, Or.inr (Nat.min_le_right _ _), h.room.imp_right fun hroom hg => ?_⟩
  have hfile : (files.reopen handle).2.fileOf (files.reopen handle).1 = files.fileOf handle := by
    rw [FileStore.fileOf, FileStore.file_handle_reopen]
    rfl
  rw [hfile] at hg ⊢
  obtain ⟨hsize, hcap⟩ := hroom hg
  dsimp only
  omega

theorem Mappable.next {files : FileStore} (h : Mappable lax files handle offset remaining) :
    Mappable lax (files.reopen handle).2 handle (offset + min remaining pageSize)
      (remaining - min remaining pageSize) := by
  have hext := files.extends_reopen handle
  have hfile : (files.reopen handle).2.fileOf handle = files.fileOf handle := by
    rw [FileStore.fileOf, hext.stays _ h.opened]
    rfl
  refine ⟨Nat.lt_of_lt_of_le h.opened hext.handles, h.room.imp_right fun hroom hg => ?_⟩
  rw [hfile] at hg ⊢
  obtain ⟨hsize, hcap⟩ := hroom hg
  omega

/-- **Registering the pages of a mapping** is not refused. -/
theorem meets_mapPages {start : PageNum} {R : Refusal → Machine → Prop} :
    ∀ {vs : List PageNum} {offset remaining : Nat} {m : Machine}, vs.Nodup →
      (∀ v ∈ vs, v < PageNum.limit ∧ m.page? ⟨id, v⟩ = none) → (m.floorAt? id).isSome →
      Mappable lax m.backing.files handle offset remaining → Sound lax m none none →
      Action.Meets (Breaking lax) (mapPages id writable handle mapping start vs offset remaining) m
        (fun _ m' => Reaches lax (Ledger.Trace (Layout.mapKinds id writable
          (m.backing.files.handle handle).file mapping vs offset remaining)) m m') R
  | [], _, _, m, _, _, _, _, hm => .refl hm
  | v :: vs, offset, remaining, m, hnodup, hvs, hlive, hmap, hm => by
    obtain ⟨hv, hnodup⟩ := List.nodup_cons.mp hnodup
    obtain ⟨hlimit, hfree⟩ := hvs v List.mem_cons_self
    have hbase : (PageNum.base v).page = v := PageNum.page_base hlimit
    have hext := m.backing.files.extends_reopen handle
    have hledger : _ = m.ledger none none := hm.kept.ledger_withFiles hext rfl
    have hm₁ : Sound lax { m with
        backing := { m.backing with files := (m.backing.files.reopen handle).2 } } none none :=
      ⟨hledger.symm ▸ hm.books, hm.kept.withFiles hext⟩
    have horigin : Available lax
        { m.backing with files := (m.backing.files.reopen handle).2 } (.file
          { handle := (m.backing.files.reopen handle).1, offset,
            readBytes := min remaining pageSize, zeroBytes := pageSize - min remaining pageSize,
            mapping }) :=
      ⟨nofun, fun w hw => Origin.file.inj hw ▸ hmap.usable⟩
    unfold mapPages reopen
    rw [Action.meets_bind, Action.meets_modifyGet]
    dsimp only
    rw [Action.meets_bind, Action.meets_attempt]
    refine (meets_register_of_free (R := fun _ _ => False) hm₁ horigin (fun _ => ⟨_, rfl⟩) hlive
      (by rw [hbase]; exact hfree)).mono (fun _ m₂ h₂ => ?_) fun _ _ h => h.elim
    obtain ⟨hbacking, hkept, htold⟩ := h₂
    rw [hledger, hbase] at htold
    have hlayout := htold.layout
    have hfloor : m₂.floorAt? = m.floorAt? := congrArg Layout.floor hlayout
    have hstays := hext.stays _ hmap.opened
    refine (meets_mapPages hnodup (fun x hx => ⟨(hvs x (List.mem_cons_of_mem v hx)).1, ?_⟩)
      (hfloor ▸ hlive) (hbacking ▸ hmap.next) ⟨htold.sound hm.books, hkept⟩).mono
      (fun _ m₃ h₃ => ?_) fun _ _ h => h
    · have hne : x ≠ v := fun h => hv (h ▸ hx)
      have hregistered := congrFun (congrArg Layout.registered hlayout) ⟨id, x⟩
      rw [registered_ledger] at hregistered
      simpa [Layout.after, hne, (hvs x (List.mem_cons_of_mem v hx)).2] using hregistered
    · rw [hbacking, hstays] at h₃
      rw [Origin.located, FileWindow.located, FileStore.file_handle_reopen] at htold
      exact Reaches.trans (.single hkept htold) h₃

/-- The pages an aligned mapping covers. -/
def mappedPages (va : Address) (length : Nat) : List PageNum :=
  List.range' va.page ((Address.ofNat (va.toNat + length)).pageAbove - va.page)

/-- What mapping a file did: none of its pages was registered, and they tile the part of the file
that is mapped. -/
structure Mapped (lax : Tolerance) (m m' : Machine) (id : SpaceId) (va : Address) (length : Nat)
    (writable : Bool) (handle : HandleNum) (offset : Nat) : Prop where
  checked : Checked va length offset (m.backing.files.fileOf handle).size
    (.ofNat (va.toNat + length))
  free : ∀ v ∈ mappedPages va length, m.page? ⟨id, v⟩ = none
  reaches : Reaches lax (Ledger.Trace (Layout.mapKinds id writable
    (m.backing.files.handle handle).file m.nextMapping (mappedPages va length) offset
    (min length ((m.backing.files.fileOf handle).size - offset)))) m m'

/-- **Mapping a file.** A refusal changes no page. -/
theorem meets_mapFile (hm : Sound lax m none none) (hopen : handle < m.backing.files.handles.size)
    (htakes : (∀ inode offset, lax (.shortWriteBack inode offset)) ∨
      ((m.backing.files.fileOf handle).grows = false →
        pageSize ≤ (m.backing.files.fileOf handle).writeCap)) :
    Action.Meets (Breaking lax) (mapFile id va length writable handle offset) m
      (fun a m' => a = va ∧ Mapped lax m m' id va length writable handle offset)
      (fun cause m' => Reaches lax Ledger.Shifts m m' ∧
        (cause.isInternal = true → m.floorAt? id = none)) := by
  have hidle := Idle.count m m.counters (Nat.le_succ m.nextMapping)
  have hreach := Reaches.of_idle hm hidle
  have hm₁ := hidle.sound hm
  unfold mapFile
  rw [Action.meets_bind, Action.meets_modifyGet, Action.meets_bind, Action.meets_get]
  dsimp only
  rw [Action.meets_bind, Action.meets_permit]
  refine ⟨fun stop hstop => ?_, fun cause hcause =>
    ⟨hreach, fun hc => absurd hc (checkMapping_error hcause)⟩⟩
  have hchecked := checkMapping_ok hstop
  have hrange : PageRange.between va.page stop.pageAbove =
      .ok ⟨va.page, stop.pageAbove, hchecked.page_le⟩ := dif_pos hchecked.page_le
  rw [hrange]
  show Action.Meets (Breaking lax) (space id >>= fun _ => _) _ _ _
  rw [Action.meets_bind]
  refine (meets_space _ id).mono ?_ ?_
  · rintro space _ ⟨rfl, hspace⟩
    split
    · exact ⟨hreach, fun hc => by cases hc⟩
    · rename_i hfind
      have hfree : ∀ v ∈ List.range' va.page (stop.pageAbove - va.page),
          v < PageNum.limit ∧ m.page? ⟨id, v⟩ = none := fun v hv => by
        obtain ⟨hlow, hhigh⟩ := List.mem_range'_1.mp hv
        rw [Nat.add_sub_of_le hchecked.page_le] at hhigh
        refine ⟨Nat.lt_of_lt_of_le hhigh stop.pageAbove_le, ?_⟩
        refine (page?_eq m ⟨id, v⟩).trans ?_
        rw [show m.spaces[id]? = some space from hspace]
        refine Option.not_isSome_iff_eq_none.mp fun hget =>
          List.find?_eq_none.mp hfind v (Registry.mem_vpns.mpr hget) ?_
        simp [PageRange.contains, hlow, hhigh]
      have hinside := hchecked.inside
      rw [Action.meets_bind]
      refine (meets_mapPages (m := { m with nextMapping := m.nextMapping + 1 })
        List.nodup_range' hfree (by rw [floorAt?, hspace]; rfl)
        ⟨hopen, htakes.imp_right fun h hg => ⟨?_, h hg⟩⟩ hm₁).mono
        (fun _ m₂ h₂ => ?_) fun _ _ h => h
      · show offset + min length ((m.backing.files.fileOf handle).size - offset) ≤
          (m.backing.files.fileOf handle).size
        omega
      have hnoted := Idle.note m₂ (.mapped id
        (m.backing.files.fileOf handle).inode va stop m.nextMapping) rfl
      have hledger : _ = m.ledger none none := hidle.ledger
      obtain rfl := hchecked.stop_eq
      exact ⟨rfl, hchecked, fun v hv => (hfree v hv).2,
        Reaches.idle ⟨h₂.kept, hledger ▸ h₂.told⟩ hnoted⟩
  · rintro cause _ ⟨rfl, hnone⟩
    exact ⟨hreach, fun _ => hnone⟩

/-! ## Unmapping -/

/-- There are no more pages in a row than there are pages. -/
theorem le_size_of_run {registry : Registry} (vpn : PageNum) {n : Nat}
    (h : ∀ v ∈ List.range' vpn n, (registry.get? v).isSome) : n ≤ registry.size := by
  have hsub : List.range' vpn n ⊆ registry.vpns := fun v hv => Registry.mem_vpns.mpr (h v hv)
  have hle := (List.subperm_of_subset List.nodup_range' hsub).length_le
  rwa [List.length_range', Registry.vpns, Std.ExtTreeMap.length_keys] at hle

/-- The run is a run of pages of the mapping, and goes on as far as there are any. -/
theorem mappedRun_eq (registry : Registry) (mapping : Nat) (vpn : PageNum) :
    ∃ n, mappedRun registry mapping vpn = List.range' vpn n ∧
      (∀ v ∈ List.range' vpn n, ∃ p, registry.get? v = some p ∧ p.mapping = mapping) ∧
      ∀ p, registry.get? (vpn + n) = some p → p.mapping ≠ mapping := by
  have hsplit : List.range' vpn registry.size = mappedRun registry mapping vpn ++ _ :=
    List.takeWhile_append_dropWhile.symm
  obtain ⟨n, hn, hrun, hrest⟩ := List.range'_eq_append_iff.mp hsplit
  have hall : ∀ v ∈ List.range' vpn n, ∃ p, registry.get? v = some p ∧ p.mapping = mapping := by
    intro v hv
    rw [← hrun] at hv
    obtain ⟨p, hp, hmapping⟩ := (Option.any_eq_true ..).mp
      (List.all_eq_true.mp List.all_takeWhile v hv)
    exact ⟨p, hp, beq_iff_eq.mp hmapping⟩
  refine ⟨n, hrun, hall, fun p hp hmapping => ?_⟩
  -- If all of the run was taken, the page after it would be one more than there are.
  have hlt : n < registry.size := by
    refine le_size_of_run vpn fun v hv => ?_
    rw [List.range'_concat, List.mem_append, List.mem_singleton, Nat.one_mul] at hv
    rcases hv with hv | rfl
    · obtain ⟨q, hq, -⟩ := hall v hv
      rw [hq]
      rfl
    · rw [hp]
      rfl
  have hhead := List.head?_dropWhile_not
    (fun vpn => (registry.get? vpn).any (·.mapping == mapping)) (List.range' vpn registry.size)
  rw [hrest] at hhead
  obtain ⟨k, hk⟩ := Nat.exists_eq_succ_of_ne_zero (Nat.sub_ne_zero_of_lt hlt)
  rw [hk, Nat.mul_one, List.range'_succ] at hhead
  simp [hp, hmapping] at hhead

/-- The number of the mapping a page of a space is in, zero if it is in none. -/
def mappingAt (m : Machine) (id : SpaceId) (v : PageNum) : Option Nat :=
  (m.page? ⟨id, v⟩).map Page.mapping

/-- A mapping starts at a page: the page is in it, and the page before is not. -/
structure StartsMapping (m : Machine) (id : SpaceId) (v : PageNum) (k : Nat) : Prop where
  ne_zero : k ≠ 0
  first : m.mappingAt id v = some k
  before : 0 < v → m.mappingAt id (v - 1) ≠ some k

/-- The `n` pages from a page on, and no more, are in a mapping. -/
structure MappingRun (m : Machine) (id : SpaceId) (v : PageNum) (k n : Nat) : Prop where
  pages : ∀ j < n, m.mappingAt id (v + j) = some k
  stop : m.mappingAt id (v + n) ≠ some k

section

variable {k n n' : Nat} {v : PageNum}

theorem mappingAt_eq {space : AddressSpace} (hspace : m.spaces[id]? = some space) (v : PageNum) :
    m.mappingAt id v = (space.registry.get? v).map Page.mapping := by
  rw [mappingAt, page?_eq, hspace]
  rfl

theorem mappingAt_ledger : ((m.ledger none none).page ⟨id, v⟩).map Page.mapping = m.mappingAt id v := by
  rw [page_ledger, Option.map_map]
  exact congrArg (fun F => (m.page? ⟨id, v⟩).map F) (funext fun p => Page.mapping_located _ p)

/-- Where a mapping starts can be told from the ledger. -/
theorem startsMapping_ledger :
    (m.ledger none none).StartsMapping id va k ↔ m.StartsMapping id va.page k := by
  have hat : ∀ v, (∃ p, (m.ledger none none).page ⟨id, v⟩ = some p ∧ p.mapping = k) ↔
      m.mappingAt id v = some k := fun v => by rw [← mappingAt_ledger, Option.map_eq_some_iff]
  refine ⟨fun ⟨hne, hfirst, hbefore⟩ => ⟨hne, (hat _).mp hfirst, fun hpos h => ?_⟩,
    fun h => ⟨h.ne_zero, (hat _).mpr h.first, fun p hpos hp hk => h.before hpos ((hat _).mp ⟨p, hp, hk⟩)⟩⟩
  obtain ⟨p, hp, hk⟩ := (hat _).mpr h
  exact hbefore p hpos hp hk

/-- The run of a mapping has one length. -/
theorem MappingRun.length_eq (h : m.MappingRun id v k n) (h' : m.MappingRun id v k n') : n = n' :=
  Nat.le_antisymm (Nat.le_of_not_lt fun hlt => h'.stop (h.pages n' hlt))
    (Nat.le_of_not_lt fun hlt => h.stop (h'.pages n hlt))

theorem MappingRun.mappingAt_eq (h : m.MappingRun id v k n) {x : PageNum} (hx : x ∈ List.range' v n) :
    m.mappingAt id x = some k := by
  obtain ⟨hlow, hhigh⟩ := List.mem_range'_1.mp hx
  obtain ⟨j, rfl⟩ := Nat.exists_eq_add_of_le hlow
  exact h.pages j (Nat.lt_of_add_lt_add_left hhigh)

theorem MappingRun.isSome_page? (h : m.MappingRun id v k n) {x : PageNum} (hx : x ∈ List.range' v n) :
    (m.page? ⟨id, x⟩).isSome := by
  obtain ⟨p, hp, -⟩ := Option.map_eq_some_iff.mp (h.mappingAt_eq hx)
  rw [hp]
  rfl

/-- What is unmapped is the run. -/
theorem exists_mappingRun {space : AddressSpace} (hspace : m.spaces[id]? = some space) (k : Nat)
    (v : PageNum) :
    ∃ n, mappedRun space.registry k v = List.range' v n ∧ m.MappingRun id v k n := by
  obtain ⟨n, hn, hrun, hstop⟩ := mappedRun_eq space.registry k v
  refine ⟨n, hn, fun j hj => ?_, fun h => ?_⟩
  · obtain ⟨p, hp, hpk⟩ := hrun (v + j) (List.mem_range'_1.mpr
      ⟨Nat.le_add_right _ _, Nat.add_lt_add_left hj _⟩)
    rw [mappingAt_eq hspace, hp, ← hpk]
    rfl
  · rw [mappingAt_eq hspace] at h
    obtain ⟨p, hp, hpk⟩ := Option.map_eq_some_iff.mp h
    exact hstop p hp hpk

end

/-- Nothing but the journal has changed, and it tells of no page that came into a frame. -/
structure Noted (m m' : Machine) : Prop where
  idle : Idle m m'
  rest : ∃ journal, m' = { m with journal }

theorem Noted.refl (m : Machine) : Noted m m := ⟨.refl m, m.journal, rfl⟩

theorem Noted.note (m : Machine) (event : Event) (h : event.isPlacing = false) :
    Noted m { m with journal := m.journal.push event } := ⟨.note m event h, _, rfl⟩

/-- **What unmapping does**: the pages of the run that starts at the address are removed in turn, or
nothing is done. It is not refused unless one of them is refused. -/
theorem meets_unmap_of {F : Violation → Machine → Prop} {Q : Unit → Machine → Prop}
    {R : Refusal → Machine → Prop}
    (hrun : ∀ k n, m.StartsMapping id va.page k → m.MappingRun id va.page k n →
      Action.Meets F ((List.range' va.page n).forM fun v => removePage ⟨id, v⟩ true) m
        (fun _ m₁ => ∀ m', Noted m₁ m' → Q () m') (fun _ _ => False))
    (hnone : (∀ k, ¬m.StartsMapping id va.page k) → ∀ m', Noted m m' → Q () m') :
    Action.Meets F (unmap id va) m Q R := by
  unfold unmap unmapRun
  rw [Action.meets_bind, Action.meets_attempt, Action.meets_bind]
  refine (meets_space m id).mono ?_ ?_
  · rintro space m ⟨rfl, hspace⟩
    have hat := mappingAt_eq hspace
    dsimp only
    generalize hnumber : ((space.registry.get? va.page).map Page.mapping).getD 0 = k
    rw [← hat] at hnumber
    have hfirst : k ≠ 0 → m.mappingAt id va.page = some k := fun hk => by
      cases h : m.mappingAt id va.page with
      | none =>
        rw [h] at hnumber
        exact absurd hnumber.symm hk
      | some k' =>
        rw [h] at hnumber
        exact congrArg some hnumber
    have honly : ∀ {k'}, m.StartsMapping id va.page k' → k' = k := fun {k'} h => by
      rw [← hnumber, h.first]
      rfl
    have hinside : (decide (0 < va.page) &&
        (space.registry.get? (va.page - 1)).any (·.mapping == k)) = true ↔
        0 < va.page ∧ m.mappingAt id (va.page - 1) = some k := by
      rw [hat]
      cases space.registry.get? (va.page - 1) <;> simp
    rw [Action.meets_ite]
    refine ⟨fun hzero => hnone (fun k' h => h.ne_zero ((honly h).trans hzero)) _ (.refl m), fun hk => ?_⟩
    rw [Action.meets_ite, hinside]
    refine ⟨fun ⟨hpos, hbefore⟩ => hnone (fun k' h => ?_) _ (.note m _ rfl), fun hbefore => ?_⟩
    · exact h.before hpos (honly h ▸ hbefore)
    · obtain ⟨n, hn, hmapping⟩ := exists_mappingRun hspace k va.page
      have hstart : m.StartsMapping id va.page k :=
        ⟨hk, hfirst hk, fun hpos hsame => hbefore ⟨hpos, hsame⟩⟩
      rw [hn, Action.meets_bind]
      exact (hrun k n hstart hmapping).mono (fun _ m₁ h => h _ (.note m₁ _ rfl)) fun _ _ h => h.elim
  · rintro cause m ⟨rfl, habsent⟩
    refine hnone (fun k h => ?_) _ (.note m _ rfl)
    obtain ⟨p, hp, -⟩ := Option.map_eq_some_iff.mp h.first
    obtain ⟨space, hspace, -⟩ := floorAt?_of_page? hp
    rw [floorAt?, hspace] at habsent
    cases habsent

/-- **Unmapping** is not refused, and removes a run of pages of one mapping or nothing. -/
theorem meets_unmap {R : Refusal → Machine → Prop} (hm : Sound lax m none none) :
    Action.Meets (Breaking lax) (unmap id va) m
      (fun _ m' => Reaches lax (Ledger.Unmaps id va) m m') R := by
  refine meets_unmap_of (fun k n hk hn => ?_) fun hnone m' h =>
    ⟨h.idle.kept hm.kept, .stays (fun k hk => hnone k (startsMapping_ledger.mp hk))
      (Reaches.of_idle hm h.idle).told⟩
  refine (meets_forM_leave (I := fun _ => True) id true (fun m v hm _ hv => ?_) List.nodup_range'
    (fun v hv => hn.isSome_page? hv) hm trivial).mono (fun _ m₁ h m' hnoted => ?_) fun _ _ h => h
  · refine (meets_removePage hm ⟨id, v⟩ true).mono (fun _ _ h => ⟨h.1, trivial⟩) fun _ _ h => ?_
    rw [h.2.1] at hv
    cases hv
  · refine Reaches.idle ⟨h.1.kept, .run (startsMapping_ledger.mpr hk) (fun v hv => ?_) (fun p hp hpk => ?_)
      h.1.told⟩ hnoted.idle
    · exact Option.map_eq_some_iff.mp (mappingAt_ledger.trans (hn.mappingAt_eq hv))
    · exact hn.stop (mappingAt_ledger.symm.trans (Option.map_eq_some_iff.mpr ⟨p, hp, hpk⟩))

end Machine

end DemandPaging
