import DemandPaging.IdPool
import DemandPaging.Memory.FramePool
import Std.Data.ExtTreeMap.Lemmas
import Mathlib.Data.List.Perm.Subperm

/-!
# Pools hand nothing out twice

The identity pool and the frame pool keep a stack of what was given back. What is handed out is
implicit: below the next fresh number and not on the stack (`IdPool.Live`, `FramePool.Held`). While
the stack has no duplicates and stays below that number (`Valid`), taking hands out something that
was free, giving back what is handed out never fails, and both change nothing else.
-/

namespace DemandPaging

namespace IdPool

/-- Handed out and not given back since. -/
def Live (pool : IdPool) (id : Nat) : Prop := id < pool.next ∧ id ∉ pool.recycled

/-- Identities on the stack were handed out, and none is there twice. -/
structure Valid (pool : IdPool) : Prop where
  nodup : pool.recycled.Nodup
  below : ∀ id ∈ pool.recycled, id < pool.next

theorem valid_empty : ({} : IdPool).Valid := ⟨List.nodup_nil, nofun⟩

/-- In an unused pool nothing is handed out. -/
theorem not_live_empty (id : Nat) : ¬({} : IdPool).Live id := fun h => Nat.not_lt_zero id h.1

/-- What is taken was free, and nothing else changes. -/
theorem Valid.take {pool : IdPool} (h : pool.Valid) :
    pool.take.2.Valid ∧ ¬pool.Live pool.take.1 ∧
      ∀ id, pool.take.2.Live id ↔ pool.Live id ∨ id = pool.take.1 := by
  obtain ⟨next, recycled⟩ := pool
  unfold IdPool.take
  cases recycled with
  | nil =>
    refine ⟨⟨List.nodup_nil, nofun⟩, fun hl => Nat.lt_irrefl _ hl.1, fun id => ?_⟩
    simp only [Live, List.not_mem_nil, not_false_eq_true, and_true]
    omega
  | cons head rest =>
    obtain ⟨hhead, hrest⟩ := List.nodup_cons.mp h.nodup
    have hlt : head < next := h.below head List.mem_cons_self
    refine ⟨⟨hrest, fun id hid => h.below id (List.mem_cons_of_mem _ hid)⟩,
      fun hl => hl.2 List.mem_cons_self, fun id => ?_⟩
    simp only [Live, List.mem_cons, not_or]
    by_cases hid : id = head
    · subst hid
      exact ⟨fun _ => Or.inr rfl, fun _ => ⟨hlt, hhead⟩⟩
    · simp [hid]

/-- What is handed out can be given back, and nothing else changes. -/
theorem Valid.release {pool : IdPool} (h : pool.Valid) {id : Nat} (hid : pool.Live id) :
    ∃ pool', pool.release id = .ok pool' ∧ pool'.Valid ∧
      ∀ x, pool'.Live x ↔ pool.Live x ∧ x ≠ id := by
  refine ⟨{ pool with recycled := id :: pool.recycled }, ?_, ⟨?_, ?_⟩, fun x => ?_⟩
  · unfold IdPool.release
    rw [if_neg (Nat.not_le.mpr hid.1), if_neg (by simpa using hid.2)]
  · exact List.nodup_cons.mpr ⟨hid.2, h.nodup⟩
  · intro x hx
    rcases List.mem_cons.mp hx with rfl | hx
    · exact hid.1
    · exact h.below x hx
  · simp only [Live, List.mem_cons, not_or]
    tauto

end IdPool

namespace FramePool

/-- Handed out and not given back since. -/
def Held (pool : FramePool) (ppn : FrameNum) : Prop := ppn < pool.fresh ∧ ppn ∉ pool.recycled

/-- Frames on the stack were handed out, none is there twice, and no frame is past the end. -/
structure Valid (pool : FramePool) : Prop where
  nodup : pool.recycled.Nodup
  below : ∀ ppn ∈ pool.recycled, ppn < pool.fresh
  fits : pool.fresh ≤ pool.total

theorem valid_ofSize (total : Nat) : (ofSize total).Valid :=
  ⟨List.nodup_nil, nofun, Nat.zero_le _⟩

/-- In a new pool nothing is handed out. -/
theorem not_held_ofSize (total : Nat) (ppn : FrameNum) : ¬(ofSize total).Held ppn :=
  fun h => Nat.not_lt_zero ppn h.1

theorem Valid.lt_total {pool : FramePool} (h : pool.Valid) {ppn : FrameNum} (hp : pool.Held ppn) :
    ppn < pool.total := Nat.lt_of_lt_of_le hp.1 h.fits

/-! ### Contents -/

@[simp]
theorem total_setBytes (pool : FramePool) (ppn : FrameNum) (b : PageBytes) :
    (pool.setBytes ppn b).total = pool.total := by
  unfold setBytes
  split <;> rfl

@[simp]
theorem fresh_setBytes (pool : FramePool) (ppn : FrameNum) (b : PageBytes) :
    (pool.setBytes ppn b).fresh = pool.fresh := by
  unfold setBytes
  split <;> rfl

@[simp]
theorem recycled_setBytes (pool : FramePool) (ppn : FrameNum) (b : PageBytes) :
    (pool.setBytes ppn b).recycled = pool.recycled := by
  unfold setBytes
  split <;> rfl

/-- Changing a content hands nothing out. -/
@[simp]
theorem held_setBytes (pool : FramePool) (ppn : FrameNum) (b : PageBytes) (x : FrameNum) :
    (pool.setBytes ppn b).Held x ↔ pool.Held x := by
  simp [Held]

theorem Valid.setBytes {pool : FramePool} (h : pool.Valid) (ppn : FrameNum) (b : PageBytes) :
    (pool.setBytes ppn b).Valid :=
  ⟨by simpa using h.nodup, by simpa using h.below, by simpa using h.fits⟩

/-- Changing the content of a frame changes that content alone. -/
theorem bytes?_setBytes (pool : FramePool) (ppn : FrameNum) (b : PageBytes) (x : FrameNum) :
    (pool.setBytes ppn b).bytes? x =
      if ppn = x ∧ ppn < pool.total then some b else pool.bytes? x := by
  unfold bytes?
  rw [total_setBytes]
  by_cases hp : ppn < pool.total
  · simp only [FramePool.setBytes, hp, if_true, and_true, Std.ExtTreeMap.getElem?_insert,
      Nat.compare_eq_eq]
    by_cases hx : ppn = x
    · subst hx
      simp [hp]
    · simp [hx]
  · simp [FramePool.setBytes, hp]

theorem bytes?_isSome {pool : FramePool} {ppn : FrameNum} :
    (pool.bytes? ppn).isSome ↔ ppn < pool.total := by
  unfold bytes?
  split <;> simp_all

theorem exists_bytes? {pool : FramePool} {ppn : FrameNum} (h : ppn < pool.total) :
    ∃ b, pool.bytes? ppn = some b := Option.isSome_iff_exists.mp (bytes?_isSome.mpr h)

theorem total_alloc? {pool pool' : FramePool} {ppn : FrameNum}
    (h : pool.alloc? = some (ppn, pool')) : pool'.total = pool.total := by
  unfold FramePool.alloc? at h
  split at h
  · rw [← (Prod.mk.inj (Option.some.inj h)).2, total_setBytes]
  · split at h
    · cases h
    · rw [← (Prod.mk.inj (Option.some.inj h)).2, total_setBytes]

theorem total_release {pool pool' : FramePool} {ppn : FrameNum}
    (h : pool.release ppn = .ok pool') : pool'.total = pool.total := by
  unfold FramePool.release at h
  split at h
  · cases h
  · rw [← Except.ok.inj h]

theorem total_write {pool pool' : FramePool} {ppn : FrameNum} {start : Nat} {bytes : Bytes}
    (h : pool.write ppn start bytes = .ok pool') : pool'.total = pool.total := by
  unfold FramePool.write at h
  split at h
  · split at h
    · rw [← Except.ok.inj h, total_setBytes]
    · cases h
  · cases h

theorem total_copy {pool pool' : FramePool} {source target : FrameNum}
    (h : pool.copy source target = .ok pool') : pool'.total = pool.total := by
  unfold FramePool.copy at h
  split at h
  · rw [← Except.ok.inj h]
  · split at h
    · rw [← Except.ok.inj h, total_setBytes]
    · cases h

/-- What is taken was free and is zeros, and nothing else changes. -/
theorem Valid.alloc? {pool pool' : FramePool} {ppn : FrameNum} (h : pool.Valid)
    (ha : pool.alloc? = some (ppn, pool')) :
    pool'.Valid ∧ ¬pool.Held ppn ∧ (∀ x, pool'.Held x ↔ pool.Held x ∨ x = ppn) ∧
      pool'.total = pool.total ∧ pool'.bytes? ppn = some .zero ∧
      ∀ x, x ≠ ppn → pool'.bytes? x = pool.bytes? x := by
  obtain ⟨total, contents, fresh, recycled⟩ := pool
  unfold FramePool.alloc? at ha
  cases recycled with
  | nil =>
    simp only at ha
    split at ha
    · cases ha
    · rename_i hne
      have hfits : fresh ≤ total := h.fits
      obtain ⟨rfl, rfl⟩ := Prod.mk.inj (Option.some.inj ha)
      have hlt : fresh < total := Nat.lt_of_le_of_ne hfits hne
      have hbase : Valid ⟨total, contents, fresh + 1, []⟩ :=
        ⟨List.nodup_nil, fun _ hx => absurd hx List.not_mem_nil, hlt⟩
      refine ⟨hbase.setBytes _ _, fun hh => Nat.lt_irrefl _ hh.1, fun x => ?_, by simp, ?_,
        fun x hx => ?_⟩
      · rw [held_setBytes]
        simp only [Held, List.not_mem_nil, not_false_eq_true, and_true]
        exact Nat.lt_succ_iff_lt_or_eq
      · rw [bytes?_setBytes, if_pos ⟨rfl, hlt⟩]
      · rw [bytes?_setBytes, if_neg fun hc => hx hc.1.symm]
        rfl
  | cons head rest =>
    obtain ⟨rfl, rfl⟩ := Prod.mk.inj (Option.some.inj ha)
    obtain ⟨hhead, hrest⟩ := List.nodup_cons.mp h.nodup
    have hbelow : head < fresh := h.below head List.mem_cons_self
    have hlt : head < total := Nat.lt_of_lt_of_le hbelow h.fits
    have hbase : Valid ⟨total, contents, fresh, rest⟩ :=
      ⟨hrest, fun x hx => h.below x (List.mem_cons_of_mem _ hx), h.fits⟩
    refine ⟨hbase.setBytes _ _, fun hh => hh.2 List.mem_cons_self, fun x => ?_, by simp, ?_,
      fun x hx => ?_⟩
    · rw [held_setBytes]
      simp only [Held, List.mem_cons, not_or]
      by_cases hx : x = head
      · subst hx
        exact ⟨fun _ => Or.inr rfl, fun _ => ⟨hbelow, hhead⟩⟩
      · simp [hx]
    · rw [bytes?_setBytes, if_pos ⟨rfl, hlt⟩]
    · rw [bytes?_setBytes, if_neg fun hc => hx hc.1.symm]
      rfl

/-- Nothing can be taken exactly when no frame is free. -/
theorem Valid.alloc?_eq_none {pool : FramePool} (h : pool.Valid) :
    pool.alloc? = none ↔ pool.free = 0 := by
  have hfits := h.fits
  unfold FramePool.alloc? free
  cases pool.recycled with
  | nil =>
    rw [List.length_nil, Nat.add_zero]
    by_cases hall : pool.fresh = pool.total
    · simp [hall]
    · simp only [if_neg hall, reduceCtorEq, false_iff]
      omega
  | cons head rest => simp

/-- What is handed out can be given back, and nothing else changes. -/
theorem Valid.release {pool : FramePool} (h : pool.Valid) {ppn : FrameNum} (hp : pool.Held ppn) :
    ∃ pool', pool.release ppn = .ok pool' ∧ pool'.Valid ∧
      (∀ x, pool'.Held x ↔ pool.Held x ∧ x ≠ ppn) ∧ pool'.total = pool.total ∧
      ∀ x, pool'.bytes? x = pool.bytes? x := by
  refine ⟨{ pool with recycled := ppn :: pool.recycled }, ?_, ⟨?_, ?_, h.fits⟩, fun x => ?_, rfl,
    fun x => rfl⟩
  · unfold FramePool.release
    rw [if_neg (not_or.mpr ⟨Nat.not_le.mpr hp.1, by simpa using hp.2⟩)]
  · exact List.nodup_cons.mpr ⟨hp.2, h.nodup⟩
  · intro x hx
    rcases List.mem_cons.mp hx with rfl | hx
    · exact hp.1
    · exact h.below x hx
  · simp only [Held, List.mem_cons, not_or]
    tauto

/-- The frames handed out and the free ones make up the pool: any duplicate-free list of exactly
the frames handed out has the length that is missing. -/
theorem Valid.length_add_free {pool : FramePool} (h : pool.Valid) {held : List FrameNum}
    (hnodup : held.Nodup) (hheld : ∀ x, x ∈ held ↔ pool.Held x) :
    held.length + pool.free = pool.total := by
  have hperm : (held ++ pool.recycled).Perm (List.range pool.fresh) := by
    rw [List.perm_ext_iff_of_nodup _ List.nodup_range]
    · intro x
      rw [List.mem_append, hheld, List.mem_range, Held]
      by_cases hx : x ∈ pool.recycled
      · simp [hx, h.below x hx]
      · simp [hx]
    · exact List.nodup_append.mpr ⟨hnodup, h.nodup, fun x hx y hy hxy =>
        ((hheld x).mp hx).2 (hxy ▸ hy)⟩
  have hlen := hperm.length_eq
  rw [List.length_append, List.length_range] at hlen
  have := h.fits
  unfold free
  omega

end FramePool

end DemandPaging
