import DemandPaging.Proofs.Action
import DemandPaging.Storage.FileWindow
import DemandPaging.Storage.SparseBytes.View

/-!
# What transfers do to files

`Extends` relates the files before and after: handles stay on their files, and a file keeps its
limits and never becomes shorter. Every transfer, every seek and every reopening extends. A window
that is `Usable` can be loaded and written back, and stays usable.
-/

namespace DemandPaging

namespace File

/-- The file later on: with the same limits, and not shorter. -/
structure Extends (file file' : File) : Prop where
  size : file.size ≤ file'.size
  readCap : file'.readCap = file.readCap
  writeCap : file'.writeCap = file.writeCap
  grows : file'.grows = file.grows
  inode : file'.inode = file.inode

theorem Extends.refl (file : File) : Extends file file := ⟨Nat.le_refl _, rfl, rfl, rfl, rfl⟩

theorem Extends.trans {a b c : File} (h : Extends a b) (h' : Extends b c) : Extends a c :=
  ⟨Nat.le_trans h.size h'.size, h'.readCap.trans h.readCap, h'.writeCap.trans h.writeCap,
    h'.grows.trans h.grows, h'.inode.trans h.inode⟩

theorem extends_writeAt (file : File) (offset : Nat) (bytes : Bytes) :
    Extends file (file.writeAt offset bytes).2 := by
  unfold writeAt
  split
  · split
    · exact .refl file
    · exact ⟨Nat.le_max_left _ _, rfl, rfl, rfl, rfl⟩
  · exact ⟨Nat.le_refl _, rfl, rfl, rfl, rfl⟩

@[simp]
theorem size_readAt (file : File) (offset n : Nat) :
    (file.readAt offset n).size = file.readable offset n := SparseBytes.size_slice ..

@[simp]
theorem fst_writeAt (file : File) (offset : Nat) (bytes : Bytes) :
    (file.writeAt offset bytes).1 = file.room offset bytes.size := by
  unfold writeAt
  split
  · rename_i hgrows
    rw [room, if_pos hgrows]
    split
    · rename_i hempty
      exact (Array.isEmpty_iff_size_eq_zero.mp hempty).symm
    · rfl
  · rfl

/-- A file that does not exist takes nothing. -/
theorem writeAt_default (offset : Nat) (bytes : Bytes) :
    (({} : File).writeAt offset bytes).2 = {} := by
  simp [writeAt, room, size, SparseBytes.overwrite, SparseBytes.pagesOver, pageSize]

end File

namespace FileStore

/-- The files later on: every handle is on the file it was on, and every file extends. -/
structure Extends (files files' : FileStore) : Prop where
  count : files'.files.size = files.files.size
  handles : files.handles.size ≤ files'.handles.size
  stays : ∀ h, h < files.handles.size → (files'.handle h).file = (files.handle h).file
  file : ∀ i, (files.file i).Extends (files'.file i)

theorem Extends.refl (files : FileStore) : Extends files files :=
  ⟨rfl, Nat.le_refl _, fun _ _ => rfl, fun _ => .refl _⟩

theorem Extends.trans {a b c : FileStore} (h : Extends a b) (h' : Extends b c) : Extends a c :=
  ⟨h'.count.trans h.count, Nat.le_trans h.handles h'.handles,
    fun k hk => (h'.stays k (Nat.lt_of_lt_of_le hk h.handles)).trans (h.stays k hk),
    fun i => (h.file i).trans (h'.file i)⟩

/-- Moving the offset of a handle moves it to no other file. -/
theorem file_handle_seek (files : FileStore) (k : HandleNum) (offset : Nat) (h : HandleNum) :
    ((files.seek k offset).handle h).file = (files.handle h).file := by
  unfold seek handle
  rw [Array.getElem?_modify]
  split
  · cases files.handles[h]? <;> rfl
  · rfl

theorem extends_seek (files : FileStore) (k : HandleNum) (offset : Nat) :
    Extends files (files.seek k offset) :=
  ⟨rfl, by simp [seek], fun h _ => files.file_handle_seek k offset h, fun _ => .refl _⟩

theorem extends_reopen (files : FileStore) (k : HandleNum) : Extends files (files.reopen k).2 := by
  refine ⟨rfl, by simp [reopen], fun h hh => ?_, fun _ => .refl _⟩
  unfold reopen handle
  rw [Array.getElem?_push, if_neg (Nat.ne_of_lt hh)]

/-- A new handle is on the file it was reopened from. -/
theorem file_handle_reopen (files : FileStore) (k : HandleNum) :
    ((files.reopen k).2.handle (files.reopen k).1).file = (files.handle k).file := by
  simp [reopen, handle]

/-- A file that holds anything is behind an open handle. -/
theorem opened_of_lt_size {files : FileStore} {k : HandleNum} {n : Nat}
    (hn : n < (files.fileOf k).size) : k < files.handles.size := by
  refine Nat.lt_of_not_le fun hclosed => ?_
  have hnone : files.handles[k]? = none := Array.getElem?_eq_none hclosed
  rw [fileOf, handle, hnone, Option.getD_none, file, Array.getElem?_eq_none (Nat.le_refl _)] at hn
  exact Nat.not_lt_zero n hn

/-- Changing a file to one that extends it. -/
theorem extends_modifyFile {files : FileStore} {i : Nat} {file' : File}
    (h : (files.file i).Extends file') : Extends files (files.modifyFile i fun _ => file') := by
  refine ⟨by simp [modifyFile], Nat.le_refl _, fun k hk => ?_, fun j => ?_⟩
  · unfold modifyFile handle
    simp [Array.getElem?_eq_getElem hk]
  · unfold file modifyFile at *
    rw [Array.getElem?_modify]
    split
    · rename_i hij
      subst hij
      cases hf : files.files[i]? with
      | none => exact .refl _
      | some f =>
        rw [hf] at h
        exact h
    · exact .refl _

theorem extends_readAt (files : FileStore) (h : HandleNum) (offset n : Nat) :
    Extends files (files.readAt h offset n).2 :=
  (files.extends_seek h offset).trans (extends_seek _ _ _)

theorem extends_writeAt (files : FileStore) (h : HandleNum) (offset : Nat) (bytes : Bytes) :
    Extends files (files.writeAt h offset bytes).2 :=
  (files.extends_seek h offset).trans
    ((extends_modifyFile (File.extends_writeAt _ _ _)).trans (extends_seek _ _ _))

/-! ### What a transfer gives and changes -/

variable {files : FileStore} {k : HandleNum}

@[simp]
theorem file_seek (files : FileStore) (k : HandleNum) (offset i : Nat) :
    (files.seek k offset).file i = files.file i := rfl

theorem fileOf_seek (files : FileStore) (k : HandleNum) (offset : Nat) (h : HandleNum) :
    (files.seek k offset).fileOf h = files.fileOf h := by
  rw [fileOf, fileOf, file_handle_seek, file_seek]

/-- An open handle is moved to where it is told to go. -/
theorem offset_seek (hk : k < files.handles.size) (offset : Nat) :
    (files.seek k offset).offset k = offset := by
  unfold FileStore.offset handle seek
  simp [Array.getElem?_modify, Array.getElem?_eq_getElem hk]

/-- A read through an open handle gives what the file holds there. -/
theorem readAt_fst (hk : k < files.handles.size) (offset n : Nat) :
    (files.readAt k offset n).1 = (files.fileOf k).readAt offset n := by
  show ((files.seek k offset).fileOf k).readAt ((files.seek k offset).offset k) n = _
  rw [fileOf_seek, offset_seek hk]

/-- A write through an open handle changes its file alone. -/
theorem file_writeAt (hk : k < files.handles.size) (offset : Nat) (bytes : Bytes) (i : Nat) :
    (files.writeAt k offset bytes).2.file i =
      if i = (files.handle k).file then ((files.file i).writeAt offset bytes).2
      else files.file i := by
  have hfile : (files.writeAt k offset bytes).2.file i =
      ((files.seek k offset).modifyFile (files.handle k).file
        fun _ => ((files.fileOf k).writeAt offset bytes).2).file i := by
    show (((files.seek k offset).modifyFile ((files.seek k offset).handle k).file
      fun _ => (((files.seek k offset).fileOf k).writeAt ((files.seek k offset).offset k)
        bytes).2).file i) = _
    rw [file_handle_seek, fileOf_seek, offset_seek hk]
  rw [hfile]
  show ((files.files.modify _ _)[i]?).getD ({} : File) = _
  rw [Array.getElem?_modify]
  by_cases hi : i = (files.handle k).file
  · rw [if_pos hi, if_pos hi.symm, hi]
    show ((files.files[(files.handle k).file]?).map _).getD ({} : File) = _
    unfold fileOf file
    cases files.files[(files.handle k).file]? with
    | none => exact (File.writeAt_default offset bytes).symm
    | some f => rfl
  · rw [if_neg hi, if_neg (Ne.symm hi)]
    rfl

end FileStore

namespace FileWindow

/-- The file of the window takes all of it. -/
def Taken (w : FileWindow) (files : FileStore) : Prop :=
  (files.fileOf w.handle).grows = false →
    w.readBytes ≤ (files.fileOf w.handle).size - min w.offset (files.fileOf w.handle).size ∧
      w.readBytes ≤ (files.fileOf w.handle).writeCap

/-- A window that may be loaded and written back, but for the violations in `lax`: it is on an open
handle, it is no larger than a page, and its file takes all of it. -/
structure Usable (lax : Tolerance) (w : FileWindow) (files : FileStore) : Prop where
  opened : w.handle < files.handles.size
  small : lax .outOfBounds ∨ w.readBytes ≤ pageSize
  taken : (∀ inode offset, lax (.shortWriteBack inode offset)) ∨ w.Taken files

/-- What is taken whole stays so. -/
theorem Taken.extends {w : FileWindow} {files files' : FileStore} (h : w.Taken files)
    (hopened : w.handle < files.handles.size) (he : files.Extends files') : w.Taken files' := by
  have hfile : files'.fileOf w.handle = files'.file (files.handle w.handle).file := by
    rw [FileStore.fileOf, he.stays _ hopened]
  intro hg
  have hx := he.file (files.handle w.handle).file
  rw [hfile] at hg ⊢
  have ht := h (hx.grows ▸ hg)
  have hs := hx.size
  have hc := hx.writeCap
  unfold FileStore.fileOf at ht
  omega

/-- What is usable stays usable. -/
theorem Usable.extends {lax : Tolerance} {w : FileWindow} {files files' : FileStore}
    (h : w.Usable lax files) (he : files.Extends files') : w.Usable lax files' :=
  ⟨Nat.lt_of_lt_of_le h.opened he.handles, h.small,
    h.taken.imp_right fun ht => ht.extends h.opened he⟩

end FileWindow

end DemandPaging
