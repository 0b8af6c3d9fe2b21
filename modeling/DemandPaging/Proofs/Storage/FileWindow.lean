import DemandPaging.Proofs.Storage.FileStore

/-!
# Loading and writing back a window

What `FileWindow.load` leaves in the frame (`File.windowBytes`) and what `FileWindow.writeBack`
leaves in the files. Neither ends well before the file gave or took all of the window. A window that
is usable breaks nothing but what is allowed. The bytes of the window are those of its part of the
file (`getElem_windowBytes`, `get_writeAt`).
-/

namespace DemandPaging

/-- A window, filled with what its file gives and zeros after it. -/
def File.windowBytes (file : File) (w : FileWindow) : PageBytes :=
  (PageBytes.zero.blit 0 (file.readAt w.offset w.readBytes)).clearFrom w.readBytes

namespace PageBytes

/-- A frame overwritten from the front and cleared after that keeps nothing. -/
theorem clearFrom_blit (page : PageBytes) {bytes : Bytes} {n : Nat} (hn : bytes.size = n) :
    (page.blit 0 bytes).clearFrom n = (zero.blit 0 bytes).clearFrom n := by
  ext i hi
  rw [getElem_clearFrom, getElem_clearFrom, getElem_blit, getElem_blit]
  by_cases h : n ≤ i
  · rw [if_pos h, if_pos h]
  · rw [if_neg h, if_neg h, if_pos (by omega), if_pos (by omega)]

theorem size_slice {page : PageBytes} {n : Nat} (h : n ≤ pageSize) : (page.slice 0 n).size = n := by
  simp only [slice, Array.size_extract, Vector.size_toArray]
  omega

theorem getElem?_slice (page : PageBytes) {n j : Nat} (hj : j < n) (hn : n ≤ pageSize) :
    (page.slice 0 n)[j]? = page[j]? := by
  simp [slice, hj, hn]

end PageBytes

namespace FileWindow

variable {lax : Tolerance} {w : FileWindow} {files : FileStore}

/-- The file gives all of the window. -/
def GivenBy (w : FileWindow) (file : File) : Prop :=
  w.readBytes ≤ pageSize ∧ (file.readAt w.offset w.readBytes).size = w.readBytes

/-- The file takes all of the window that is written back from a frame. -/
def TakenBy (w : FileWindow) (file : File) (frame : PageBytes) : Prop :=
  w.readBytes ≤ pageSize ∧
    (file.writeAt w.offset (frame.slice 0 w.readBytes)).1 = w.readBytes

/-- The window contains the byte `k` of the file `i`. -/
def Contains (w : FileWindow) (i k : Nat) : Prop :=
  w.handle = i ∧ w.offset ≤ k ∧ k < w.offset + w.readBytes

/-- What a window is filled with is its part of the file, and zeros. -/
theorem GivenBy.getElem_windowBytes {file : File} (h : w.GivenBy file) {k : Nat} (hk : k < pageSize) :
    (file.windowBytes w)[k] = if k < w.readBytes then file.data.get (w.offset + k) else 0 := by
  unfold File.windowBytes
  rw [PageBytes.getElem_clearFrom]
  by_cases hread : k < w.readBytes
  · have hsize := h.2
    rw [File.size_readAt] at hsize
    rw [if_neg (Nat.not_le.mpr hread), if_pos hread, PageBytes.getElem_blit, h.2,
      if_pos ⟨Nat.zero_le k, hread⟩, Nat.sub_zero, File.readAt, hsize,
      SparseBytes.getElem?_slice _ _ _ _ hread, Option.getD_some]
    unfold File.readable at hsize
    congr 1
    omega
  · rw [if_pos (Nat.le_of_not_lt hread), if_neg hread]

/-- A file that takes all of a window has it in its data. -/
theorem TakenBy.data_writeAt {file : File} {frame : PageBytes} (h : w.TakenBy file frame)
    (hread : 0 < w.readBytes) :
    (file.writeAt w.offset (frame.slice 0 w.readBytes)).2.data =
        file.data.overwrite w.offset (frame.slice 0 w.readBytes) ∧
      (file.grows = false → w.offset + w.readBytes ≤ file.size) := by
  obtain ⟨hsmall, htaken⟩ := h
  have hsize : (frame.slice 0 w.readBytes).size = w.readBytes := PageBytes.size_slice hsmall
  rw [File.fst_writeAt, hsize] at htaken
  unfold File.writeAt
  split
  · rename_i hgrows
    have hempty : ¬(frame.slice 0 w.readBytes).isEmpty = true := fun h => by
      rw [← hsize, Array.isEmpty_iff_size_eq_zero.mp h] at hread
      exact absurd hread (Nat.lt_irrefl 0)
    rw [if_neg hempty]
    exact ⟨rfl, fun hg => by rw [hg] at hgrows; cases hgrows⟩
  · rename_i hgrows
    have hfits := htaken
    rw [File.room, if_neg hgrows] at hfits
    have hin : w.offset + w.readBytes ≤ file.size := by omega
    have hwhole : ∀ (bytes : Bytes) (n : Nat), bytes.size = n → bytes.extract 0 n = bytes :=
      fun _ _ hn => hn ▸ Array.extract_size
    dsimp only
    rw [hsize, htaken, Nat.min_eq_left (by omega), hwhole _ _ hsize]
    refine ⟨?_, fun _ => hin⟩
    rw [SparseBytes.mk.injEq, SparseBytes.size_overwrite, hsize]
    exact ⟨(Nat.max_eq_left hin).symm, rfl⟩

/-- An empty window is written back without changing anything. -/
theorem get_writeAt_empty (file : File) (offset k : Nat) :
    (file.writeAt offset #[]).2.data.get k = file.data.get k ∧
      (file.writeAt offset #[]).2.size = file.size := by
  unfold File.writeAt
  split
  · exact ⟨rfl, rfl⟩
  · exact ⟨(SparseBytes.get_overwrite ..).trans (if_neg (by simp)), rfl⟩

/-- **Writing a window back** changes its part of the file and nothing else. -/
theorem TakenBy.get_writeAt {file : File} {frame : PageBytes} (h : w.TakenBy file frame) (k : Nat) :
    (file.writeAt w.offset (frame.slice 0 w.readBytes)).2.data.get k =
      if w.offset ≤ k ∧ k < w.offset + w.readBytes then frame[k - w.offset]?.getD 0
      else file.data.get k := by
  have hsize : (frame.slice 0 w.readBytes).size = w.readBytes := PageBytes.size_slice h.1
  rcases Nat.eq_zero_or_pos w.readBytes with hzero | hread
  · rw [show frame.slice 0 w.readBytes = #[] from Array.eq_empty_of_size_eq_zero (hsize.trans hzero),
      (get_writeAt_empty file w.offset k).1, if_neg (by omega)]
  · rw [(h.data_writeAt hread).1, SparseBytes.get_overwrite, hsize]
    by_cases hin : w.offset ≤ k ∧ k < w.offset + w.readBytes
    · rw [if_pos hin, if_pos (by omega), PageBytes.getElem?_slice frame (by omega) h.1]
    · rw [if_neg hin, if_neg (by omega)]

/-- A window in the file is written back without making the file longer. -/
theorem TakenBy.size_writeAt {file : File} {frame : PageBytes} (h : w.TakenBy file frame)
    (hin : 0 < w.readBytes → w.offset + w.readBytes ≤ file.size) :
    (file.writeAt w.offset (frame.slice 0 w.readBytes)).2.size = file.size := by
  have hsize : (frame.slice 0 w.readBytes).size = w.readBytes := PageBytes.size_slice h.1
  rcases Nat.eq_zero_or_pos w.readBytes with hzero | hread
  · rw [show frame.slice 0 w.readBytes = #[] from Array.eq_empty_of_size_eq_zero (hsize.trans hzero),
      (get_writeAt_empty file w.offset 0).2]
  · rw [File.size, (h.data_writeAt hread).1, SparseBytes.size_overwrite, hsize]
    exact Nat.max_eq_left (hin hread)

/-- How many bytes of a window its file takes. -/
theorem Taken.taken_eq (h : w.Taken files) {bytes : Bytes} (hb : bytes.size = w.readBytes) :
    ((files.fileOf w.handle).writeAt w.offset bytes).1 = w.readBytes := by
  rw [File.fst_writeAt, hb, File.room]
  split
  · rfl
  · rename_i hgrows
    obtain ⟨hroom, hcap⟩ := h (by simpa using hgrows)
    omega

/-- A file that has become longer takes what it took. -/
theorem TakenBy.extends {file file' : File} {frame : PageBytes} (h : w.TakenBy file frame)
    (hext : file.Extends file') : w.TakenBy file' frame := by
  obtain ⟨hsmall, htaken⟩ := h
  have hsize := hext.size
  refine ⟨hsmall, ?_⟩
  rw [File.fst_writeAt, PageBytes.size_slice hsmall, File.room] at htaken ⊢
  rw [hext.grows, hext.writeCap]
  split
  · rfl
  · rename_i hgrows
    rw [if_neg hgrows] at htaken
    omega

/-- **Writing a window back** puts its bytes of the frame into its file. It breaks off only if the file
does not take all of it, and then only files have changed. -/
theorem meets_writeBack (hw : w.Usable lax files) (frame : PageBytes)
    {R : Refusal → FileStore → Prop} :
    Action.Meets (fun v files' => Overrun lax (w.readBytes ≤ pageSize) v ∧ files.Extends files' ∧
      ¬w.TakenBy (files.fileOf w.handle) frame) (w.writeBack frame) files
      (fun _ files' => w.TakenBy (files.fileOf w.handle) frame ∧ files.Extends files' ∧
      ∀ i, files'.file i = if i = (files.handle w.handle).file
        then ((files.file i).writeAt w.offset (frame.slice 0 w.readBytes)).2
        else files.file i) R := by
  unfold writeBack
  simp only [Action.meets_bind, Action.meets_ite, Action.meets_pure, Action.meets_modifyGet,
    Action.meets_get, Action.meets_abort]
  refine ⟨fun hbig => ?_, fun hsmall => ⟨fun hshort => ⟨?_, files.extends_writeAt _ _ _, ?_⟩,
    fun htaken => ⟨⟨Nat.le_of_not_lt hsmall, ?_⟩, files.extends_writeAt _ _ _, ?_⟩⟩⟩
  · exact ⟨.long (hw.small.resolve_right (Nat.not_le.mpr hbig)) (Nat.not_le.mpr hbig), .refl files,
      fun h => Nat.not_le.mpr hbig h.1⟩
  · refine .short _ _ (hw.taken.elim (fun hlax => hlax _ _) fun htaken => ?_)
    have hsize : (frame.slice 0 w.readBytes).size = w.readBytes :=
      PageBytes.size_slice (Nat.le_of_not_lt hsmall)
    have htaken := htaken.taken_eq hsize
    rw [File.fst_writeAt, hsize] at htaken
    exact absurd htaken hshort
  · intro h
    have htaken := h.2
    rw [File.fst_writeAt, PageBytes.size_slice h.1] at htaken
    exact hshort htaken
  · rw [File.fst_writeAt, PageBytes.size_slice (Nat.le_of_not_lt hsmall)]
    exact Decidable.not_not.mp htaken
  · exact FileStore.file_writeAt hw.opened _ _

/-- **Moving a frame out to its file** writes it back if it is dirty. -/
theorem meets_pageOut (hw : w.Usable lax files) (frame : PageBytes) (dirty : Bool)
    {R : Refusal → FileStore → Prop} :
    Action.Meets (fun v files' => Overrun lax (w.readBytes ≤ pageSize) v ∧ files.Extends files')
      (w.pageOut frame dirty) files
      (fun written files' => written = dirty ∧
      (dirty = true → w.TakenBy (files.fileOf w.handle) frame) ∧ files.Extends files' ∧
      ∀ i, files'.file i = if dirty ∧ i = (files.handle w.handle).file
        then ((files.file i).writeAt w.offset (frame.slice 0 w.readBytes)).2
        else files.file i) R := by
  unfold pageOut
  simp only [Action.meets_bind, Action.meets_ite, Action.meets_pure]
  refine ⟨fun hdirty => ?_, fun hclean => ⟨trivial, fun h => absurd h hclean, .refl files,
    by simp [hclean]⟩⟩
  refine ((meets_writeBack hw frame).relax fun _ _ h => ⟨h.1, h.2.1⟩).mono (fun _ files' h => ?_)
    fun _ _ h => h
  exact ⟨trivial, fun _ => h.1, h.2.1, by simpa [hdirty] using h.2.2⟩

/-- **Loading a window** leaves its bytes in the frame and changes no file. It is refused when the
file gives fewer bytes. -/
theorem meets_load {F : Violation → FileTransfer → Prop} {t : FileTransfer}
    (hopened : w.handle < t.files.handles.size)
    (hlong : pageSize < w.readBytes → F .outOfBounds t) :
    Action.Meets F w.load t
      (fun _ t' => w.GivenBy (t.files.fileOf w.handle) ∧
        t'.frame = (t.files.fileOf w.handle).windowBytes w ∧
        t.files.Extends t'.files ∧ t'.files.file = t.files.file)
      (fun cause t' => (∃ n, cause = .shortRead w.readBytes n) ∧
        t.files.Extends t'.files ∧ t'.files.file = t.files.file) := by
  have hext := t.files.extends_readAt w.handle w.offset w.readBytes
  unfold load
  simp only [Action.meets_bind, Action.meets_ite, Action.meets_modifyGet, Action.meets_modify,
    Action.meets_refuse, Action.meets_abort]
  refine ⟨hlong, fun hfits =>
    ⟨fun hwhole => ⟨⟨Nat.le_of_not_lt hfits, ?_⟩, ?_, hext, rfl⟩, fun _ => ⟨⟨_, rfl⟩, hext, rfl⟩⟩⟩
  · rwa [File.size_readAt]
  · rw [FileStore.readAt_fst hopened]
    exact PageBytes.clearFrom_blit t.frame ((File.size_readAt ..).trans hwhole)

end FileWindow

end DemandPaging
