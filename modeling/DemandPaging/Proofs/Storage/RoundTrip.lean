import DemandPaging.Proofs.Storage.FileWindow

/-!
# Loading and writing back are inverse

A file may move fewer bytes than it is asked for only because it ends (`File.Exact`). Then whether a
window is loaded depends on its part of the file alone: not on what the frame held, and not on where
the handles on the file stand, as every transfer moves its handle first. What was written back from a
frame is what is loaded again, through whatever handle on the file and wherever handles were moved to
in between, and what was just loaded is written back without a change.

Writing back breaks off exactly when the file takes too few bytes; that is so of every file.

Headline: **`FileWindow.round_trip`**.
-/

namespace DemandPaging

/-! ## Files that move all they can -/

namespace File

/-- A file that never grows, and moves as many bytes as it has from there on. -/
structure Exact (file : File) : Prop where
  stays : file.grows = false
  gives : ∀ offset n, file.readable offset n = min n (file.size - offset)
  takes : ∀ offset n, file.room offset n = min n (file.size - offset)

variable {file file' : File}

/-- A limit that is no less than the file has no effect. -/
theorem exact_of_le (hstays : file.grows = false) (hread : file.size ≤ file.readCap)
    (hwrite : file.size ≤ file.writeCap) : file.Exact where
  stays := hstays
  gives offset n := by
    unfold readable
    omega
  takes offset n := by
    rw [room, if_neg (by rw [hstays]; decide)]
    omega

theorem Exact.extends (h : file.Exact) (hext : file.Extends file') (hsize : file'.size = file.size) :
    file'.Exact where
  stays := hext.grows.trans h.stays
  gives offset n := by
    rw [readable, hext.readCap, hsize]
    exact h.gives offset n
  takes offset n := by
    rw [room, hext.grows, hext.writeCap, hsize]
    exact h.takes offset n

/-- The file holds the same bytes, and as many. -/
structure SameBytes (file file' : File) : Prop where
  size : file'.size = file.size
  get : ∀ k, file'.data.get k = file.data.get k

end File

/-! ## Handles that are opened and moved -/

/-- What may be done to handles without a transfer. -/
inductive HandleMove where
  | reopen (k : HandleNum)
  | seek (k : HandleNum) (offset : Nat)

namespace FileStore

/-- The files after a handle was reopened or moved. -/
def turn (files : FileStore) : HandleMove → FileStore
  | .reopen k => (files.reopen k).2
  | .seek k offset => files.seek k offset

/-- The files after handles were reopened and moved in turn. -/
def turnAll (files : FileStore) (moves : List HandleMove) : FileStore := moves.foldl turn files

/-- No file changes when handles are moved. -/
theorem file_turnAll (files : FileStore) (moves : List HandleMove) :
    (files.turnAll moves).file = files.file := by
  induction moves generalizing files with
  | nil => rfl
  | cons move moves ih =>
    refine (ih (files.turn move)).trans ?_
    cases move <;> rfl

end FileStore

namespace FileWindow

variable {w w' : FileWindow} {files files' : FileStore} {frame : PageBytes}

/-! ## One transfer -/

/-- **Loading a window**, just if the file gives all of it. -/
theorem meets_load_given (hopened : w.handle < files.handles.size) (hsmall : w.readBytes ≤ pageSize)
    (frame : PageBytes) :
    Action.Meets (fun _ _ => False) w.load ⟨frame, files⟩
      (fun _ t => (files.fileOf w.handle).readable w.offset w.readBytes = w.readBytes ∧
        t = ⟨(files.fileOf w.handle).windowBytes w, (files.readAt w.handle w.offset w.readBytes).2⟩)
      (fun cause t => (files.fileOf w.handle).readable w.offset w.readBytes ≠ w.readBytes ∧
        cause = .shortRead w.readBytes ((files.fileOf w.handle).readable w.offset w.readBytes) ∧
        t.files = (files.readAt w.handle w.offset w.readBytes).2) := by
  unfold load
  simp only [Action.meets_bind, Action.meets_ite, Action.meets_modifyGet, Action.meets_modify,
    Action.meets_refuse, Action.meets_abort]
  refine ⟨Nat.not_lt.mpr hsmall, fun _ => ⟨fun hwhole => ⟨hwhole, ?_⟩, fun hshort =>
    ⟨hshort, trivial, trivial⟩⟩⟩
  rw [FileStore.readAt_fst hopened,
    PageBytes.clearFrom_blit frame ((File.size_readAt ..).trans hwhole)]
  rfl

/-- **Writing a window back**, just if the file takes all of it. -/
theorem meets_writeBack_taken (hopened : w.handle < files.handles.size)
    (hsmall : w.readBytes ≤ pageSize) (frame : PageBytes) :
    Action.Meets (fun broken _ => ¬w.TakenBy (files.fileOf w.handle) frame ∧
        broken = .shortWriteBack (files.fileOf w.handle).inode w.offset) (w.writeBack frame) files
      (fun _ files' => w.TakenBy (files.fileOf w.handle) frame ∧
        files' = (files.writeAt w.handle w.offset (frame.slice 0 w.readBytes)).2)
      fun _ _ => False := by
  have htaken : (files.fileOf w.handle).room w.offset w.readBytes = w.readBytes ↔
      w.TakenBy (files.fileOf w.handle) frame := by
    rw [TakenBy, File.fst_writeAt, PageBytes.size_slice hsmall]
    exact (and_iff_right hsmall).symm
  have hext := files.extends_writeAt w.handle w.offset (frame.slice 0 w.readBytes)
  have hinode : ((files.writeAt w.handle w.offset
      (frame.slice 0 w.readBytes)).2.fileOf w.handle).inode = (files.fileOf w.handle).inode := by
    rw [FileStore.fileOf, hext.stays _ hopened]
    exact (hext.file _).inode
  unfold writeBack
  simp only [Action.meets_bind, Action.meets_ite, Action.meets_pure, Action.meets_modifyGet,
    Action.meets_get, Action.meets_abort, hinode]
  exact ⟨fun hbig => absurd hbig (Nat.not_lt.mpr hsmall), fun _ =>
    ⟨fun hshort => ⟨mt htaken.mpr hshort, trivial⟩,
      fun hwhole => ⟨htaken.mp (Decidable.not_not.mp hwhole), trivial⟩⟩⟩

theorem exists_load_iff (hopened : w.handle < files.handles.size) (hsmall : w.readBytes ≤ pageSize)
    (frame : PageBytes) :
    (∃ t, w.load ⟨frame, files⟩ = .ok () t) ↔ w.GivenBy (files.fileOf w.handle) := by
  have hmeets := meets_load_given hopened hsmall frame
  refine ⟨fun ⟨t, ht⟩ => ⟨hsmall, (File.size_readAt ..).trans (hmeets.of_ok ht).1⟩, fun hgiven => ?_⟩
  obtain ⟨_, t, ht, -⟩ := (hmeets.mono (fun _ _ h => h) fun _ _ h =>
    h.1 ((File.size_readAt ..).symm.trans hgiven.2)).exists_ok
  exact ⟨t, ht⟩

/-- A loaded frame holds the part of the file and zeros, and no file has changed. -/
theorem of_load (hopened : w.handle < files.handles.size) (hsmall : w.readBytes ≤ pageSize)
    {t : FileTransfer} (h : w.load ⟨frame, files⟩ = .ok () t) :
    files.Extends t.files ∧ t.files.file = files.file ∧ ∀ k (hk : k < pageSize), t.frame[k] =
      if k < w.readBytes then (files.fileOf w.handle).data.get (w.offset + k) else 0 := by
  obtain ⟨hgiven, rfl⟩ := (meets_load_given hopened hsmall frame).of_ok h
  exact ⟨files.extends_readAt .., rfl, fun k hk =>
    GivenBy.getElem_windowBytes ⟨hsmall, (File.size_readAt ..).trans hgiven⟩ hk⟩

theorem exists_writeBack_iff (hopened : w.handle < files.handles.size)
    (hsmall : w.readBytes ≤ pageSize) (frame : PageBytes) :
    (∃ files', w.writeBack frame files = .ok () files') ↔ w.TakenBy (files.fileOf w.handle) frame := by
  have hmeets := meets_writeBack_taken hopened hsmall frame
  refine ⟨fun ⟨_, h⟩ => (hmeets.of_ok h).1, fun htaken => ?_⟩
  obtain ⟨_, files', h, -⟩ := (hmeets.relax fun _ _ h => h.1 htaken).exists_ok
  exact ⟨files', h⟩

/-- The window of a frame was written back: its part of the file has the bytes of the frame, and all
else is as it was. -/
structure WrittenBack (w : FileWindow) (frame : PageBytes) (files files' : FileStore) : Prop where
  later : files.Extends files'
  size : ∀ i, (files'.file i).size = (files.file i).size
  get : ∀ i k, (files'.file i).data.get k =
    if w.offset ≤ k ∧ k < w.offset + w.readBytes ∧ i = (files.handle w.handle).file
    then frame[k - w.offset]?.getD 0 else (files.file i).data.get k

theorem of_writeBack (hopened : w.handle < files.handles.size) (hsmall : w.readBytes ≤ pageSize)
    (hin : 0 < w.readBytes → w.offset + w.readBytes ≤ (files.fileOf w.handle).size)
    (h : w.writeBack frame files = .ok () files') : w.WrittenBack frame files files' := by
  obtain ⟨htaken, rfl⟩ := (meets_writeBack_taken hopened hsmall frame).of_ok h
  have hfile := FileStore.file_writeAt hopened w.offset (frame.slice 0 w.readBytes)
  refine ⟨files.extends_writeAt .., fun i => ?_, fun i k => ?_⟩
  · rw [hfile]
    split
    · rename_i hi
      subst hi
      exact htaken.size_writeAt hin
    · rfl
  · rw [hfile]
    by_cases hi : i = (files.handle w.handle).file
    · subst hi
      rw [if_pos rfl]
      refine (htaken.get_writeAt k).trans ?_
      simp only [and_true]
      rfl
    · rw [if_neg hi, if_neg fun h => hi h.2.2]

/-! ## Windows on one part of a file -/

/-- A window on the same part of the same file, through a handle that is open. -/
structure SamePart (w : FileWindow) (files : FileStore) (w' : FileWindow) (files' : FileStore) :
    Prop where
  opened : w'.handle < files'.handles.size
  file : (files'.handle w'.handle).file = (files.handle w.handle).file
  offset : w'.offset = w.offset
  readBytes : w'.readBytes = w.readBytes

theorem SamePart.refl (hopened : w.handle < files.handles.size) : w.SamePart files w files :=
  ⟨hopened, rfl, rfl, rfl⟩

/-- Handles stay on their files. -/
theorem SamePart.extends {files'' : FileStore} (h : w.SamePart files w' files')
    (hext : files'.Extends files'') : w.SamePart files w' files'' :=
  ⟨Nat.lt_of_lt_of_le h.opened hext.handles, (hext.stays _ h.opened).trans h.file, h.offset, h.readBytes⟩

/-- A window that is reopened is on the same part of the file. -/
theorem SamePart.reopen (h : w.SamePart files w' files') :
    w.SamePart files (w'.reopen files').1 (w'.reopen files').2 where
  opened := by simp [FileWindow.reopen, FileStore.reopen]
  file := (files'.file_handle_reopen w'.handle).trans h.file
  offset := h.offset
  readBytes := h.readBytes

/-- Under which conditions a file that moves all it can gives or takes a window. -/
theorem givenBy_iff (hexact : (files.fileOf w.handle).Exact) (hsmall : w.readBytes ≤ pageSize) :
    w.GivenBy (files.fileOf w.handle) ↔
      w.offset + w.readBytes ≤ (files.fileOf w.handle).size ∨ w.readBytes = 0 := by
  rw [GivenBy, File.size_readAt, hexact.gives]
  omega

theorem takenBy_iff (hexact : (files.fileOf w.handle).Exact) (hsmall : w.readBytes ≤ pageSize) :
    w.TakenBy (files.fileOf w.handle) frame ↔
      w.offset + w.readBytes ≤ (files.fileOf w.handle).size ∨ w.readBytes = 0 := by
  rw [TakenBy, File.fst_writeAt, PageBytes.size_slice hsmall, hexact.takes]
  omega

/-- **What was written back is loaded again**, through any handle on the file. -/
theorem WrittenBack.load (h : w.WrittenBack frame files files') (hsmall : w.readBytes ≤ pageSize)
    (hexact : (files.fileOf w.handle).Exact)
    (hin : w.offset + w.readBytes ≤ (files.fileOf w.handle).size) {files'' : FileStore}
    (hsame : w.SamePart files w' files'') (hfiles : files''.file = files'.file) (frame' : PageBytes) :
    ∃ t, w'.load ⟨frame', files''⟩ = .ok () t ∧
      ∀ k (hk : k < pageSize), t.frame[k] = if k < w.readBytes then frame[k] else 0 := by
  have hfile : files''.fileOf w'.handle = files'.file (files.handle w.handle).file := by
    rw [FileStore.fileOf, hsame.file, hfiles]
  have hsmall' : w'.readBytes ≤ pageSize := hsame.readBytes ▸ hsmall
  have hexact' : (files''.fileOf w'.handle).Exact := by
    rw [hfile]
    exact hexact.extends (h.later.file _) (h.size _)
  obtain ⟨t, ht⟩ := (exists_load_iff hsame.opened hsmall' frame').mpr <|
    (givenBy_iff hexact' hsmall').mpr <| .inl <| by
      rw [hfile, h.size, hsame.offset, hsame.readBytes]
      exact hin
  refine ⟨t, ht, fun k hk => ((of_load hsame.opened hsmall' ht).2.2 k hk).trans ?_⟩
  rw [hsame.readBytes, hsame.offset, hfile]
  by_cases hread : k < w.readBytes
  · rw [if_pos hread, if_pos hread, h.get,
      if_pos ⟨Nat.le_add_right .., Nat.add_lt_add_left hread _, rfl⟩, Nat.add_sub_cancel_left,
      Vector.getElem?_eq_getElem hk, Option.getD_some]
  · rw [if_neg hread, if_neg hread]

/-- **What was loaded is written back without a change.** -/
theorem exists_writeBack_of_load (hopened : w.handle < files.handles.size)
    (hsmall : w.readBytes ≤ pageSize) (hexact : (files.fileOf w.handle).Exact) {t : FileTransfer}
    (h : w.load ⟨frame, files⟩ = .ok () t) : ∃ files', w.writeBack t.frame t.files = .ok () files' ∧
      ∀ i, (files.file i).SameBytes (files'.file i) := by
  have hplace := (givenBy_iff hexact hsmall).mp ((exists_load_iff hopened hsmall frame).mp ⟨t, h⟩)
  obtain ⟨hext, hfiles, hframe⟩ := of_load hopened hsmall h
  have hopened' := Nat.lt_of_lt_of_le hopened hext.handles
  have hstays := hext.stays _ hopened
  have hfile : t.files.fileOf w.handle = files.fileOf w.handle := by
    rw [FileStore.fileOf, FileStore.fileOf, hstays, hfiles]
  obtain ⟨files', hwrite⟩ := (exists_writeBack_iff hopened' hsmall t.frame).mpr
    ((takenBy_iff (hfile.symm ▸ hexact) hsmall).mpr (hfile.symm ▸ hplace))
  have hback := of_writeBack hopened' hsmall
    (fun hread => hfile.symm ▸ hplace.resolve_right (Nat.ne_of_gt hread)) hwrite
  refine ⟨files', hwrite, fun i => ⟨(hback.size i).trans (by rw [hfiles]), fun k => ?_⟩⟩
  rw [hback.get, hfiles, hstays]
  split
  · rename_i hin
    obtain ⟨hlow, hhigh, rfl⟩ := hin
    have hk : k - w.offset < pageSize := by omega
    rw [Vector.getElem?_eq_getElem hk, Option.getD_some, hframe _ hk, if_pos (by omega),
      Nat.add_sub_cancel' hlow]
    rfl
  · rfl

/-! ## Both ways -/

/-- Loading a window and writing it back. -/
structure RoundTrips (w : FileWindow) (files : FileStore) : Prop where
  /-- A window is loaded if it lies inside the file, or is empty. -/
  loads : ∀ frame, (∃ t, w.load ⟨frame, files⟩ = .ok () t) ↔
    w.offset + w.readBytes ≤ (files.fileOf w.handle).size ∨ w.readBytes = 0
  /-- Whatever the frame held, it holds the window and zeros after that. -/
  loaded : ∀ frame t, w.load ⟨frame, files⟩ = .ok () t → t.files.file = files.file ∧
    ∀ k (hk : k < pageSize), t.frame[k] =
      if k < w.readBytes then (files.fileOf w.handle).data.get (w.offset + k) else 0
  /-- Otherwise the refusal tells how many bytes there were. -/
  short : ∀ frame,
    ¬(w.offset + w.readBytes ≤ (files.fileOf w.handle).size ∨ w.readBytes = 0) →
      ∃ t, w.load ⟨frame, files⟩ = .error (.refused
          (.shortRead w.readBytes ((files.fileOf w.handle).size - w.offset))) t ∧
        t.files.file = files.file
  /-- A window inside the file is written back, and what was written is loaded again through any handle
  on the file, however handles were opened and moved in between. -/
  written : w.offset + w.readBytes ≤ (files.fileOf w.handle).size → ∀ frame,
    ∃ files', w.writeBack frame files = .ok () files' ∧ w.WrittenBack frame files files' ∧
      ∀ moves w', w.SamePart files w' (files'.turnAll moves) → ∀ frame',
        ∃ t, w'.load ⟨frame', files'.turnAll moves⟩ = .ok () t ∧
          ∀ k (hk : k < pageSize), t.frame[k] = if k < w.readBytes then frame[k] else 0
  /-- What was just loaded is written back without a change. -/
  restored : ∀ frame t, w.load ⟨frame, files⟩ = .ok () t →
    ∃ files', w.writeBack t.frame t.files = .ok () files' ∧
      ∀ i, (files.file i).SameBytes (files'.file i)

/-- **Loading and writing back are inverse** on a window of a file that moves all it can, and touch
nothing else. Whatever the file, writing back breaks off just if it takes fewer bytes than the window
has. -/
theorem round_trip (files : FileStore) (w : FileWindow) (hopened : w.handle < files.handles.size)
    (hsmall : w.readBytes ≤ pageSize) :
    ((files.fileOf w.handle).Exact → w.RoundTrips files) ∧
    ∀ frame, let taken := ((files.fileOf w.handle).writeAt w.offset (frame.slice 0 w.readBytes)).1
      ((∃ broken files', w.writeBack frame files = .error (.fatal broken) files') ↔
        taken < w.readBytes) ∧
      (∀ broken files', w.writeBack frame files = .error (.fatal broken) files' →
        broken = .shortWriteBack (files.fileOf w.handle).inode w.offset) ∧
      ((∃ files', w.writeBack frame files = .ok () files') ↔ taken = w.readBytes) := by
  refine ⟨fun hexact => ?_, fun frame => ?_⟩
  · refine
      { loads := fun frame => (exists_load_iff hopened hsmall frame).trans (givenBy_iff hexact hsmall)
        loaded := fun frame t h => (of_load hopened hsmall h).2
        short := fun frame hout => ?_
        written := fun hin frame => ?_
        restored := fun frame t h => exists_writeBack_of_load hopened hsmall hexact h }
    · have hmeets := meets_load_given hopened hsmall frame
      obtain ⟨_, t, h, -, rfl, hfiles⟩ := (hmeets.mono
        (fun _ _ h => hout ((givenBy_iff hexact hsmall).mp ⟨hsmall, (File.size_readAt ..).trans h.1⟩))
        fun _ _ h => h).exists_refused
      refine ⟨t, ?_, by rw [hfiles]; rfl⟩
      rw [h, hexact.gives, Nat.min_eq_right (by omega)]
    · obtain ⟨files', h⟩ := (exists_writeBack_iff hopened hsmall frame).mpr
        ((takenBy_iff hexact hsmall).mpr (.inl hin))
      have hback := of_writeBack hopened hsmall (fun _ => hin) h
      exact ⟨files', h, hback, fun moves w' hsame frame' =>
        hback.load hsmall hexact hin hsame (files'.file_turnAll moves) frame'⟩
  · have hmeets := meets_writeBack_taken hopened hsmall frame
    have hwhole : w.TakenBy (files.fileOf w.handle) frame ↔
        ((files.fileOf w.handle).writeAt w.offset (frame.slice 0 w.readBytes)).1 = w.readBytes :=
      and_iff_right hsmall
    have hle : ((files.fileOf w.handle).writeAt w.offset (frame.slice 0 w.readBytes)).1 ≤
        w.readBytes := by
      rw [File.fst_writeAt, PageBytes.size_slice hsmall, File.room]
      split <;> omega
    refine ⟨⟨fun hbroken => ?_, fun hshort => ?_⟩, fun _ _ h => (hmeets.of_fatal h).2,
      (exists_writeBack_iff hopened hsmall frame).trans hwhole⟩
    · obtain ⟨_, _, h⟩ := hbroken
      exact Nat.lt_of_le_of_ne hle (mt hwhole.mpr (hmeets.of_fatal h).1)
    · cases h : w.writeBack frame files with
      | ok _ files' => exact absurd (hwhole.mp (hmeets.of_ok h).1) (Nat.ne_of_lt hshort)
      | error failure files' =>
        cases failure with
        | fatal broken => exact ⟨broken, files', rfl⟩
        | refused cause => exact (hmeets.of_refused h).elim

/-- A file of eight bytes, open at its start. -/
def eightBytes : FileStore := .ofFiles #[{ data := .ofBytes #[1, 2, 3, 4, 5, 6, 7, 8] }]

/-- The four bytes in its middle. -/
def middleOfEight : FileWindow := { handle := 0, offset := 2, readBytes := 4, zeroBytes := pageSize - 4 }

/-- What is written back to the middle of the file is loaded again after the window was reopened. -/
theorem round_trip_reopened : middleOfEight.RoundTrips eightBytes ∧ ∀ frame, ∃ files' t,
    middleOfEight.writeBack frame eightBytes = .ok () files' ∧
      (middleOfEight.reopen files').1.load ⟨.zero, (middleOfEight.reopen files').2⟩ = .ok () t ∧
      ∀ k (hk : k < pageSize), t.frame[k] = if k < 4 then frame[k] else 0 := by
  have hopened : middleOfEight.handle < eightBytes.handles.size := by decide +kernel
  have hexact : (eightBytes.fileOf middleOfEight.handle).Exact :=
    File.exact_of_le (by decide +kernel) (by decide +kernel) (by decide +kernel)
  have hround := (round_trip eightBytes middleOfEight hopened (by decide)).1 hexact
  refine ⟨hround, fun frame => ?_⟩
  obtain ⟨files', hwrite, hback, hload⟩ := hround.written (by decide +kernel) frame
  have hsame := (SamePart.refl hopened).extends hback.later
  obtain ⟨t, ht, hframe⟩ := hload [.reopen 0] _ hsame.reopen .zero
  exact ⟨files', t, hwrite, ht, hframe⟩

end FileWindow

end DemandPaging
