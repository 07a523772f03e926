import GuacNebula.Rdp.RecordedPaths

/-! # Files that are renamed

A rename moves the name of a file, while the paths in its slot stay those under which it was opened.
What is done to the file through its descriptor still reaches it. What is done through its paths is
done to the old name, and `renamed_followed_iff` is when that is the latest one.
-/

namespace GuacNebula.Rdp

/-! ## Systems that record what is removed or renamed -/

section

variable {σ ι : Type*}

/-- A system that also records the paths it is asked to remove or to rename, latest first. -/
def Os.targeted (os : Os σ) : Os (σ × List CString) where
  openFile state path flags := unrecorded state.2 (os.openFile state.1 path flags)
  close state fd := (os.close state.1 fd, state.2)
  fstat state fd := os.fstat state.1 fd
  lseek state fd offset := (os.lseek state.1 fd offset, state.2)
  read state fd length := unrecorded state.2 (os.read state.1 fd length)
  write state fd bytes := unrecorded state.2 (os.write state.1 fd bytes)
  ftruncate state fd length := unrecorded state.2 (os.ftruncate state.1 fd length)
  rename state oldPath newPath :=
    unrecorded (oldPath :: state.2) (os.rename state.1 oldPath newPath)
  unlink state path := unrecorded (path :: state.2) (os.unlink state.1 path)
  rmdir state path := unrecorded (path :: state.2) (os.rmdir state.1 path)
  mkdir state path := unrecorded state.2 (os.mkdir state.1 path)
  fdopendir state fd := unrecorded state.2 (os.fdopendir state.1 fd)
  readdir state dir := unrecorded state.2 (os.readdir state.1 dir)
  closedir state dir := (os.closedir state.1 dir, state.2)

/-- The same system, whose directories end as before. -/
def FiniteOs.targeted (os : FiniteOs σ) : FiniteOs (σ × List CString) where
  toOs := os.toOs.targeted
  remaining state := os.remaining state.1
  readdir_remaining state := os.readdir_remaining state.1
  openFile_remaining state := os.openFile_remaining state.1

theorem targeted_toOs (os : FiniteOs σ) : os.targeted.toOs = os.toOs.targeted := rfl

/-- The record is not looked at. -/
def View.targeted (view : View σ ι) : View (σ × List CString) ι where
  named state := view.named state.1
  isDirectory state := view.isDirectory state.1
  data state := view.data state.1
  held state := view.held state.1

theorem rename_targeted {os : Os σ} {state after : σ × List CString} {oldPath newPath : CString}
    (renamed : os.targeted.rename state oldPath newPath = (after, .ok ())) :
    os.rename state.1 oldPath newPath = (after.1, .ok ()) := by
  obtain ⟨_, result⟩ := Prod.mk.inj renamed
  obtain rfl := (Prod.mk.inj renamed).1
  exact Prod.ext rfl result

theorem RenameLaws.targeted {os : Os σ} {view : View σ ι} (laws : RenameLaws os view) :
    RenameLaws os.targeted view.targeted where
  renamed renamed := laws.renamed (rename_targeted renamed)
  moved renamed := laws.moved (rename_targeted renamed)
  kept renamed := laws.kept (rename_targeted renamed)
  held renamed := laws.held (rename_targeted renamed)

end

/-! ## Renames that succeed -/

section

variable {σ ι π : Type*}

/-- A file is renamed again and again, which has to succeed each time. -/
def renameAll (os : Os σ) (fileId : Int) : Fs σ π → List CString → Option (Fs σ π)
  | fs, [] => some fs
  | fs, newPath :: newPaths =>
      match fsRename os fs fileId newPath with
      | (fs, .ok _) => renameAll os fileId fs newPaths
      | (_, .error _) => none

/-- The path that a file has after it was renamed. -/
def latestPath (path : CString) (newPaths : List CString) : CString :=
  newPaths.foldl (fun path newPath => (fsNormalizePath newPath).getD path) path

theorem fsRename_found (os : Os σ) {fs : Fs σ π} {fileId : Int} {newPath normalizedPath : CString}
    {file : FsFile} (isOpen : fsGetFile fs fileId = some file)
    (found : fsNormalizePath newPath = some normalizedPath) :
    fsRename os fs fileId newPath =
      ({ fs with
          os := (os.rename fs.os file.realPath (fsTranslatePath fs.drivePath normalizedPath)).1 },
        translated
          (os.rename fs.os file.realPath (fsTranslatePath fs.drivePath normalizedPath)).2) := by
  simp only [fsRename, isOpen, found]

theorem fsRename_ok {os : Os σ} {fs after : Fs σ π} {fileId : Int} {newPath : CString}
    {file : FsFile} (isOpen : fsGetFile fs fileId = some file)
    (renamed : fsRename os fs fileId newPath = (after, .ok ())) :
    ∃ normalizedPath state, fsNormalizePath newPath = some normalizedPath ∧
      os.rename fs.os file.realPath (fsTranslatePath fs.drivePath normalizedPath) =
        (state, .ok ()) ∧
      after = { fs with os := state } := by
  cases found : fsNormalizePath newPath with
  | none =>
      simp only [fsRename, isOpen, found] at renamed
      cases renamed
  | some normalizedPath =>
      rw [fsRename_found os isOpen found] at renamed
      obtain ⟨same, result⟩ := Prod.mk.inj renamed
      exact ⟨normalizedPath, _, rfl, Prod.ext rfl (translated_eq_ok result), same.symm⟩

/-- A file that is open is found under its latest path, and under the recorded one there is either
the same file or nothing. -/
structure Tracks (view : View σ ι) (fs : Fs σ π) (file : FsFile) (object : ι)
    (latest : CString) : Prop where
  held : view.held fs.os file.fd = some object
  named : view.named fs.os (fsTranslatePath fs.drivePath latest) = some object
  recorded : view.named fs.os file.realPath = some object ∨ view.named fs.os file.realPath = none

/-- A rename that succeeds makes the new path the latest one. -/
theorem Tracks.rename {os : Os σ} {view : View σ ι} (laws : RenameLaws os view) {fs : Fs σ π}
    {file : FsFile} {object : ι} {latest normalizedPath : CString} {state : σ}
    (tracks : Tracks view fs file object latest)
    (renamed : os.rename fs.os file.realPath (fsTranslatePath fs.drivePath normalizedPath) =
      (state, .ok ())) :
    Tracks view { fs with os := state } file object normalizedPath := by
  obtain ⟨moved, old, new⟩ := laws.renamed renamed
  have same : view.named fs.os file.realPath = some object :=
    tracks.recorded.resolve_right fun gone => by
      rw [gone] at old
      cases old
  rw [same] at old
  cases old
  refine ⟨?_, new, ?_⟩
  · rw [laws.held renamed]
    exact tracks.held
  by_cases present : view.named fs.os (fsTranslatePath fs.drivePath normalizedPath) =
      view.named fs.os file.realPath
  · exact .inl ((congrFun (laws.kept renamed present) _).trans same)
  · exact .inr (laws.moved renamed present)

/-- After any renames that succeed the file is found under its latest path. Only the system has
changed. -/
theorem renameAll_tracks {os : Os σ} {view : View σ ι} (laws : RenameLaws os view)
    {fs after : Fs σ π} {fileId : Int} {file : FsFile} {object : ι} {latest : CString}
    {newPaths : List CString} (isOpen : fsGetFile fs fileId = some file)
    (tracks : Tracks view fs file object latest)
    (renamed : renameAll os fileId fs newPaths = some after) :
    Tracks view after file object (latestPath latest newPaths) ∧
      after = { fs with os := after.os } := by
  induction newPaths generalizing fs latest with
  | nil =>
      cases renamed
      exact ⟨tracks, rfl⟩
  | cons newPath newPaths ih =>
      rw [renameAll] at renamed
      split at renamed
      · rename_i next done
        obtain ⟨normalizedPath, state, found, moved, rfl⟩ := fsRename_ok isOpen done
        have stays : fsGetFile { fs with os := state } fileId = some file := isOpen
        obtain ⟨tracked, same⟩ := ih stays (tracks.rename laws moved) renamed
        refine ⟨?_, same⟩
        rw [latestPath, List.foldl_cons, found]
        exact tracked
      · cases renamed

/-! ## What is done to a file through its paths -/

/-- What follows the renames is done to the file that is open, under its latest path: a delete and a
rename name it, and the close offers and removes it exactly if it was written to and its latest path
lies within the download folder. -/
structure FollowsRenames (os : FiniteOs σ) (pool : IdPool π) (view : View σ ι)
    (fs : Fs (σ × List CString) π) (fileId : Int) (latest : CString) : Prop where
  found : view.named fs.os.1 (fsTranslatePath fs.drivePath latest) =
    view.held fs.os.1 (fs.files fileId).fd
  delete : (fsDelete os.toOs.targeted fs fileId).1.os.2 =
    fsTranslatePath fs.drivePath latest :: fs.os.2
  rename : ∀ newPath, (fsNormalizePath newPath).isSome →
    (fsRename os.toOs.targeted fs fileId newPath).1.os.2 =
      fsTranslatePath fs.drivePath latest :: fs.os.2
  close : ∀ device pdu, pdu.request.fileId = fileId →
    (processClose os.targeted pool fs device pdu).1.os.2 =
      if 0 < (fs.files fileId).bytesWritten ∧ inDownloadFolder latest ∧ !fs.disableDownload then
        fsTranslatePath fs.drivePath latest :: fs.os.2
      else fs.os.2

theorem fsDelete_targets (os : Os σ) {fs : Fs (σ × List CString) π} {fileId : Int} {file : FsFile}
    (isOpen : fsGetFile fs fileId = some file) :
    (fsDelete os.targeted fs fileId).1.os.2 = file.realPath :: fs.os.2 := by
  simp only [fsDelete, isOpen]
  split <;> rfl

theorem fsRename_targets (os : Os σ) {fs : Fs (σ × List CString) π} {fileId : Int}
    {newPath : CString} {file : FsFile} (isOpen : fsGetFile fs fileId = some file)
    (found : (fsNormalizePath newPath).isSome) :
    (fsRename os.targeted fs fileId newPath).1.os.2 = file.realPath :: fs.os.2 := by
  obtain ⟨normalizedPath, normalized⟩ := Option.isSome_iff_exists.mp found
  rw [fsRename_found os.targeted isOpen normalized]
  rfl

theorem fsClose_targets (os : Os σ) (pool : IdPool π) (fs : Fs (σ × List CString) π)
    (fileId : Int) : (fsClose os.targeted pool fs fileId).os.2 = fs.os.2 := by
  unfold fsClose
  split
  · rfl
  · dsimp only
    split <;> rfl

theorem nativeOpen_targets (os : Os σ) (state : σ × List CString) (realPath : CString)
    (flags : OpenFlags) : (nativeOpen os.targeted state realPath flags).1.2 = state.2 := by
  rcases nativeOpen_cases os.targeted state realPath flags
    with ⟨after, result, first, _, same⟩ | ⟨next, after, result, first, second, same⟩
  · rw [same]
    exact congrArg (fun result => result.1.2) first.symm
  · rw [same]
    have kept : next.2 = state.2 := congrArg (fun result => result.1.2) first.symm
    have again : after.2 = next.2 := congrArg (fun result => result.1.2) second.symm
    exact again.trans kept

theorem createDirectory_targets (os : Os σ) (state : σ × List CString) (realPath : CString)
    (createOptions : UInt32) (flags : OpenFlags) :
    (createDirectory os.targeted state realPath createOptions flags).1.2 = state.2 := by
  by_cases asked : createOptions &&& fileDirectoryFile ≠ 0 ∧ flags.creat
  · rcases made : os.targeted.mkdir state realPath with ⟨next, result⟩
    have kept : next.2 = state.2 := congrArg (fun result => result.1.2) made.symm
    rcases createDirectory_asked os.targeted asked made with ⟨_, same⟩ | ⟨_, _, same⟩
    all_goals
      rw [same]
      exact kept
  · rw [createDirectory, if_neg asked]

/-- An open that supersedes nothing removes and renames nothing. -/
theorem fsOpenRequest_targets (os : Os σ) (pool : IdPool π) (fs : Fs (σ × List CString) π)
    {request : OpenRequest} (keeps : request.createDisposition ≠ fileSupersede) :
    (fsOpenRequest os.targeted pool fs request).1.os.2 = fs.os.2 := by
  cases ready : prepared fs request with
  | none =>
      obtain ⟨error, refused⟩ := fsOpen_refused os.targeted pool ready
      rw [refused]
  | some plan =>
      obtain ⟨normalizedPath, flags⟩ := plan
      have called : (openSystem os.targeted fs.os (fsTranslatePath fs.drivePath normalizedPath)
          request flags).1.2 = fs.os.2 := by
        have created := createDirectory_targets os fs.os
          (fsTranslatePath fs.drivePath normalizedPath) request.createOptions flags
        unfold openSystem superseded
        rw [if_neg keeps]
        revert created
        generalize createDirectory os.targeted fs.os _ _ flags = made
        obtain ⟨state, error | flags'⟩ := made
        · exact id
        · exact (nativeOpen_targets os state _ flags').trans
      rw [fsOpen_prepared os.targeted pool ready]
      revert called
      generalize openSystem os.targeted fs.os _ request flags = result
      obtain ⟨state, error | fd⟩ := result <;> exact id

/-- A file is offered to the owner by opening it, if it is offered at all. -/
theorem downloadToOwner_cases (os : FiniteOs σ) (pool : IdPool π) (fs : Fs σ π) (owned : Bool)
    (path : CString) :
    downloadToOwner os pool fs owned path = fs ∨
      downloadToOwner os pool fs owned path =
        (fsOpenRequest os.toOs pool fs ⟨path, fileReadData, fileOpen, 0⟩).1 := by
  unfold downloadToOwner downloadToUser Session.idle
  by_cases present : owned = true
  · rw [if_pos present]
    dsimp only
    rw [if_neg (by decide)]
    by_cases disabled : fs.disableDownload = true
    · rw [if_pos disabled]
      exact .inl rfl
    · rw [if_neg disabled]
      unfold fsOpenRequest
      generalize fsOpen os.toOs pool fs path fileReadData fileOpen 0 = result
      obtain ⟨after, error | fileId⟩ := result <;> exact .inr rfl
  · rw [if_neg present]
    exact .inl rfl

/-- A normalized path is rooted, and opened as it is. -/
theorem rootedPath_normalized {path : CString} (normalized : fsNormalizePath path = some path) :
    (rootedPath path).bind fsNormalizePath = some path := by
  cases path with
  | nil => cases normalized
  | cons first rest =>
      have separator : isSeparator first = true := by
        by_contra other
        rw [fsNormalizePath, if_pos (by simpa using other)] at normalized
        cases normalized
      have absolute : ¬ (first ≠ backslash ∧ first ≠ slash) := by
        rintro ⟨left, right⟩
        rw [isSeparator, beq_eq_false_iff_ne.mpr left, beq_eq_false_iff_ne.mpr right] at separator
        cases separator
      rw [rootedPath, if_neg absolute]
      exact normalized

/-- Offering a file under its recorded path leaves its slot with the same real path. -/
theorem downloadToOwner_targets (os : FiniteOs σ) (pool : IdPool π)
    {fs : Fs (σ × List CString) π} {fileId : Int} (records : RecordsPath fs fileId)
    (owned : Bool) :
    ((downloadToOwner os.targeted pool fs owned (fs.files fileId).absolutePath).files
        fileId).realPath = (fs.files fileId).realPath ∧
      (downloadToOwner os.targeted pool fs owned (fs.files fileId).absolutePath).os.2 =
        fs.os.2 := by
  rcases downloadToOwner_cases os.targeted pool fs owned (fs.files fileId).absolutePath
    with same | opened
  · rw [same]
    exact ⟨rfl, rfl⟩
  have keeps : fileOpen ≠ fileSupersede := by decide
  rw [opened]
  refine ⟨?_, fsOpenRequest_targets os.toOs pool fs keeps⟩
  rcases fsOpenRequest_slot os.targeted.toOs pool fs
    ⟨(fs.files fileId).absolutePath, fileReadData, fileOpen, 0⟩ fileId with same | holds
  · rw [same]
  · have path := holds.normalized
    rw [rootedPath_normalized records.normalized] at path
    rw [holds.translated, fsOpenRequest_drivePath, ← Option.some.inj path, records.translated]

/-- A close offers and removes the file exactly if it was written to and its recorded path lies
within the download folder. -/
theorem processClose_targets (os : FiniteOs σ) (pool : IdPool π)
    {fs : Fs (σ × List CString) π} {fileId : Int} {file : FsFile}
    (isOpen : fsGetFile fs fileId = some file) (records : RecordsPath fs fileId)
    (device : FsDevice) {pdu : RdpdrPdu} (named : pdu.request.fileId = fileId) :
    (processClose os.targeted pool fs device pdu).1.os.2 =
      if 0 < file.bytesWritten ∧ inDownloadFolder file.absolutePath ∧ !fs.disableDownload then
        file.realPath :: fs.os.2
      else fs.os.2 := by
  obtain ⟨inside, rfl⟩ := fsGetFile_slot isOpen
  obtain ⟨realPath, targets⟩ := downloadToOwner_targets os pool records pdu.owned
  simp only [processClose, answer, named, isOpen, targeted_toOs, fsClose_targets]
  split
  · exact (fsDelete_targets os.toOs (fsGetFile_eq_some inside)).trans
      (congrArg₂ List.cons realPath targets)
  · rfl

/-- Something is put in front of a list under one of two conditions. -/
theorem cons_ite_eq_iff {α : Type*} (target : α) (targets : List α) (left right : Prop)
    [Decidable left] [Decidable right] :
    ((if left then target :: targets else targets) =
        if right then target :: targets else targets) ↔ (left ↔ right) := by
  by_cases leftHolds : left <;> by_cases rightHolds : right <;> simp [leftHolds, rightHolds]

/-- After any renames of an open file that succeed, a delete or rename names its latest path and a
close judges the file by it, exactly if the latest path leads to the recorded real path, and, where
the judgement matters, lies within the download folder like the recorded one. -/
theorem renamed_followed_iff (os : FiniteOs σ) (pool : IdPool π) {view : View σ ι}
    (laws : RenameLaws os.toOs view) {fs after : Fs (σ × List CString) π} {fileId : Int}
    (opened : OpenedBefore os.toOs.targeted pool fs fileId) {file : FsFile}
    (isOpen : fsGetFile fs fileId = some file) {object : ι}
    (held : view.held fs.os.1 file.fd = some object)
    (named : view.named fs.os.1 file.realPath = some object) (newPaths : List CString)
    (renamed : renameAll os.toOs.targeted fileId fs newPaths = some after) :
    FollowsRenames os pool view after fileId (latestPath file.absolutePath newPaths) ↔
      fsTranslatePath fs.drivePath (latestPath file.absolutePath newPaths) = file.realPath ∧
        (0 < file.bytesWritten → fs.disableDownload = false →
          inDownloadFolder (latestPath file.absolutePath newPaths) =
            inDownloadFolder file.absolutePath) := by
  obtain ⟨_, rfl⟩ := fsGetFile_slot isOpen
  have records := opened.records
  have start : Tracks view.targeted fs (fs.files fileId) object (fs.files fileId).absolutePath := by
    refine ⟨held, ?_, .inl named⟩
    rw [← records.translated]
    exact named
  obtain ⟨tracks, same⟩ := renameAll_tracks laws.targeted isOpen start renamed
  generalize latestPath (fs.files fileId).absolutePath newPaths = latest at tracks ⊢
  rw [same] at tracks ⊢
  have stays : fsGetFile { fs with os := after.os } fileId = some (fs.files fileId) := isOpen
  have kept : RecordsPath { fs with os := after.os } fileId :=
    (KeepsPaths.ofSystem fs after.os).records records
  have closes (device : FsDevice) (pdu : RdpdrPdu) (addressed : pdu.request.fileId = fileId) :=
    processClose_targets os pool stays kept device addressed
  constructor
  · intro follows
    have target := follows.delete
    rw [fsDelete_targets os.toOs stays] at target
    have latestReal := (List.cons.inj target).1.symm
    refine ⟨latestReal, fun written enabled => ?_⟩
    have closed := follows.close { deviceId := 0, deviceName := [] }
      { owned := false, stream := [],
        request := { deviceId := 0, fileId := fileId, completionId := 0, majorFunc := 2,
                     minorFunc := 0 } } rfl
    rw [closes _ _ rfl, latestReal, cons_ite_eq_iff] at closed
    have same : inDownloadFolder (fs.files fileId).absolutePath = true ↔
        inDownloadFolder latest = true := by
      simpa only [written, enabled, true_and, Bool.not_false, and_true] using closed
    exact (Bool.eq_iff_iff.mpr same).symm
  · rintro ⟨latestReal, judged⟩
    refine ⟨tracks.named.trans tracks.held.symm, ?_, fun newPath found => ?_,
      fun device pdu addressed => ?_⟩
    · rw [fsDelete_targets os.toOs stays, latestReal]
    · rw [fsRename_targets os.toOs stays found, latestReal]
    · rw [closes device pdu addressed, latestReal, cons_ite_eq_iff]
      refine and_congr_right fun written => ?_
      cases enabled : fs.disableDownload
      · rw [judged written enabled]
      · simp only [Bool.not_true, Bool.false_eq_true, and_false]

end

/-! ## A file that is renamed once -/

/-- A drive with one file, whose system records what is removed or renamed. -/
def renameFs : Fs (Volume × List CString) QueuePool :=
  { oneFile with os := (oneFile.os, []) }

/-- The drive after its file was opened, as the file ID 0. -/
def renameFsOpened : Fs (Volume × List CString) QueuePool :=
  (fsOpenRequest volumeOs.toOs.targeted queuePool renameFs
    ⟨ascii "\\a", genericWrite, fileOpen, 0⟩).1

/-- The drive after some renames of the file. -/
def renameFsAfter (newPaths : List CString) : Option (Fs (Volume × List CString) QueuePool) :=
  renameAll volumeOs.toOs.targeted 0 renameFsOpened newPaths

theorem renameFs_opened : OpenedBefore volumeOs.toOs.targeted queuePool renameFsOpened 0 :=
  ⟨renameFs, ⟨ascii "\\a", genericWrite, fileOpen, 0⟩, renameFsOpened, [], rfl, rfl⟩

/-- A file is renamed to its own path, written in another way. -/
theorem renamed_followed_same :
    ∃ after, renameFsAfter [ascii "/x/../a"] = some after ∧
      FollowsRenames volumeOs queuePool volumeView after 0
        (latestPath (ascii "\\a") [ascii "/x/../a"]) :=
  ⟨_, rfl, (renamed_followed_iff volumeOs queuePool volume_renameLaws renameFs_opened rfl rfl rfl
    [ascii "/x/../a"] rfl).mpr ⟨by decide, fun _ _ => by decide⟩⟩

/-- A file is renamed to another path. It cannot be deleted afterwards, as its old name is gone. -/
theorem renamed_not_followed :
    ∃ after, renameFsAfter [ascii "\\b"] = some after ∧
      (fsDelete volumeOs.toOs.targeted after 0).2 = .error .enoent ∧
      ¬ FollowsRenames volumeOs queuePool volumeView after 0
        (latestPath (ascii "\\a") [ascii "\\b"]) := by
  refine ⟨_, rfl, by decide, fun follows => ?_⟩
  have target := follows.delete
  revert target
  decide

end GuacNebula.Rdp
