import GuacNebula.Rdp.Opening
import GuacNebula.Rdp.Volume

/-! # Opens that fail

A file that is superseded is removed, and a directory that is asked for is created, before the file
is opened. Neither is undone when the open fails. `fsOpen_noEffect_iff` is that this is all that a
failed open leaves behind.
-/

namespace GuacNebula.Rdp

section

variable {σ π ι : Type*} (os : Os σ) (pool : IdPool π)

/-- A file is removed in order to be superseded. -/
def Removes (state : σ) (realPath : CString) (request : OpenRequest) : Prop :=
  request.createDisposition = fileSupersede ∧
    ∃ after, os.unlink state realPath = (after, .ok ())

/-- A directory is created in order to be opened. -/
def Creates (state : σ) (realPath : CString) (createOptions : UInt32) (flags : OpenFlags) : Prop :=
  (createOptions &&& fileDirectoryFile ≠ 0 ∧ flags.creat) ∧
    ∃ after, os.mkdir state realPath = (after, .ok ())

/-- A request has removed a file or created a directory before the file is opened. -/
def Disturbs (state : σ) (realPath : CString) (request : OpenRequest) (flags : OpenFlags) : Prop :=
  Removes os state realPath request ∨
    Creates os (superseded os state realPath request) realPath request.createOptions flags

/-- The system opens a path, for reading only if it is a directory. -/
def SystemOpens (state : σ) (realPath : CString) (flags : OpenFlags) : Prop :=
  ∃ after fd, os.openFile state realPath flags = (after, .ok fd) ∨
    ∃ next, os.openFile state realPath flags = (next, .error .eisdir) ∧
      os.openFile next realPath { flags with mode := .rdonly } = (after, .ok fd)

/-- The system opens a path after it has created the directory that is asked for, which may be there
already unless it is to be new. -/
def SystemGrants (state : σ) (realPath : CString) (createOptions : UInt32) (flags : OpenFlags) :
    Prop :=
  if createOptions &&& fileDirectoryFile ≠ 0 ∧ flags.creat then
    ∃ after result, os.mkdir state realPath = (after, result) ∧
      (result = .ok () ∨ (result = .error .eexist ∧ !flags.excl)) ∧
      SystemOpens os after realPath { flags with creat := false, excl := false }
  else SystemOpens os state realPath flags

/-- Wherever a file is removed or a directory created, the system also grants the open. -/
def Grants (fs : Fs σ π) (request : OpenRequest) : Prop :=
  ∀ normalizedPath flags, prepared fs request = some (normalizedPath, flags) →
    Disturbs os fs.os (fsTranslatePath fs.drivePath normalizedPath) request flags →
      SystemGrants os
        (superseded os fs.os (fsTranslatePath fs.drivePath normalizedPath) request)
        (fsTranslatePath fs.drivePath normalizedPath) request.createOptions flags

/-- If the request fails, the table, the number of open files, and what is found on the drive are
as before. -/
def NoEffect (view : View σ ι) (fs : Fs σ π) (request : OpenRequest) : Prop :=
  ∀ after error, fsOpenRequest os pool fs request = (after, .error error) →
    after = { fs with os := after.os } ∧ view.contents after.os = view.contents fs.os

variable {os} {view : View σ ι}

theorem nativeOpen_ok_iff {state : σ} {realPath : CString} {flags : OpenFlags} :
    (∃ after fd, nativeOpen os state realPath flags = (after, .ok fd)) ↔
      SystemOpens os state realPath flags := by
  constructor
  · rintro ⟨after, fd, opened⟩
    rcases nativeOpen_cases os state realPath flags
      with ⟨last, result, first, _, same⟩ | ⟨next, last, result, first, second, same⟩
    all_goals
      obtain ⟨rfl, value⟩ := Prod.mk.inj (same.symm.trans opened)
      obtain rfl := translated_eq_ok value
    · exact ⟨_, _, .inl first⟩
    · exact ⟨_, _, .inr ⟨next, first, second⟩⟩
  · rintro ⟨after, fd, granted⟩
    rcases nativeOpen_cases os state realPath flags
      with ⟨last, result, first, other, same⟩ | ⟨next, last, result, first, second, same⟩
    · rcases granted with opened | ⟨_, met, _⟩
      · cases first.symm.trans opened
        exact ⟨_, _, same⟩
      · cases first.symm.trans met
        exact absurd rfl other
    · rcases granted with opened | ⟨_, met, opened⟩
      · cases first.symm.trans opened
      · cases first.symm.trans met
        cases second.symm.trans opened
        exact ⟨_, _, same⟩

/-- The system calls of a request succeed exactly if the system grants what it asks for. -/
theorem openSystem_ok_iff {state : σ} {realPath : CString} {request : OpenRequest}
    {flags : OpenFlags} :
    (∃ after fd, openSystem os state realPath request flags = (after, .ok fd)) ↔
      SystemGrants os (superseded os state realPath request) realPath request.createOptions
        flags := by
  unfold openSystem SystemGrants
  by_cases asked : request.createOptions &&& fileDirectoryFile ≠ 0 ∧ flags.creat
  · rw [if_pos asked]
    rcases made : os.mkdir (superseded os state realPath request) realPath with ⟨next, result⟩
    rcases createDirectory_asked os asked made with ⟨granted, same⟩ | ⟨refused, error, same⟩
    · rw [same]
      dsimp only
      rw [nativeOpen_ok_iff]
      refine ⟨fun opens => ⟨next, result, rfl, granted, opens⟩, ?_⟩
      rintro ⟨_, _, called, _, opens⟩
      cases called
      exact opens
    · rw [same]
      constructor
      · rintro ⟨_, _, opened⟩
        cases opened
      · rintro ⟨_, _, called, granted, _⟩
        cases called
        exact absurd granted refused
  · rw [if_neg asked, createDirectory, if_neg asked]
    exact nativeOpen_ok_iff

/-- What fails leaves everything as the directory that was created for it left it. -/
theorem nativeOpen_error (laws : CreationLaws os view) {state after : σ} {realPath : CString}
    {flags : OpenFlags} {error : FsError}
    (failed : nativeOpen os state realPath flags = (after, .error error)) :
    view.contents after = view.contents state := by
  rcases nativeOpen_cases os state realPath flags
    with ⟨last, result, first, _, same⟩ | ⟨next, last, result, first, second, same⟩
  all_goals
    obtain ⟨rfl, value⟩ := Prod.mk.inj (same.symm.trans failed)
    obtain ⟨errno, rfl⟩ := translated_eq_error value
  · exact laws.open_failed first
  · exact (laws.open_failed second).trans (laws.open_failed first)

/-- A directory is created where there was nothing, or everything stays in place. -/
theorem createDirectory_cases (laws : CreationLaws os view) {state after : σ}
    {realPath : CString} {createOptions : UInt32} {flags : OpenFlags}
    {result : Except FsError OpenFlags}
    (created : createDirectory os state realPath createOptions flags = (after, result)) :
    (Creates os state realPath createOptions flags ∧ view.named state realPath = none ∧
        ∃ file, view.named after realPath = some file ∧ view.isDirectory after file = true) ∨
      (¬ Creates os state realPath createOptions flags ∧
        view.contents after = view.contents state) := by
  by_cases asked : createOptions &&& fileDirectoryFile ≠ 0 ∧ flags.creat
  · rcases made : os.mkdir state realPath with ⟨next, done⟩
    obtain rfl : after = next := by
      rcases createDirectory_asked os asked made with ⟨_, same⟩ | ⟨_, _, same⟩
      all_goals exact (Prod.mk.inj (created.symm.trans same)).1
    cases done with
    | ok value => exact .inl ⟨⟨asked, _, made⟩, laws.created made⟩
    | error errno =>
        refine .inr ⟨fun ⟨_, _, granted⟩ => ?_, laws.mkdir_failed made⟩
        cases made.symm.trans granted
  · rw [createDirectory, if_neg asked] at created
    cases created
    exact .inr ⟨mt And.left asked, rfl⟩

/-- A file that was no directory is gone, or everything stays in place. -/
theorem superseded_cases (laws : CreationLaws os view) (state : σ) (realPath : CString)
    (request : OpenRequest) :
    (Removes os state realPath request ∧
        (∃ file, view.named state realPath = some file ∧ view.isDirectory state file = false) ∧
        view.named (superseded os state realPath request) realPath = none) ∨
      (¬ Removes os state realPath request ∧
        view.contents (superseded os state realPath request) = view.contents state) := by
  unfold superseded
  by_cases supersedes : request.createDisposition = fileSupersede
  · rw [if_pos supersedes]
    rcases removed : os.unlink state realPath with ⟨after, errno | _⟩
    · refine .inr ⟨fun ⟨_, _, granted⟩ => ?_, laws.unlink_failed removed⟩
      rw [removed] at granted
      cases granted
    · obtain ⟨file, named, plain, gone⟩ := laws.unlinked removed
      exact .inl ⟨⟨supersedes, _, removed⟩, ⟨file, named, plain⟩, gone⟩
  · rw [if_neg supersedes]
    exact .inr ⟨mt And.left supersedes, rfl⟩

/-- The system calls of a request that fails leave everything in place exactly if they removed no
file and created no directory. -/
theorem openSystem_error (laws : CreationLaws os view) {state after : σ} {realPath : CString}
    {request : OpenRequest} {flags : OpenFlags} {error : FsError}
    (failed : openSystem os state realPath request flags = (after, .error error)) :
    view.contents after = view.contents state ↔ ¬ Disturbs os state realPath request flags := by
  unfold openSystem at failed
  rcases created : createDirectory os (superseded os state realPath request) realPath
    request.createOptions flags with ⟨next, result⟩
  have same : view.contents after = view.contents next := by
    rw [created] at failed
    cases result with
    | error error => cases failed; rfl
    | ok flags' => exact nativeOpen_error laws failed
  rw [same]
  rcases superseded_cases laws state realPath request
    with ⟨removes, ⟨file, named, plain⟩, gone⟩ | ⟨stays, kept⟩
  · refine ⟨fun unchanged => ?_, fun undisturbed => absurd (.inl removes) undisturbed⟩
    have before := View.contents_eq_some named
    rw [plain, ← congrFun unchanged realPath] at before
    rcases createDirectory_cases laws created with ⟨_, _, made, found, directory⟩ | ⟨_, still⟩
    · rw [View.contents_eq_some found, directory] at before
      cases before
    · rw [still, View.contents_eq_none_iff.mpr gone] at before
      cases before
  · rcases createDirectory_cases laws created with ⟨creates, absent, made, found, _⟩ | ⟨none, still⟩
    · refine ⟨fun unchanged => ?_, fun undisturbed => absurd (.inr creates) undisturbed⟩
      have before := View.contents_eq_none_iff.mpr absent
      rw [kept, ← unchanged, View.contents_eq_some found] at before
      cases before
    · refine ⟨fun _ => ?_, fun _ => still.trans kept⟩
      rintro (removes | creates)
      · exact stays removes
      · exact none creates

/-- An open that fails leaves the table, the number of open files and the drive as they were,
exactly if the system grants it whenever a file was removed or a directory created for it. -/
theorem fsOpen_noEffect_iff (laws : CreationLaws os view) (fs : Fs σ π) (request : OpenRequest) :
    NoEffect os pool view fs request ↔ Grants os fs request := by
  cases ready : prepared fs request with
  | none =>
      obtain ⟨error, refused⟩ := fsOpen_refused os pool ready
      refine ⟨fun _ normalizedPath flags accepted => ?_, fun _ after _ failed => ?_⟩
      · cases ready.symm.trans accepted
      · cases refused.symm.trans failed
        exact ⟨rfl, rfl⟩
  | some plan =>
      obtain ⟨normalizedPath, flags⟩ := plan
      have opens := fsOpen_prepared os pool ready
      rcases called : openSystem os fs.os (fsTranslatePath fs.drivePath normalizedPath) request
        flags with ⟨state, error | fd⟩
      · rw [called] at opens
        have undone := openSystem_error laws called
        constructor
        · intro noEffect _ _ accepted disturbs
          cases ready.symm.trans accepted
          exact absurd disturbs (undone.mp (noEffect _ _ opens).2)
        · intro grants after _ failed
          cases opens.symm.trans failed
          refine ⟨rfl, undone.mpr fun disturbs => ?_⟩
          obtain ⟨_, _, granted⟩ :=
            openSystem_ok_iff.mpr (grants normalizedPath flags ready disturbs)
          cases called.symm.trans granted
      · rw [called] at opens
        refine ⟨fun _ _ _ accepted _ => ?_, fun _ _ _ failed => ?_⟩
        · cases ready.symm.trans accepted
          exact openSystem_ok_iff.mp ⟨_, _, called⟩
        · cases opens.symm.trans failed

end

/-! ## A directory in place of a file -/

/-- A drive with one file. -/
def oneFile : Fs Volume QueuePool := volumeFs [(ascii "/d/a", .file (ascii "text"))] (ascii "/d")

/-- A directory that is to be new is refused, and the file of its name remains. -/
theorem fsOpen_noEffect_present :
    NoEffect volumeOs.toOs queuePool volumeView oneFile
      { path := ascii "\\a", access := genericRead, createDisposition := fileCreate
        createOptions := fileDirectoryFile } := by
  refine (fsOpen_noEffect_iff queuePool volume_creationLaws oneFile _).mpr ?_
  rintro normalizedPath flags accepted (⟨supersedes, _⟩ | ⟨_, after, made⟩)
  · cases supersedes
  · obtain ⟨rfl, rfl⟩ := Prod.mk.inj (Option.some.inj accepted)
    cases made

/-- A file is superseded by a directory. The file is removed and the directory created, which is
then not opened for writing, nor to be truncated. -/
theorem fsOpen_supersedes :
    (fsOpenRequest volumeOs.toOs queuePool oneFile
        { path := ascii "\\a", access := genericWrite, createDisposition := fileSupersede
          createOptions := fileDirectoryFile }).2 = .error .eisdir ∧
      ¬ NoEffect volumeOs.toOs queuePool volumeView oneFile
        { path := ascii "\\a", access := genericWrite, createDisposition := fileSupersede
          createOptions := fileDirectoryFile } := by
  have failed : (fsOpenRequest volumeOs.toOs queuePool oneFile
      { path := ascii "\\a", access := genericWrite, createDisposition := fileSupersede
        createOptions := fileDirectoryFile }).2 = .error .eisdir := by rfl
  refine ⟨failed, fun noEffect => ?_⟩
  have unchanged := congrFun (noEffect _ _ (Prod.ext rfl failed)).2 (ascii "/d/a")
  revert unchanged
  decide

end GuacNebula.Rdp
