import GuacNebula.Rdp.Fs

/-! # What an open does

`guac_rdp_fs_open` refuses a request before it calls the system, or goes through the system calls of
the request and registers the file that was opened. All that is used of it follows from these two
cases, `fsOpen_refused` and `fsOpen_prepared`.
-/

namespace GuacNebula.Rdp

/-- The parameters of a request to open a file. -/
structure OpenRequest where
  path : CString
  access : UInt32
  createDisposition : UInt32
  createOptions : UInt32

variable {σ π : Type*}

/-- The normalized path and the flags with which a request gets as far as to the system. -/
def prepared (fs : Fs σ π) (request : OpenRequest) : Option (CString × OpenFlags) :=
  if fs.openFiles ≥ fsMaxFiles then none
  else
    ((rootedPath request.path).bind fsNormalizePath).bind fun normalizedPath =>
      (dispositionFlags (accessMode request.access) request.createDisposition).map fun flags =>
        (normalizedPath, flags)

variable (os : Os σ) (pool : IdPool π)

/-- The system once the file to be superseded has been removed. -/
def superseded (state : σ) (realPath : CString) (request : OpenRequest) : σ :=
  if request.createDisposition = fileSupersede then (os.unlink state realPath).1 else state

/-- The system calls of a request. -/
def openSystem (state : σ) (realPath : CString) (request : OpenRequest) (flags : OpenFlags) :
    σ × Except FsError Int :=
  match createDirectory os (superseded os state realPath request) realPath
    request.createOptions flags with
  | (state, .error error) => (state, .error error)
  | (state, .ok flags) => nativeOpen os state realPath flags

/-- The open of a request. -/
def fsOpenRequest (fs : Fs σ π) (request : OpenRequest) : Fs σ π × Except FsError Int :=
  fsOpen os pool fs request.path request.access request.createDisposition request.createOptions

/-! ## The system calls -/

theorem translated_eq_ok {α : Type*} {result : Except Errno α} {value : α}
    (same : translated result = .ok value) : result = .ok value := by
  cases result with
  | ok other => cases same; rfl
  | error errno => cases same

theorem translated_eq_error {α : Type*} {result : Except Errno α} {error : FsError}
    (same : translated result = .error error) : ∃ errno, result = .error errno := by
  cases result with
  | ok value => cases same
  | error errno => exact ⟨errno, rfl⟩

/-- The native open makes one call, or a second one if the first one met a directory. -/
theorem nativeOpen_cases (state : σ) (realPath : CString) (flags : OpenFlags) :
    (∃ after result, os.openFile state realPath flags = (after, result) ∧
        result ≠ .error .eisdir ∧
        nativeOpen os state realPath flags = (after, translated result)) ∨
      ∃ next after result, os.openFile state realPath flags = (next, .error .eisdir) ∧
        os.openFile next realPath { flags with mode := .rdonly } = (after, result) ∧
        nativeOpen os state realPath flags = (after, translated result) := by
  unfold nativeOpen
  rcases first : os.openFile state realPath flags with ⟨next, errno | fd⟩
  · by_cases directory : errno = .eisdir
    · subst directory
      dsimp only
      rcases second : os.openFile next realPath { flags with mode := .rdonly }
        with ⟨after, result⟩
      refine .inr ⟨next, after, result, rfl, second, ?_⟩
      cases result <;> rfl
    · refine .inl ⟨next, .error errno, rfl, fun same => directory (Except.error.inj same), ?_⟩
      cases errno
      case eisdir => exact absurd rfl directory
      all_goals rfl
  · exact .inl ⟨next, .ok fd, rfl, nofun, rfl⟩

/-- A directory that is asked for is created. That it is there already is an error only if it is to
be new. -/
theorem createDirectory_asked {state after : σ} {realPath : CString} {createOptions : UInt32}
    {flags : OpenFlags} {result : Except Errno Unit}
    (asked : createOptions &&& fileDirectoryFile ≠ 0 ∧ flags.creat)
    (made : os.mkdir state realPath = (after, result)) :
    ((result = .ok () ∨ (result = .error .eexist ∧ !flags.excl)) ∧
        createDirectory os state realPath createOptions flags =
          (after, .ok { flags with creat := false, excl := false })) ∨
      (¬ (result = .ok () ∨ (result = .error .eexist ∧ !flags.excl)) ∧
        ∃ error, createDirectory os state realPath createOptions flags =
          (after, .error error)) := by
  unfold createDirectory
  rw [if_pos asked]
  dsimp only
  rw [made]
  cases result with
  | ok done => exact .inl ⟨.inl rfl, rfl⟩
  | error errno =>
      by_cases refused : errno ≠ .eexist ∨ flags.excl
      · refine .inr ⟨?_, _, if_pos refused⟩
        rintro (granted | ⟨present, old⟩)
        · cases granted
        · cases present
          rcases refused with other | new
          · exact other rfl
          · rw [new] at old
            cases old
      · obtain ⟨present, old⟩ := not_or.mp refused
        refine .inl ⟨.inr ⟨by rw [not_not.mp present], ?_⟩, if_neg refused⟩
        rw [Bool.eq_false_iff.mpr old]
        rfl

/-! ## The request -/

theorem fsOpen_eq (fs : Fs σ π) (path : CString)
    (access createDisposition createOptions : UInt32) :
    fsOpen os pool fs path access createDisposition createOptions =
      fsOpenRequest os pool fs ⟨path, access, createDisposition, createOptions⟩ := rfl

theorem prepared_eq_some {fs : Fs σ π} {request : OpenRequest} {normalizedPath : CString}
    {flags : OpenFlags} (ready : prepared fs request = some (normalizedPath, flags)) :
    fs.openFiles < fsMaxFiles ∧
      (rootedPath request.path).bind fsNormalizePath = some normalizedPath ∧
      dispositionFlags (accessMode request.access) request.createDisposition = some flags := by
  unfold prepared at ready
  by_cases full : fs.openFiles ≥ fsMaxFiles
  · rw [if_pos full] at ready
    cases ready
  rw [if_neg full] at ready
  obtain ⟨path, found, rest⟩ := Option.bind_eq_some_iff.mp ready
  obtain ⟨_, known, same⟩ := Option.map_eq_some_iff.mp rest
  cases same
  exact ⟨Int.not_le.mp full, found, known⟩

theorem fsOpen_refused {fs : Fs σ π} {request : OpenRequest}
    (refused : prepared fs request = none) :
    ∃ error, fsOpenRequest os pool fs request = (fs, .error error) := by
  unfold prepared at refused
  unfold fsOpenRequest fsOpen
  by_cases full : fs.openFiles ≥ fsMaxFiles
  · rw [if_pos full]
    exact ⟨_, rfl⟩
  rw [if_neg full] at refused ⊢
  cases found : (rootedPath request.path).bind fsNormalizePath with
  | none => exact ⟨_, rfl⟩
  | some normalizedPath =>
      rw [found, Option.bind_some, Option.map_eq_none_iff] at refused
      rw [refused]
      exact ⟨_, rfl⟩

theorem fsOpen_prepared {fs : Fs σ π} {request : OpenRequest} {normalizedPath : CString}
    {flags : OpenFlags} (ready : prepared fs request = some (normalizedPath, flags)) :
    fsOpenRequest os pool fs request =
      match openSystem os fs.os (fsTranslatePath fs.drivePath normalizedPath) request flags with
      | (state, .error error) => ({ fs with os := state }, .error error)
      | (state, .ok fd) =>
          registerFile os pool { fs with os := state } fd normalizedPath
            (fsTranslatePath fs.drivePath normalizedPath) := by
  obtain ⟨available, found, known⟩ := prepared_eq_some ready
  unfold fsOpenRequest fsOpen openSystem superseded
  rw [if_neg (Int.not_le.mpr available), found]
  dsimp only
  rw [known]
  dsimp only
  generalize createDirectory os _ _ _ _ = created
  rcases created with ⟨state, error | flags'⟩ <;> rfl

/-- What is opened in the end is opened by the native open. -/
theorem openSystem_ok {state after : σ} {realPath : CString} {request : OpenRequest}
    {flags : OpenFlags} {fd : Int}
    (opened : openSystem os state realPath request flags = (after, .ok fd)) :
    ∃ next flags', nativeOpen os next realPath flags' = (after, .ok fd) := by
  unfold openSystem at opened
  generalize createDirectory os _ realPath request.createOptions flags = created at opened
  rcases created with ⟨next, error | flags'⟩
  · cases opened
  · exact ⟨next, flags', opened⟩

/-- An existing file is opened by nothing but the native open. -/
theorem openSystem_existing (state : σ) (realPath path : CString) (access : UInt32)
    (flags : OpenFlags) :
    openSystem os state realPath ⟨path, access, fileOpen, 0⟩ flags =
      nativeOpen os state realPath flags := by
  have keeps : fileOpen ≠ fileSupersede := by decide
  have plain : ¬ ((0 : UInt32) &&& fileDirectoryFile ≠ 0 ∧ flags.creat) := fun asked =>
    absurd asked.1 (by decide)
  rw [openSystem, superseded, if_neg keeps, createDirectory, if_neg plain]

end GuacNebula.Rdp
