import GuacNebula.Rdp.Confinement
import GuacNebula.Rdp.FailedOpen
import GuacNebula.Rdp.HandleTable

/-! # The paths recorded for a file

The slot of a file keeps the normalized path under which the file was opened, and its translation.
No later request changes either of them.
-/

namespace GuacNebula.Rdp

variable {σ π : Type*}

/-- The slot of a file holds a normalized path and its translation. -/
structure RecordsPath (fs : Fs σ π) (fileId : Int) : Prop where
  normalized : fsNormalizePath (fs.files fileId).absolutePath =
    some (fs.files fileId).absolutePath
  translated : (fs.files fileId).realPath =
    fsTranslatePath fs.drivePath (fs.files fileId).absolutePath

/-- The drive stays where it is, and every slot keeps its paths. -/
structure KeepsPaths (before after : Fs σ π) : Prop where
  drivePath : after.drivePath = before.drivePath
  absolutePath : ∀ fileId, (after.files fileId).absolutePath = (before.files fileId).absolutePath
  realPath : ∀ fileId, (after.files fileId).realPath = (before.files fileId).realPath

theorem KeepsPaths.records {before after : Fs σ π} (keeps : KeepsPaths before after) {fileId : Int}
    (records : RecordsPath before fileId) : RecordsPath after fileId where
  normalized := by rw [keeps.absolutePath]; exact records.normalized
  translated := by
    rw [keeps.realPath, keeps.absolutePath, keeps.drivePath]
    exact records.translated

/-- Nothing but the state of the system is changed. -/
theorem KeepsPaths.ofSystem (fs : Fs σ π) (state : σ) : KeepsPaths fs { fs with os := state } :=
  ⟨rfl, fun _ => rfl, fun _ => rfl⟩

/-- A path stays the same in every slot if it is the same in the slot that is written to. -/
theorem update_slot (files : Int → FsFile) {fileId : Int} {file : FsFile} (path : FsFile → CString)
    (same : path file = path (files fileId)) (other : Int) :
    path (Function.update files fileId file other) = path (files other) := by
  by_cases written : other = fileId
  · rw [written, Function.update_self, same]
  · rw [Function.update_of_ne written]

/-- A slot is written to that is given the same paths. -/
theorem KeepsPaths.ofUpdate (fs : Fs σ π) (state : σ) {fileId : Int} {file : FsFile}
    (absolutePath : file.absolutePath = (fs.files fileId).absolutePath)
    (realPath : file.realPath = (fs.files fileId).realPath) :
    KeepsPaths fs { fs with os := state, files := Function.update fs.files fileId file } where
  drivePath := rfl
  absolutePath := update_slot fs.files FsFile.absolutePath absolutePath
  realPath := update_slot fs.files FsFile.realPath realPath

variable (os : Os σ) (pool : IdPool π)

/-! ## Opening -/

/-- A slot holds the paths of a request. -/
structure HoldsPaths (fs : Fs σ π) (request : OpenRequest) (fileId : Int) : Prop where
  normalized : (rootedPath request.path).bind fsNormalizePath =
    some (fs.files fileId).absolutePath
  translated : (fs.files fileId).realPath =
    fsTranslatePath fs.drivePath (fs.files fileId).absolutePath

theorem HoldsPaths.records {fs : Fs σ π} {request : OpenRequest} {fileId : Int}
    (holds : HoldsPaths fs request fileId) : RecordsPath fs fileId where
  normalized := by
    obtain ⟨rooted, _, found⟩ := Option.bind_eq_some_iff.mp holds.normalized
    exact fsNormalizePath_again found
  translated := holds.translated

/-- What an open does to the filesystem, the system apart: a slot is filled with the paths of the
request, or nothing changes. -/
theorem fsOpenRequest_cases (fs : Fs σ π) (request : OpenRequest) :
    (∃ error, (fsOpenRequest os pool fs request).2 = .error error ∧
        (fsOpenRequest os pool fs request).1 =
          { fs with os := (fsOpenRequest os pool fs request).1.os }) ∨
      ∃ fileId file, (fsOpenRequest os pool fs request).2 = .ok fileId ∧
        (fsOpenRequest os pool fs request).1.drivePath = fs.drivePath ∧
        (fsOpenRequest os pool fs request).1.disableDownload = fs.disableDownload ∧
        (fsOpenRequest os pool fs request).1.files = Function.update fs.files fileId file ∧
        (rootedPath request.path).bind fsNormalizePath = some file.absolutePath ∧
        file.realPath = fsTranslatePath fs.drivePath file.absolutePath := by
  cases ready : prepared fs request with
  | none =>
      obtain ⟨error, refused⟩ := fsOpen_refused os pool ready
      rw [refused]
      exact .inl ⟨error, rfl, rfl⟩
  | some plan =>
      obtain ⟨normalizedPath, flags⟩ := plan
      rw [fsOpen_prepared os pool ready]
      generalize openSystem os fs.os _ request flags = called
      obtain ⟨state, error | fd⟩ := called
      · exact .inl ⟨error, rfl, rfl⟩
      · exact .inr ⟨_, _, rfl, rfl, rfl, rfl, (prepared_eq_some ready).2.1, rfl⟩

/-- After an open every slot is as it was, or holds the paths of the request. -/
theorem fsOpenRequest_slot (fs : Fs σ π) (request : OpenRequest) (fileId : Int) :
    (fsOpenRequest os pool fs request).1.files fileId = fs.files fileId ∨
      HoldsPaths (fsOpenRequest os pool fs request).1 request fileId := by
  rcases fsOpenRequest_cases os pool fs request
    with ⟨_, _, same⟩ | ⟨opened, file, _, drive, _, files, normalized, translated⟩
  · exact .inl (by rw [same])
  by_cases taken : fileId = opened
  · refine .inr ⟨?_, ?_⟩
    · rw [files, taken, Function.update_self, normalized]
    · rw [files, taken, Function.update_self, drive, translated]
  · exact .inl (by rw [files, Function.update_of_ne taken])

theorem fsOpenRequest_drivePath (fs : Fs σ π) (request : OpenRequest) :
    (fsOpenRequest os pool fs request).1.drivePath = fs.drivePath := by
  rcases fsOpenRequest_cases os pool fs request with ⟨_, _, same⟩ | ⟨_, _, _, drive, _⟩
  · rw [same]
  · exact drive

/-- The slot of the file that was opened holds the paths of the request. -/
theorem fsOpenRequest_records {fs after : Fs σ π} {request : OpenRequest} {fileId : Int}
    (opened : fsOpenRequest os pool fs request = (after, .ok fileId)) :
    RecordsPath after fileId := by
  have cases := fsOpenRequest_cases os pool fs request
  rw [opened] at cases
  rcases cases with ⟨_, failed, _⟩ | ⟨_, file, taken, drive, _, files, normalized, translated⟩
  · cases failed
  cases taken
  have holds : HoldsPaths after request fileId := by
    refine ⟨?_, ?_⟩
    · rw [files, Function.update_self, normalized]
    · rw [files, Function.update_self, translated, drive]
  exact holds.records

/-- An open keeps the paths of every slot consistent. -/
theorem RecordsPath.opened {fs : Fs σ π} {fileId : Int} (records : RecordsPath fs fileId)
    (request : OpenRequest) : RecordsPath (fsOpenRequest os pool fs request).1 fileId := by
  rcases fsOpenRequest_slot os pool fs request fileId with same | holds
  · refine ⟨?_, ?_⟩
    · rw [same]
      exact records.normalized
    · rw [same, fsOpenRequest_drivePath]
      exact records.translated
  · exact holds.records

/-! ## Runs -/

theorem openDir_keepsPaths (fs : Fs σ π) (fileId : Int) :
    KeepsPaths fs (openDir os fs fileId).1 := by
  unfold openDir
  dsimp only
  split
  · exact .ofSystem fs fs.os
  split
  · exact .ofSystem fs _
  · exact .ofUpdate fs _ rfl rfl

theorem serve_keepsPaths (fs : Fs σ π) (request : FsRequest)
    (notOpen : ∀ path access createDisposition createOptions,
      request ≠ .openFile path access createDisposition createOptions) :
    KeepsPaths fs (serve os pool fs request).1 := by
  cases request with
  | openFile path access createDisposition createOptions => exact (notOpen _ _ _ _ rfl).elim
  | closeFile fileId =>
      simp only [serve, fsClose]
      split <;> exact ⟨rfl, fun _ => rfl, fun _ => rfl⟩
  | readFile fileId offset length =>
      simp only [serve, fsRead]
      split <;> exact .ofSystem fs _
  | writeFile fileId offset buffer =>
      simp only [serve, fsWrite]
      split
      · exact .ofSystem fs fs.os
      rename_i file isOpen
      split
      · exact .ofSystem fs _
      · obtain ⟨_, rfl⟩ := fsGetFile_slot isOpen
        exact .ofUpdate fs _ rfl rfl
  | renameFile fileId newPath =>
      simp only [serve, fsRename]
      split
      · exact .ofSystem fs fs.os
      split
      · exact .ofSystem fs fs.os
      · exact .ofSystem fs _
  | deleteFile fileId =>
      simp only [serve, fsDelete]
      split <;> exact .ofSystem fs _
  | truncateFile fileId length =>
      simp only [serve, fsTruncate]
      split <;> exact .ofSystem fs _
  | readDir fileId =>
      have kept := openDir_keepsPaths os fs fileId
      simp only [serve, fsReadDir]
      split
      · exact .ofSystem fs fs.os
      split <;> rename_i result <;> rw [result] at kept
      · exact kept
      · exact ⟨kept.drivePath, kept.absolutePath, kept.realPath⟩

/-- Every request keeps the paths of every slot consistent. -/
theorem RecordsPath.serve {fs : Fs σ π} {fileId : Int} (records : RecordsPath fs fileId)
    (request : FsRequest) : RecordsPath (serveStep os pool fs request) fileId := by
  cases request with
  | openFile path access createDisposition createOptions =>
      exact records.opened os pool ⟨path, access, createDisposition, createOptions⟩
  | _ => exact (serve_keepsPaths os pool fs _ (by simp)).records records

/-- The file ID was returned by an open, with any requests since. -/
def OpenedBefore (fs : Fs σ π) (fileId : Int) : Prop :=
  ∃ before request after requests,
    fsOpenRequest os pool before request = (after, .ok fileId) ∧
      fs = Run.exec (serveStep os pool) after requests

theorem OpenedBefore.records {fs : Fs σ π} {fileId : Int}
    (opened : OpenedBefore os pool fs fileId) : RecordsPath fs fileId := by
  obtain ⟨before, request, after, requests, succeeded, rfl⟩ := opened
  exact @Run.exec_invariant _ _ _ (fun fs => RecordsPath fs fileId) _ _
    (fsOpenRequest_records os pool succeeded) fun _ next records => records.serve os pool next

end GuacNebula.Rdp
