import GuacNebula.Lib.Run
import GuacNebula.Rdp.Disk
import GuacNebula.Rdp.Opening

/-! # The table of open files

The remote server sends file IDs as it likes, and `fsGetFile` accepts every ID that lies
within the table. The law expected of the table is `HandleLaw`: the open-file counter counts
the open IDs, no ID is open twice, and a request for an ID that is not open is refused
without effect. It fails once an unopened slot is named (`double_close_breaks_handleLaw`);
it holds in every run that names open IDs and IDs outside the table only
(`handleLaw_of_namesOpen`).
-/

namespace GuacNebula.Rdp

/-- A request of the remote server to the filesystem. -/
inductive FsRequest
  | openFile (path : CString) (access createDisposition createOptions : UInt32)
  | closeFile (fileId : Int)
  | readFile (fileId : Int) (offset : UInt64) (length : Nat)
  | writeFile (fileId : Int) (offset : UInt64) (buffer : List UInt8)
  | renameFile (fileId : Int) (newPath : CString)
  | deleteFile (fileId : Int)
  | truncateFile (fileId length : Int)
  | readDir (fileId : Int)

/-- The file ID that a request names. -/
def FsRequest.named : FsRequest → Option Int
  | .openFile .. => none
  | .closeFile fileId => some fileId
  | .readFile fileId .. => some fileId
  | .writeFile fileId .. => some fileId
  | .renameFile fileId _ => some fileId
  | .deleteFile fileId => some fileId
  | .truncateFile fileId _ => some fileId
  | .readDir fileId => some fileId

/-- What a request returns. A close has no result: `ignored` is the close of an ID that
`guac_rdp_fs_get_file` does not accept, which is also all that the caller can tell. -/
inductive FsReply
  | opened (fileId : Int)
  | closed
  | data (bytes : List UInt8)
  | written (count : Nat)
  | done
  | entry (name : CString)
  | failed (error : FsError)
  | noEntry
  | ignored

/-- The replies that report an error. -/
def FsReply.isError : FsReply → Bool
  | .failed _ => true
  | .noEntry => true
  | .ignored => true
  | _ => false

/-- The reply for a result. -/
def FsReply.of {α : Type*} (success : α → FsReply) : Except FsError α → FsReply
  | .ok value => success value
  | .error error => .failed error

variable {σ π : Type*} (os : Os σ) (pool : IdPool π)

/-- The filesystem serving one request. -/
def serve (fs : Fs σ π) : FsRequest → Fs σ π × FsReply
  | .openFile path access createDisposition createOptions =>
      let (fs, result) := fsOpen os pool fs path access createDisposition createOptions
      (fs, .of .opened result)
  | .closeFile fileId =>
      (fsClose os pool fs fileId, if (fsGetFile fs fileId).isSome then .closed else .ignored)
  | .readFile fileId offset length =>
      let (fs, result) := fsRead os fs fileId offset length
      (fs, .of .data result)
  | .writeFile fileId offset buffer =>
      let (fs, result) := fsWrite os fs fileId offset buffer
      (fs, .of .written result)
  | .renameFile fileId newPath =>
      let (fs, result) := fsRename os fs fileId newPath
      (fs, .of (fun _ => .done) result)
  | .deleteFile fileId =>
      let (fs, result) := fsDelete os fs fileId
      (fs, .of (fun _ => .done) result)
  | .truncateFile fileId length =>
      let (fs, result) := fsTruncate os fs fileId length
      (fs, .of (fun _ => .done) result)
  | .readDir fileId =>
      let (fs, name) := fsReadDir os fs fileId
      (fs, name.elim .noEntry .entry)

/-- The state after a request. -/
def serveStep (fs : Fs σ π) (request : FsRequest) : Fs σ π := (serve os pool fs request).1

/-- The IDs currently open. -/
def openIds (fs : Fs σ π) : List Int := pool.outstanding fs.fileIdPool

/-- The counter counts the open IDs, and no ID is open twice. -/
structure TableConsistent (fs : Fs σ π) : Prop where
  counted : fs.openFiles = (openIds pool fs).length
  distinct : (openIds pool fs).Nodup

/-- A request for an ID that is not open reports an error and changes nothing. -/
def RefusesUnopened (fs : Fs σ π) (request : FsRequest) : Prop :=
  ∀ fileId, request.named = some fileId → fileId ∉ openIds pool fs →
    (serve os pool fs request).2.isError = true ∧ (serve os pool fs request).1 = fs

/-- What is expected of the file table throughout a run. -/
def HandleLaw (fs : Fs σ π) (requests : List FsRequest) : Prop :=
  Run.Always (serveStep os pool) (TableConsistent pool) fs requests ∧
    Run.Guarded (serveStep os pool) (RefusesUnopened os pool) fs requests

/-- A request names an open ID, or one outside the table. -/
def NamesOpen (fs : Fs σ π) (request : FsRequest) : Prop :=
  ∀ fileId, request.named = some fileId →
    fileId ∈ openIds pool fs ∨ fileId < 0 ∨ fileId ≥ fsMaxFiles

/-- A filesystem as `guac_rdp_fs_alloc` returns it. -/
structure Allocated (fs : Fs σ π) : Prop where
  openFiles : fs.openFiles = 0
  noneOpen : openIds pool fs = []
  valid : pool.valid fs.fileIdPool

/-- The invariant of a run: the table is consistent, and the pool was only given back IDs
that were open. -/
structure TableInvariant (fs : Fs σ π) : Prop extends TableConsistent pool fs where
  valid : pool.valid fs.fileIdPool

/-! ## What the operations do to the table -/

/-- An operation leaves the counter and the ID pool alone. -/
structure KeepsTable (before after : Fs σ π) : Prop where
  openFiles : after.openFiles = before.openFiles
  fileIdPool : after.fileIdPool = before.fileIdPool

variable {os pool}

theorem Allocated.invariant {fs : Fs σ π} (allocated : Allocated pool fs) :
    TableInvariant pool fs where
  counted := by rw [allocated.openFiles, allocated.noneOpen]; rfl
  distinct := by rw [allocated.noneOpen]; exact List.nodup_nil
  valid := allocated.valid

theorem KeepsTable.invariant {before after : Fs σ π} (keeps : KeepsTable before after)
    (invariant : TableInvariant pool before) : TableInvariant pool after where
  counted := by rw [openIds, keeps.openFiles, keeps.fileIdPool]; exact invariant.counted
  distinct := by rw [openIds, keeps.fileIdPool]; exact invariant.distinct
  valid := by rw [keeps.fileIdPool]; exact invariant.valid

theorem fsGetFile_eq_none {fs : Fs σ π} {fileId : Int}
    (outside : fileId < 0 ∨ fileId ≥ fsMaxFiles) : fsGetFile fs fileId = none := by
  simp only [fsGetFile, outside, ↓reduceIte]

theorem fsGetFile_eq_some {fs : Fs σ π} {fileId : Int}
    (inside : ¬ (fileId < 0 ∨ fileId ≥ fsMaxFiles)) :
    fsGetFile fs fileId = some (fs.files fileId) := by
  simp only [fsGetFile, inside, ↓reduceIte]

/-- A file that is found is in the slot of its ID, within the table. -/
theorem fsGetFile_slot {fs : Fs σ π} {fileId : Int} {file : FsFile}
    (found : fsGetFile fs fileId = some file) :
    ¬ (fileId < 0 ∨ fileId ≥ fsMaxFiles) ∧ fs.files fileId = file := by
  have inside : ¬ (fileId < 0 ∨ fileId ≥ fsMaxFiles) := by
    intro outside
    rw [fsGetFile_eq_none outside] at found
    cases found
  rw [fsGetFile_eq_some inside] at found
  exact ⟨inside, Option.some.inj found⟩

variable (os pool) in
/-- An open either fails without touching the table, or returns the next ID of the pool. It
succeeds only while fewer than `fsMaxFiles` files are open. -/
theorem fsOpen_cases (fs : Fs σ π) (path : CString)
    (access createDisposition createOptions : UInt32) :
    (∃ error, (fsOpen os pool fs path access createDisposition createOptions).2 = .error error ∧
      KeepsTable fs (fsOpen os pool fs path access createDisposition createOptions).1) ∨
    (fs.openFiles < fsMaxFiles ∧
      (fsOpen os pool fs path access createDisposition createOptions).2 =
        .ok (pool.nextInt fs.fileIdPool).1 ∧
      (fsOpen os pool fs path access createDisposition createOptions).1.openFiles =
        fs.openFiles + 1 ∧
      (fsOpen os pool fs path access createDisposition createOptions).1.fileIdPool =
        (pool.nextInt fs.fileIdPool).2) := by
  rw [fsOpen_eq]
  cases ready : prepared fs ⟨path, access, createDisposition, createOptions⟩ with
  | none =>
      obtain ⟨error, refused⟩ := fsOpen_refused os pool ready
      rw [refused]
      exact .inl ⟨error, rfl, rfl, rfl⟩
  | some plan =>
      obtain ⟨normalizedPath, flags⟩ := plan
      rw [fsOpen_prepared os pool ready]
      generalize openSystem os fs.os _ _ flags = called
      obtain ⟨state, error | fd⟩ := called
      · exact .inl ⟨error, rfl, rfl, rfl⟩
      · exact .inr ⟨(prepared_eq_some ready).1, rfl, rfl, rfl⟩

variable (os pool) in
/-- Closing an ID within the table gives it back to the pool and counts down, whether or not
it was open. -/
theorem fsClose_inside (fs : Fs σ π) {fileId : Int}
    (inside : ¬ (fileId < 0 ∨ fileId ≥ fsMaxFiles)) :
    (fsClose os pool fs fileId).openFiles = fs.openFiles - 1 ∧
      (fsClose os pool fs fileId).fileIdPool = pool.freeInt fs.fileIdPool fileId := by
  simp only [fsClose, fsGetFile_eq_some inside, and_self]

variable (os) in
theorem openDir_keepsTable (fs : Fs σ π) (fileId : Int) :
    KeepsTable fs (openDir os fs fileId).1 := by
  unfold openDir
  dsimp only
  split
  · exact ⟨rfl, rfl⟩
  split <;> exact ⟨rfl, rfl⟩

variable (os) in
theorem fsReadDir_keepsTable (fs : Fs σ π) (fileId : Int) :
    KeepsTable fs (fsReadDir os fs fileId).1 := by
  have opened := openDir_keepsTable os fs fileId
  unfold fsReadDir
  split
  · exact ⟨rfl, rfl⟩
  split <;> rename_i result <;> rw [result] at opened <;> exact ⟨opened.1, opened.2⟩

/-- A request that is neither an open nor a close leaves the table alone. -/
theorem serve_keepsTable (fs : Fs σ π) (request : FsRequest)
    (notOpen : ∀ path access createDisposition createOptions,
      request ≠ .openFile path access createDisposition createOptions)
    (notClose : ∀ fileId, request ≠ .closeFile fileId) :
    KeepsTable fs (serve os pool fs request).1 := by
  cases request with
  | openFile path access createDisposition createOptions =>
      exact (notOpen _ _ _ _ rfl).elim
  | closeFile fileId => exact (notClose _ rfl).elim
  | readFile fileId offset length =>
      simp only [serve, fsRead]
      split <;> exact ⟨rfl, rfl⟩
  | writeFile fileId offset buffer =>
      simp only [serve, fsWrite]
      split
      · exact ⟨rfl, rfl⟩
      split <;> exact ⟨rfl, rfl⟩
  | renameFile fileId newPath =>
      simp only [serve, fsRename]
      split
      · exact ⟨rfl, rfl⟩
      split <;> exact ⟨rfl, rfl⟩
  | deleteFile fileId =>
      simp only [serve, fsDelete]
      split <;> exact ⟨rfl, rfl⟩
  | truncateFile fileId length =>
      simp only [serve, fsTruncate]
      split <;> exact ⟨rfl, rfl⟩
  | readDir fileId => exact fsReadDir_keepsTable os fs fileId

/-- A request for an ID outside the table is refused. -/
theorem serve_outside (fs : Fs σ π) (request : FsRequest) {fileId : Int}
    (named : request.named = some fileId) (outside : fileId < 0 ∨ fileId ≥ fsMaxFiles) :
    (serve os pool fs request).2.isError = true ∧ (serve os pool fs request).1 = fs := by
  have noFile : fsGetFile fs fileId = none := fsGetFile_eq_none outside
  cases request <;> cases named <;>
    simp [serve, fsClose, fsRead, fsWrite, fsRename, fsDelete, fsTruncate, fsReadDir, noFile,
      outside, FsReply.of, FsReply.isError]

variable (os) in
/-- Opening a file keeps the table consistent. -/
theorem fsOpen_invariant (lawful : pool.Lawful) {fs : Fs σ π}
    (invariant : TableInvariant pool fs) (path : CString)
    (access createDisposition createOptions : UInt32) :
    TableInvariant pool (fsOpen os pool fs path access createDisposition createOptions).1 := by
  rcases fsOpen_cases os pool fs path access createDisposition createOptions
    with ⟨_, _, keeps⟩ | ⟨room, _, counted, drawn⟩
  · exact keeps.invariant invariant
  have few : ((pool.outstanding fs.fileIdPool).length : Int) < fsMaxFiles :=
    invariant.counted ▸ room
  have listed := lawful.outstanding_nextInt _ invariant.valid
  refine ⟨⟨?_, ?_⟩, ?_⟩
  · rw [counted, openIds, drawn, listed, List.length_cons, Int.natCast_succ, invariant.counted]
    rfl
  · rw [openIds, drawn, listed]
    exact List.nodup_cons.mpr ⟨lawful.nextInt_fresh _ invariant.valid, invariant.distinct⟩
  · rw [drawn]
    exact lawful.valid_nextInt _ invariant.valid few

/-- Closing an open ID within the table keeps the table consistent. -/
theorem fsClose_invariant (lawful : pool.Lawful) {fs : Fs σ π}
    (invariant : TableInvariant pool fs) {fileId : Int} (isOpen : fileId ∈ openIds pool fs)
    (inside : ¬ (fileId < 0 ∨ fileId ≥ fsMaxFiles)) :
    TableInvariant pool (fsClose os pool fs fileId) := by
  obtain ⟨counted, freed⟩ := fsClose_inside os pool fs inside
  have listed : openIds pool (fsClose os pool fs fileId) = (openIds pool fs).erase fileId := by
    rw [openIds, freed]
    exact lawful.outstanding_freeInt _ _ invariant.valid isOpen
  refine ⟨⟨?_, ?_⟩, ?_⟩
  · have positive := List.length_pos_of_mem isOpen
    rw [counted, listed, invariant.counted, List.length_erase_of_mem isOpen]
    omega
  · rw [listed]
    exact invariant.distinct.erase fileId
  · rw [freed]
    exact lawful.valid_freeInt _ _ invariant.valid isOpen

/-! ## Runs -/

/-- A request that names open or outside IDs keeps the table consistent. -/
theorem serveStep_invariant (lawful : pool.Lawful) {fs : Fs σ π} {request : FsRequest}
    (invariant : TableInvariant pool fs) (names : NamesOpen pool fs request) :
    TableInvariant pool (serveStep os pool fs request) := by
  cases request with
  | openFile path access createDisposition createOptions =>
      exact fsOpen_invariant os lawful invariant path access createDisposition createOptions
  | closeFile fileId =>
      by_cases outside : fileId < 0 ∨ fileId ≥ fsMaxFiles
      · rw [serveStep, (serve_outside fs (.closeFile fileId) rfl outside).2]
        exact invariant
      · exact fsClose_invariant lawful invariant ((names fileId rfl).resolve_right outside) outside
  | _ => exact (serve_keepsTable fs _ (by simp) (by simp)).invariant invariant

theorem NamesOpen.refusesUnopened {fs : Fs σ π} {request : FsRequest}
    (names : NamesOpen pool fs request) : RefusesUnopened os pool fs request :=
  fun fileId named unopened =>
    serve_outside fs request named ((names fileId named).resolve_left unopened)

/-- **The file table, for the requests it can tell apart.** In every run whose requests name
open IDs or IDs outside the table, the counter counts the open IDs, no ID is open twice, and
requests for IDs that are not open are refused without effect. -/
theorem handleLaw_of_namesOpen (os : Os σ) (pool : IdPool π) (lawful : pool.Lawful)
    (fs : Fs σ π) (requests : List FsRequest) (allocated : Allocated pool fs)
    (names : Run.Guarded (serveStep os pool) (NamesOpen pool) fs requests) :
    HandleLaw os pool fs requests :=
  ⟨(names.always allocated.invariant fun _ _ invariant met =>
      serveStep_invariant lawful invariant met).mono fun _ invariant => invariant.toTableConsistent,
    names.mono fun _ _ met => met.refusesUnopened⟩

/-- A drive with one file, redirected into a new session. -/
def singleFileDrive : Fs Disk QueuePool :=
  mountedFs [(ascii "/d/a", .file (ascii "text"))] (ascii "/d") false

theorem mountedFs_allocated (nodes : List (CString × DiskNode)) (drivePath : CString)
    (disableDownload : Bool) :
    Allocated queuePool (mountedFs nodes drivePath disableDownload) where
  openFiles := rfl
  noneOpen := rfl
  valid := ⟨.refl _, by simp [mountedFs, fsMaxFiles]⟩

/-- A file is opened, read and closed, and an ID outside the table is read. -/
theorem handleLaw_read_close :
    HandleLaw diskOs queuePool singleFileDrive
      [.openFile (ascii "\\a") genericRead fileOpen 0, .readFile 0 0 4, .closeFile 0,
        .readFile 128 0 4] := by
  refine handleLaw_of_namesOpen diskOs queuePool queuePool_lawful singleFileDrive _
    (mountedFs_allocated _ _ _) ⟨nofun, ?_, ?_, ?_, trivial⟩
  · rintro _ ⟨⟩
    exact .inl (by decide)
  · rintro _ ⟨⟩
    exact .inl (by decide)
  · rintro _ ⟨⟩
    exact .inr (.inr (by decide))

/-- A second close of a file counts the open files down below zero. -/
theorem double_close_breaks_handleLaw :
    queuePool.Lawful ∧ Allocated queuePool singleFileDrive ∧
      ¬ HandleLaw diskOs queuePool singleFileDrive
        [.openFile (ascii "\\a") genericRead fileOpen 0, .closeFile 0, .closeFile 0] := by
  refine ⟨queuePool_lawful, mountedFs_allocated _ _ _, fun law => ?_⟩
  have counted := law.1.last.counted
  revert counted
  decide

end GuacNebula.Rdp
