import GuacNebula.Rdp.HandleTable
import GuacNebula.Rdp.Transfer

/-! # Releasing the file of a transfer

A transfer opens one file. A directory listing closes it on every path on which it frees its
stream; a download never does, and neither does a request refused because downloads are
disabled. `released_iff_opensDirectory` is the exact account: once a transfer is over, its
file has been closed exactly once if and only if it was a directory requested by the user.
-/

namespace GuacNebula.Rdp

open GuacNebula.Common

variable {σ π : Type*} {os : Os σ} {pool : IdPool π}

/-- The ID of the file that a request opened, if it opened one. -/
def openedId (os : Os σ) (pool : IdPool π) (session : Session σ π) :
    TransferRequest → Option Int
  | .get name =>
      if session.loaded then
        (fsOpen os pool session.fs name genericRead fileOpen 0).2.toOption
      else none
  | .toUser path =>
      if session.loaded ∧ ¬ session.fs.disableDownload then
        (fsOpen os pool session.fs path fileReadData fileOpen 0).2.toOption
      else none

/-- The user requested a file that turned out to be a directory. -/
def OpensDirectory (os : Os σ) (pool : IdPool π) (session : Session σ π) :
    TransferRequest → Prop
  | .get name => ∃ fs fileId,
      fsOpen os pool session.fs name genericRead fileOpen 0 = (fs, .ok fileId) ∧
        (fs.files fileId).isDirectory = true
  | .toUser _ => False

/-- Between two sessions a file was closed exactly once, and the number of open files is what
it was. -/
structure Released (fileId : Int) (before after : Session σ π) : Prop where
  once : after.closed.count fileId = before.closed.count fileId + 1
  openFiles : after.fs.openFiles = before.fs.openFiles

/-! ## Open files -/

/-- What an open that succeeds leaves behind. -/
structure Opened (pool : IdPool π) (before after : Fs σ π) (fileId : Int) : Prop where
  invariant : TableInvariant pool after
  fresh : fileId ∉ openIds pool before
  openIds : openIds pool after = fileId :: openIds pool before
  inside : ¬ (fileId < 0 ∨ fileId ≥ fsMaxFiles)
  openFiles : after.openFiles = before.openFiles + 1

theorem fsOpen_opened (lawful : pool.Lawful) {fs after : Fs σ π}
    (invariant : TableInvariant pool fs) {path : CString}
    {access createDisposition createOptions : UInt32} {fileId : Int}
    (result : fsOpen os pool fs path access createDisposition createOptions =
      (after, .ok fileId)) : Opened pool fs after fileId := by
  have kept := fsOpen_invariant os lawful invariant path access createDisposition
    createOptions
  rcases fsOpen_cases os pool fs path access createDisposition createOptions
    with ⟨error, failed, _⟩ | ⟨room, drawn, counted, ids⟩
  · rw [result] at failed
    cases failed
  rw [result] at drawn counted ids kept
  obtain rfl : fileId = (pool.nextInt fs.fileIdPool).1 := Except.ok.inj drawn
  obtain ⟨nonneg, below⟩ := lawful.nextInt_index _ invariant.valid (invariant.counted ▸ room)
  exact
    { invariant := kept
      fresh := lawful.nextInt_fresh _ invariant.valid
      openIds := by
        rw [GuacNebula.Rdp.openIds, ids]
        exact lawful.outstanding_nextInt _ invariant.valid
      inside := by omega
      openFiles := counted }

theorem fsOpen_failed {fs after : Fs σ π} {path : CString}
    {access createDisposition createOptions : UInt32} {error : FsError}
    (result : fsOpen os pool fs path access createDisposition createOptions =
      (after, .error error)) : KeepsTable fs after := by
  rcases fsOpen_cases os pool fs path access createDisposition createOptions
    with ⟨_, _, keeps⟩ | ⟨_, drawn, _⟩
  · rwa [result] at keeps
  · rw [result] at drawn
    cases drawn

/-- Closing an open file. -/
theorem fsClose_openIds (lawful : pool.Lawful) {fs : Fs σ π} {fileId : Int}
    (invariant : TableInvariant pool fs) (isOpen : fileId ∈ openIds pool fs)
    (inside : ¬ (fileId < 0 ∨ fileId ≥ fsMaxFiles)) :
    openIds pool (fsClose os pool fs fileId) = (openIds pool fs).erase fileId := by
  rw [openIds, (fsClose_inside os pool _ inside).2]
  exact lawful.outstanding_freeInt _ _ invariant.valid isOpen

/-- A file that is held open while `closes` counts how often it was closed. -/
structure HeldOpen (pool : IdPool π) (fileId openFiles : Int) (closes : Nat) (fs : Fs σ π)
    (closed : List Int) : Prop where
  invariant : TableInvariant pool fs
  isOpen : fileId ∈ openIds pool fs
  inside : ¬ (fileId < 0 ∨ fileId ≥ fsMaxFiles)
  openFiles : fs.openFiles = openFiles + 1
  closes : closed.count fileId = closes

variable {fileId openFiles : Int} {closes : Nat} {fs : Fs σ π} {closed : List Int}

theorem HeldOpen.keepsTable {after : Fs σ π} (held : HeldOpen pool fileId openFiles closes fs closed)
    (keeps : KeepsTable fs after) : HeldOpen pool fileId openFiles closes after closed where
  invariant := keeps.invariant held.invariant
  isOpen := by rw [openIds, keeps.fileIdPool]; exact held.isOpen
  inside := held.inside
  openFiles := keeps.openFiles.trans held.openFiles
  closes := held.closes

variable (os) in
/-- Opening another file and closing it again does not disturb a held one. -/
theorem HeldOpen.probe (lawful : pool.Lawful) {opened : Fs σ π} {other : Int}
    (held : HeldOpen pool fileId openFiles closes fs closed)
    (probe : Opened pool fs opened other) :
    HeldOpen pool fileId openFiles closes (fsClose os pool opened other) (other :: closed) := by
  have member : other ∈ openIds pool opened := by rw [probe.openIds]; exact List.mem_cons_self
  have distinct : other ≠ fileId := fun same => probe.fresh (same ▸ held.isOpen)
  exact
    { invariant := fsClose_invariant lawful probe.invariant member probe.inside
      isOpen := by
        rw [fsClose_openIds lawful probe.invariant member probe.inside, probe.openIds,
          List.erase_cons_head]
        exact held.isOpen
      inside := held.inside
      openFiles := by
        rw [(fsClose_inside os pool _ probe.inside).1, probe.openFiles, held.openFiles]
        omega
      closes := by rw [List.count_cons_of_ne distinct, held.closes] }

/-! ## Listings -/

variable (os) in
theorem lsEntry_held (lawful : pool.Lawful) (status : LsStatus) (listing : Listing σ π)
    (filename : CString)
    (held : HeldOpen pool fileId openFiles closes listing.fs listing.closed) :
    HeldOpen pool fileId openFiles closes (lsEntry os pool status listing filename).1.fs
      (lsEntry os pool status listing filename).1.closed := by
  unfold lsEntry
  split
  · exact held
  split
  · exact held
  split
  · rename_i failed
    exact held.keepsTable (fsOpen_failed failed)
  · rename_i succeeded
    have probe := fsOpen_opened lawful held.invariant succeeded
    rw [fsGetFile_eq_some probe.inside]
    exact held.probe os lawful probe

variable (os) in
/-- However far the loop gets, the directory stays open and is not closed. -/
theorem lsLoop_held (lawful : pool.Lawful) (status : LsStatus) (fuel : Nat)
    (listing : Listing σ π) (blobWritten : Bool)
    (held : HeldOpen pool fileId openFiles closes listing.fs listing.closed) :
    HeldOpen pool fileId openFiles closes (lsLoop os pool status fuel listing blobWritten).1.fs
      (lsLoop os pool status fuel listing blobWritten).1.closed := by
  induction fuel generalizing listing blobWritten with
  | zero => exact held
  | succ fuel ih =>
      have read : HeldOpen pool fileId openFiles closes
          (fsReadDir os listing.fs status.fileId).1 listing.closed :=
        held.keepsTable (fsReadDir_keepsTable os listing.fs status.fileId)
      simp only [lsLoop]
      split
      · exact read
      split
      · exact read
      rename_i filename _ _
      have entry := lsEntry_held os lawful status
        { listing with fs := (fsReadDir os listing.fs status.fileId).1 } filename read
      split <;> rename_i result <;> rw [result] at entry
      · exact ih _ _ entry
      · exact entry

/-- A listing of a file: either it goes on, holding the file open, or it is over and has
released the file. -/
def ListingInvariant (pool : IdPool π) (fileId : Int) (start session : Session σ π) : Prop :=
  (∃ status, session.stream = some (.listing status) ∧ status.fileId = fileId ∧
    HeldOpen pool fileId start.fs.openFiles (start.closed.count fileId) session.fs
      session.closed) ∨
  (session.stream = none ∧ Released fileId start session)

theorem HeldOpen.released {start : Session σ π} {after : Session σ π}
    (held : HeldOpen pool fileId start.fs.openFiles (start.closed.count fileId) fs closed)
    (closesFile : after.fs = fsClose os pool fs fileId) (logged : after.closed = fileId :: closed) :
    Released fileId start after where
  once := by rw [logged, List.count_cons_self, held.closes]
  openFiles := by
    rw [closesFile, (fsClose_inside os pool _ held.inside).1, held.openFiles]
    omega

theorem ackStream_listing (lawful : pool.Lawful) (fuel : Nat) (start session : Session σ π)
    (success : Bool) (alive : ListingInvariant pool fileId start session) :
    ListingInvariant pool fileId start (ackStream os pool fuel session success) := by
  rcases alive with ⟨status, stream, rfl, held⟩ | ⟨stream, released⟩
  · simp only [ackStream, stream, lsAckHandler]
    split
    · have kept := lsLoop_held os lawful status fuel
        { fs := session.fs, jsonState := status.jsonState, blobs := [],
          closed := session.closed } false held
      split <;> rename_i result <;> rw [result] at kept
      · exact .inr ⟨rfl, kept.released rfl rfl⟩
      · exact .inl ⟨_, rfl, rfl, kept⟩
    · exact .inr ⟨rfl, held.released rfl rfl⟩
  · simp only [ackStream, stream]
    exact .inr ⟨stream, released⟩

/-! ## Downloads -/

/-- A transfer that is not a listing has closed nothing. -/
structure DownloadInvariant (start session : Session σ π) : Prop where
  noListing : ∀ status, session.stream ≠ some (.listing status)
  closed : session.closed = start.closed

theorem ackStream_download (fuel : Nat) (start session : Session σ π) (success : Bool)
    (alive : DownloadInvariant start session) :
    DownloadInvariant start (ackStream os pool fuel session success) := by
  unfold ackStream
  split
  · exact alive
  · rename_i stream
    exact (alive.noListing _ stream).elim
  · rename_i stream
    unfold downloadAckHandler
    split
    · exact ⟨alive.noListing, alive.closed⟩
    split
    · split
      · split <;> exact ⟨nofun, alive.closed⟩
      · exact ⟨nofun, alive.closed⟩
    · exact ⟨nofun, alive.closed⟩

/-! ## The start of a transfer -/

theorem startTransfer_listing (lawful : pool.Lawful) {session : Session σ π}
    (invariant : TableInvariant pool session.fs) {request : TransferRequest}
    (opened : openedId os pool session request = some fileId)
    (directory : OpensDirectory os pool session request) :
    ListingInvariant pool fileId session (startTransfer os pool session request) := by
  cases request with
  | toUser path => exact directory.elim
  | get name =>
      obtain ⟨after, otherId, result, isDirectory⟩ := directory
      by_cases loaded : session.loaded = true
      · simp only [openedId, loaded, ↓reduceIte, result] at opened
        obtain rfl : otherId = fileId := Option.some.inj opened
        have facts := fsOpen_opened lawful invariant result
        simp only [startTransfer, downloadGetHandler, loaded, Bool.not_true, Bool.false_eq_true,
          ↓reduceIte, result, fsGetFile_eq_some facts.inside, Session.getOpened, isDirectory]
        refine .inl ⟨_, rfl, rfl, facts.invariant, ?_, facts.inside, facts.openFiles, rfl⟩
        rw [facts.openIds]
        exact List.mem_cons_self
      · simp only [openedId, loaded] at opened
        cases opened

theorem startTransfer_download {session : Session σ π} {request : TransferRequest}
    (idle : session.stream = none) (notDirectory : ¬ OpensDirectory os pool session request) :
    DownloadInvariant session (startTransfer os pool session request) := by
  have start : DownloadInvariant session session := ⟨by simp [idle], rfl⟩
  cases request with
  | toUser path =>
      simp only [startTransfer, downloadToUser]
      split
      · exact start
      split
      · exact start
      rcases fsOpen os pool session.fs path fileReadData fileOpen 0 with ⟨fs, _ | fileId⟩
      · exact ⟨by simp [idle], rfl⟩
      · exact ⟨nofun, rfl⟩
  | get name =>
      simp only [startTransfer, downloadGetHandler]
      split
      · exact start
      rcases result : fsOpen os pool session.fs name genericRead fileOpen 0 with ⟨fs, _ | fileId⟩
      · exact ⟨by simp [idle], rfl⟩
      by_cases outside : fileId < 0 ∨ fileId ≥ fsMaxFiles
      · simp only [fsGetFile_eq_none outside]
        exact ⟨by simp [idle], rfl⟩
      simp only [fsGetFile_eq_some outside, Session.getOpened]
      split
      · next isDirectory => exact (notDirectory ⟨fs, fileId, result, isDirectory⟩).elim
      split
      · exact ⟨nofun, rfl⟩
      · exact ⟨by simp [idle], rfl⟩

/-- **Who closes the file of a transfer.** For every filesystem in a consistent state, every
request that opens a file, and every sequence of acks after which no stream is left for it,
the file has been closed exactly once, with the number of open files back to what it was,
precisely when the user requested a directory. -/
theorem released_iff_opensDirectory (os : Os σ) (pool : IdPool π) (lawful : pool.Lawful)
    (session : Session σ π) (invariant : TableInvariant pool session.fs)
    (idle : session.stream = none) (request : TransferRequest) (fileId : Int)
    (opened : openedId os pool session request = some fileId) (fuel : Nat) (acks : List Bool)
    (ended : (Run.exec (ackStream os pool fuel) (startTransfer os pool session request)
      acks).stream = none) :
    Released fileId session
        (Run.exec (ackStream os pool fuel) (startTransfer os pool session request) acks) ↔
      OpensDirectory os pool session request := by
  constructor
  · intro released
    by_contra notDirectory
    have kept : DownloadInvariant session
        (Run.exec (ackStream os pool fuel) (startTransfer os pool session request) acks) :=
      Run.exec_invariant (startTransfer_download idle notDirectory)
        fun _ _ alive => ackStream_download fuel session _ _ alive
    have once := released.once
    rw [kept.closed] at once
    omega
  · intro directory
    have kept : ListingInvariant pool fileId session
        (Run.exec (ackStream os pool fuel) (startTransfer os pool session request) acks) :=
      Run.exec_invariant (startTransfer_listing lawful invariant opened directory)
        fun _ _ alive => ackStream_listing lawful fuel session _ _ alive
    rcases kept with ⟨status, live, _⟩ | ⟨_, released⟩
    · rw [ended] at live
      cases live
    · exact released

/-- A drive whose root directory holds one file. -/
def rootDrive : Fs Disk QueuePool :=
  mountedFs
    [(ascii "/d/", .directory [ascii ".", ascii "..", ascii "a"]),
      (ascii "/d/a", .file (ascii "text"))]
    (ascii "/d") false

/-- The root directory is listed and closed. -/
theorem released_root_listing :
    Released 0 (Session.idle rootDrive)
      (Run.exec (ackStream diskOs queuePool 5)
        (startTransfer diskOs queuePool (.idle rootDrive) (.get (ascii "/"))) [true]) :=
  (released_iff_opensDirectory diskOs queuePool queuePool_lawful (.idle rootDrive)
    (mountedFs_allocated _ _ _).invariant rfl (.get (ascii "/")) 0 (by decide) 5 [true]
    (Option.isNone_iff_eq_none.mp (by decide))).mpr ⟨_, _, rfl, by decide⟩

/-- A file is downloaded to its end, which frees the stream but leaves the file open. -/
theorem download_not_released :
    (Run.exec (ackStream diskOs queuePool 5)
        (startTransfer diskOs queuePool (.idle rootDrive) (.get (ascii "/a")))
        [true, true]).stream.isNone = true ∧
      openedId diskOs queuePool (.idle rootDrive) (.get (ascii "/a")) = some 0 ∧
      ¬ Released 0 (Session.idle rootDrive)
        (Run.exec (ackStream diskOs queuePool 5)
          (startTransfer diskOs queuePool (.idle rootDrive) (.get (ascii "/a")))
          [true, true]) := by
  refine ⟨by decide, by decide, fun released => ?_⟩
  have counted := released.openFiles
  revert counted
  decide

end GuacNebula.Rdp
