import GuacNebula.Rdp.FileContents
import GuacNebula.Rdp.HandleTable
import GuacNebula.Rdp.UploadPath

/-! # Uploads

A user who uploads a file sends it in blobs. Each one is written behind what has been written before
it, in as many parts as the system takes it in, and acknowledged. Other requests may be served
between the blobs.
-/

namespace GuacNebula.Rdp

open CString

/-- `guac_rdp_upload_status`. -/
structure UploadStatus where
  offset : UInt64 := 0
  fileId : Int

/-- The statuses that uploads are acknowledged with. -/
inductive UploadAckStatus
  | success
  | clientForbidden
  | serverError
  deriving DecidableEq, Repr

/-- The acknowledgements. -/
inductive UploadAck
  | noFs
  | uploadDisabled
  | cannotOpen
  | streamBegin
  | badWrite
  | dataReceived
  | streamEnd
  deriving DecidableEq, Repr

/-- The message and the status of an acknowledgement. -/
def UploadAck.content : UploadAck → String × UploadAckStatus
  | noFs => ("FAIL (NO FS)", .serverError)
  | uploadDisabled => ("FAIL (UPLOAD DISABLED)", .clientForbidden)
  | cannotOpen => ("FAIL (CANNOT OPEN)", .clientForbidden)
  | streamBegin => ("OK (STREAM BEGIN)", .success)
  | badWrite => ("FAIL (BAD WRITE)", .clientForbidden)
  | dataReceived => ("OK (DATA RECEIVED)", .success)
  | streamEnd => ("OK (STREAM END)", .success)

/-- The upload of one file. -/
structure UploadSession (σ π : Type*) where
  fs : Fs σ π
  loaded : Bool
  disableUpload : Bool
  stream : Option UploadStatus := none
  acks : List UploadAck := []

/-- What makes the program open a file for an upload: a file is sent to the client, or to a name of
the filesystem. The first one comes with what the buffer for its path holds. -/
inductive UploadRequest
  | file (filename : CString) (memory : Nat → UInt8)
  | put (name : CString)

/-- The path that is opened. -/
def UploadRequest.path : UploadRequest → CString
  | file filename memory => string (generateUploadPath filename memory).memory fsMaxPath
  | put name => name

section Handlers

variable {σ π : Type*} (os : Os σ) (pool : IdPool π)

namespace UploadSession

variable (session : UploadSession σ π)

/-- An acknowledgement is sent. -/
def ack (ack : UploadAck) : UploadSession σ π := { session with acks := session.acks ++ [ack] }

/-- `guac_rdp_upload_file_handler` and `guac_rdp_upload_put_handler`, which differ in the path. -/
def start (request : UploadRequest) : UploadSession σ π :=
  if session.loaded = false then session.ack .noFs
  else if session.disableUpload then session.ack .uploadDisabled
  else
    match fsOpen os pool session.fs request.path genericWrite fileOverwriteIf 0 with
    | (fs, .error _) => { session with fs := fs }.ack .cannotOpen
    | (fs, .ok fileId) =>
        { session with
          fs := fs
          stream := some { fileId := fileId } }.ack .streamBegin

/-- The loop of `guac_rdp_upload_blob_handler`, for so many turns: whether it has ended without an
error, unless it needs more turns. -/
def writeBlob : Nat → Fs σ π → UploadStatus → List UInt8 →
    Option (Fs σ π × UploadStatus × Bool)
  | _, fs, status, [] => some (fs, status, true)
  | 0, _, _, _ => none
  | turns + 1, fs, status, data =>
      match fsWrite os fs status.fileId status.offset data with
      | (fs, .error _) => some (fs, status, false)
      | (fs, .ok bytesWritten) =>
          writeBlob turns fs
            { status with offset := status.offset + UInt64.ofNat bytesWritten }
            (data.drop bytesWritten)

/-- `guac_rdp_upload_blob_handler`. -/
def blob (turns : Nat) (data : List UInt8) : Option (UploadSession σ π) :=
  match session.stream with
  | none => some session
  | some status =>
      if session.loaded = false then some (session.ack .noFs)
      else
        (writeBlob os turns session.fs status data).map fun (fs, status, succeeded) =>
          { session with
            fs := fs
            stream := some status }.ack (if succeeded then .dataReceived else .badWrite)

/-- `guac_rdp_upload_end_handler`. -/
def finish : UploadSession σ π :=
  match session.stream with
  | none => session
  | some status =>
      if session.loaded = false then session.ack .noFs
      else
        { session with
          fs := fsClose os pool session.fs status.fileId
          stream := none }.ack .streamEnd

end UploadSession

/-- What may happen while a file is uploaded: a blob arrives, or something else is done to the
filesystem. -/
inductive UploadAction (σ π : Type*)
  | blob (data : List UInt8)
  | other (fs : Fs σ π)

/-- The effect of an action. -/
def uploadStep (turns : Nat) (session : UploadSession σ π) :
    UploadAction σ π → Option (UploadSession σ π)
  | .blob data => session.blob os turns data
  | .other fs => some { session with fs := fs }

/-- A run of actions. -/
def uploadRun (turns : Nat) (session : UploadSession σ π) (actions : List (UploadAction σ π)) :
    Option (UploadSession σ π) := actions.foldlM (uploadStep os turns) session

/-- The blobs of a run. -/
def uploadedBlobs (actions : List (UploadAction σ π)) : List (List UInt8) :=
  actions.filterMap fun
    | .blob data => some data
    | .other _ => none

end Handlers

/-! ## The file of an upload -/

section Contents

variable {σ π ι : Type*} {os : Os σ} {pool : IdPool π} {view : View σ ι}

/-- The file of an upload is open and contains what has been written. -/
structure Holds (view : View σ ι) (file : ι) (content : List UInt8) (fs : Fs σ π)
    (status : UploadStatus) : Prop where
  inside : ¬ (status.fileId < 0 ∨ status.fileId ≥ fsMaxFiles)
  offset : status.offset.toNat = content.length
  held : view.held fs.os (fs.files status.fileId).fd = some file
  data : view.data fs.os file = content

/-- What is done to a filesystem leaves the table, the settings and the names in place. -/
structure KeepsDrive (view : View σ ι) (before after : Fs σ π) : Prop
    extends KeepsTable before after where
  drivePath : after.drivePath = before.drivePath
  disableDownload : after.disableDownload = before.disableDownload
  named : ∀ {path file}, view.named before.os path = some file →
    view.named after.os path = some file

theorem KeepsDrive.refl (fs : Fs σ π) : KeepsDrive view fs fs := ⟨⟨rfl, rfl⟩, rfl, rfl, id⟩

theorem KeepsDrive.trans {first second third : Fs σ π} (left : KeepsDrive view first second)
    (right : KeepsDrive view second third) : KeepsDrive view first third where
  openFiles := right.openFiles.trans left.openFiles
  fileIdPool := right.fileIdPool.trans left.fileIdPool
  drivePath := right.drivePath.trans left.drivePath
  disableDownload := right.disableDownload.trans left.disableDownload
  named found := right.named (left.named found)

variable {fs : Fs σ π} {status : UploadStatus} {file : ι} {content data : List UInt8}

/-- A write at the end of the file either fails and changes nothing, or appends the beginning of
what it is given. -/
theorem Holds.fsWrite (laws : WritingLaws os view) (holds : Holds view file content fs status)
    (remains : data ≠ []) (sized : content.length + data.length < 2 ^ 64) :
    KeepsDrive view fs (fsWrite os fs status.fileId status.offset data).1 ∧
      ((∃ error, (fsWrite os fs status.fileId status.offset data).2 = .error error ∧
          Holds view file content (fsWrite os fs status.fileId status.offset data).1 status) ∨
        ∃ count, (fsWrite os fs status.fileId status.offset data).2 = .ok count ∧ 0 < count ∧
          count ≤ data.length ∧
          Holds view file (content ++ data.take count)
            (fsWrite os fs status.fileId status.offset data).1
            { status with offset := status.offset + UInt64.ofNat count }) := by
  have held := laws.held fs.os (fs.files status.fileId).fd status.offset data
  have named := fun {path : CString} {other : ι} => @laws.named fs.os path other
    (fs.files status.fileId).fd status.offset data
  unfold Rdp.fsWrite
  rw [fsGetFile_eq_some holds.inside]
  dsimp only
  cases called : os.write (os.lseek fs.os (fs.files status.fileId).fd status.offset)
      (fs.files status.fileId).fd data with
  | mk after result =>
      rw [called] at held named
      cases result with
      | error errno =>
          have kept := laws.failed called
          refine ⟨⟨⟨rfl, rfl⟩, rfl, rfl, named⟩, .inl ⟨_, rfl, ?_⟩⟩
          exact ⟨holds.inside, holds.offset, (congrFun held _).trans holds.held,
            (congrFun kept file).trans holds.data⟩
      | ok count =>
          have within : status.offset.toNat ≤ (view.data fs.os file).length := by
            rw [holds.data, holds.offset]
          obtain ⟨least, some, appended⟩ := laws.written called holds.held within
          rw [holds.data, holds.offset, List.take_length,
            List.drop_eq_nil_of_le (Nat.le_add_right ..), List.append_nil] at appended
          refine ⟨⟨⟨rfl, rfl⟩, rfl, rfl, named⟩, .inr ⟨count, rfl, some remains, least, ?_⟩⟩
          refine ⟨holds.inside, ?_, ?_, appended⟩
          · rw [UInt64.toNat_add, UInt64.toNat_ofNat', holds.offset, List.length_append,
              List.length_take, Nat.min_eq_left least]
            omega
          · dsimp only
            rw [Function.update_self]
            exact (congrFun held _).trans holds.held

/-- A blob is written in parts up to its end or an error, in no more turns than it has bytes. -/
theorem Holds.writeBlob (laws : WritingLaws os view) {turns : Nat}
    (holds : Holds view file content fs status) (enough : data.length ≤ turns)
    (sized : content.length + data.length < 2 ^ 64) :
    ∃ fs' status' succeeded part,
      UploadSession.writeBlob os turns fs status data = some (fs', status', succeeded) ∧
      part <+: data ∧ (succeeded = true ↔ part = data) ∧ status'.fileId = status.fileId ∧
      Holds view file (content ++ part) fs' status' ∧ KeepsDrive view fs fs' := by
  induction turns generalizing fs status content data with
  | zero =>
      obtain rfl := List.eq_nil_of_length_eq_zero (Nat.le_zero.mp enough)
      exact ⟨fs, status, true, [], rfl, List.nil_prefix, iff_of_true rfl rfl, rfl,
        (List.append_nil content).symm ▸ holds, .refl fs⟩
  | succ turns ih =>
      cases data with
      | nil =>
          exact ⟨fs, status, true, [], rfl, List.nil_prefix, iff_of_true rfl rfl, rfl,
            (List.append_nil content).symm ▸ holds, .refl fs⟩
      | cons byte rest =>
          obtain ⟨keeps, ⟨error, failed, still⟩ | ⟨count, wrote, some, least, appended⟩⟩ :=
            holds.fsWrite laws (List.cons_ne_nil byte rest) sized
          all_goals
            unfold UploadSession.writeBlob
            generalize Rdp.fsWrite os fs status.fileId status.offset (byte :: rest) = called at *
            obtain ⟨fs', result⟩ := called
          · obtain rfl : result = .error error := failed
            exact ⟨fs', status, false, [], rfl, List.nil_prefix,
              iff_of_false Bool.false_ne_true fun same => List.cons_ne_nil _ _ same.symm, rfl,
              (List.append_nil content).symm ▸ still, keeps⟩
          · obtain rfl : result = .ok count := wrote
            have whole := List.take_append_drop count (byte :: rest)
            have lengths := congrArg List.length whole
            rw [List.length_append, List.length_take, Nat.min_eq_left least] at lengths
            obtain ⟨last, status', succeeded, part, ended, first, all, same', holds', kept⟩ :=
              @ih _ _ _ ((byte :: rest).drop count) appended (by omega) (by
                rw [List.length_append, List.length_take, Nat.min_eq_left least]
                omega)
            refine ⟨last, status', succeeded, (byte :: rest).take count ++ part, ended, ?_, ?_,
              same', ?_, keeps.trans kept⟩
            · have joined := (List.prefix_append_right_inj ((byte :: rest).take count)).mpr first
              rwa [whole] at joined
            · rw [all]
              refine ⟨fun same => same ▸ whole, fun same => ?_⟩
              exact List.append_cancel_left (same.trans whole.symm)
            · rw [← List.append_assoc]
              exact holds'

/-- What an open that neither supersedes a file nor asks for a directory leaves if it succeeds. -/
structure OpenedFile (view : View σ ι) (pool : IdPool π) (flags : OpenFlags) (realPath : CString)
    (before after : Fs σ π) (fileId : Int) (file : ι) : Prop where
  inside : ¬ (fileId < 0 ∨ fileId ≥ fsMaxFiles)
  held : view.held after.os (after.files fileId).fd = some file
  named : view.named after.os realPath = some file
  truncated : flags.trunc = true → view.data after.os file = []
  existing : flags.creat = false → view.named before.os realPath = some file
  kept : flags.creat = false → flags.trunc = false → view.data after.os = view.data before.os
  drivePath : after.drivePath = before.drivePath
  disableDownload : after.disableDownload = before.disableDownload

theorem fsOpen_file (laws : OpeningLaws os view) (lawful : pool.Lawful)
    (invariant : TableInvariant pool fs) {path : CString} {access createDisposition : UInt32}
    (plain : createDisposition ≠ fileSupersede) {after : Fs σ π} {fileId : Int}
    (opened : fsOpen os pool fs path access createDisposition 0 = (after, .ok fileId)) :
    ∃ normalizedPath flags file, (rootedPath path).bind fsNormalizePath = some normalizedPath ∧
      dispositionFlags (accessMode access) createDisposition = some flags ∧
      OpenedFile view pool flags (fsTranslatePath fs.drivePath normalizedPath) fs after fileId
        file := by
  have asked := fsOpen_eq os pool fs path access createDisposition 0
  rw [opened] at asked
  cases ready : prepared fs ⟨path, access, createDisposition, 0⟩ with
  | none =>
      obtain ⟨error, refused⟩ := fsOpen_refused os pool ready
      rw [refused] at asked
      cases (Prod.mk.inj asked).2
  | some plan =>
      obtain ⟨normalizedPath, flags⟩ := plan
      obtain ⟨available, found, known⟩ := prepared_eq_some ready
      have native : openSystem os fs.os (fsTranslatePath fs.drivePath normalizedPath)
          ⟨path, access, createDisposition, 0⟩ flags =
          nativeOpen os fs.os (fsTranslatePath fs.drivePath normalizedPath) flags := by
        have undirected : ¬ ((0 : UInt32) &&& fileDirectoryFile ≠ 0 ∧ flags.creat) :=
          fun directory => absurd directory.1 (by decide)
        rw [openSystem, superseded, if_neg plain, createDirectory, if_neg undirected]
      rw [fsOpen_prepared os pool ready, native] at asked
      have room : ((pool.outstanding fs.fileIdPool).length : Int) < fsMaxFiles :=
        invariant.counted ▸ available
      have index := lawful.nextInt_index fs.fileIdPool invariant.valid room
      -- The descriptor that is registered is the one of a call of `open` with those flags, except
      -- for the mode.
      have registers {called : σ} {fd : Int} {mode : AccessMode} {state : σ}
          (call : os.openFile called (fsTranslatePath fs.drivePath normalizedPath)
            { flags with mode := mode } = (state, .ok fd))
          (same : view.data called = view.data fs.os ∧ view.named called = view.named fs.os)
          (result : (after, (Except.ok fileId : Except FsError Int)) =
            registerFile os pool { fs with os := state } fd normalizedPath
              (fsTranslatePath fs.drivePath normalizedPath)) :
          ∃ file, OpenedFile view pool flags (fsTranslatePath fs.drivePath normalizedPath) fs after
            fileId file := by
        obtain ⟨file, held, named, truncated, existing, kept⟩ := laws.opened call
        unfold registerFile at result
        dsimp only at result
        obtain ⟨rfl, id⟩ := Prod.mk.inj result
        obtain rfl := Except.ok.inj id
        refine ⟨file, fun outside => ?_, ?_, named, truncated, fun uncreated => ?_,
          fun uncreated untruncated => ?_, rfl, rfl⟩
        · rcases outside with low | high
          · exact absurd index.1 (Int.not_le.mpr low)
          · exact absurd index.2 (Int.not_lt.mpr high)
        · dsimp only
          rw [Function.update_self]
          exact held
        · rw [← same.2]
          exact existing uncreated
        · exact (kept uncreated untruncated).trans same.1
      rcases nativeOpen_cases os fs.os (fsTranslatePath fs.drivePath normalizedPath) flags with
        ⟨state, result, call, -, whole⟩ | ⟨next, state, result, refused, call, whole⟩
      all_goals
        rw [whole] at asked
        cases result with
        | error errno => cases (Prod.mk.inj asked).2
        | ok fd => ?_
      · obtain ⟨file, open'⟩ := registers call ⟨rfl, rfl⟩ asked
        exact ⟨normalizedPath, flags, file, found, known, open'⟩
      · obtain ⟨file, open'⟩ := registers call (laws.failed refused) asked
        exact ⟨normalizedPath, flags, file, found, known, open'⟩

end Contents

end GuacNebula.Rdp
