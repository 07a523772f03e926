import GuacNebula.Rdp.StoredUpload
import GuacNebula.Rdp.Transfer
import GuacNebula.Lib.Run
import Mathlib.Algebra.BigOperators.Group.List.Basic

/-! # What a download sends

A file is sent to the user blob by blob, one for each acknowledgement, up to the end of the file.
The program cannot tell a file that has ended from one that it fails to read: both end the stream.
-/

namespace GuacNebula.Rdp

variable {σ π ι : Type*}

/-- What may happen while a file is sent: the user acknowledges something, or something else is done
to the filesystem. -/
inductive DownloadAction (σ π : Type*)
  | ack (success : Bool)
  | other (fs : Fs σ π)

/-- The effect of an action. -/
def downloadStep (os : Os σ) (pool : IdPool π) (fuel : Nat) (session : Session σ π) :
    DownloadAction σ π → Session σ π
  | .ack success => ackStream os pool fuel session success
  | .other fs => { session with fs := fs }

/-- Nothing else that happens touches the file that is sent. -/
def SparesDownload (view : View σ ι) (session : Session σ π) : DownloadAction σ π → Prop
  | .ack _ => True
  | .other fs => ∀ status, session.stream = some (.download status) →
      Spares view status.fileId session.fs fs

/-- The answers of a user, in a run. -/
def acknowledged (actions : List (DownloadAction σ π)) : List Bool :=
  actions.filterMap fun
    | .ack success => some success
    | .other _ => none

/-- The drive does not fail to read a file that is open. -/
def Readable (os : Os σ) (view : View σ ι) : Prop :=
  ∀ state fd offset length file, view.held state fd = some file →
    ∃ after bytes, os.read (os.lseek state fd offset) fd length = (after, .ok bytes)

/-- A file is being sent of which some blobs were sent. -/
structure Sending (view : View σ ι) (file : ι) (content : List UInt8) (before : List Instruction)
    (blobs : List (List UInt8)) (session : Session σ π) : Prop where
  loaded : session.loaded = true
  under : ∃ status, session.stream = some (.download status) ∧
    ¬ (status.fileId < 0 ∨ status.fileId ≥ fsMaxFiles) ∧
    status.offset.toNat = blobs.flatten.length ∧
    view.held session.fs.os (session.fs.files status.fileId).fd = some file
  data : view.data session.fs.os file = content
  sent : session.sent = before ++ blobs.map .blob

/-- The file is not sent any more. It was sent up to its end, unless the drive or user failed. -/
structure Finished (content : List UInt8) (before : List Instruction)
    (blobs : List (List UInt8)) (session : Session σ π) : Prop where
  stream : session.stream = none
  sent : session.sent = before ++ blobs.map .blob ∨
    session.sent = before ++ blobs.map .blob ++ [.streamEnd]

/-- What each blob is: part of the file, not empty, and no longer than the buffer. -/
structure BlobsOf (content : List UInt8) (blobs : List (List UInt8)) : Prop where
  first : blobs.flatten <+: content
  filled : ∀ blob ∈ blobs, blob ≠ [] ∧ blob.length ≤ downloadBufferSize

variable {os : Os σ} {pool : IdPool π} {view : View σ ι} {file : ι} {content : List UInt8}
  {before : List Instruction} {blobs : List (List UInt8)} {session : Session σ π} {fuel : Nat}

/-- One more blob, of what comes next in the file. -/
theorem BlobsOf.snoc (sentSoFar : BlobsOf content blobs) {bytes : List UInt8}
    (next : bytes <+: content.drop blobs.flatten.length) (some : bytes ≠ [])
    (short : bytes.length ≤ downloadBufferSize) : BlobsOf content (blobs ++ [bytes]) where
  first := by
    obtain ⟨rest, rfl⟩ := sentSoFar.first
    rw [List.drop_left] at next
    rw [List.flatten_append, List.flatten_singleton]
    exact (List.prefix_append_right_inj blobs.flatten).mpr next
  filled := by
    intro blob member
    rcases List.mem_append.mp member with old | new
    · exact sentSoFar.filled blob old
    · rw [List.mem_singleton.mp new]
      exact ⟨some, short⟩

/-- There are no more blobs than bytes in the file. -/
theorem BlobsOf.counted (sentSoFar : BlobsOf content blobs) : blobs.length ≤ content.length := by
  refine Nat.le_trans ?_ sentSoFar.first.length_le
  rw [List.length_flatten]
  have least : ∀ size ∈ blobs.map List.length, 1 ≤ size := by
    intro size member
    obtain ⟨blob, sent, rfl⟩ := List.mem_map.mp member
    exact List.length_pos_iff.mpr (sentSoFar.filled blob sent).1
  have sum := List.length_le_sum_of_one_le _ least
  rwa [List.length_map] at sum

/-- What an acknowledgement leads to: the next blob, or the end. -/
theorem Sending.ack (laws : ReadingLaws os view)
    (sending : Sending view file content before blobs session) (sized : content.length < 2 ^ 64)
    (sentSoFar : BlobsOf content blobs) (success : Bool) :
    (∃ bytes, BlobsOf content (blobs ++ [bytes]) ∧
        Sending view file content before (blobs ++ [bytes])
          (ackStream os pool fuel session success)) ∨
      (Finished content before blobs (ackStream os pool fuel session success) ∧
        (success = true → Readable os view → blobs.flatten = content ∧
          (ackStream os pool fuel session success).sent =
            before ++ blobs.map .blob ++ [.streamEnd])) := by
  obtain ⟨status, open', inside, offset, held⟩ := sending.under
  have handler : ackStream os pool fuel session success =
      downloadAckHandler os session status success := by
    unfold ackStream
    rw [open']
  rw [handler]
  unfold downloadAckHandler
  rw [sending.loaded, Bool.not_true, if_neg Bool.false_ne_true]
  cases success with
  | false =>
      rw [if_neg Bool.false_ne_true]
      exact .inr ⟨⟨rfl, .inl sending.sent⟩, nofun⟩
  | true =>
      rw [if_pos rfl]
      have same := laws.data session.fs.os (session.fs.files status.fileId).fd status.offset
        downloadBufferSize
      have still := laws.held session.fs.os (session.fs.files status.fileId).fd status.offset
        downloadBufferSize
      cases called : os.read (os.lseek session.fs.os (session.fs.files status.fileId).fd
          status.offset) (session.fs.files status.fileId).fd downloadBufferSize with
      | mk after result =>
          rw [called] at same still
          have read : fsRead os session.fs status.fileId status.offset downloadBufferSize =
              ({ session.fs with os := after }, translated result) := by
            unfold fsRead
            simp only [fsGetFile_eq_some inside, called]
          rw [read]
          cases result with
          | error errno =>
              refine .inr ⟨⟨rfl, .inr ?_⟩, fun _ readable => ?_⟩
              · dsimp only [translated]
                rw [sending.sent]
              · obtain ⟨_, _, succeeded⟩ := readable _ _ status.offset downloadBufferSize _ held
                rw [called] at succeeded
                cases (Prod.mk.inj succeeded).2
          | ok bytes =>
              obtain ⟨next, short, ended⟩ := laws.read called held
              rw [sending.data, offset] at next ended
              dsimp only [translated]
              by_cases some : bytes.length > 0
              · rw [if_pos some]
                have more := sentSoFar.snoc next (List.length_pos_iff.mp some) short
                have bound := more.first.length_le
                rw [List.flatten_append, List.flatten_singleton, List.length_append] at bound
                refine .inl ⟨bytes, more, rfl, ⟨_, rfl, inside, ?_, ?_⟩, ?_, ?_⟩
                · rw [UInt64.toNat_add, UInt64.toNat_ofNat', offset, List.flatten_append,
                    List.flatten_singleton, List.length_append]
                  omega
                · exact (congrFun still _).trans held
                · exact (congrFun same file).trans sending.data
                · dsimp only
                  rw [sending.sent, List.map_append, List.append_assoc]
                  rfl
              · rw [if_neg some]
                have none := List.eq_nil_of_length_eq_zero (Nat.eq_zero_of_not_pos some)
                have past : content.length ≤ blobs.flatten.length :=
                  (ended none).resolve_left (by decide)
                have sent : session.sent ++ [.streamEnd] =
                    before ++ blobs.map .blob ++ [.streamEnd] := by rw [sending.sent]
                have same := Nat.le_antisymm sentSoFar.first.length_le past
                exact .inr ⟨⟨rfl, .inr sent⟩, fun _ _ =>
                  ⟨sentSoFar.first.eq_of_length same, sent⟩⟩

/-- Nothing is sent once the stream is gone. -/
theorem ended_run (os : Os σ) (pool : IdPool π) (fuel : Nat) (ended : session.stream = none)
    (actions : List (DownloadAction σ π)) :
    (Run.exec (downloadStep os pool fuel) session actions).stream = none ∧
      (Run.exec (downloadStep os pool fuel) session actions).sent = session.sent := by
  induction actions generalizing session with
  | nil => exact ⟨ended, rfl⟩
  | cons action actions ih =>
      cases action with
      | other fs => exact @ih { session with fs := fs } ended
      | ack success =>
          have ignored : downloadStep os pool fuel session (.ack success) = session := by
            unfold downloadStep ackStream
            rw [ended]
          rw [Run.exec_cons, ignored]
          exact ih ended

/-- The whole file was sent, and the end of the stream. -/
structure SentWhole (content : List UInt8) (before : List Instruction) (session : Session σ π) :
    Prop where
  stream : session.stream = none
  sent : ∃ blobs : List (List UInt8), blobs.flatten = content ∧
    session.sent = before ++ blobs.map .blob ++ [.streamEnd]

/-- What has been sent so far is a first part of the file, in blobs, and the end of the stream at
most once. -/
def SentPart (content : List UInt8) (before : List Instruction) (session : Session σ π) : Prop :=
  ∃ blobs, BlobsOf content blobs ∧ (session.sent = before ++ blobs.map .blob ∨
    session.stream = none ∧ session.sent = before ++ blobs.map .blob ++ [.streamEnd])

/-- A run sends a part of the file, and the whole of it if everything is acknowledged and the drive
does not fail. -/
theorem Sending.run (laws : ReadingLaws os view)
    (sending : Sending view file content before blobs session) (sized : content.length < 2 ^ 64)
    (sentSoFar : BlobsOf content blobs) {actions : List (DownloadAction σ π)}
    (spared : Run.Guarded (downloadStep os pool fuel) (SparesDownload view) session actions) :
    SentPart content before (Run.exec (downloadStep os pool fuel) session actions) ∧
      (Readable os view → (∀ success ∈ acknowledged actions, success = true) →
        content.length < blobs.length + (acknowledged actions).length →
          SentWhole content before (Run.exec (downloadStep os pool fuel) session actions)) := by
  induction actions generalizing session blobs with
  | nil =>
      have fewer := sentSoFar.counted
      exact ⟨⟨blobs, sentSoFar, .inl sending.sent⟩, fun _ _ more =>
        absurd more (Nat.not_lt.mpr fewer)⟩
  | cons action actions ih =>
      obtain ⟨now, later⟩ := spared
      rw [Run.exec_cons]
      cases action with
      | other fs =>
          obtain ⟨status, open', inside, offset, held⟩ := sending.under
          obtain ⟨still, same⟩ := now status open' file held
          exact ih ⟨sending.loaded, ⟨status, open', inside, offset, still⟩,
            same.trans sending.data, sending.sent⟩ sentSoFar later
      | ack success =>
          have answers : acknowledged (.ack success :: actions) = success :: acknowledged actions :=
            rfl
          rw [answers, List.length_cons]
          rcases sending.ack laws sized sentSoFar success with
            ⟨bytes, more, next⟩ | ⟨finished, whole⟩
          · obtain ⟨part, all⟩ := ih next more later
            refine ⟨part, fun readable answered enough => ?_⟩
            refine all readable (fun answer member => answered answer (.tail _ member)) ?_
            rw [List.length_append, List.length_singleton]
            omega
          · obtain ⟨gone, same⟩ := ended_run os pool fuel finished.stream actions
            refine ⟨⟨blobs, sentSoFar, ?_⟩, fun readable answered _ => ?_⟩
            · exact finished.sent.imp same.trans fun sent => ⟨gone, same.trans sent⟩
            · obtain ⟨complete, sent⟩ := whole (answered success (.head _)) readable
              exact ⟨gone, blobs, complete, same.trans sent⟩

/-- The path that a request opens. -/
def TransferRequest.path : TransferRequest → CString
  | .get name => name
  | .toUser path => path

/-- The instruction that opens the stream of a download. -/
def TransferRequest.opening : TransferRequest → Instruction
  | .get name => .body octetStreamMimetype name
  | .toUser path => .file octetStreamMimetype (fsBasename path)

/-- A file that is opened for reading is the one at the path, and a download begins to send it. -/
theorem fsOpen_sending (opening : OpeningLaws os view) (lawful : pool.Lawful)
    (invariant : TableInvariant pool session.fs) (loaded : session.loaded = true) {path : CString}
    {access : UInt32} {after : Fs σ π} {fileId : Int}
    (opened : fsOpen os pool session.fs path access fileOpen 0 = (after, .ok fileId))
    (instruction : Instruction) :
    ∃ normalizedPath file, (rootedPath path).bind fsNormalizePath = some normalizedPath ∧
      view.named session.fs.os (fsTranslatePath session.fs.drivePath normalizedPath) =
        some file ∧
      Sending view file (view.data session.fs.os file) (session.sent ++ [instruction]) []
        { session with
          fs := after
          stream := some (.download { fileId := fileId, offset := 0 })
          sent := session.sent ++ [instruction] } := by
  obtain ⟨normalizedPath, flags, file, found, known, opened⟩ :=
    fsOpen_file opening lawful invariant (by decide) opened
  have flagged : dispositionFlags (accessMode access) fileOpen =
      some { mode := accessMode access, creat := false, excl := false, trunc := false } := rfl
  rw [flagged] at known
  obtain rfl := Option.some.inj known
  exact ⟨normalizedPath, file, found, opened.existing rfl, loaded,
    ⟨_, rfl, opened.inside, rfl, opened.held⟩, congrFun (opened.kept rfl rfl) file,
    (List.append_nil _).symm⟩

/-- A transfer that becomes a download sends the file at the path. -/
theorem startTransfer_sending (opening : OpeningLaws os view) (lawful : pool.Lawful)
    (invariant : TableInvariant pool session.fs) (idle : session.stream = none)
    (request : TransferRequest) {status : DownloadStatus}
    (accepted : (startTransfer os pool session request).stream = some (.download status)) :
    ∃ normalizedPath file, (rootedPath request.path).bind fsNormalizePath = some normalizedPath ∧
      view.named session.fs.os (fsTranslatePath session.fs.drivePath normalizedPath) =
        some file ∧
      Sending view file (view.data session.fs.os file) (session.sent ++ [request.opening]) []
        (startTransfer os pool session request) := by
  have refused : session.stream ≠ some (.download status) := by
    rw [idle]
    exact nofun
  have loaded (unloaded : ¬ (!session.loaded) = true) : session.loaded = true := by
    rwa [Bool.not_eq_true', Bool.not_eq_false] at unloaded
  cases request with
  | get name =>
      unfold startTransfer downloadGetHandler at accepted ⊢
      dsimp only at accepted ⊢
      split_ifs at accepted ⊢ with unloaded
      · exact absurd accepted refused
      cases called : fsOpen os pool session.fs name genericRead fileOpen 0 with
      | mk after result =>
          rw [called] at accepted
          cases result with
          | error error => exact absurd accepted refused
          | ok fileId =>
              have sending := fsOpen_sending opening lawful invariant (loaded unloaded) called
              dsimp only at accepted ⊢
              cases got : fsGetFile after fileId with
              | none =>
                  rw [got] at accepted
                  exact absurd accepted refused
              | some file =>
                  rw [got] at accepted
                  unfold Session.getOpened at accepted ⊢
                  dsimp only at accepted ⊢
                  split_ifs at accepted ⊢
                  · cases accepted
                  · exact sending _
                  · exact absurd accepted refused
  | toUser path =>
      unfold startTransfer downloadToUser at accepted ⊢
      dsimp only at accepted ⊢
      split_ifs at accepted ⊢ with unloaded
      · exact absurd accepted refused
      · exact absurd accepted refused
      · cases called : fsOpen os pool session.fs path fileReadData fileOpen 0 with
        | mk after result =>
            rw [called] at accepted
            cases result with
            | error error => exact absurd accepted refused
            | ok fileId => exact fsOpen_sending opening lawful invariant (loaded unloaded) called _

/-- A download sends the file at the path in blobs, which put together are a first part of it
however the user answers. If the user acknowledges every blob and the drive does not fail, the whole
file has been sent after as many answers as it has bytes, and one more. -/
theorem download_sends_file (opening : OpeningLaws os view) (reading : ReadingLaws os view)
    (lawful : pool.Lawful) (invariant : TableInvariant pool session.fs)
    (idle : session.stream = none) (request : TransferRequest) {status : DownloadStatus}
    (accepted : (startTransfer os pool session request).stream = some (.download status))
    (sized : ∀ file, (view.data session.fs.os file).length < 2 ^ 64)
    (actions : List (DownloadAction σ π))
    (spared : Run.Guarded (downloadStep os pool fuel) (SparesDownload view)
      (startTransfer os pool session request) actions) :
    ∃ normalizedPath file, (rootedPath request.path).bind fsNormalizePath = some normalizedPath ∧
      view.named session.fs.os (fsTranslatePath session.fs.drivePath normalizedPath) =
        some file ∧
      SentPart (view.data session.fs.os file) (session.sent ++ [request.opening])
        (Run.exec (downloadStep os pool fuel) (startTransfer os pool session request) actions) ∧
      (Readable os view → (∀ success ∈ acknowledged actions, success = true) →
        (view.data session.fs.os file).length < (acknowledged actions).length →
          SentWhole (view.data session.fs.os file) (session.sent ++ [request.opening])
            (Run.exec (downloadStep os pool fuel) (startTransfer os pool session request)
              actions)) := by
  obtain ⟨normalizedPath, file, found, named, sending⟩ :=
    startTransfer_sending opening lawful invariant idle request accepted
  have nothing : BlobsOf (view.data session.fs.os file) [] :=
    ⟨List.nil_prefix, List.forall_mem_nil _⟩
  obtain ⟨part, whole⟩ := sending.run reading (sized file) nothing spared
  refine ⟨normalizedPath, file, found, named, part, fun readable answered enough => ?_⟩
  exact whole readable answered (by rwa [List.length_nil, Nat.zero_add])

/-- A download from the drive with a file, which is acknowledged after something else was done to
the filesystem, and then refused. -/
theorem download_sends_file_shelf :
    ∃ normalizedPath file, (rootedPath (ascii "\\a")).bind fsNormalizePath = some normalizedPath ∧
      shelfView.named shelfSession.fs.os (fsTranslatePath (ascii "/d") normalizedPath) =
        some file ∧
      SentPart (shelfView.data shelfSession.fs.os file)
        [.file octetStreamMimetype (fsBasename (ascii "\\a"))]
        (Run.exec (downloadStep shelfOs queuePool 0)
          (startTransfer shelfOs queuePool (.idle shelfSession.fs) (.toUser (ascii "\\a")))
          [.ack true, .ack false]) := by
  have sized (file : CString) : (shelfView.data shelfSession.fs.os file).length < 2 ^ 64 := by
    by_cases same : file = ascii "/d/a"
    · rw [same]
      decide
    · have empty : shelfView.data shelfSession.fs.os file = [] :=
        Shelf.put_data_of_ne _ same _
      rw [empty]
      decide
  obtain ⟨normalizedPath, file, found, named, part, -⟩ :=
    @download_sends_file _ _ _ shelfOs queuePool shelfView (.idle shelfSession.fs) 0
      shelf_openingLaws shelf_readingLaws queuePool_lawful shelfSession_invariant rfl
      (.toUser (ascii "\\a")) _ rfl sized [.ack true, .ack false] ⟨trivial, trivial, trivial⟩
  exact ⟨normalizedPath, file, found, named, part⟩

end GuacNebula.Rdp
