import GuacNebula.Lib.Run
import GuacNebula.Rdp.Disk
import GuacNebula.Rdp.Rdpdr

/-! # The completion of I/O requests

Every I/O request is to be answered by one completion, or the remote server goes on waiting for it.
The handlers of the redirected drive leave some requests without one: `Answerable` says which are
answered, from what the request holds and the filesystem that it meets.
-/

namespace GuacNebula.Rdp

open Run

variable {σ π : Type*} (platform : RdpdrPlatform σ) (os : FiniteOs σ) (pool : IdPool π)

/-! ## Runs of requests -/

/-- One completion was sent, under the ID of the request. -/
def AnsweredBy (request : IoRequest) (completions : List IoCompletion) : Prop :=
  completions.map IoCompletion.completionId = [request.completionId]

instance (request : IoRequest) (completions : List IoCompletion) :
    Decidable (AnsweredBy request completions) :=
  inferInstanceAs (Decidable (_ = _))

/-- A Device I/O Request PDU with a complete header, addressed to a registered filesystem, that is
not to be answered when the directory changes. -/
structure DriveRequest (devices : List RdpdrDevice) where
  owned : Bool
  stream : List UInt8
  device : FsDevice
  complete : 20 ≤ stream.length
  addressed : registeredDevice devices (readIoRequest stream).deviceId = some (.filesystem device)
  notPending : ¬((readIoRequest stream).majorFunc = 0x0C ∧ (readIoRequest stream).minorFunc = 2)

/-- The PDU as the handler of the filesystem sees it. -/
def DriveRequest.pdu {devices : List RdpdrDevice} (request : DriveRequest devices) : RdpdrPdu where
  owned := request.owned
  request := readIoRequest request.stream
  stream := request.stream.drop 20

/-- The filesystem, and the requests that were received with the completions sent for each. -/
structure FsSession (σ π : Type*) where
  fs : Fs σ π
  log : List (IoRequest × List IoCompletion)

/-- The session with a request, and what was done and sent for it. -/
def FsSession.logged (session : FsSession σ π) (request : IoRequest)
    (received : Rdpdr σ π × List IoCompletion) : FsSession σ π where
  fs := received.1.fs
  log := session.log ++ [(request, received.2)]

/-- The reception of a request. -/
def FsSession.receive {devices : List RdpdrDevice} (session : FsSession σ π)
    (request : DriveRequest devices) : FsSession σ π :=
  session.logged (readIoRequest request.stream)
    (processDeviceIorequest platform os pool { fs := session.fs, devices := devices }
      request.owned request.stream)

/-- Every request that was received has been answered once. -/
def FsSession.AnsweredOnce (session : FsSession σ π) : Prop :=
  ∀ entry ∈ session.log, AnsweredBy entry.1 entry.2

/-! ## The requests that are answered -/

/-- A file ID within the table. -/
def InTable (fileId : Int) : Prop := 0 ≤ fileId ∧ fileId < fsMaxFiles

/-- Reading on in a directory, the first entry with a valid path that matches the pattern and can be
opened is opened under a file ID. -/
inductive OpensEntry (fileId : Int) : Fs σ π → Int → Prop
  | opened {fs read opened : Fs σ π} {entryName entryPath : CString} {entryFileId : Int}
      (next : fsReadDir os.toOs fs fileId = (read, some entryName))
      (valid : fsConvertPath (read.files fileId).absolutePath entryName = some entryPath)
      (alike : platform.fnmatch (read.files fileId).dirPattern entryPath)
      (opens : fsOpen os.toOs pool read entryPath fileReadData fileOpen 0
        = (opened, .ok entryFileId)) :
      OpensEntry fileId fs entryFileId
  | invalid {fs read : Fs σ π} {entryName : CString} {entryFileId : Int}
      (next : fsReadDir os.toOs fs fileId = (read, some entryName))
      (invalid : fsConvertPath (read.files fileId).absolutePath entryName = none)
      (later : OpensEntry fileId read entryFileId) :
      OpensEntry fileId fs entryFileId
  | unlike {fs read : Fs σ π} {entryName entryPath : CString} {entryFileId : Int}
      (next : fsReadDir os.toOs fs fileId = (read, some entryName))
      (valid : fsConvertPath (read.files fileId).absolutePath entryName = some entryPath)
      (unlike : ¬ platform.fnmatch (read.files fileId).dirPattern entryPath)
      (later : OpensEntry fileId read entryFileId) :
      OpensEntry fileId fs entryFileId
  | refused {fs read refused : Fs σ π} {entryName entryPath : CString} {error : FsError}
      {entryFileId : Int}
      (next : fsReadDir os.toOs fs fileId = (read, some entryName))
      (valid : fsConvertPath (read.files fileId).absolutePath entryName = some entryPath)
      (alike : platform.fnmatch (read.files fileId).dirPattern entryPath)
      (refuses : fsOpen os.toOs pool read entryPath fileReadData fileOpen 0
        = (refused, .error error))
      (later : OpensEntry fileId refused entryFileId) :
      OpensEntry fileId fs entryFileId

variable (fs : Fs σ π) (device : FsDevice) (pdu : RdpdrPdu)

/-- The path of a file to be opened is complete. -/
def CreateAnswerable : Prop :=
  32 ≤ pdu.stream.length ∧ ¬ isShorter (pdu.stream.drop 32) (readInt pdu.stream 28 4)

/-- The data to be written is complete. -/
def WriteAnswerable : Prop :=
  32 ≤ pdu.stream.length ∧ readUInt pdu.stream 0 4 ≤ (pdu.stream.drop 32).length

/-- The information on the volume is of a known class. -/
def VolumeInfoAnswerable : Prop :=
  4 ≤ pdu.stream.length ∧ readInt pdu.stream 0 4 ∈ ([1, 3, 4, 5, 7] : List Int)

/-- The information on a file is of a known class, and the file ID within the table. -/
def FileInfoAnswerable : Prop :=
  4 ≤ pdu.stream.length ∧ readInt pdu.stream 0 4 ∈ ([4, 5, 35] : List Int)
    ∧ InTable pdu.request.fileId

/-- The destination of a renaming is complete, and the file ID within the table if the file is to be
sent to the owner. -/
def RenameAnswerable : Prop :=
  ∃ destination, renameDestination platform pdu.stream = some destination
    ∧ (inDownloadFolder destination → !fs.disableDownload → InTable pdu.request.fileId)

/-- The information to be set is of a known class and complete. -/
def SetFileInfoAnswerable : Prop :=
  32 ≤ pdu.stream.length
    ∧ match readInt pdu.stream 0 4 with
      | 4 | 13 => True
      | 19 | 20 => 8 ≤ (pdu.stream.drop 32).length
      | 10 => RenameAnswerable platform fs pdu
      | _ => False

/-- The query of a directory is complete, the file ID is within the table, and if the directory has
an entry left that is opened, the class is known and the entry has an ID within the table. -/
def QueryDirectoryAnswerable : Prop :=
  InTable pdu.request.fileId
    ∧ ∃ informationClass dirPattern,
      queryDirectoryParameters platform pdu.stream = some (informationClass, dirPattern)
        ∧ ∀ entryFileId,
          OpensEntry platform os pool pdu.request.fileId
              (setDirPattern fs pdu (fs.files pdu.request.fileId) dirPattern) entryFileId →
            informationClass ∈ ([1, 2, 3, 12] : List Int) ∧ InTable entryFileId

/-- A request that is answered: its function is known, the parameters are complete, and where no
error is sent in its place, the file ID lies within the table. -/
def Answerable : Prop :=
  match pdu.request.majorFunc with
  | 0x00 => CreateAnswerable pdu
  | 0x02 => InTable pdu.request.fileId
  | 0x03 => 12 ≤ pdu.stream.length
  | 0x04 => WriteAnswerable pdu
  | 0x0E | 0x0B | 0x11 => True
  | 0x0A => VolumeInfoAnswerable pdu
  | 0x05 => FileInfoAnswerable pdu
  | 0x06 => SetFileInfoAnswerable platform fs pdu
  | 0x0C => pdu.request.minorFunc = 1 ∧ QueryDirectoryAnswerable platform os pool fs pdu
  | _ => False

/-! ## One request -/

@[simp] theorem answeredBy_answer (status : NtStatus) (output : List UInt8) :
    AnsweredBy pdu.request (answer fs device pdu status output).2 :=
  rfl

@[simp] theorem not_answeredBy_nil (request : IoRequest) : ¬ AnsweredBy request [] := by
  simp [AnsweredBy]

theorem fsGetFile_of_inTable {fileId : Int} (inside : InTable fileId) :
    fsGetFile fs fileId = some (fs.files fileId) :=
  if_neg fun outside => outside.elim (Int.not_lt.mpr inside.1) (Int.not_le.mpr inside.2)

theorem fsGetFile_of_not_inTable {fileId : Int} (outside : ¬ InTable fileId) :
    fsGetFile fs fileId = none := by
  unfold InTable at outside
  exact if_pos (by omega)

/-- Where missing bytes leave a request without an answer, it is answered if and only if they are
there and the rest of the handler answers it. -/
theorem answeredBy_unless {missing answered : Prop} [Decidable missing] {request : IoRequest}
    {sent : Processed σ π} (otherwise : ¬ missing → (AnsweredBy request sent.2 ↔ answered)) :
    AnsweredBy request (if missing then (fs, []) else sent).2 ↔ ¬ missing ∧ answered := by
  by_cases gone : missing
  · rw [if_pos gone]
    exact iff_of_false (not_answeredBy_nil _) fun met => met.1 gone
  · rw [if_neg gone, and_iff_right gone]
    exact otherwise gone

theorem processCreate_answered :
    AnsweredBy pdu.request (processCreate platform os pool fs device pdu).2
      ↔ CreateAnswerable pdu := by
  unfold processCreate CreateAnswerable
  rw [answeredBy_unless, Nat.not_lt]
  intro complete
  by_cases cut : isShorter (pdu.stream.drop 32) (readInt pdu.stream 28 4)
  · simp only [cut, ↓reduceIte, not_answeredBy_nil, not_true_eq_false]
  simp only [cut, Bool.false_eq_true, ↓reduceIte, not_false_eq_true, iff_true]
  generalize fsOpen os.toOs pool fs _ _ _ _ = opened
  rcases opened with ⟨after, _ | _⟩
  all_goals apply answeredBy_answer

theorem processRead_answered :
    AnsweredBy pdu.request (processRead os fs device pdu).2 ↔ 12 ≤ pdu.stream.length := by
  unfold processRead
  rw [answeredBy_unless, Nat.not_lt, and_iff_left trivial]
  intro complete
  simp only [iff_true]
  generalize fsRead os.toOs fs _ _ _ = result
  rcases result with ⟨after, _ | _⟩
  all_goals apply answeredBy_answer

theorem processWrite_answered :
    AnsweredBy pdu.request (processWrite os fs device pdu).2 ↔ WriteAnswerable pdu := by
  unfold processWrite WriteAnswerable
  rw [answeredBy_unless, Nat.not_lt]
  intro complete
  by_cases cut : (pdu.stream.drop 32).length < readUInt pdu.stream 0 4
  · simp only [cut, ↓reduceIte, not_answeredBy_nil, Nat.not_le.mpr cut]
  simp only [cut, ↓reduceIte, Nat.not_lt.mp cut, iff_true]
  generalize fsWrite os.toOs fs _ _ _ = result
  rcases result with ⟨after, _ | _⟩
  all_goals apply answeredBy_answer

theorem processClose_answered :
    AnsweredBy pdu.request (processClose os pool fs device pdu).2
      ↔ InTable pdu.request.fileId := by
  unfold processClose
  by_cases inside : InTable pdu.request.fileId
  · simp only [fsGetFile_of_inTable fs inside, answeredBy_answer, inside]
  · simp only [fsGetFile_of_not_inTable fs inside, not_answeredBy_nil, inside]

theorem processVolumeInfo_answered :
    AnsweredBy pdu.request (processVolumeInfo platform fs device pdu).2
      ↔ VolumeInfoAnswerable pdu := by
  unfold processVolumeInfo VolumeInfoAnswerable
  rw [answeredBy_unless, Nat.not_lt]
  intro complete
  split
  case h_6 => simp_all
  all_goals
    simp [processQueryVolumeInfo, processQuerySizeInfo, processQueryDeviceInfo,
      processQueryAttributeInfo, processQueryFullSizeInfo, *]

theorem answerFile_answered (output : FsFile → List UInt8) :
    AnsweredBy pdu.request (answerFile fs device pdu pdu.request.fileId output).2
      ↔ InTable pdu.request.fileId := by
  unfold answerFile
  by_cases inside : InTable pdu.request.fileId
  · simp only [fsGetFile_of_inTable fs inside, answeredBy_answer, inside]
  · simp only [fsGetFile_of_not_inTable fs inside, not_answeredBy_nil, inside]

theorem processFileInfo_answered :
    AnsweredBy pdu.request (processFileInfo fs device pdu).2 ↔ FileInfoAnswerable pdu := by
  unfold processFileInfo FileInfoAnswerable
  rw [answeredBy_unless, Nat.not_lt]
  intro complete
  split
  case h_4 => simp_all
  all_goals
    simp [processQueryBasicInfo, processQueryStandardInfo, processQueryAttributeTagInfo,
      answerFile_answered, *]

theorem processSetSize_answered (length : Int) :
    AnsweredBy pdu.request (processSetSize os fs device pdu length).2
      ↔ 8 ≤ (pdu.stream.drop 32).length := by
  unfold processSetSize
  by_cases short : (pdu.stream.drop 32).length < 8
  · simp only [short, ↓reduceIte, not_answeredBy_nil, Nat.not_le.mpr short]
  · simp only [short, ↓reduceIte, answeredBy_answer, Nat.not_lt.mp short]

theorem processSetRenameInfo_answered (length : Int) :
    AnsweredBy pdu.request (processSetRenameInfo platform os pool fs device pdu length).2
      ↔ RenameAnswerable platform fs pdu := by
  unfold processSetRenameInfo RenameAnswerable
  cases renamed : renameDestination platform pdu.stream with
  | none => simp only [not_answeredBy_nil, reduceCtorEq, false_and, exists_false]
  | some destination =>
      simp only [Option.some.injEq, exists_eq_left']
      by_cases sent : inDownloadFolder destination ∧ !fs.disableDownload
      · simp only [sent, and_self, ↓reduceIte, forall_const]
        by_cases inside : InTable pdu.request.fileId
        · simp only [fsGetFile_of_inTable fs inside, answeredBy_answer, inside]
        · simp only [fsGetFile_of_not_inTable fs inside, not_answeredBy_nil, inside]
      · simp only [sent, ↓reduceIte, answeredBy_answer, true_iff]
        exact fun folder enabled => absurd ⟨folder, enabled⟩ sent

theorem processSetFileInfo_answered :
    AnsweredBy pdu.request (processSetFileInfo platform os pool fs device pdu).2
      ↔ SetFileInfoAnswerable platform fs pdu := by
  unfold processSetFileInfo SetFileInfoAnswerable
  rw [answeredBy_unless, Nat.not_lt]
  intro complete
  split <;> rename_i informationClass
  all_goals
    simp [informationClass, processSetBasicInfo, processSetEndOfFileInfo,
      processSetAllocationInfo, processSetDispositionInfo, processSetSize_answered,
      processSetRenameInfo_answered]

/-- The loop of a directory query ends with the entry that is opened, if there is one. -/
theorem opensEntry_iff (fileId entryFileId : Int) :
    OpensEntry platform os pool fileId fs entryFileId
      ↔ (findEntry platform os pool fs fileId).2.map Prod.snd = some entryFileId := by
  fun_induction findEntry platform os pool fs fileId with
  | case1 fs read next =>
      refine iff_of_false (fun opens => ?_) nofun
      cases opens <;> simp_all
  | case2 fs read entryName next file invalid ih =>
      subst file
      rw [← ih]
      exact ⟨fun opens => by cases opens <;> simp_all, .invalid next invalid⟩
  | case3 fs read entryName next file entryPath valid unlike ih =>
      subst file
      rw [← ih]
      exact ⟨fun opens => by cases opens <;> simp_all,
        .unlike next valid (by simpa using unlike)⟩
  | case4 fs read entryName next file entryPath valid alike refused error refuses ih =>
      subst file
      rw [← ih]
      exact ⟨fun opens => by cases opens <;> simp_all,
        .refused next valid (by simpa using alike) refuses⟩
  | case5 fs read entryName next file entryPath valid alike opened openedId opens =>
      subst file
      simp only [Option.map_some, Option.some.injEq]
      constructor
      · intro opens
        cases opens <;> simp_all
      · rintro rfl
        exact .opened next valid (by simpa using alike) opens

theorem processEntry_answered (informationClass : Int) (entryName : CString) (entryFileId : Int) :
    AnsweredBy pdu.request
        (processEntry platform fs device pdu informationClass entryName entryFileId)
      ↔ informationClass ∈ ([1, 2, 3, 12] : List Int) ∧ InTable entryFileId := by
  have each : ∀ size fields,
      AnsweredBy pdu.request
          (answerEntry platform fs device pdu entryName entryFileId size fields)
        ↔ InTable entryFileId := by
    intro size fields
    unfold answerEntry
    by_cases inside : InTable entryFileId
    · simp only [fsGetFile_of_inTable fs inside, inside, iff_true]
      rfl
    · simp only [fsGetFile_of_not_inTable fs inside, not_answeredBy_nil, inside]
  unfold processEntry
  split
  case h_5 => simp_all
  all_goals
    simp [processQueryDirectoryInfo, processQueryFullDirectoryInfo, processQueryBothDirectoryInfo,
      processQueryNamesInfo, each]

theorem processQueryDirectory_answered :
    AnsweredBy pdu.request (processQueryDirectory platform os pool fs device pdu).2
      ↔ QueryDirectoryAnswerable platform os pool fs pdu := by
  unfold processQueryDirectory QueryDirectoryAnswerable
  by_cases inside : InTable pdu.request.fileId
  case neg => simp only [fsGetFile_of_not_inTable fs inside, not_answeredBy_nil, inside, false_and]
  simp only [fsGetFile_of_inTable fs inside, inside, true_and]
  cases read : queryDirectoryParameters platform pdu.stream with
  | none => simp only [not_answeredBy_nil, reduceCtorEq, false_and, exists_false]
  | some parameters =>
      obtain ⟨informationClass, dirPattern⟩ := parameters
      simp only [Option.some.injEq, Prod.mk.injEq, opensEntry_iff]
      rcases found : findEntry platform os pool
          (setDirPattern fs pdu (fs.files pdu.request.fileId) dirPattern) pdu.request.fileId
        with ⟨after, _ | ⟨entryName, entryFileId⟩⟩
      · refine iff_of_true (answeredBy_answer _ _ _ _ _) ⟨_, _, ⟨rfl, rfl⟩, ?_⟩
        rw [found]
        exact nofun
      · refine (processEntry_answered _ _ _ _ _ _ _).trans ?_
        constructor
        · intro known
          refine ⟨_, _, ⟨rfl, rfl⟩, ?_⟩
          rw [found]
          rintro _ ⟨rfl⟩
          exact known
        · rintro ⟨_, _, ⟨rfl, rfl⟩, known⟩
          exact known entryFileId (by rw [found]; rfl)

theorem deviceFsIorequestHandler_answered
    (notPending : ¬(pdu.request.majorFunc = 0x0C ∧ pdu.request.minorFunc = 2)) :
    AnsweredBy pdu.request (deviceFsIorequestHandler platform os pool fs device pdu).2
      ↔ Answerable platform os pool fs pdu := by
  unfold deviceFsIorequestHandler Answerable
  generalize pdu.request.majorFunc = majorFunc at notPending ⊢
  split
  · exact processCreate_answered platform os pool fs device pdu
  · exact processClose_answered os pool fs device pdu
  · exact processRead_answered os fs device pdu
  · exact processWrite_answered os fs device pdu
  · exact iff_of_true (answeredBy_answer _ _ _ _ _) trivial
  · exact processVolumeInfo_answered platform fs device pdu
  · exact iff_of_true (answeredBy_answer _ _ _ _ _) trivial
  · exact processFileInfo_answered fs device pdu
  · exact processSetFileInfo_answered platform os pool fs device pdu
  · unfold processDirectoryControl
    by_cases query : pdu.request.minorFunc = 1
    · rw [if_pos query]
      simp only [query, true_and]
      exact processQueryDirectory_answered platform os pool fs device pdu
    · rw [if_neg query, if_neg fun notify => notPending ⟨rfl, notify⟩]
      simp only [not_answeredBy_nil, query, false_and]
  · exact iff_of_true (answeredBy_answer _ _ _ _ _) trivial
  · simp_all

/-! ## Runs -/

section Sessions

variable {devices : List RdpdrDevice}

theorem DriveRequest.pdu_request (request : DriveRequest devices) :
    request.pdu.request = readIoRequest request.stream :=
  rfl

theorem FsSession.logged_log (session : FsSession σ π) (request : IoRequest) (rdpdr : Rdpdr σ π)
    (sent : Processed σ π) :
    (session.logged request (rdpdr.afterRequest sent)).log = session.log ++ [(request, sent.2)] :=
  rfl

/-- Receiving a request logs what the handler of the filesystem sends. -/
theorem FsSession.receive_log (session : FsSession σ π) (request : DriveRequest devices) :
    (session.receive platform os pool request).log
      = session.log ++ [(request.pdu.request,
          (deviceFsIorequestHandler platform os pool session.fs request.device request.pdu).2)] := by
  have handled : processDeviceIorequest platform os pool
      { fs := session.fs, devices := devices } request.owned request.stream
        = Rdpdr.afterRequest { fs := session.fs, devices := devices }
          (deviceFsIorequestHandler platform os pool session.fs request.device request.pdu) :=
    processDeviceIorequest_filesystem platform os pool _ request.complete request.addressed
  unfold FsSession.receive
  rw [handled, logged_log, request.pdu_request]

/-- One more entry of the log is to be answered as well. -/
theorem answeredBy_append (log : List (IoRequest × List IoCompletion)) (request : IoRequest)
    (completions : List IoCompletion) :
    (∀ entry ∈ log ++ [(request, completions)], AnsweredBy entry.1 entry.2)
      ↔ (∀ entry ∈ log, AnsweredBy entry.1 entry.2) ∧ AnsweredBy request completions := by
  rw [List.forall_mem_append, List.forall_mem_singleton]

/-- Requests that have been answered once stay so, and the next one joins them if and only if it can
be answered. -/
theorem FsSession.answeredOnce_receive {session : FsSession σ π} (once : session.AnsweredOnce)
    (request : DriveRequest devices) :
    (session.receive platform os pool request).AnsweredOnce
      ↔ Answerable platform os pool session.fs request.pdu := by
  unfold FsSession.AnsweredOnce at once ⊢
  rw [FsSession.receive_log, answeredBy_append, and_iff_right once]
  exact deviceFsIorequestHandler_answered platform os pool session.fs request.device request.pdu
    request.notPending

end Sessions

/-! ## A request without an answer -/

/-- Reading a stream of the drive takes a name from it, and files are opened without touching it. -/
def finiteDiskOs : FiniteOs Disk where
  toOs := diskOs
  remaining disk dir := (disk.streams dir).length
  readdir_remaining disk dir name next := by
    cases names : disk.streams dir with
    | nil =>
        have none_left : (disk.streams dir).head? = some name := next
        rw [names] at none_left
        cases none_left
    | cons first rest =>
        simp only [diskOs, Function.update_self, names, List.tail_cons]
        exact Nat.lt_succ_self _
  openFile_remaining disk path dir := by
    simp only [diskOs]
    cases found : disk.nodes.lookup path with
    | none => exact Nat.le_refl _
    | some node => exact Nat.le_refl _

/-- A platform on which no name matches a pattern and no text is converted. -/
def plainPlatform : RdpdrPlatform Disk where
  fnmatch _ _ := false
  statvfs _ _ := none
  utf8Write _ _ := []
  utf8Read _ := (0, 1)
  utf8Strlen := List.length

/-- The filesystem is the only device. -/
def driveDevices : List RdpdrDevice := [.filesystem { deviceId := 0, deviceName := ascii "D" }]

/-- `IRP_MJ_CLOSE` for the file ID 128, with the completion ID 7. -/
def closeOutside : DriveRequest driveDevices where
  owned := true
  stream := [0, 0, 0, 0, 128, 0, 0, 0, 7, 0, 0, 0, 2, 0, 0, 0, 0, 0, 0, 0]
  device := { deviceId := 0, deviceName := ascii "D" }
  complete := by decide
  addressed := rfl
  notPending := by decide

end GuacNebula.Rdp
