import GuacNebula.Rdp.SentDownload

/-! # A file that is uploaded and requested

What a user sends to a name of the filesystem is what comes back when that name is requested.
-/

namespace GuacNebula.Rdp

open CString

variable {σ π ι : Type*} {os : Os σ} {pool : IdPool π} {view : View σ ι}

/-- A close changes no file and no name. -/
theorem fsClose_files (closing : ClosingLaws os view) (fs : Fs σ π) (fileId : Int) :
    view.data (fsClose os pool fs fileId).os = view.data fs.os ∧
      view.named (fsClose os pool fs fileId).os = view.named fs.os ∧
      (fsClose os pool fs fileId).drivePath = fs.drivePath := by
  by_cases outside : fileId < 0 ∨ fileId ≥ fsMaxFiles
  · rw [fsClose, fsGetFile_eq_none outside]
    exact ⟨rfl, rfl, rfl⟩
  rw [fsClose, fsGetFile_eq_some outside]
  dsimp only
  refine ⟨(closing.data ..).trans ?_, (closing.named ..).trans ?_, rfl⟩
  · cases (fs.files fileId).dir with
    | none => rfl
    | some dir => exact closing.dir ..
  · cases (fs.files fileId).dir with
    | none => rfl
    | some dir => exact closing.dirNamed ..

/-- The end of an upload closes its file. -/
theorem Storing.finish {file : ι} {fileId : Int} {content : List UInt8}
    {session : UploadSession σ π} (storing : Storing view file fileId content session) :
    (session.finish os pool).fs = fsClose os pool session.fs fileId := by
  obtain ⟨status, open', rfl, -⟩ := storing.under
  unfold UploadSession.finish
  rw [open']
  dsimp only
  rw [if_neg fun unloaded => Bool.false_ne_true (unloaded.symm.trans storing.loaded)]
  rfl

/-! ## Runs in which nothing else happens -/

/-- The run of an upload that only consists of its blobs. -/
def blobActions (data : List (List UInt8)) : List (UploadAction σ π) := data.map .blob

theorem uploadedBlobs_blobActions (data : List (List UInt8)) :
    uploadedBlobs (blobActions data : List (UploadAction σ π)) = data := by
  induction data with
  | nil => rfl
  | cons blob data ih => exact congrArg (blob :: ·) ih

theorem blobActions_alone (data : List (List UInt8)) (fs : Fs σ π) :
    .other fs ∉ (blobActions data : List (UploadAction σ π)) := by
  intro member
  obtain ⟨_, -, other⟩ := List.mem_map.mp member
  cases other

theorem blobActions_spared (os : Os σ) (view : View σ ι) (turns : Nat)
    (session : UploadSession σ π) (data : List (List UInt8)) :
    SparedRun os view turns session (blobActions data) := by
  induction data generalizing session with
  | nil => trivial
  | cons blob data ih => exact fun next _ => ih next

/-- The run of a download in which the user acknowledges so many blobs. -/
def ackActions (count : Nat) : List (DownloadAction σ π) := List.replicate count (.ack true)

theorem acknowledged_ackActions (count : Nat) :
    acknowledged (ackActions count : List (DownloadAction σ π)) = List.replicate count true := by
  induction count with
  | zero => rfl
  | succ count ih => exact congrArg (true :: ·) ih

theorem ackActions_spared (view : View σ ι) (fuel count : Nat) (session : Session σ π) :
    Run.Guarded (downloadStep os pool fuel) (SparesDownload view) session (ackActions count) := by
  induction count generalizing session with
  | zero => trivial
  | succ count ih => exact ⟨trivial, ih _⟩

/-! ## The round trip -/

/-- What was uploaded to a name is what a request for the name is answered with, if all of it was
acknowledged as received and the drive does not fail to read it. -/
theorem uploaded_file_returns (opening : OpeningLaws os view) (closing : ClosingLaws os view)
    (writing : WritingLaws os view) (reading : ReadingLaws os view) (readable : Readable os view)
    (lawful : pool.Lawful) {session ended : UploadSession σ π}
    (invariant : TableInvariant pool session.fs) (name : CString)
    (accepted : (session.start os pool (.put name)).acks = session.acks ++ [.streamBegin])
    {turns fuel count : Nat} (data : List (List UInt8))
    (uploaded : uploadRun os turns (session.start os pool (.put name)) (blobActions data) =
      some ended)
    (received : .badWrite ∉ ended.acks) (enough : ∀ blob ∈ data, blob.length ≤ turns)
    (sized : data.flatten.length < 2 ^ 64) {status : DownloadStatus}
    (requested : (startTransfer os pool (.idle (ended.finish os pool).fs) (.get name)).stream =
      some (.download status))
    (answered : data.flatten.length < count) :
    SentWhole data.flatten [.body octetStreamMimetype name]
      (Run.exec (downloadStep os pool fuel)
        (startTransfer os pool (.idle (ended.finish os pool).fs) (.get name))
        (ackActions count)) := by
  obtain ⟨normalizedPath, file, fileId, found, named, samePath, opened, storing⟩ :=
    start_storing opening lawful invariant (.put name) accepted
  have blobs := @uploadedBlobs_blobActions σ π data
  obtain ⟨_, parts, ran, firsts, stored, acks, keeps⟩ :=
    storing.run writing (blobActions_spared os view turns _ data) (by rwa [blobs])
      (by rwa [blobs, List.length_nil, Nat.zero_add])
  rw [blobs] at firsts acks
  obtain rfl := Option.some.inj (uploaded.symm.trans ran)
  rw [acks, List.mem_append, not_or] at received
  rw [stored_whole firsts received.2, List.nil_append] at stored
  have kept := keeps fun fs => blobActions_alone data fs
  -- The file is still there under its name when the upload has ended.
  have closed : (ended.finish os pool).fs = fsClose os pool ended.fs fileId := stored.finish
  obtain ⟨sameData, sameNames, sameDrive⟩ := @fsClose_files _ _ _ _ pool _ closing ended.fs fileId
  have isOpen : fileId ∈ openIds pool (session.start os pool (.put name)).fs := by
    rw [opened.openIds]
    exact List.mem_cons_self ..
  have still : TableInvariant pool (fsClose os pool ended.fs fileId) := by
    refine fsClose_invariant lawful (kept.invariant opened.invariant) ?_ opened.inside
    rw [openIds, kept.fileIdPool]
    exact isOpen
  rw [closed] at requested ⊢
  obtain ⟨otherPath, other, found', named', sending⟩ :=
    startTransfer_sending opening lawful still rfl (.get name) requested
  obtain rfl : normalizedPath = otherPath := Option.some.inj (found.symm.trans found')
  obtain rfl : file = other := by
    have there := kept.named named
    dsimp only [Session.idle] at named'
    rw [sameDrive, sameNames, kept.drivePath, samePath] at named'
    exact Option.some.inj (there.symm.trans named')
  obtain ⟨_, -, -, holds⟩ := stored.under
  have contents : view.data (fsClose os pool ended.fs fileId).os file = data.flatten :=
    (congrFun sameData file).trans holds.data
  have sends : Sending view file data.flatten [.body octetStreamMimetype name] []
      (startTransfer os pool (.idle (fsClose os pool ended.fs fileId)) (.get name)) :=
    contents ▸ sending
  have nothing : BlobsOf data.flatten [] := ⟨List.nil_prefix, List.forall_mem_nil _⟩
  obtain ⟨-, whole⟩ := sends.run reading sized nothing (ackActions_spared view fuel count _)
  rw [acknowledged_ackActions, List.length_nil, Nat.zero_add, List.length_replicate] at whole
  exact whole readable (fun success member => List.eq_of_mem_replicate member) answered

/-- The drive reads whatever is open. -/
theorem shelf_readable : Readable shelfOs shelfView :=
  fun _ _ _ _ _ held => ⟨_, _, Shelf.read_eq _ held ..⟩

/-- The session after two blobs. -/
def shelfUploaded : UploadSession Shelf QueuePool :=
  (uploadRun shelfOs 3 (shelfSession.start shelfOs queuePool (.put (ascii "\\a")))
    (blobActions [ascii "abc", ascii "de"])).getD shelfSession

/-- The five bytes that were uploaded come back, and the end of the stream. -/
theorem uploaded_file_returns_shelf :
    SentWhole (ascii "abcde") [.body octetStreamMimetype (ascii "\\a")]
      (Run.exec (downloadStep shelfOs queuePool 0)
        (startTransfer shelfOs queuePool (.idle (shelfUploaded.finish shelfOs queuePool).fs)
          (.get (ascii "\\a")))
        (ackActions 6)) := by
  have uploaded : uploadRun shelfOs 3 (shelfSession.start shelfOs queuePool (.put (ascii "\\a")))
      (blobActions [ascii "abc", ascii "de"]) = some shelfUploaded := rfl
  have enough : ∀ blob ∈ [ascii "abc", ascii "de"], blob.length ≤ 3 := by decide
  exact uploaded_file_returns shelf_openingLaws shelf_closingLaws shelf_writingLaws
    shelf_readingLaws shelf_readable queuePool_lawful shelfSession_invariant (ascii "\\a")
    (by decide) [ascii "abc", ascii "de"] uploaded (by decide) enough (by decide) rfl (by decide)

end GuacNebula.Rdp
