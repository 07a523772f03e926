import GuacNebula.Rdp.HandleRelease
import GuacNebula.Rdp.Upload

/-! # What an upload leaves on the drive

A run of an upload stores the blobs one behind the other, each one up to where the drive refused to
go on, and the acknowledgements tell which of them were stored whole.
-/

namespace GuacNebula.Rdp

variable {σ π ι : Type*}

/-- What else is done to the filesystem spares the file that is open under an ID: its descriptor
remains that of the same file, with the same data. -/
def Spares (view : View σ ι) (fileId : Int) (before after : Fs σ π) : Prop :=
  ∀ file, view.held before.os (before.files fileId).fd = some file →
    view.held after.os (after.files fileId).fd = some file ∧
      view.data after.os file = view.data before.os file

/-- In a run of an upload nothing else that happens touches its file. -/
def SparedRun (os : Os σ) (view : View σ ι) (turns : Nat) :
    UploadSession σ π → List (UploadAction σ π) → Prop
  | _, [] => True
  | session, .blob data :: actions =>
      ∀ next ∈ session.blob os turns data, SparedRun os view turns next actions
  | session, .other fs :: actions =>
      (∀ status ∈ session.stream, Spares view status.fileId session.fs fs) ∧
        SparedRun os view turns { session with fs := fs } actions

/-- How a blob is acknowledged of which a part was stored. -/
def ackOf (part blob : List UInt8) : UploadAck :=
  if part = blob then .dataReceived else .badWrite

/-- An upload to a file is under way, which contains what has been stored. -/
structure Storing (view : View σ ι) (file : ι) (fileId : Int) (content : List UInt8)
    (session : UploadSession σ π) : Prop where
  loaded : session.loaded = true
  under : ∃ status, session.stream = some status ∧ status.fileId = fileId ∧
    Holds view file content session.fs status

variable {os : Os σ} {view : View σ ι} {file : ι} {fileId : Int} {content : List UInt8}
  {session : UploadSession σ π} {turns : Nat}

/-- A blob is stored up to where the drive refuses, and acknowledged accordingly. -/
theorem Storing.blob (laws : WritingLaws os view)
    (storing : Storing view file fileId content session) {data : List UInt8} (enough : data.length ≤ turns)
    (sized : content.length + data.length < 2 ^ 64) :
    ∃ next part, session.blob os turns data = some next ∧ part <+: data ∧
      Storing view file fileId (content ++ part) next ∧
      next.acks = session.acks ++ [ackOf part data] ∧ KeepsDrive view session.fs next.fs := by
  obtain ⟨status, open', rfl, holds⟩ := storing.under
  obtain ⟨fs', status', succeeded, part, written, first, whole, same, holds', kept⟩ :=
    holds.writeBlob laws enough sized
  refine ⟨{ session with fs := fs', stream := some status' }.ack
      (if succeeded then .dataReceived else .badWrite), part, ?_, first,
    ⟨storing.loaded, status', rfl, same, holds'⟩, ?_, kept⟩
  · rw [UploadSession.blob, open']
    dsimp only
    rw [if_neg fun unloaded => Bool.false_ne_true (unloaded.symm.trans storing.loaded), written,
      Option.map_some]
  · unfold UploadSession.ack ackOf
    dsimp only
    rw [if_congr whole rfl rfl]

/-- Whatever spares the file leaves the upload as it is. -/
theorem Storing.other (storing : Storing view file fileId content session) {fs : Fs σ π}
    (spared : ∀ status ∈ session.stream, Spares view status.fileId session.fs fs) :
    Storing view file fileId content { session with fs := fs } := by
  obtain ⟨status, open', rfl, holds⟩ := storing.under
  obtain ⟨held, same⟩ := spared status open' file holds.held
  exact ⟨storing.loaded, status, open', rfl, holds.inside, holds.offset, held,
    same.trans holds.data⟩

/-- A run stores a part of each blob, one behind the other. -/
theorem Storing.run (laws : WritingLaws os view)
    (storing : Storing view file fileId content session) {actions : List (UploadAction σ π)}
    (spared : SparedRun os view turns session actions)
    (enough : ∀ blob ∈ uploadedBlobs actions, blob.length ≤ turns)
    (sized : content.length + (uploadedBlobs actions).flatten.length < 2 ^ 64) :
    ∃ ended parts, uploadRun os turns session actions = some ended ∧
      List.Forall₂ (· <+: ·) parts (uploadedBlobs actions) ∧
      Storing view file fileId (content ++ parts.flatten) ended ∧
      ended.acks = session.acks ++ List.zipWith ackOf parts (uploadedBlobs actions) ∧
      ((∀ fs, .other fs ∉ actions) → KeepsDrive view session.fs ended.fs) := by
  induction actions generalizing session content with
  | nil =>
      refine ⟨session, [], rfl, .nil, ?_, (List.append_nil _).symm, fun _ => .refl session.fs⟩
      rw [List.flatten_nil, List.append_nil]
      exact storing
  | cons action actions ih =>
      cases action with
      | other fs =>
          obtain ⟨now, later⟩ := spared
          obtain ⟨ended, parts, ran, firsts, stored, acks, -⟩ :=
            ih (storing.other now) later enough sized
          exact ⟨ended, parts, ran, firsts, stored, acks,
            fun alone => absurd (List.mem_cons_self ..) (alone fs)⟩
      | blob data =>
          have blobs : uploadedBlobs (.blob data :: actions) = data :: uploadedBlobs actions := rfl
          rw [blobs] at enough sized ⊢
          rw [List.flatten_cons, List.length_append] at sized
          obtain ⟨next, part, written, first, storing', acked, kept⟩ :=
            storing.blob laws (enough data (List.mem_cons_self ..)) (by omega)
          have shorter := first.length_le
          obtain ⟨ended, parts, ran, firsts, stored, acks, keeps⟩ :=
            ih storing' (spared next written)
              (fun blob member => enough blob (List.mem_cons_of_mem _ member)) (by
                rw [List.length_append]
                omega)
          refine ⟨ended, part :: parts, ?_, .cons first firsts, ?_, ?_,
            fun alone => kept.trans (keeps fun fs member => alone fs (.tail _ member))⟩
          · have run : uploadRun os turns session (.blob data :: actions) =
                (session.blob os turns data).bind fun next => uploadRun os turns next actions := rfl
            rw [run, written, Option.bind_some, ran]
          · rw [List.flatten_cons, ← List.append_assoc]
            exact stored
          · rw [acks, acked, List.append_assoc]
            rfl

/-- The blobs were stored whole if none of them was refused. -/
theorem stored_whole {parts blobs : List (List UInt8)} (firsts : List.Forall₂ (· <+: ·) parts blobs)
    (accepted : .badWrite ∉ List.zipWith ackOf parts blobs) : parts = blobs := by
  induction firsts with
  | nil => rfl
  | @cons part blob parts blobs first _ ih =>
      rw [List.zipWith_cons_cons, List.mem_cons, not_or] at accepted
      obtain ⟨now, later⟩ := accepted
      have whole : part = blob := by
        by_contra cut
        exact now (if_neg cut).symm
      rw [whole, ih later]

/-- An upload that is accepted has opened a file, which is empty. -/
theorem start_storing {pool : IdPool π} (opening : OpeningLaws os view) (lawful : pool.Lawful)
    (invariant : TableInvariant pool session.fs) (request : UploadRequest)
    (accepted : (session.start os pool request).acks = session.acks ++ [.streamBegin]) :
    ∃ normalizedPath file fileId,
      (rootedPath request.path).bind fsNormalizePath = some normalizedPath ∧
      view.named (session.start os pool request).fs.os
        (fsTranslatePath session.fs.drivePath normalizedPath) = some file ∧
      (session.start os pool request).fs.drivePath = session.fs.drivePath ∧
      Opened pool session.fs (session.start os pool request).fs fileId ∧
      Storing view file fileId [] (session.start os pool request) := by
  have other {ack : UploadAck} (same : session.acks ++ [ack] = session.acks ++ [.streamBegin]) :
      ack = .streamBegin := List.singleton_inj.mp (List.append_cancel_left same)
  unfold UploadSession.start at accepted ⊢
  by_cases unloaded : session.loaded = false
  · rw [if_pos unloaded] at accepted
    cases other accepted
  rw [if_neg unloaded] at accepted ⊢
  by_cases disabled : session.disableUpload = true
  · rw [if_pos disabled] at accepted
    cases other accepted
  rw [if_neg disabled] at accepted ⊢
  cases called : fsOpen os pool session.fs request.path genericWrite fileOverwriteIf 0 with
  | mk after result =>
      rw [called] at accepted
      cases result with
      | error error => cases other accepted
      | ok fileId =>
          obtain ⟨normalizedPath, flags, file, found, known, opened⟩ :=
            fsOpen_file opening lawful invariant (by decide) called
          have flagged : dispositionFlags (accessMode genericWrite) fileOverwriteIf =
              some { mode := accessMode genericWrite, creat := true, excl := false,
                     trunc := true } := rfl
          rw [flagged] at known
          obtain rfl := Option.some.inj known
          exact ⟨normalizedPath, file, fileId, found, opened.named, opened.drivePath,
            fsOpen_opened lawful invariant called, Bool.of_not_eq_false unloaded,
            { fileId := fileId }, rfl, rfl, opened.inside, rfl, opened.held, opened.truncated rfl⟩

/-- What has been stored of the blobs when an upload that was accepted has come to some point: a
part of each one, and all of it unless the blob was acknowledged as a bad write. -/
structure StoresBlobs (view : View σ ι) (file : ι) (blobs : List (List UInt8))
    (session ended : UploadSession σ π) : Prop where
  parts : ∃ parts, List.Forall₂ (· <+: ·) parts blobs ∧
    view.data ended.fs.os file = parts.flatten ∧
    ended.acks = session.acks ++ [.streamBegin] ++ List.zipWith ackOf parts blobs
  whole : .badWrite ∉ ended.acks → view.data ended.fs.os file = blobs.flatten

/-- The blobs of an upload are written one behind the other to the file at the path, which was
emptied, whatever spares the file may happen between them. -/
theorem upload_stores_blobs {pool : IdPool π} (opening : OpeningLaws os view)
    (writing : WritingLaws os view) (lawful : pool.Lawful)
    (invariant : TableInvariant pool session.fs) (request : UploadRequest)
    (accepted : (session.start os pool request).acks = session.acks ++ [.streamBegin])
    (actions : List (UploadAction σ π))
    (spared : SparedRun os view turns (session.start os pool request) actions)
    (enough : ∀ blob ∈ uploadedBlobs actions, blob.length ≤ turns)
    (sized : (uploadedBlobs actions).flatten.length < 2 ^ 64) :
    ∃ normalizedPath file ended,
      (rootedPath request.path).bind fsNormalizePath = some normalizedPath ∧
      view.named (session.start os pool request).fs.os
        (fsTranslatePath session.fs.drivePath normalizedPath) = some file ∧
      uploadRun os turns (session.start os pool request) actions = some ended ∧
      StoresBlobs view file (uploadedBlobs actions) session ended := by
  obtain ⟨normalizedPath, file, fileId, found, named, -, -, storing⟩ :=
    start_storing opening lawful invariant request accepted
  obtain ⟨ended, parts, ran, firsts, stored, acks, -⟩ :=
    storing.run writing spared enough (by rwa [List.length_nil, Nat.zero_add])
  obtain ⟨status, -, -, holds⟩ := stored.under
  rw [accepted] at acks
  have contents : view.data ended.fs.os file = parts.flatten := holds.data
  refine ⟨normalizedPath, file, ended, found, named, ran, ⟨parts, firsts, contents, acks⟩,
    fun clean => ?_⟩
  rw [acks, List.mem_append, not_or] at clean
  rw [contents, stored_whole firsts clean.2]

/-- A session whose drive has a file, with the directory that is redirected. -/
def shelfSession : UploadSession Shelf QueuePool where
  fs :=
    { os := Shelf.put {} (ascii "/d/a") (ascii "old text")
      drivePath := ascii "/d"
      fileIdPool := { nextValue := 0, free := [], outstanding := [] }
      files := fun _ => newFile 0 0 [] [] none
      openFiles := 0
      disableDownload := false }
  loaded := true
  disableUpload := false

theorem shelfSession_invariant : TableInvariant queuePool shelfSession.fs where
  counted := rfl
  distinct := List.nodup_nil
  valid := ⟨.refl _, by decide⟩

/-- The file is replaced by what is sent in two blobs, of which the drive takes two bytes at a
time. -/
theorem upload_stores_blobs_shelf :
    ∃ normalizedPath file ended,
      (rootedPath (ascii "\\a")).bind fsNormalizePath = some normalizedPath ∧
      shelfView.named (shelfSession.start shelfOs queuePool (.put (ascii "\\a"))).fs.os
        (fsTranslatePath (ascii "/d") normalizedPath) = some file ∧
      uploadRun shelfOs 3 (shelfSession.start shelfOs queuePool (.put (ascii "\\a")))
        [.blob (ascii "abc"), .blob (ascii "de")] = some ended ∧
      StoresBlobs shelfView file [ascii "abc", ascii "de"] shelfSession ended :=
  upload_stores_blobs shelf_openingLaws shelf_writingLaws queuePool_lawful shelfSession_invariant
    (.put (ascii "\\a")) (by decide) [.blob (ascii "abc"), .blob (ascii "de")]
    (fun _ _ _ _ => trivial) (by decide) (by decide)

end GuacNebula.Rdp
