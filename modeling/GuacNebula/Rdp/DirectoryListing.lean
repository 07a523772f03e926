import GuacNebula.Rdp.HandleRelease

/-! # The completeness of a directory listing

The loop that lists a directory reads the next entry before it looks at whether a blob was
written, so the entry that follows a property for which the buffer had no room is read and
forgotten. `listing_complete_iff` says for which directories this loses something, under the
documented behaviour of the system calls (`DirectoryLaws`).
-/

namespace GuacNebula.Rdp

open GuacNebula.Common

/-- What can be said of the local system while a directory is listed: whether a path can be
opened for reading, and if so whether it is a directory; the names a directory holds; and the
names a directory stream has yet to return. -/
structure DirectoryView (σ : Type*) where
  found : σ → CString → Option Bool
  names : σ → CString → List CString
  entries : σ → Int → List CString

/-- The flags of an open for reading. -/
def readOnly : OpenFlags where
  mode := .rdonly
  creat := false
  excl := false
  trunc := false

variable {σ π : Type*}

/-- Two states that agree on which paths can be opened and on the directory streams. -/
structure DirectoryView.Same (view : DirectoryView σ) (before after : σ) : Prop where
  found : view.found after = view.found before
  entries : view.entries after = view.entries before

/-- The documented behaviour of the system calls that a listing makes, while nothing else
changes the drive. -/
structure DirectoryLaws (os : Os σ) (view : DirectoryView σ) : Prop where
  open_missing : ∀ state path, view.found state path = none →
    ∃ after errno, os.openFile state path readOnly = (after, .error errno) ∧
      view.Same state after
  open_found : ∀ state path isDirectory, view.found state path = some isDirectory →
    ∃ after fd, os.openFile state path readOnly = (after, .ok fd) ∧
      (os.fstat after fd).elim false FileStat.isDirectory = isDirectory ∧
      view.Same state after ∧ view.Same state (os.close after fd)
  fdopendir : ∀ state path after fd, view.found state path = some true →
    os.openFile state path readOnly = (after, .ok fd) →
    ∃ opened dir, os.fdopendir after fd = (opened, some dir) ∧
      view.entries opened dir = view.names state path ∧ view.found opened = view.found state
  readdir : ∀ state dir,
    ∃ after, os.readdir state dir = (after, (view.entries state dir).head?) ∧
      view.entries after dir = (view.entries state dir).tail ∧
      view.found after = view.found state

/-- The real path that a path of the drive is opened under. -/
def fsRealPath (fs : Fs σ π) (path : CString) : Option CString :=
  ((rootedPath path).bind fsNormalizePath).map (fsTranslatePath fs.drivePath)

/-- What opening a path of the drive for reading finds, if the file table has room. -/
def openable (view : DirectoryView σ) (fs : Fs σ π) (path : CString) : Option Bool :=
  if fs.openFiles ≥ fsMaxFiles then none else (fsRealPath fs path).bind (view.found fs.os)

/-- The property that stands for a directory entry: its path and mimetype, if it is neither
of the two entries every directory has and its path can be formed and opened. -/
def entryProperty (view : DirectoryView σ) (fs : Fs σ π) (directoryName filename : CString) :
    Option (CString × CString) :=
  if filename = [dot] ∨ filename = [dot, dot] then none
  else (fsAppendFilename directoryName filename).bind fun absolutePath =>
    (openable view fs absolutePath).map fun isDirectory =>
      (absolutePath, entryMimetype isDirectory)

/-- The property of a directory entry while the directory itself is open. -/
def listedProperty (view : DirectoryView σ) (fs : Fs σ π) (directoryName : CString) :
    CString → Option (CString × CString) :=
  entryProperty view { fs with openFiles := fs.openFiles + 1 } (directoryName.take (fsMaxPath - 1))

/-- Nothing of the remaining entries is forgotten. `full` says that the property before them
did not fit into the buffer: the first of them must then be one that is not listed anyway. -/
def Lossless (property : CString → Option (CString × CString)) :
    Bool → JsonState → List CString → Prop
  | _, _, [] => True
  | true, state, filename :: rest =>
      property filename = none ∧ Lossless property false state rest
  | false, state, filename :: rest =>
      match property filename with
      | none => Lossless property false state rest
      | some (name, value) =>
          Lossless property
            (jsonCapacity < state.buffer.length +
              (propertyText state.propertiesWritten name value).length)
            (jsonWriteProperty name value state).state rest

/-- The data of the blobs sent in a session. -/
def Session.sentData (session : Session σ π) : List UInt8 :=
  (session.sent.filterMap Instruction.blobData).flatten

/-! ## Which entries are kept -/

/-- The properties written for the remaining entries, over all acks to come. -/
def kept (property : CString → Option (CString × CString)) :
    Bool → JsonState → List CString → List (CString × CString)
  | _, _, [] => []
  | true, state, _ :: rest => kept property false state rest
  | false, state, filename :: rest =>
      match property filename with
      | none => kept property false state rest
      | some (name, value) =>
          (name, value) :: kept property (jsonWriteProperty name value state).blobWritten
            (jsonWriteProperty name value state).state rest

variable {property : CString → Option (CString × CString)}

variable (property) in
theorem kept_sublist (full : Bool) (state : JsonState) (rest : List CString) :
    (kept property full state rest).Sublist (rest.filterMap property) := by
  induction rest generalizing full state with
  | nil => cases full <;> exact .refl _
  | cons filename rest ih =>
      cases full with
      | true =>
          refine (ih false state).trans ?_
          rw [List.filterMap_cons]
          split
          · exact .refl _
          · exact List.sublist_cons_self _ _
      | false =>
          rw [kept, List.filterMap_cons]
          cases property filename with
          | none => exact ih false state
          | some pair => exact (ih _ _).cons_cons pair

theorem kept_eq_iff {full : Bool} {state : JsonState}
    (bounded : state.buffer.length ≤ jsonCapacity) (rest : List CString) :
    kept property full state rest = rest.filterMap property ↔
      Lossless property full state rest := by
  induction rest generalizing full state with
  | nil => cases full <;> exact iff_of_true rfl trivial
  | cons filename rest ih =>
      cases full with
      | true =>
          rw [Lossless, ← ih bounded, kept, List.filterMap_cons]
          cases listed : property filename with
          | none => simp only [true_and]
          | some pair =>
              refine iff_of_false (fun same => ?_) nofun
              have shorter := (kept_sublist property false state rest).length_le
              rw [same, List.length_cons] at shorter
              omega
      | false =>
          rw [Lossless, kept, List.filterMap_cons]
          cases property filename with
          | none => exact ih bounded
          | some pair =>
              rw [List.cons_inj_right, ih (jsonWriteProperty_bounded bounded pair.1 pair.2),
                Bool.eq_iff_iff.mpr ((jsonWriteProperty_overflow bounded pair.1 pair.2).trans
                  decide_eq_true_iff.symm)]

/-- Leaving properties out makes the text shorter. -/
theorem renderProperties_length {fewer all : List (CString × CString)}
    (sublist : fewer.Sublist all) {first second : Nat} (order : first ≤ second) :
    (renderProperties first fewer).length + all.length ≤
      (renderProperties second all).length + fewer.length := by
  induction sublist generalizing first second with
  | slnil => simp [renderProperties]
  | cons pair sublist ih =>
      have rest := ih (Nat.le_trans order (Nat.le_add_right second 1))
      simp only [renderProperties, List.length_append, List.length_cons, propertyText,
        renderProperty, renderString]
      omega
  | cons_cons pair sublist ih =>
      have rest := ih (Nat.add_le_add_right order 1)
      simp only [renderProperties, List.length_append, List.length_cons, propertyText]
      split <;> split <;> simp only [List.length_cons, List.length_nil] <;> omega

theorem renderObject_inj_of_sublist {fewer all : List (CString × CString)}
    (sublist : fewer.Sublist all) (same : renderObject fewer = renderObject all) :
    fewer = all := by
  have length := renderProperties_length sublist (Nat.le_refl 0)
  have lengths := congrArg List.length same
  simp only [renderObject, List.length_append, List.length_cons] at lengths
  exact sublist.eq_of_length_le (by omega)

theorem renderProperties_append (first : Nat) (left right : List (CString × CString)) :
    renderProperties first (left ++ right) =
      renderProperties first left ++ renderProperties (first + left.length) right := by
  induction left generalizing first with
  | nil => rfl
  | cons pair left ih =>
      obtain ⟨name, value⟩ := pair
      simp only [List.cons_append, renderProperties, ih, List.append_assoc, List.length_cons,
        Nat.add_assoc, Nat.add_comm 1]

/-- The text sent and buffered is an object with the given properties, not yet ended. -/
structure Emitted (sent : List UInt8) (state : JsonState)
    (properties : List (CString × CString)) : Prop where
  text : sent ++ state.buffer = openBrace :: renderProperties 0 properties
  count : state.propertiesWritten = properties.length
  bounded : state.buffer.length ≤ jsonCapacity

variable {sent : List UInt8} {state : JsonState} {properties : List (CString × CString)}

theorem Emitted.write (emitted : Emitted sent state properties) (name value : CString) :
    Emitted (sent ++ (jsonWriteProperty name value state).blobs.flatten)
      (jsonWriteProperty name value state).state (properties ++ [(name, value)]) where
  text := by
    rw [List.append_assoc, jsonWriteProperty_text emitted.bounded, ← List.append_assoc,
      emitted.text, renderProperties_append, emitted.count]
    simp only [renderProperties, List.append_nil, List.cons_append, Nat.zero_add]
  count := by
    rw [jsonWriteProperty_propertiesWritten emitted.bounded, emitted.count, List.length_append]
    rfl
  bounded := jsonWriteProperty_bounded emitted.bounded name value

/-! ## What the loop does to the filesystem -/

variable {os : Os σ} {pool : IdPool π} {view : DirectoryView σ}

/-- Two states of the filesystem in which the same paths can be opened. -/
structure SameDrive (view : DirectoryView σ) (before after : Fs σ π) : Prop where
  openFiles : after.openFiles = before.openFiles
  drivePath : after.drivePath = before.drivePath
  found : view.found after.os = view.found before.os

theorem entryProperty_congr {before after : Fs σ π} (same : SameDrive view before after)
    (directoryName : CString) :
    entryProperty view after directoryName = entryProperty view before directoryName := by
  funext filename
  simp only [entryProperty, openable, fsRealPath, same.openFiles, same.drivePath, same.found]

/-- An open for reading asks the system for exactly the real path. -/
theorem fsOpen_forReading (fs : Fs σ π) (path : CString) :
    fsOpen os pool fs path genericRead fileOpen 0 =
      if fs.openFiles ≥ fsMaxFiles then (fs, .error .enfile)
      else match (rootedPath path).bind fsNormalizePath with
      | none => (fs, .error .enoent)
      | some normalizedPath =>
          let realPath := fsTranslatePath fs.drivePath normalizedPath
          match nativeOpen os fs.os realPath readOnly with
          | (state, .error error) => ({ fs with os := state }, .error error)
          | (state, .ok fd) =>
              registerFile os pool { fs with os := state } fd normalizedPath realPath := by
  rfl

variable (pool) in
theorem fsOpen_missing (laws : DirectoryLaws os view) {fs : Fs σ π} {path : CString}
    (missing : openable view fs path = none) :
    ∃ error state, fsOpen os pool fs path genericRead fileOpen 0 =
      ({ fs with os := state }, .error error) ∧ view.Same fs.os state := by
  rw [fsOpen_forReading]
  simp only [openable, fsRealPath] at missing
  by_cases full : fs.openFiles ≥ fsMaxFiles
  · exact ⟨_, fs.os, by rw [if_pos full], rfl, rfl⟩
  rw [if_neg full] at missing ⊢
  cases normalized : (rootedPath path).bind fsNormalizePath with
  | none => exact ⟨_, fs.os, rfl, rfl, rfl⟩
  | some normalizedPath =>
      simp only [normalized, Option.map_some, Option.bind_some] at missing
      obtain ⟨after, errno, opened, same⟩ := laws.open_missing fs.os _ missing
      -- On a directory the open is tried again with the same flags, to the same end.
      obtain ⟨again, errno', reopened, same'⟩ := laws.open_missing after
        (fsTranslatePath fs.drivePath normalizedPath) (by rw [same.found]; exact missing)
      have same'' : view.Same fs.os again :=
        ⟨same'.found.trans same.found, same'.entries.trans same.entries⟩
      have retried : os.openFile after (fsTranslatePath fs.drivePath normalizedPath)
          { readOnly with mode := .rdonly } = (again, .error errno') := reopened
      simp only [nativeOpen, opened]
      cases errno <;> simp only [retried] <;> exact ⟨_, _, rfl, by assumption⟩

variable (pool) in
theorem fsOpen_found (laws : DirectoryLaws os view) {fs : Fs σ π} {path : CString}
    {isDirectory : Bool} (found : openable view fs path = some isDirectory) :
    ∃ realPath normalizedPath state fd, fsRealPath fs path = some realPath ∧
      view.found fs.os realPath = some isDirectory ∧
      os.openFile fs.os realPath readOnly = (state, .ok fd) ∧
      fsOpen os pool fs path genericRead fileOpen 0 =
        registerFile os pool { fs with os := state } fd normalizedPath realPath ∧
      (os.fstat state fd).elim false FileStat.isDirectory = isDirectory ∧
      view.Same fs.os state ∧ view.Same fs.os (os.close state fd) := by
  rw [fsOpen_forReading]
  simp only [openable, fsRealPath] at found ⊢
  by_cases full : fs.openFiles ≥ fsMaxFiles
  · rw [if_pos full] at found
    cases found
  rw [if_neg full] at found ⊢
  cases normalized : (rootedPath path).bind fsNormalizePath with
  | none =>
      rw [normalized] at found
      cases found
  | some normalizedPath =>
      simp only [normalized, Option.map_some, Option.bind_some] at found ⊢
      obtain ⟨state, fd, opened, kind, same, closed⟩ := laws.open_found fs.os _ _ found
      exact ⟨_, normalizedPath, state, fd, rfl, found, opened, by simp only [nativeOpen, opened],
        kind, same, closed⟩

/-- The names that reading the directory of a slot has yet to return, whether or not its
stream was opened before. -/
def Reads (os : Os σ) (view : DirectoryView σ) (fs : Fs σ π) (fileId : Int)
    (rest : List CString) : Prop :=
  match (fs.files fileId).dir with
  | some dir => view.entries fs.os dir = rest
  | none => ∃ opened dir, os.fdopendir fs.os (fs.files fileId).fd = (opened, some dir) ∧
      view.entries opened dir = rest ∧ view.found opened = view.found fs.os

/-- The state of a listing between two reads of its directory, with the entries that are left
to be read. -/
structure ListingAt (os : Os σ) (pool : IdPool π) (view : DirectoryView σ)
    (property : CString → Option (CString × CString)) (openFiles : Int) (status : LsStatus)
    (rest : List CString) (fs : Fs σ π) (closed : List Int) : Prop where
  held : HeldOpen pool status.fileId openFiles (closed.count status.fileId) fs closed
  listed : entryProperty view fs status.directoryName = property
  reads : Reads os view fs status.fileId rest

variable {openFiles : Int} {status : LsStatus} {rest : List CString}

theorem ListingAt.listed_of {fs after : Fs σ π} {closed : List Int}
    (at_ : ListingAt os pool view property openFiles status rest fs closed)
    (same : SameDrive view fs after) :
    entryProperty view after status.directoryName = property :=
  (entryProperty_congr same _).trans at_.listed

/-- Reading the directory returns the next name and leaves its stream open. -/
theorem ListingAt.readDir (laws : DirectoryLaws os view) {fs : Fs σ π} {closed : List Int}
    (at_ : ListingAt os pool view property openFiles status rest fs closed) :
    ∃ after, fsReadDir os fs status.fileId = (after, rest.head?) ∧
      ListingAt os pool view property openFiles status rest.tail after closed ∧
      ∃ dir, (after.files status.fileId).dir = some dir := by
  have keeps := fsReadDir_keepsTable os fs status.fileId
  have inside := at_.held.inside
  have reads := at_.reads
  simp only [Reads] at reads
  cases slot : (fs.files status.fileId).dir with
  | some dir =>
      rw [slot] at reads
      obtain ⟨state, read, tail, found⟩ := laws.readdir fs.os dir
      have result : fsReadDir os fs status.fileId = ({ fs with os := state }, rest.head?) := by
        simp only [fsReadDir, inside, ↓reduceIte, openDir, slot, read, reads]
      rw [result] at keeps
      refine ⟨_, result, ⟨at_.held.keepsTable keeps, ?_, ?_⟩, dir, slot⟩
      · exact at_.listed_of ⟨rfl, rfl, found⟩
      · simp only [Reads, slot]
        rw [tail, reads]
  | none =>
      rw [slot] at reads
      obtain ⟨opened, dir, streamed, entries, found⟩ := reads
      obtain ⟨state, read, tail, found'⟩ := laws.readdir opened dir
      have result : fsReadDir os fs status.fileId =
          ({ fs with
              os := state
              files := Function.update fs.files status.fileId
                { fs.files status.fileId with dir := some dir } }, rest.head?) := by
        simp only [fsReadDir, inside, ↓reduceIte, openDir, slot, streamed, read, entries]
      rw [result] at keeps
      refine ⟨_, result, ⟨at_.held.keepsTable keeps, ?_, ?_⟩, dir, by simp⟩
      · exact at_.listed_of ⟨rfl, rfl, found'.trans found⟩
      · simp only [Reads, Function.update_self]
        rw [tail, entries]

/-- Closing a file whose directory stream was never opened. -/
theorem fsClose_eq {fs : Fs σ π} {fileId : Int} {file : FsFile}
    (found : fsGetFile fs fileId = some file) (noStream : file.dir = none) :
    fsClose os pool fs fileId =
      { fs with
        os := os.close fs.os file.fd
        fileIdPool := pool.freeInt fs.fileIdPool fileId
        openFiles := fs.openFiles - 1 } := by
  simp only [fsClose, found, noStream]

variable (os) in
/-- The file just registered is found under its ID, and closing it closes its descriptor. -/
theorem registerFile_close (fs : Fs σ π) (fd : Int) (normalizedPath realPath : CString)
    (inside : ¬ ((pool.nextInt fs.fileIdPool).1 < 0 ∨ (pool.nextInt fs.fileIdPool).1 ≥ fsMaxFiles)) :
    let opened := (registerFile os pool fs fd normalizedPath realPath).1
    let fileId := (pool.nextInt fs.fileIdPool).1
    let file := newFile fileId fd normalizedPath realPath (os.fstat fs.os fd)
    fsGetFile opened fileId = some file ∧
      (fsClose os pool opened fileId).os = os.close fs.os fd ∧
      (fsClose os pool opened fileId).drivePath = fs.drivePath ∧
      (fsClose os pool opened fileId).files = Function.update fs.files fileId file := by
  intro opened fileId file
  have files : opened.files = Function.update fs.files fileId file := rfl
  have found : fsGetFile opened fileId = some file := by
    rw [fsGetFile_eq_some inside, files, Function.update_self]
  rw [fsClose_eq found rfl]
  exact ⟨found, rfl, rfl, rfl⟩

/-- A path that can be opened is opened and closed again without a trace, apart from the slot
that the file was given. -/
theorem fsOpen_probe (laws : DirectoryLaws os view) (lawful : pool.Lawful) {fs : Fs σ π}
    (invariant : TableInvariant pool fs) {path : CString} {isDirectory : Bool}
    (found : openable view fs path = some isDirectory) :
    ∃ opened fileId file, fsOpen os pool fs path genericRead fileOpen 0 = (opened, .ok fileId) ∧
      Opened pool fs opened fileId ∧ fsGetFile opened fileId = some file ∧
      file.isDirectory = isDirectory ∧
      (fsClose os pool opened fileId).drivePath = fs.drivePath ∧
      (fsClose os pool opened fileId).files = Function.update fs.files fileId file ∧
      view.Same fs.os (fsClose os pool opened fileId).os := by
  obtain ⟨realPath, normalizedPath, state, fd, _, _, _, result, kind, _, same⟩ :=
    fsOpen_found pool laws found
  have opened := fsOpen_opened lawful invariant result
  obtain ⟨file, closed, drivePath, files⟩ := registerFile_close os
    { fs with os := state } fd normalizedPath realPath opened.inside
  exact ⟨_, _, _, result, opened, file, kind, drivePath, files,
    (congrArg view.found closed).trans same.found, (congrArg view.entries closed).trans same.entries⟩

/-- An entry is listed as its property, or not at all. -/
theorem ListingAt.entry (laws : DirectoryLaws os view) (lawful : pool.Lawful)
    (listing : Listing σ π)
    (at_ : ListingAt os pool view property openFiles status rest listing.fs listing.closed)
    {dir : Int} (slot : (listing.fs.files status.fileId).dir = some dir) (filename : CString) :
    ∃ fs closed, ListingAt os pool view property openFiles status rest fs closed ∧
      (∃ dir, (fs.files status.fileId).dir = some dir) ∧
      lsEntry os pool status listing filename =
        match property filename with
        | none => ({ listing with fs := fs, closed := closed }, some false)
        | some (name, value) =>
            let written := jsonWriteProperty name value listing.jsonState
            ({ fs := fs
               jsonState := written.state
               blobs := listing.blobs ++ written.blobs
               closed := closed },
              some written.blobWritten) := by
  have listed := congrFun at_.listed filename
  unfold lsEntry
  by_cases dots : filename = [dot] ∨ filename = [dot, dot]
  · have skipped : property filename = none := by
      rw [← listed, entryProperty, if_pos dots]
    exact ⟨_, _, at_, ⟨dir, slot⟩, by rw [if_pos dots, skipped]⟩
  rw [entryProperty, if_neg dots] at listed
  rw [if_neg dots]
  cases appended : fsAppendFilename status.directoryName filename with
  | none =>
      rw [appended] at listed
      exact ⟨_, _, at_, ⟨dir, slot⟩, by rw [← listed]; rfl⟩
  | some absolutePath =>
      rw [appended, Option.bind_some] at listed
      dsimp only
      cases found : openable view listing.fs absolutePath with
      | none =>
          obtain ⟨error, state, result, same⟩ := fsOpen_missing pool laws found
          rw [found] at listed
          have keeps := fsOpen_failed result
          refine ⟨_, listing.closed, ⟨at_.held.keepsTable keeps, ?_, ?_⟩, ⟨dir, slot⟩,
            by rw [result, ← listed]; rfl⟩
          · exact at_.listed_of ⟨rfl, rfl, same.found⟩
          · have reads := at_.reads
            simp only [Reads, slot] at reads ⊢
            rw [same.entries, reads]
      | some isDirectory =>
          obtain ⟨opened, fileId, file, result, probe, filed, kind, drivePath, files, same⟩ :=
            fsOpen_probe laws lawful at_.held.invariant found
          have distinct : status.fileId ≠ fileId := fun same => probe.fresh (same ▸ at_.held.isOpen)
          have held := at_.held.probe os lawful probe
          rw [found] at listed
          have untouched : (fsClose os pool opened fileId).files status.fileId =
              listing.fs.files status.fileId := by
            rw [files, Function.update_of_ne distinct]
          refine ⟨fsClose os pool opened fileId, fileId :: listing.closed,
            ⟨⟨held.invariant, held.isOpen, held.inside, held.openFiles, rfl⟩, ?_, ?_⟩,
            ⟨dir, by rw [untouched, slot]⟩, ?_⟩
          · exact at_.listed_of
              ⟨held.openFiles.trans at_.held.openFiles.symm, drivePath, same.found⟩
          · have reads := at_.reads
            simp only [Reads, slot] at reads
            simp only [Reads, untouched, slot, same.entries, reads]
          · rw [result, ← listed]
            simp only [filed, kind, Option.map_some]

/-- The loop keeps account of every entry: those it wrote as properties, and those that are
kept for later. It ends at a pause, having used up an entry, or at the end of the
directory. -/
theorem ListingAt.loop (laws : DirectoryLaws os view) (lawful : pool.Lawful) (fuel : Nat)
    (listing : Listing σ π) (full : Bool)
    (at_ : ListingAt os pool view property openFiles status rest listing.fs listing.closed)
    (emitted : Emitted (sent ++ listing.blobs.flatten) listing.jsonState properties)
    (enough : rest.length < fuel) :
    ∃ left written, ∃ result : Listing σ π × LsOutcome,
      lsLoop os pool status fuel listing full = result ∧
      ListingAt os pool view property openFiles status left result.1.fs result.1.closed ∧
      Emitted (sent ++ result.1.blobs.flatten) result.1.jsonState written ∧
      written ++ kept property false result.1.jsonState left =
        properties ++ kept property full listing.jsonState rest ∧
      (result.2 = .exhausted ∧ left = [] ∨ result.2 = .paused ∧ left.length < rest.length) := by
  induction fuel generalizing listing rest full properties with
  | zero => omega
  | succ fuel ih =>
      obtain ⟨after, read, at', dir, slot⟩ := at_.readDir laws
      simp only [lsLoop, read]
      cases rest with
      | nil =>
          refine ⟨[], properties, _, rfl, at', emitted, ?_, .inl ⟨rfl, rfl⟩⟩
          cases full <;> rfl
      | cons filename rest =>
          have shorter : rest.length < fuel := by
            rw [List.length_cons] at enough
            omega
          simp only [List.head?_cons]
          cases full with
          | true =>
              exact ⟨rest, properties, _, rfl, at', emitted, rfl, .inr ⟨rfl, Nat.lt_succ_self _⟩⟩
          | false =>
              obtain ⟨fs, closed, entered, -, result⟩ :=
                ListingAt.entry laws lawful { listing with fs := after } at' slot filename
              simp only [Bool.false_eq_true, ↓reduceIte, result, kept]
              cases property filename with
              | none =>
                  obtain ⟨left, written, result, loop, at'', emitted', account, ends⟩ :=
                    ih { listing with fs := fs, closed := closed } false entered emitted shorter
                  exact ⟨left, written, result, loop, at'', emitted', account,
                    ends.imp_right (And.imp_right Nat.lt_succ_of_lt)⟩
              | some pair =>
                  obtain ⟨name, value⟩ := pair
                  have next := emitted.write name value
                  rw [List.append_assoc, ← List.flatten_append] at next
                  obtain ⟨left, written, result, loop, at'', emitted', account, ends⟩ :=
                    ih
                      { fs := fs
                        jsonState := (jsonWriteProperty name value listing.jsonState).state
                        blobs := listing.blobs ++
                          (jsonWriteProperty name value listing.jsonState).blobs
                        closed := closed } _ entered next shorter
                  refine ⟨left, written, result, loop, at'', emitted', ?_,
                    ends.imp_right (And.imp_right Nat.lt_succ_of_lt)⟩
                  rw [account, List.append_assoc, List.singleton_append]
                  rfl

/-! ## Runs of acks -/

theorem sentData_append (session : Session σ π) (blobs : List (List UInt8)) :
    ((session.sent ++ blobs.map Instruction.blob).filterMap Instruction.blobData).flatten =
      session.sentData ++ blobs.flatten := by
  have only : (blobs.map Instruction.blob).filterMap Instruction.blobData = blobs := by
    induction blobs with
    | nil => rfl
    | cons blob blobs ih => simp only [List.map_cons, List.filterMap_cons, Instruction.blobData, ih]
  rw [List.filterMap_append, only, List.flatten_append, Session.sentData]

/-- A listing after `acks` acks. It goes on with fewer than `bound` entries left, all of whose
properties are accounted for, or it has sent the object of all the properties kept. -/
def ListingProgress (os : Os σ) (pool : IdPool π) (view : DirectoryView σ)
    (property : CString → Option (CString × CString)) (openFiles : Int)
    (total : List (CString × CString)) (bound acks : Nat) (session : Session σ π) : Prop :=
  (∃ status rest properties, session.stream = some (.listing status) ∧
    ListingAt os pool view property openFiles status rest session.fs session.closed ∧
    Emitted session.sentData status.jsonState properties ∧
    properties ++ kept property false status.jsonState rest = total ∧
    rest.length + acks ≤ bound) ∨
  (session.stream = none ∧ session.sentData = renderObject total)

/-- Ending a listing completes the object. -/
theorem Emitted.finish {session : Session σ π} {listing : Listing σ π} (status : LsStatus)
    (emitted : Emitted (session.sentData ++ listing.blobs.flatten) listing.jsonState properties) :
    (session.finishListing os pool status listing).sentData = renderObject properties := by
  have ended := jsonEndObject_flush emitted.bounded
  have sent : (session.finishListing os pool status listing).sentData =
      session.sentData ++ (listing.blobs ++ (jsonEndObject listing.jsonState).blobs ++
        (jsonFlush (jsonEndObject listing.jsonState).state).2).flatten := by
    rw [← sentData_append]
    simp only [Session.sentData, Session.finishListing, List.filterMap_append,
      List.filterMap_cons, Instruction.blobData, List.filterMap_nil, List.append_nil]
  rw [sent, List.flatten_append, List.flatten_append, List.append_assoc, ended,
    ← List.append_assoc, ← List.append_assoc, emitted.text]
  rfl

/-- A successful ack makes progress. -/
theorem ListingProgress.ack (laws : DirectoryLaws os view) (lawful : pool.Lawful)
    {total : List (CString × CString)} {bound fuel acks : Nat} (enough : bound < fuel)
    {session : Session σ π}
    (progress : ListingProgress os pool view property openFiles total bound acks session) :
    ListingProgress os pool view property openFiles total bound (acks + 1)
      (ackStream os pool fuel session true) := by
  rcases progress with ⟨status, rest, properties, stream, at_, emitted, account, remaining⟩ |
    ⟨stream, text⟩
  · obtain ⟨left, written, ⟨listing, outcome⟩, loop, at', emitted', account', ends⟩ :=
      ListingAt.loop laws lawful fuel
        { fs := session.fs, jsonState := status.jsonState, blobs := [],
          closed := session.closed } false at_ (by simpa using emitted) (by omega)
    simp only [ackStream, stream, lsAckHandler, ↓reduceIte, loop]
    rcases ends with ⟨ended, empty⟩ | ⟨paused, shorter⟩
    · obtain rfl : outcome = .exhausted := ended
      refine .inr ⟨rfl, ?_⟩
      rw [empty, kept, List.append_nil, account] at account'
      rw [← account']
      exact emitted'.finish status
    · obtain rfl : outcome = .paused := paused
      refine .inl ⟨{ status with jsonState := listing.jsonState }, left, written, rfl,
        ⟨at'.held, at'.listed, at'.reads⟩, ?_, account'.trans account, ?_⟩
      · simp only [Session.afterListing, Session.sentData]
        rw [sentData_append]
        exact emitted'
      · have fewer : left.length < rest.length := shorter
        omega
  · simp only [ackStream, stream]
    exact .inr ⟨stream, text⟩

theorem ListingProgress.run (laws : DirectoryLaws os view) (lawful : pool.Lawful)
    {total : List (CString × CString)} {bound fuel : Nat} (enough : bound < fuel)
    {session : Session σ π}
    (start : ListingProgress os pool view property openFiles total bound 0 session) (acks : Nat) :
    ListingProgress os pool view property openFiles total bound acks
      (Run.exec (ackStream os pool fuel) session (List.replicate acks true)) := by
  induction acks with
  | zero => exact start
  | succ acks ih =>
      rw [List.replicate_succ', Run.exec_append]
      exact ih.ack laws lawful enough

/-- A get request for a directory starts a listing of everything that the directory holds. -/
theorem startTransfer_progress (laws : DirectoryLaws os view) (lawful : pool.Lawful)
    {fs : Fs σ π} (invariant : TableInvariant pool fs) {name realPath : CString}
    (resolved : fsRealPath fs name = some realPath) (room : fs.openFiles < fsMaxFiles)
    (directory : view.found fs.os realPath = some true) :
    ListingProgress os pool view (listedProperty view fs name) fs.openFiles
      (kept (listedProperty view fs name) false jsonBeginObject (view.names fs.os realPath))
      (view.names fs.os realPath).length 0
      (startTransfer os pool (Session.idle fs) (.get name)) := by
  have found : openable view fs name = some true := by
    rw [openable, if_neg (Int.not_le.mpr room), resolved]
    exact directory
  obtain ⟨realPath', normalizedPath, state, fd, resolved', _, nativeOpened, result, kind, same, _⟩ :=
    fsOpen_found pool laws found
  obtain rfl : realPath = realPath' := Option.some.inj (resolved.symm.trans resolved')
  have opened := fsOpen_opened lawful invariant result
  obtain ⟨streamed, dir, fdopendir, entries, streamFound⟩ :=
    laws.fdopendir fs.os realPath state fd directory nativeOpened
  obtain ⟨file, -⟩ := registerFile_close os { fs with os := state } fd normalizedPath
    realPath opened.inside
  have isDirectory : (newFile (pool.nextInt fs.fileIdPool).1 fd normalizedPath realPath
      (os.fstat state fd)).isDirectory = true := kind
  have started : startTransfer os pool (Session.idle fs) (.get name) =
      { Session.idle fs with
        fs := (registerFile os pool { fs with os := state } fd normalizedPath realPath).1
        stream := some (.listing
          { fileId := (pool.nextInt fs.fileIdPool).1
            directoryName := name.take (fsMaxPath - 1)
            jsonState := jsonBeginObject })
        sent := [.body streamIndexMimetype name] } := by
    simp only [registerFile] at file
    simp only [startTransfer, downloadGetHandler, Session.idle, Bool.not_true, Bool.false_eq_true,
      ↓reduceIte, result, registerFile, file, Session.getOpened, isDirectory, List.nil_append]
  simp only [started]
  have slot : (registerFile os pool { fs with os := state } fd normalizedPath realPath).1.files
      (pool.nextInt fs.fileIdPool).1 =
        newFile (pool.nextInt fs.fileIdPool).1 fd normalizedPath realPath (os.fstat state fd) :=
    Function.update_self _ _ _
  refine .inl ⟨_, _, [], rfl, ⟨⟨opened.invariant, ?_, opened.inside, opened.openFiles, rfl⟩, ?_, ?_⟩,
    ⟨rfl, rfl, jsonBeginObject_bounded⟩, rfl, Nat.le_refl _⟩
  · exact opened.openIds ▸ List.mem_cons_self
  · have sameDrive : SameDrive view { fs with openFiles := fs.openFiles + 1 }
        (registerFile os pool { fs with os := state } fd normalizedPath realPath).1 :=
      ⟨rfl, rfl, same.found⟩
    exact entryProperty_congr sameDrive _
  · simp only [Reads, slot, newFile]
    exact ⟨streamed, dir, fdopendir, entries, streamFound.trans same.found.symm⟩

/-- A listing ends, and then it has sent the properties kept. -/
theorem listing_sends (laws : DirectoryLaws os view) (lawful : pool.Lawful) {fs : Fs σ π}
    (invariant : TableInvariant pool fs) (room : fs.openFiles < fsMaxFiles)
    {name realPath : CString} (resolved : fsRealPath fs name = some realPath)
    (directory : view.found fs.os realPath = some true) {fuel : Nat}
    (enough : (view.names fs.os realPath).length < fuel) (acks : Nat) :
    let property := listedProperty view fs name
    let names := view.names fs.os realPath
    let final := Run.exec (ackStream os pool fuel)
      (startTransfer os pool (Session.idle fs) (.get name)) (List.replicate acks true)
    (names.length < acks → final.stream = none) ∧
      (final.stream = none →
        final.sentData = renderObject (kept property false jsonBeginObject names)) := by
  intro property names final
  have progress : ListingProgress os pool view property fs.openFiles
      (kept property false jsonBeginObject names) names.length acks final :=
    ListingProgress.run laws lawful enough
      (startTransfer_progress laws lawful invariant resolved room directory) acks
  rcases progress with ⟨status, rest, properties, stream, _, _, _, remaining⟩ | ⟨stream, text⟩
  · refine ⟨fun many => ?_, fun ended => ?_⟩
    · omega
    · rw [ended] at stream
      cases stream
  · exact ⟨fun _ => stream, fun _ => text⟩

theorem renderObject_kept_iff (names : List CString) :
    renderObject (kept property false jsonBeginObject names) =
        renderObject (names.filterMap property) ↔
      Lossless property false jsonBeginObject names := by
  rw [← kept_eq_iff jsonBeginObject_bounded]
  exact ⟨renderObject_inj_of_sublist (kept_sublist property false jsonBeginObject names),
    congrArg renderObject⟩

/-- **The completeness of a directory listing.** For every directory of the drive, listed by
any number of successful acks: more acks than it has entries end the listing, and when it has
ended, the blobs sent are the JSON object with one property for each entry that can be listed
precisely when no such entry directly follows a property that the buffer had no room for. -/
theorem listing_complete_iff (os : Os σ) (pool : IdPool π) (view : DirectoryView σ)
    (laws : DirectoryLaws os view) (lawful : pool.Lawful) (fs : Fs σ π)
    (invariant : TableInvariant pool fs) (room : fs.openFiles < fsMaxFiles)
    (name realPath : CString) (resolved : fsRealPath fs name = some realPath)
    (directory : view.found fs.os realPath = some true) (fuel : Nat)
    (enough : (view.names fs.os realPath).length < fuel) (acks : Nat) :
    let property := listedProperty view fs name
    let names := view.names fs.os realPath
    let final := Run.exec (ackStream os pool fuel)
      (startTransfer os pool (Session.idle fs) (.get name)) (List.replicate acks true)
    (names.length < acks → final.stream = none) ∧
      (final.stream = none →
        (final.sentData = renderObject (names.filterMap property) ↔
          Lossless property false jsonBeginObject names)) := by
  obtain ⟨ends, sends⟩ :=
    listing_sends laws lawful invariant room resolved directory enough acks
  exact ⟨ends, fun ended => by rw [sends ended, renderObject_kept_iff]⟩

/-! ## Listings of a read-only drive -/

/-- A read-only drive seen as directories. -/
def diskView : DirectoryView Disk where
  found disk path := (disk.nodes.lookup path).map DiskNode.isDirectory
  names disk path :=
    match disk.nodes.lookup path with
    | some (.directory names) => names
    | _ => []
  entries disk := disk.streams

theorem diskOs_directoryLaws : DirectoryLaws diskOs diskView where
  open_missing disk path missing := by
    have absent : disk.nodes.lookup path = none := Option.map_eq_none_iff.mp missing
    exact ⟨disk, .enoent, by simp [diskOs, absent, readOnly], rfl, rfl⟩
  open_found disk path isDirectory found := by
    obtain ⟨node, present, kind⟩ := Option.map_eq_some_iff.mp found
    refine ⟨disk.add node, disk.nextFd, ?_, ?_, ⟨rfl, rfl⟩, ⟨rfl, rfl⟩⟩
    · simp [diskOs, present, Disk.openNode, readOnly]
    · simp [diskOs, Disk.find, Disk.add, kind]
  fdopendir disk path after fd found opened := by
    obtain ⟨node, present, kind⟩ := Option.map_eq_some_iff.mp found
    cases node with
    | file data => cases kind
    | directory names =>
        simp only [diskOs, present, Disk.openNode, readOnly, Bool.not_false, and_self,
          ↓reduceIte, Prod.mk.injEq, Except.ok.injEq] at opened
        obtain ⟨rfl, rfl⟩ := opened
        refine ⟨{ disk.add (.directory names) with
          streams := Function.update disk.streams disk.nextFd names }, disk.nextFd, ?_, ?_, rfl⟩
        · simp [diskOs, Disk.find, Disk.add]
        · simp [diskView, present]
  readdir disk dir := ⟨_, rfl, Function.update_self _ _ _, rfl⟩

/-- The listing of the root directory of a drive. -/
def rootListing (drive : Fs Disk QueuePool) (name : CString) (acks : Nat) :
    Session Disk QueuePool :=
  Run.exec (ackStream diskOs queuePool 9)
    (startTransfer diskOs queuePool (Session.idle drive) (.get name)) (List.replicate acks true)

/-- The root directory of a drive with one file is listed. -/
theorem root_listing_complete :
    (rootListing rootDrive (ascii "/") 4).stream = none ∧
      (rootListing rootDrive (ascii "/") 4).sentData =
        renderObject [(ascii "/a", octetStreamMimetype)] := by
  obtain ⟨ends, complete⟩ := listing_complete_iff diskOs queuePool diskView diskOs_directoryLaws
    queuePool_lawful rootDrive (mountedFs_allocated _ _ _).invariant (by decide) (ascii "/")
    (ascii "/d/") (by decide) (by decide) 9 (by decide) 4
  have ended := ends (by decide)
  refine ⟨ended, (complete ended).mpr ?_⟩
  have dots : ∀ filename ∈ [ascii ".", ascii ".."],
      listedProperty diskView rootDrive (ascii "/") filename = none := by decide
  have listed : listedProperty diskView rootDrive (ascii "/") (ascii "a") =
      some (ascii "/a", octetStreamMimetype) := by decide
  have names : diskView.names rootDrive.os (ascii "/d/") =
      [ascii ".", ascii "..", ascii "a"] := by decide
  rw [names]
  simp only [Lossless, dots (ascii ".") (by decide), dots (ascii "..") (by decide), listed]

/-! ## A lost entry -/

/-- A drive whose root directory holds two files. -/
def pairDrive : Fs Disk QueuePool :=
  mountedFs
    [(ascii "/d/", .directory [ascii ".", ascii "..", ascii "a", ascii "b"]),
      (ascii "/d/a", .file []), (ascii "/d/b", .file [])]
    (ascii "/d") false

/-- A name for the root directory. -/
def slashes (count : Nat) : CString := List.replicate count slash

theorem scanComponents_slashes (count : Nat) (rest : List UInt8) (components : List CString) :
    scanComponents (slashes count ++ rest) [] components = scanComponents rest [] components := by
  induction count with
  | zero => rfl
  | succ count ih => exact ih

theorem fsNormalizePath_slash {scratch : CString} (short : scratch.length < fsMaxPath - 1) :
    fsNormalizePath (slash :: scratch) = (scanComponents scratch [] []).map fun components =>
      backslash :: strljoin components.reverse [backslash] (fsMaxPath - 1) := by
  simp only [fsNormalizePath, isSeparator, BEq.rfl, Bool.true_or, Bool.not_true,
    Bool.false_eq_true, ↓reduceIte, if_neg (Nat.not_le.mpr short)]

/-- However many slashes it starts with, a path below them is the path below the root. -/
theorem fsRealPath_slashes (fs : Fs σ π) (count : Nat) (rest : CString)
    (short : count + rest.length < fsMaxPath - 1) :
    fsRealPath fs (slashes (count + 1) ++ rest) = fsRealPath fs (slash :: rest) := by
  have split : slashes (count + 1) ++ rest = slash :: (slashes count ++ rest) := rfl
  have rooted : ∀ path : CString, rootedPath (slash :: path) = some (slash :: path) := by
    intro path
    simp [rootedPath]
  rw [split, fsRealPath, fsRealPath, rooted, rooted, Option.bind_some, Option.bind_some,
    fsNormalizePath_slash, fsNormalizePath_slash, scanComponents_slashes]
  · omega
  · rw [List.length_append, slashes, List.length_replicate]
    exact short

theorem fsAppendFilename_slashes (count : Nat) (short : count + 2 < fsMaxPath) {c : UInt8}
    (plain : isSeparator c = false) (notDot : c ≠ dot) :
    fsAppendFilename (slashes (count + 1)) [c] = some (slashes (count + 1) ++ [c]) := by
  have trailing : withTrailingSlash (slashes (count + 1)) = slashes (count + 1) := by
    simp [withTrailingSlash, slashes, List.getLast?_replicate, isSeparator]
  have length : (slashes (count + 1)).length = count + 1 := List.length_replicate
  have fits : ¬ (slashes (count + 1)).length ≥ fsMaxPath := by omega
  obtain ⟨room, left⟩ : ∃ room, fsMaxPath - (slashes (count + 1)).length = room + 2 :=
    ⟨fsMaxPath - (count + 3), by omega⟩
  simp [fsAppendFilename, notDot, trailing, fits, left, copyFilename, plain]

theorem pairDrive_listedProperty {count : Nat} (short : count < 4090) {c : UInt8}
    (member : c ∈ [0x61, 0x62]) :
    listedProperty diskView pairDrive (slashes (count + 1)) [c] =
      some (slashes (count + 1) ++ [c], octetStreamMimetype) := by
  have named := List.mem_pair.mp member
  have plain : isSeparator c = false ∧ c ≠ dot := by
    rcases named with rfl | rfl <;> decide
  have whole : (slashes (count + 1)).take (fsMaxPath - 1) = slashes (count + 1) :=
    List.take_of_length_le (by simp only [slashes, List.length_replicate, fsMaxPath]; omega)
  have appended := fsAppendFilename_slashes count (by simp only [fsMaxPath]; omega)
    plain.1 plain.2
  have real := fsRealPath_slashes { pairDrive with openFiles := pairDrive.openFiles + 1 }
    count [c] (by simp only [fsMaxPath, List.length_singleton]; omega)
  have found : (fsRealPath
      { pairDrive with openFiles := pairDrive.openFiles + 1 } [slash, c]).bind
        (diskView.found pairDrive.os) = some false := by
    rcases named with rfl | rfl <;> decide
  have notDots : ¬ ([c] = [dot] ∨ [c] = [dot, dot]) := by simp [plain.2]
  simp only [listedProperty, whole, entryProperty, if_neg notDots, appended, Option.bind_some,
    openable, real, found]
  rfl

/-- A name so long that one property fills the JSON buffer makes the listing lose the file
that comes second. -/
theorem pairDrive_listing_loses {count : Nat} (long : 4065 ≤ count) (short : count < 4090) :
    (rootListing pairDrive (slashes (count + 1)) 5).stream = none ∧
      (rootListing pairDrive (slashes (count + 1)) 5).sentData ≠
        renderObject [(slashes (count + 1) ++ ascii "a", octetStreamMimetype),
          (slashes (count + 1) ++ ascii "b", octetStreamMimetype)] := by
  have resolved : fsRealPath pairDrive (slashes (count + 1)) = some (ascii "/d/") := by
    have whole := fsRealPath_slashes pairDrive count []
      (by simp only [fsMaxPath, List.length_nil]; omega)
    rw [List.append_nil] at whole
    rw [whole]
    decide
  obtain ⟨ends, sends⟩ : _ ∧ (_ → (rootListing pairDrive (slashes (count + 1)) 5).sentData =
      renderObject (kept (listedProperty diskView pairDrive (slashes (count + 1))) false
        jsonBeginObject (diskView.names pairDrive.os (ascii "/d/")))) :=
    listing_sends diskOs_directoryLaws queuePool_lawful (mountedFs_allocated _ _ _).invariant
      (by decide) resolved (by decide) (by decide) 5
  have ended := ends (by decide)
  refine ⟨ended, fun complete => ?_⟩
  have dots : ∀ filename ∈ [ascii ".", ascii ".."],
      listedProperty diskView pairDrive (slashes (count + 1)) filename = none := by
    intro filename member
    rw [listedProperty, entryProperty, if_pos (by revert filename; decide)]
  have first : listedProperty diskView pairDrive (slashes (count + 1)) (ascii "a") =
      some (slashes (count + 1) ++ ascii "a", octetStreamMimetype) :=
    pairDrive_listedProperty short (by decide)
  have second : listedProperty diskView pairDrive (slashes (count + 1)) (ascii "b") =
      some (slashes (count + 1) ++ ascii "b", octetStreamMimetype) :=
    pairDrive_listedProperty short (by decide)
  have names : diskView.names pairDrive.os (ascii "/d/") =
      [ascii ".", ascii "..", ascii "a", ascii "b"] := by decide
  rw [names] at sends
  have listed : [ascii ".", ascii "..", ascii "a", ascii "b"].filterMap
      (listedProperty diskView pairDrive (slashes (count + 1))) =
        [(slashes (count + 1) ++ ascii "a", octetStreamMimetype),
          (slashes (count + 1) ++ ascii "b", octetStreamMimetype)] := by
    simp only [List.filterMap_cons, dots (ascii ".") (by decide), dots (ascii "..") (by decide),
      first, second, List.filterMap_nil]
  rw [sends ended, ← listed, renderObject_kept_iff] at complete
  simp only [Lossless, dots (ascii ".") (by decide), dots (ascii "..") (by decide), first]
    at complete
  have overflow : jsonCapacity < jsonBeginObject.buffer.length +
      (propertyText jsonBeginObject.propertiesWritten (slashes (count + 1) ++ ascii "a")
        octetStreamMimetype).length := by
    have name := length_le_escaped (slashes (count + 1) ++ ascii "a")
    have value : (renderString octetStreamMimetype).length = 26 := by decide
    rw [List.length_append, slashes, List.length_replicate] at name
    simp only [propertyText, renderProperty, List.length_append, List.length_cons, value,
      jsonCapacity]
    rw [renderString, List.length_append, List.length_cons]
    simp only [slashes, List.length_singleton] at name ⊢
    have begun : jsonBeginObject.buffer.length = 1 := by decide
    have single : (ascii "a").length = 1 := by decide
    omega
  simp only [overflow, decide_true, Lossless, second] at complete
  cases complete.1

/-- The second of two files is missing from a listing, the first having filled the buffer. -/
theorem root_listing_loses_entry :
    (rootListing pairDrive (slashes 4090) 5).stream = none ∧
      (rootListing pairDrive (slashes 4090) 5).sentData ≠
        renderObject [(slashes 4090 ++ ascii "a", octetStreamMimetype),
          (slashes 4090 ++ ascii "b", octetStreamMimetype)] :=
  pairDrive_listing_loses (by decide) (by decide)

end GuacNebula.Rdp
