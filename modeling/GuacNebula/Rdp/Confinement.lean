import GuacNebula.Lib.LexicalPath
import GuacNebula.Rdp.Disk
import GuacNebula.Rdp.Opening

/-! # Paths of the redirected drive on the local system

The path of a request is normalized, which resolves it lexically, and appended to the path of the
drive. Both results are kept in buffers of the same size. The first one always has room for its
path, the second one cuts what does not fit.
-/

namespace GuacNebula.Rdp

open LexicalPath

/-- Components end at either slash, and named streams are refused. -/
def fsRules : Rules UInt8 where
  separates := isSeparator
  refuses c := c = colon
  dot := dot
  maxDepth := maxPathDepth

/-- A path with forward slashes. -/
def forwardSlashes (path : CString) : CString :=
  path.map fun c => if c = backslash then slash else c

/-! ## Normalized paths -/

theorem scanComponents_eq (rest current : CString) (names : List CString) :
    scanComponents rest current names = scan fsRules rest current names := by
  induction rest generalizing current names with
  | nil => rfl
  | cons c rest ih =>
      rw [scanComponents, scan]
      have bound (next : List CString) : scanComponents rest [] next = scan fsRules rest [] next :=
        ih [] next
      by_cases separator : isSeparator c = true
      · rw [if_pos separator, if_pos (show fsRules.separates c = true from separator)]
        exact congrArg _ (funext bound)
      · rw [if_neg separator, if_neg (show ¬ fsRules.separates c = true from separator)]
        by_cases stream : c = colon
        · rw [if_pos stream, if_pos (show fsRules.refuses c = true from decide_eq_true stream)]
        · rw [if_neg stream, if_neg (show ¬ fsRules.refuses c = true by simpa [fsRules] using stream),
            ih]

/-- What a path that can be normalized consists of. -/
theorem fsNormalizePath_scanned {path normalized : CString}
    (found : fsNormalizePath path = some normalized) :
    ∃ first scratch names, path = first :: scratch ∧ isSeparator first = true
      ∧ scan fsRules scratch [] [] = some names
      ∧ normalized = backslash :: [backslash].intercalate names.reverse
      ∧ (∀ name ∈ names, IsName fsRules name) ∧ names.length ≤ maxPathDepth
      ∧ room names < fsMaxPath := by
  cases path with
  | nil => cases found
  | cons first scratch =>
      rw [fsNormalizePath] at found
      split_ifs at found with relative long
      rw [scanComponents_eq] at found
      obtain ⟨names, scanned, rfl⟩ := Option.map_eq_some_iff.mp found
      obtain ⟨allNames, fits⟩ := scan_names scanned (List.forall_mem_nil _) (List.forall_mem_nil _)
      have depth := scan_depth scanned (Nat.zero_le _)
      rw [room_nil, List.length_nil] at fits
      refine ⟨first, scratch, names, rfl, by simpa using relative, scanned, ?_, allNames, depth,
        by omega⟩
      rw [strljoin, List.take_of_length_le]
      rw [length_intercalate, room_reverse]
      omega

/-- A normalized path is written with names only. -/
theorem fsNormalizePath_names {path normalized : CString}
    (found : fsNormalizePath path = some normalized) :
    ∃ names, (∀ name ∈ names, IsName fsRules name)
      ∧ normalized = backslash :: [backslash].intercalate names := by
  obtain ⟨_, _, names, _, _, _, rfl, allNames, _⟩ := fsNormalizePath_scanned found
  exact ⟨names.reverse, fun name member => allNames name (List.mem_reverse.mp member), rfl⟩

/-- Names written one after the other are a normalized path. -/
theorem fsNormalizePath_written {names : List CString}
    (allNames : ∀ name ∈ names, IsName fsRules name) (shallow : names.length ≤ maxPathDepth)
    (fits : room names < fsMaxPath) :
    fsNormalizePath (backslash :: [backslash].intercalate names)
      = some (backslash :: [backslash].intercalate names) := by
  have length := length_intercalate backslash names
  have level : ([] : List CString).length + names.length ≤ fsRules.maxDepth := by
    rw [List.length_nil, Nat.zero_add]
    exact shallow
  have separates : fsRules.separates backslash = true := by decide
  have scanned := scan_intercalate separates allNames level
  have room : fsMaxPath = 4096 := rfl
  rw [fsNormalizePath, if_neg (by decide), if_neg (by omega), scanComponents_eq, scanned,
    List.append_nil, Option.map_some, List.reverse_reverse, strljoin,
    List.take_of_length_le (by omega)]

/-- A normalized path is normalized already. -/
theorem fsNormalizePath_again {path normalized : CString}
    (found : fsNormalizePath path = some normalized) :
    fsNormalizePath normalized = some normalized := by
  obtain ⟨_, _, names, _, _, _, rfl, allNames, depth, fits⟩ := fsNormalizePath_scanned found
  refine fsNormalizePath_written ?_ ?_ ?_
  · exact fun name member => allNames name (List.mem_reverse.mp member)
  · rw [List.length_reverse]
    exact depth
  · rw [room_reverse]
    exact fits

/-- A normalized path has no forward slash, so that none is confused with another one when its
slashes are turned. -/
theorem forwardSlashes_inj {first second : CString} (left : slash ∉ first) (right : slash ∉ second)
    (same : forwardSlashes first = forwardSlashes second) : first = second := by
  have turned (path : CString) (plain : slash ∉ path) :
      (forwardSlashes path).map (fun c => if c = slash then backslash else c) = path := by
    rw [forwardSlashes, List.map_map]
    refine (List.map_congr_left fun c member => ?_).trans (List.map_id path)
    have other : c ≠ slash := fun equal => plain (equal ▸ member)
    by_cases turned : c = backslash
    · rw [Function.comp_apply, if_pos turned, if_pos rfl, turned]
      rfl
    · rw [Function.comp_apply, if_neg turned, if_neg other]
      rfl
  rw [← turned first left, same, turned second right]

theorem fsNormalizePath_no_slash {path normalized : CString}
    (found : fsNormalizePath path = some normalized) : slash ∉ normalized := by
  obtain ⟨names, allNames, rfl⟩ := fsNormalizePath_names found
  intro member
  rcases List.mem_cons.mp member with equal | inside
  · exact absurd equal (by decide)
  · rcases mem_intercalate inside with equal | ⟨name, written, inside⟩
    · exact absurd equal (by decide)
    · exact absurd ((allNames name written).plain slash inside).1 (by decide)

/-- The drive path and the normalized path go into the buffer whole exactly if they fit. -/
theorem fsTranslatePath_eq_iff (drivePath normalized : CString) :
    fsTranslatePath drivePath normalized = drivePath ++ forwardSlashes normalized
      ↔ drivePath.length + normalized.length < fsMaxPath := by
  constructor
  · intro whole
    have length := congrArg List.length whole
    simp only [fsTranslatePath, forwardSlashes, List.length_append, List.length_take,
      List.length_map] at length
    have room : fsMaxPath = 4096 := rfl
    omega
  · intro fits
    rw [fsTranslatePath, List.take_of_length_le (by omega), List.take_of_length_le]
    · rfl
    · rw [List.length_map]
      omega

/-! ## Opening -/

/-- A system call whose effect on the record of opened paths is none. -/
def unrecorded {σ β : Type*} (opened : List CString) (result : σ × β) : (σ × List CString) × β :=
  ((result.1, opened), result.2)

/-- A system that also records the paths it is asked to open, latest first. -/
def Os.recorded {σ : Type*} (os : Os σ) : Os (σ × List CString) where
  openFile state path flags := unrecorded (path :: state.2) (os.openFile state.1 path flags)
  close state fd := (os.close state.1 fd, state.2)
  fstat state fd := os.fstat state.1 fd
  lseek state fd offset := (os.lseek state.1 fd offset, state.2)
  read state fd length := unrecorded state.2 (os.read state.1 fd length)
  write state fd bytes := unrecorded state.2 (os.write state.1 fd bytes)
  ftruncate state fd length := unrecorded state.2 (os.ftruncate state.1 fd length)
  rename state oldPath newPath := unrecorded state.2 (os.rename state.1 oldPath newPath)
  unlink state path := unrecorded state.2 (os.unlink state.1 path)
  rmdir state path := unrecorded state.2 (os.rmdir state.1 path)
  mkdir state path := unrecorded state.2 (os.mkdir state.1 path)
  fdopendir state fd := unrecorded state.2 (os.fdopendir state.1 fd)
  readdir state dir := unrecorded state.2 (os.readdir state.1 dir)
  closedir state dir := (os.closedir state.1 dir, state.2)

section Opening

variable {σ π : Type*} {os : Os σ} {pool : IdPool π} {fs : Fs (σ × List CString) π}

/-- A request is accepted: a file is registered under the normalized path, after the real path was
opened. -/
def Opens (os : Os σ) (pool : IdPool π) (fs : Fs (σ × List CString) π) (request : OpenRequest)
    (normalized real : CString) : Prop :=
  ∃ after id,
    fsOpen os.recorded pool fs request.path request.access request.createDisposition
        request.createOptions = (after, .ok id)
      ∧ (after.files id).absolutePath = normalized ∧ after.os.2.head? = some real

/-- The latest path opened is the one just given to the system. -/
theorem openFile_record (os : Os σ) (state : σ × List CString) (realPath : CString) (flags : OpenFlags) :
    (os.recorded.openFile state realPath flags).1.2.head? = some realPath := rfl

theorem nativeOpen_opened {state after : σ × List CString} {realPath : CString} {flags : OpenFlags}
    {fd : Int} (opened : nativeOpen os.recorded state realPath flags = (after, .ok fd)) :
    after.2.head? = some realPath := by
  rcases nativeOpen_cases os.recorded state realPath flags
    with ⟨last, result, first, _, same⟩ | ⟨next, last, result, _, second, same⟩
  · obtain ⟨rfl, _⟩ := Prod.mk.inj (same.symm.trans opened)
    have record := openFile_record os state realPath flags
    rwa [first] at record
  · obtain ⟨rfl, _⟩ := Prod.mk.inj (same.symm.trans opened)
    have record := openFile_record os next realPath { flags with mode := .rdonly }
    rwa [second] at record

/-- The file is registered under its normalized path, and the system left alone. -/
theorem registerFile_registered {system : Os σ} {before after : Fs σ π} {fd id : Int}
    {normalizedPath realPath : CString}
    (registered : registerFile system pool before fd normalizedPath realPath = (after, .ok id)) :
    (after.files id).absolutePath = normalizedPath ∧ after.os = before.os := by
  cases registered
  refine ⟨?_, rfl⟩
  dsimp only
  rw [Function.update_self]
  rfl

/-- What is opened is the translation of what is registered. -/
theorem Opens.translated {request : OpenRequest} {normalized real : CString}
    (opens : Opens os pool fs request normalized real) :
    (rootedPath request.path).bind fsNormalizePath = some normalized
      ∧ real = fsTranslatePath fs.drivePath normalized := by
  obtain ⟨after, id, opened, registered, record⟩ := opens
  rw [fsOpen_eq] at opened
  cases ready : prepared fs request with
  | none =>
      obtain ⟨error, refused⟩ := fsOpen_refused os.recorded pool ready
      cases refused.symm.trans opened
  | some plan =>
      obtain ⟨path, flags⟩ := plan
      have called := (fsOpen_prepared os.recorded pool ready).symm.trans opened
      rcases system : openSystem os.recorded fs.os (fsTranslatePath fs.drivePath path) request
        flags with ⟨state, error | fd⟩
      · rw [system] at called
        cases called
      rw [system] at called
      obtain ⟨kept, same⟩ := registerFile_registered called
      obtain rfl := registered.symm.trans kept
      obtain ⟨_, _, native⟩ := openSystem_ok os.recorded system
      rw [same, nativeOpen_opened native] at record
      exact ⟨(prepared_eq_some ready).2.1, (Option.some.inj record).symm⟩

theorem fsNormalizePath_rooted {path normalized : CString}
    (found : (rootedPath path).bind fsNormalizePath = some normalized) : slash ∉ normalized := by
  obtain ⟨rooted, _, found⟩ := Option.bind_eq_some_iff.mp found
  exact fsNormalizePath_no_slash found

/-- Two accepted requests open what they should: each the path of the drive followed by the
normalized path with forward slashes, which has to fit into a path buffer, and different
normalized paths nothing in common. -/
structure Confined (drivePath normalized real normalized' real' : CString) : Prop where
  exact : real = drivePath ++ forwardSlashes normalized
  exact' : real' = drivePath ++ forwardSlashes normalized'
  distinct : normalized ≠ normalized' → real ≠ real'
  represented : (drivePath ++ forwardSlashes normalized).length < fsMaxPath
  represented' : (drivePath ++ forwardSlashes normalized').length < fsMaxPath

/-- **Requests open what they should exactly if the drive path and the normalized path together
are shorter than a path buffer.** -/
theorem opens_confined_iff (os : Os σ) (pool : IdPool π) {fs fs' : Fs (σ × List CString) π}
    (sameDrive : fs'.drivePath = fs.drivePath) {request request' : OpenRequest}
    {normalized real normalized' real' : CString}
    (opens : Opens os pool fs request normalized real)
    (opens' : Opens os pool fs' request' normalized' real') :
    Confined fs.drivePath normalized real normalized' real'
      ↔ fs.drivePath.length + normalized.length < fsMaxPath
        ∧ fs.drivePath.length + normalized'.length < fsMaxPath := by
  obtain ⟨found, translated⟩ := opens.translated
  obtain ⟨found', translated'⟩ := opens'.translated
  rw [sameDrive] at translated'
  constructor
  · intro confined
    exact ⟨(fsTranslatePath_eq_iff _ _).mp (translated.symm.trans confined.exact),
      (fsTranslatePath_eq_iff _ _).mp (translated'.symm.trans confined.exact')⟩
  · rintro ⟨fits, fits'⟩
    have exact := translated.trans ((fsTranslatePath_eq_iff _ _).mpr fits)
    have exact' := translated'.trans ((fsTranslatePath_eq_iff _ _).mpr fits')
    have length (path : CString) :
        (fs.drivePath ++ forwardSlashes path).length = fs.drivePath.length + path.length := by
      rw [List.length_append, forwardSlashes, List.length_map]
    refine ⟨exact, exact', fun different same => different ?_, ?_, ?_⟩
    · rw [exact, exact'] at same
      exact forwardSlashes_inj (fsNormalizePath_rooted found) (fsNormalizePath_rooted found')
        (List.append_cancel_left same)
    · rw [length]
      exact fits
    · rw [length]
      exact fits'

end Opening

/-! ## A read-only drive -/

/-- A drive whose system records the paths that are opened. -/
def recordedFs (nodes : List (CString × DiskNode)) (drivePath : CString) :
    Fs (Disk × List CString) QueuePool where
  os := (.mounted nodes, [])
  drivePath := drivePath
  fileIdPool := { nextValue := 0, free := [], outstanding := [] }
  files := fun _ => newFile 0 0 [] [] none
  openFiles := 0
  disableDownload := false

/-- A request to open an existing file for reading. -/
def readRequest (path : CString) : OpenRequest :=
  { path := path, access := genericRead, createDisposition := fileOpen, createOptions := 0 }

/-- What is on the drive under a translated path is opened. -/
theorem recordedFs_opens (nodes : List (CString × DiskNode)) (drivePath : CString)
    {names : List CString} (allNames : ∀ name ∈ names, IsName fsRules name)
    (shallow : names.length ≤ maxPathDepth) (fits : room names < fsMaxPath) {node : DiskNode}
    (there : nodes.lookup
      (fsTranslatePath drivePath (backslash :: [backslash].intercalate names)) = some node) :
    Opens diskOs queuePool (recordedFs nodes drivePath)
      (readRequest (backslash :: [backslash].intercalate names))
      (backslash :: [backslash].intercalate names)
      (fsTranslatePath drivePath (backslash :: [backslash].intercalate names)) := by
  have rooted := fsNormalizePath_written allNames shallow fits
  have found : (rootedPath (backslash :: [backslash].intercalate names)).bind fsNormalizePath
      = some (backslash :: [backslash].intercalate names) := by
    rw [rootedPath, if_neg (fun relative => relative.1 rfl)]
    exact rooted
  generalize backslash :: [backslash].intercalate names = path at found there ⊢
  generalize named : fsTranslatePath drivePath path = real at there ⊢
  have opened : nativeOpen diskOs.recorded (.mounted nodes, []) real ⟨.rdonly, false, false, false⟩
      = (((Disk.mounted nodes).add node, [real]), .ok 3) := by
    have system : diskOs.openFile (.mounted nodes) real ⟨.rdonly, false, false, false⟩
        = ((Disk.mounted nodes).add node, .ok 3) := by
      have found' : (Disk.mounted nodes).nodes.lookup real = some node := there
      simp only [diskOs, found']
      rfl
    unfold nativeOpen Os.recorded unrecorded
    dsimp only
    rw [system]
  have flags : dispositionFlags (accessMode genericRead) fileOpen
      = some ⟨.rdonly, false, false, false⟩ := by
    decide
  have ready : prepared (recordedFs nodes drivePath) (readRequest path) =
      some (path, ⟨.rdonly, false, false, false⟩) := by
    have available : ¬ (recordedFs nodes drivePath).openFiles ≥ fsMaxFiles :=
      show ¬ (0 : Int) ≥ 128 by decide
    rw [prepared, if_neg available, readRequest, found, Option.bind_some, flags]
    rfl
  have request : fsOpen diskOs.recorded queuePool (recordedFs nodes drivePath) path genericRead
      fileOpen 0 = registerFile diskOs.recorded queuePool
        { recordedFs nodes drivePath with os := ((Disk.mounted nodes).add node, [real]) }
        3 path real := by
    refine (fsOpen_prepared diskOs.recorded queuePool ready).trans ?_
    rw [readRequest, openSystem_existing]
    dsimp only [recordedFs]
    rw [named, opened]
  refine ⟨_, _, request, ?_, rfl⟩
  dsimp only
  rw [Function.update_self]
  rfl

/-- Names made of one ordinary letter. -/
theorem isName_replicate (count : Nat) (positive : 0 < count) :
    IsName fsRules (List.replicate count 0x61) where
  ne_nil empty := by
    have length := congrArg List.length empty
    rw [List.length_replicate, List.length_nil] at length
    omega
  ne_current current := absurd (List.eq_of_mem_replicate
    (current ▸ List.mem_cons_self : dot ∈ List.replicate count 0x61)) (by decide)
  ne_parent parent := absurd (List.eq_of_mem_replicate
    (parent ▸ List.mem_cons_self : dot ∈ List.replicate count 0x61)) (by decide)
  plain c member := by
    rw [List.eq_of_mem_replicate member]
    exact ⟨by decide, by decide⟩

/-- Two files, `/d/a` and `/d/aa`. -/
def pairNodes : List (CString × DiskNode) :=
  [([0x2F, 0x64, 0x2F, 0x61], .file []), ([0x2F, 0x64, 0x2F, 0x61, 0x61], .file [])]

/-- On the drive `/d`, the requests for `\a` and `\aa` open `/d/a` and `/d/aa`. -/
theorem opens_confined_pair :
    Confined [0x2F, 0x64] [0x5C, 0x61] [0x2F, 0x64, 0x2F, 0x61] [0x5C, 0x61, 0x61]
      [0x2F, 0x64, 0x2F, 0x61, 0x61] := by
  have written (count : Nat) (positive : 0 < count) :
      ∀ name ∈ [List.replicate count (0x61 : UInt8)], IsName fsRules name := by
    intro name member
    rw [List.mem_singleton.mp member]
    exact isName_replicate count positive
  have opens : Opens diskOs queuePool
      (recordedFs pairNodes [0x2F, 0x64]) (readRequest [0x5C, 0x61]) [0x5C, 0x61]
      [0x2F, 0x64, 0x2F, 0x61] :=
    recordedFs_opens pairNodes [0x2F, 0x64] (written 1 (by decide)) (by decide) (by decide) rfl
  have opens' : Opens diskOs queuePool
      (recordedFs pairNodes [0x2F, 0x64]) (readRequest [0x5C, 0x61, 0x61]) [0x5C, 0x61, 0x61]
      [0x2F, 0x64, 0x2F, 0x61, 0x61] :=
    recordedFs_opens pairNodes [0x2F, 0x64] (written 2 (by decide)) (by decide) (by decide) rfl
  exact (opens_confined_iff diskOs queuePool rfl opens opens').mpr ⟨by decide, by decide⟩

/-- What does not fit into the path buffer is cut off. -/
theorem fsTranslatePath_append {drivePath normalized : CString}
    (full : fsMaxPath ≤ drivePath.length + normalized.length + 1) (rest : CString) :
    fsTranslatePath drivePath (normalized ++ rest) = fsTranslatePath drivePath normalized := by
  simp only [fsTranslatePath]
  rw [List.map_append, List.take_append_of_le_length]
  rw [List.length_map, List.length_take]
  omega

/-- The path of a directory 25 levels below the root. -/
def deepPath : CString :=
  backslash :: [backslash].intercalate (List.replicate 25 (List.replicate 162 0x61))

/-- The path `/srv/guacamole/drive`. -/
def deepDrive : CString :=
  [0x2F, 0x73, 0x72, 0x76, 0x2F, 0x67, 0x75, 0x61, 0x63, 0x61, 0x6D, 0x6F, 0x6C, 0x65,
    0x2F, 0x64, 0x72, 0x69, 0x76, 0x65]

/-- That directory on that drive, where its path fills the buffer. -/
def deepFs : Fs (Disk × List CString) QueuePool :=
  recordedFs [(fsTranslatePath deepDrive deepPath, .directory [[0x61]])] deepDrive

/-- A request for a file in the directory opens the directory itself. -/
theorem opens_unconfined :
    Opens diskOs queuePool deepFs (readRequest deepPath) deepPath
        (fsTranslatePath deepDrive deepPath)
      ∧ Opens diskOs queuePool deepFs (readRequest (deepPath ++ [backslash, 0x61]))
        (deepPath ++ [backslash, 0x61]) (fsTranslatePath deepDrive deepPath)
      ∧ ¬ Confined deepDrive deepPath (fsTranslatePath deepDrive deepPath)
        (deepPath ++ [backslash, 0x61]) (fsTranslatePath deepDrive deepPath) := by
  have deep : ∀ name ∈ List.replicate 25 (List.replicate 162 (0x61 : UInt8)),
      IsName fsRules name := by
    intro name member
    rw [List.eq_of_mem_replicate member]
    exact isName_replicate 162 (by decide)
  have deeper : ∀ name ∈ List.replicate 25 (List.replicate 162 (0x61 : UInt8))
      ++ [List.replicate 1 0x61], IsName fsRules name := by
    intro name member
    rcases List.mem_append.mp member with inside | last
    · exact deep name inside
    · rw [List.mem_singleton.mp last]
      exact isName_replicate 1 (by decide)
  have longer : backslash :: [backslash].intercalate
      (List.replicate 25 (List.replicate 162 (0x61 : UInt8)) ++ [List.replicate 1 0x61])
        = deepPath ++ [backslash, 0x61] := by
    rw [intercalate_concat backslash (List.ne_nil_of_mem (List.mem_replicate.mpr ⟨by decide, rfl⟩))]
    rfl
  have taken : room (List.replicate 25 (List.replicate 162 (0x61 : UInt8))) = 4075 := by
    rw [room_replicate, List.length_replicate]
  have takenMore : room (List.replicate 25 (List.replicate 162 (0x61 : UInt8))
      ++ [List.replicate 1 0x61]) = 4077 := by
    rw [room_append, taken]
    rfl
  have length : deepPath.length = 4075 := by
    rw [deepPath, List.length_cons, length_intercalate, taken]
  have cut : fsTranslatePath deepDrive (deepPath ++ [backslash, 0x61])
      = fsTranslatePath deepDrive deepPath :=
    fsTranslatePath_append (by rw [length]; decide) _
  have fits : (4075 : Nat) < fsMaxPath := by decide
  have fitsMore : (4077 : Nat) < fsMaxPath := by decide
  have itself : List.lookup (fsTranslatePath deepDrive deepPath)
      [(fsTranslatePath deepDrive deepPath, DiskNode.directory [[0x61]])]
        = some (.directory [[0x61]]) := List.lookup_cons_self
  have opens := recordedFs_opens _ deepDrive deep (by decide) (taken ▸ fits) itself
  have there : List.lookup (fsTranslatePath deepDrive (deepPath ++ [backslash, 0x61]))
      [(fsTranslatePath deepDrive deepPath, DiskNode.directory [[0x61]])]
        = some (.directory [[0x61]]) := by
    rw [cut, itself]
  rw [← longer] at there
  have opensMore := recordedFs_opens _ deepDrive deeper (by decide) (takenMore ▸ fitsMore) there
  rw [longer, cut] at opensMore
  refine ⟨opens, opensMore, fun confined => confined.distinct (fun same => ?_) rfl⟩
  have lengths := congrArg List.length same
  rw [List.length_append] at lengths
  exact absurd lengths (by simp)

end GuacNebula.Rdp
