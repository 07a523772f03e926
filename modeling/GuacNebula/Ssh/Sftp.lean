import GuacNebula.Lib.LexicalPath
import GuacNebula.Rdp.Path

/-! # The SFTP filesystem

Files on the SSH server are named by clients relative to a root directory. A name is normalized,
which resolves it lexically, and appended to the path of the root. The functions of libguac that
copy and join strings are a parameter.
-/

namespace GuacNebula.Ssh

open LexicalPath Rdp

/-- `GUAC_COMMON_SSH_SFTP_MAX_PATH`, the size in bytes of a path buffer, terminator included. -/
def sftpMaxPath : Nat := 2048

/-- `GUAC_COMMON_SSH_SFTP_MAX_DEPTH`. -/
def sftpMaxDepth : Nat := 1024

/-- The string functions of libguac: what they store into a buffer of a given size, and for
`guac_strlcpy` also the length it returns. -/
structure GuacString where
  strlcpy : CString → Nat → CString × Nat
  strljoin : List CString → CString → Nat → CString

/-- What libguac documents of them: at most one byte less than the size is stored, and the length
returned is that of the source. -/
structure GuacString.Lawful (lib : GuacString) : Prop where
  strlcpy : ∀ source size, lib.strlcpy source size = (source.take (size - 1), source.length)
  strljoin : ∀ elements delimiter size,
    lib.strljoin elements delimiter size = (delimiter.intercalate elements).take (size - 1)

/-- String functions that do as documented. -/
def documentedString : GuacString where
  strlcpy source size := (source.take (size - 1), source.length)
  strljoin elements delimiter size := (delimiter.intercalate elements).take (size - 1)

theorem documentedString_lawful : documentedString.Lawful :=
  ⟨fun _ _ => rfl, fun _ _ _ => rfl⟩

/-- Components end at either slash, and nothing is refused. -/
def sftpRules : Rules UInt8 where
  separates := isSeparator
  refuses _ := false
  dot := dot
  maxDepth := sftpMaxDepth

variable (lib : GuacString)

/-- `guac_common_ssh_sftp_normalize_path`. -/
def sftpNormalizePath : CString → Option CString
  | [] => none
  | first :: rest =>
      if !isSeparator first then none
      else
        let (scratch, length) := lib.strlcpy rest (sftpMaxPath - 1)
        if length ≥ sftpMaxPath - 1 then none
        else (scan sftpRules scratch [] []).map fun components =>
          slash :: lib.strljoin components.reverse [slash] (sftpMaxPath - 1)

/-- `guac_ssh_append_path`. -/
def appendPath (pathA pathB : CString) : Option CString :=
  let (path, length) := lib.strlcpy pathA sftpMaxPath
  if length ≥ sftpMaxPath then none
  else
    let (path, length) :=
      if path.getLast? ≠ some slash then
        let (stored, more) := lib.strlcpy [slash] (sftpMaxPath - length)
        (path ++ stored, length + more)
      else (path, length)
    let (stored, more) := lib.strlcpy (pathB.dropWhile (· = slash)) (sftpMaxPath - length)
    if length + more ≥ sftpMaxPath then none else some (path ++ stored)

/-- `guac_common_ssh_sftp_filesystem`, whose root path is a normalized one. -/
structure SftpFilesystem where
  name : CString
  rootPath : CString
  uploadPath : CString
  disableDownload : Bool
  disableUpload : Bool
  normalized : ∃ path, sftpNormalizePath lib path = some rootPath

/-- `guac_common_ssh_create_sftp_filesystem`, once there is an SFTP session. -/
def createSftpFilesystem (rootPath : CString) (name : Option CString)
    (disableDownload disableUpload : Bool) : Option (SftpFilesystem lib) :=
  match normalized : sftpNormalizePath lib rootPath with
  | none => none
  | some root =>
      some
        { name := name.getD root
          rootPath := root
          uploadPath := [dot]
          disableDownload := disableDownload
          disableUpload := disableUpload
          normalized := ⟨rootPath, normalized⟩ }

/-- `guac_common_ssh_sftp_set_upload_path`. -/
def setUploadPath (filesystem : SftpFilesystem lib) (path : CString) : SftpFilesystem lib :=
  if path.length + 1 > sftpMaxPath then filesystem else { filesystem with uploadPath := path }

/-- `guac_common_ssh_sftp_translate_name`. -/
def translateName (filesystem : SftpFilesystem lib) (name : CString) : Option CString :=
  (sftpNormalizePath lib name).bind (appendPath lib filesystem.rootPath)

section Confinement

variable {lib}

/-- A normalized path is written with names only. -/
theorem sftpNormalizePath_names (lawful : lib.Lawful) {path normalized : CString}
    (found : sftpNormalizePath lib path = some normalized) :
    ∀ name ∈ components slash normalized, IsName sftpRules name := by
  cases path with
  | nil => cases found
  | cons first rest =>
      simp only [sftpNormalizePath, lawful.strlcpy] at found
      split_ifs at found with relative long
      obtain ⟨names, scanned, rfl⟩ := Option.map_eq_some_iff.mp found
      obtain ⟨allNames, fits⟩ := scan_names scanned (List.forall_mem_nil _) (List.forall_mem_nil _)
      have written : ∀ name ∈ names.reverse, name ≠ [] ∧ slash ∉ name := by
        intro name member
        have isName := allNames name (List.mem_reverse.mp member)
        exact ⟨isName.ne_nil, fun inside => absurd (isName.plain slash inside).1 (by decide)⟩
      have whole : lib.strljoin names.reverse [slash] (sftpMaxPath - 1)
          = [slash].intercalate names.reverse := by
        rw [lawful.strljoin, List.take_of_length_le]
        rw [length_intercalate, room_reverse]
        rw [room_nil, List.length_nil, List.length_take] at fits
        omega
      rw [whole, components_cons, components_intercalate written]
      exact fun name member => allNames name (List.mem_reverse.mp member)

/-- The separators at the beginning of a path lead nowhere. -/
theorem components_dropWhile (path : CString) :
    components slash (path.dropWhile (· = slash)) = components slash path := by
  induction path with
  | nil => rfl
  | cons c path ih =>
      rw [List.dropWhile_cons]
      split_ifs with leading
      · rw [ih, of_decide_eq_true leading, components_cons]
      · rfl

/-- A path appended to another one begins with the other, and its components follow those of the
other. -/
theorem appendPath_components (lawful : lib.Lawful) {pathA pathB full : CString}
    (appended : appendPath lib pathA pathB = some full) :
    pathA <+: full
      ∧ components slash full = components slash pathA ++ components slash pathB := by
  have below (front : CString) :
      components slash (front ++ slash :: pathB.dropWhile (· = slash))
        = components slash front ++ components slash pathB := by
    rw [components_append, components_dropWhile]
  simp only [appendPath, lawful.strlcpy] at appended
  split_ifs at appended with long separated tooLong tooLong
  · dsimp only [List.length_singleton] at appended tooLong
    -- Neither copy is cut short, so the separator is there.
    have whole : [slash].take (sftpMaxPath - pathA.length - 1) = [slash] :=
      List.take_of_length_le (by rw [List.length_singleton]; omega)
    rw [List.take_of_length_le (by omega), whole, List.take_of_length_le (by omega)] at appended
    cases appended
    rw [List.append_assoc, List.singleton_append, below]
    exact ⟨List.prefix_append _ _, rfl⟩
  · dsimp only at appended tooLong
    rw [List.take_of_length_le (by omega), List.take_of_length_le (by omega)] at appended
    cases appended
    rw [List.take_of_length_le (by omega), not_not] at separated
    obtain ⟨front, rfl⟩ := List.getLast?_eq_some_iff.mp separated
    refine ⟨List.prefix_append _ _, ?_⟩
    rw [List.append_assoc, List.singleton_append, below, components_append]
    exact (congrArg (· ++ _) (List.append_nil _)).symm

/-- **A name that is translated leads to the root or below it, without any `..`.** -/
theorem translateName_confined (lawful : lib.Lawful) (filesystem : SftpFilesystem lib)
    {name fullpath : CString} (translated : translateName lib filesystem name = some fullpath) :
    filesystem.rootPath <+: fullpath ∧ Below slash filesystem.rootPath fullpath
      ∧ ∀ component ∈ fullpath.splitOn slash, component ≠ [dot, dot] := by
  obtain ⟨normalized, found, appended⟩ := Option.bind_eq_some_iff.mp translated
  obtain ⟨path, rooted⟩ := filesystem.normalized
  obtain ⟨begins, parts⟩ := appendPath_components lawful appended
  refine ⟨begins, ⟨_, parts.symm⟩, fun component member parent => ?_⟩
  have inside : component ∈ components slash fullpath := by
    refine List.mem_filter.mpr ⟨member, decide_eq_true ?_⟩
    rw [parent]
    exact List.cons_ne_nil _ _
  rw [parts] at inside
  rcases List.mem_append.mp inside with inside | inside
  · exact (sftpNormalizePath_names lawful rooted component inside).ne_parent parent
  · exact (sftpNormalizePath_names lawful found component inside).ne_parent parent

end Confinement

/-- The files below `/s`. -/
def sampleFilesystem : SftpFilesystem documentedString where
  name := [0x73]
  rootPath := [0x2F, 0x73]
  uploadPath := [dot]
  disableDownload := false
  disableUpload := false
  normalized := ⟨[0x5C, 0x73], by decide⟩

/-- Below `/s`, the name `\../a/./b` is `/s/a/b`. -/
theorem translateName_confined_parent :
    sampleFilesystem.rootPath <+: [0x2F, 0x73, 0x2F, 0x61, 0x2F, 0x62]
      ∧ Below slash sampleFilesystem.rootPath [0x2F, 0x73, 0x2F, 0x61, 0x2F, 0x62]
      ∧ ∀ component ∈ ([0x2F, 0x73, 0x2F, 0x61, 0x2F, 0x62] : CString).splitOn slash,
        component ≠ [dot, dot] :=
  have translated : translateName documentedString sampleFilesystem
      [0x5C, 0x2E, 0x2E, 0x2F, 0x61, 0x2F, 0x2E, 0x2F, 0x62]
        = some [0x2F, 0x73, 0x2F, 0x61, 0x2F, 0x62] := by
    decide
  translateName_confined documentedString_lawful sampleFilesystem translated

end GuacNebula.Ssh
