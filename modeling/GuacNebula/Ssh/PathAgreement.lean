import GuacNebula.Rdp.PathScratch
import GuacNebula.Ssh.Sftp

/-! # The two ways to normalize a path

A path is normalized in the same way for SFTP as for the redirected drive, but with other limits,
the other slash, and colons allowed. `normalizePath_agree` is that the components are the same, and
that within the limits of both no path is refused by one of them only. The exception are paths whose
length passes for the greatest one that SFTP allows: only there one of them meets the terminator.
-/

namespace GuacNebula.Ssh

open CInt LexicalPath Rdp

/-- `guac_common_ssh_sftp_normalize_path`, for a path of any length. -/
def normalizePath (lib : GuacString) : CString → Option CString
  | [] => none
  | first :: rest =>
      if !isSeparator first then none
      else
        let (scratch, returned) := lib.strlcpy rest (sftpMaxPath - 1)
        let length := toInt returned
        if toSize length ≥ sftpMaxPath - 1 then none
        else
          (locateNames sftpRules scratch length.toNat).map fun components =>
            slash :: lib.strljoin components.reverse [slash] (sftpMaxPath - 1)

variable {lib : GuacString}

/-- A path is normalized to the components that are located in what is looked at. -/
theorem normalizePath_eq_some_iff (lawful : lib.Lawful) {first : UInt8}
    (separator : isSeparator first = true) (rest normalized : CString) :
    normalizePath lib (first :: rest) = some normalized ↔
      rest.length % 4294967296 < sftpMaxPath - 1 ∧
        (∀ count, (stacked dot [] ((endedPieces (rest.take (sftpMaxPath - 2))
          (rest.length % 4294967296)).take count)).length ≤ sftpMaxDepth) ∧
        normalized = writePath slash (stacked dot []
          (endedPieces (rest.take (sftpMaxPath - 2)) (rest.length % 4294967296))).reverse := by
  obtain ⟨passes, same⟩ := toSize_toInt_lt rest.length (by decide : sftpMaxPath - 1 ≤ 2147483648)
  have located := locateNames_eq_some_iff sftpRules rfl rfl (rest.take (sftpMaxPath - 2))
    (rest.length % 4294967296)
  have fits := (endedPieces_names (rest.take (sftpMaxPath - 2)) (rest.length % 4294967296)).2
  rw [List.length_take] at fits
  have joined : lib.strljoin (stacked dot [] (endedPieces (rest.take (sftpMaxPath - 2))
        (rest.length % 4294967296))).reverse [slash] (sftpMaxPath - 1) =
      [slash].intercalate (stacked dot [] (endedPieces (rest.take (sftpMaxPath - 2))
        (rest.length % 4294967296))).reverse := by
    rw [lawful.strljoin, List.take_of_length_le]
    rw [length_intercalate, room_reverse]
    omega
  rw [normalizePath, if_neg (by rw [separator]; decide), lawful.strlcpy]
  dsimp only
  by_cases short : rest.length % 4294967296 < sftpMaxPath - 1
  · have passed := passes.mpr short
    rw [if_neg (by omega), same short, Option.map_eq_some_iff]
    constructor
    · rintro ⟨names, found, rfl⟩
      obtain ⟨_, depths, rfl⟩ := (located names).mp found
      exact ⟨short, depths, congrArg _ joined⟩
    · rintro ⟨_, depths, rfl⟩
      exact ⟨_, (located _).mpr ⟨fun _ _ _ => rfl, depths, rfl⟩, congrArg _ joined⟩
  · have refused := mt passes.mp short
    rw [if_pos (by omega)]
    exact iff_of_false (Option.some_ne_none normalized).symm fun all => short all.1

/-- A path without a leading separator is refused by both. -/
theorem normalizePath_relative (lib : GuacString) {path : CString}
    (relative : ∀ first rest, path = first :: rest → isSeparator first = false) :
    Rdp.normalizePath path = none ∧ normalizePath lib path = none := by
  cases path with
  | nil => exact ⟨rfl, rfl⟩
  | cons first rest =>
      have other : (!isSeparator first) = true := by
        rw [relative first rest rfl]
        rfl
      exact ⟨if_pos other, if_pos other⟩

/-- The path is within the limits of length and depth of both. -/
structure WithinLimits (path : CString) : Prop where
  fsLength : path.length < fsMaxPath
  sftpLength : path.length < sftpMaxPath
  fsDepth : StacksAtMost maxPathDepth path
  sftpDepth : StacksAtMost sftpMaxDepth path

/-- Two normalized paths have the same components, and are the same but for the separator. -/
def SamePath (fsPath sftpPath : CString) : Prop :=
  components backslash fsPath = components slash sftpPath ∧ sftpPath = forwardSlashes fsPath

/-- Both lead to the same path if they lead anywhere, and within the limits if one of them does. -/
structure Agree (lib : GuacString) (path : CString) : Prop where
  same : ∀ fsPath sftpPath, Rdp.normalizePath path = some fsPath →
    normalizePath lib path = some sftpPath → SamePath fsPath sftpPath
  both : WithinLimits path → ((Rdp.normalizePath path).isSome ↔ (normalizePath lib path).isSome)

/-- The length of the path wraps around to the greatest one for SFTP. The byte behind those that fit
is looked at for the drive, where there is the terminator for SFTP, and that makes a difference for
the components, which are not too deep for either. -/
structure Drifts (first : UInt8) (rest : CString) : Prop where
  absolute : isSeparator first = true
  long : 4294967296 ≤ rest.length
  greatest : rest.length % 4294967296 = sftpMaxPath - 2
  fsShallow : ∀ count, (stacked dot [] ((pieces (rest.take (sftpMaxPath - 1))).dropLast.take
    count)).length ≤ maxPathDepth
  sftpShallow : StacksAtMost sftpMaxDepth (rest.take (sftpMaxPath - 2))
  differ : stacked dot [] (pieces (rest.take (sftpMaxPath - 1))).dropLast ≠
    componentStack (rest.take (sftpMaxPath - 2))

/-- The path is one where the terminator makes a difference. -/
def Differs : CString → Prop
  | [] => False
  | first :: rest => Drifts first rest

/-- Paths written with the one or the other slash are the same if their names are. -/
theorem samePath_writePath {fsNames sftpNames : List CString}
    (fsPlain : ∀ name ∈ fsNames, name ≠ [] ∧ ∀ c ∈ name, isSeparator c = false)
    (sftpPlain : ∀ name ∈ sftpNames, name ≠ [] ∧ ∀ c ∈ name, isSeparator c = false) :
    SamePath (writePath backslash fsNames) (writePath slash sftpNames) ↔ fsNames = sftpNames := by
  have absent (separator : UInt8) (separates : isSeparator separator = true)
      (names : List CString)
      (plain : ∀ name ∈ names, name ≠ [] ∧ ∀ c ∈ name, isSeparator c = false) :
      ∀ name ∈ names, name ≠ [] ∧ separator ∉ name := by
    intro name member
    exact ⟨(plain name member).1, fun inside =>
      absurd (separates.symm.trans ((plain name member).2 separator inside)) nofun⟩
  have fsAbsent := absent backslash rfl fsNames fsPlain
  unfold SamePath
  rw [writePath, components_cons, components_intercalate fsAbsent, writePath, components_cons,
    components_intercalate (absent slash rfl sftpNames sftpPlain)]
  refine ⟨fun same => same.1, ?_⟩
  rintro rfl
  exact ⟨rfl, (forwardSlashes_writePath fun name member => (fsAbsent name member).2).symm⟩

/-- The same is looked at for both, but for the exception. -/
theorem endedPieces_same {rest : CString}
    (passes : rest.length % 4294967296 < sftpMaxPath - 1)
    (usual : ¬ (4294967296 ≤ rest.length ∧ rest.length % 4294967296 = sftpMaxPath - 2)) :
    endedPieces (rest.take (fsMaxPath - 2)) (rest.length % 4294967296) =
      endedPieces (rest.take (sftpMaxPath - 2)) (rest.length % 4294967296) := by
  have fsRoom : fsMaxPath = 4096 := rfl
  have sftpRoom : sftpMaxPath = 2048 := rfl
  by_cases short : rest.length < sftpMaxPath - 1
  · rw [List.take_of_length_le (by omega), List.take_of_length_le (by omega)]
  · unfold endedPieces
    rw [List.length_take, List.length_take, if_pos (by omega), if_pos (by omega), List.take_take,
      List.take_take, Nat.min_eq_left (by omega), Nat.min_eq_left (by omega)]

theorem endedPieces_drift {rest : CString} (long : 4294967296 ≤ rest.length) :
    endedPieces (rest.take (fsMaxPath - 2)) (sftpMaxPath - 2) =
        (pieces (rest.take (sftpMaxPath - 1))).dropLast ∧
      endedPieces (rest.take (sftpMaxPath - 2)) (sftpMaxPath - 2) =
        pieces (rest.take (sftpMaxPath - 2)) := by
  have fsRoom : fsMaxPath = 4096 := rfl
  have sftpRoom : sftpMaxPath = 2048 := rfl
  constructor
  · rw [endedPieces, List.length_take, if_pos (by omega), List.take_take,
      Nat.min_eq_left (by omega)]
    rfl
  · rw [endedPieces, List.length_take, if_neg (by omega)]

/-- Two normalized paths are the same if the components in what is looked at are. -/
theorem samePath_iff (lawful : lib.Lawful) {first : UInt8} (separator : isSeparator first = true)
    {rest fsPath sftpPath : CString}
    (fsFound : Rdp.normalizePath (first :: rest) = some fsPath)
    (sftpFound : normalizePath lib (first :: rest) = some sftpPath) :
    SamePath fsPath sftpPath ↔
      stacked dot [] (endedPieces (rest.take (fsMaxPath - 2)) (rest.length % 4294967296)) =
        stacked dot [] (endedPieces (rest.take (sftpMaxPath - 2)) (rest.length % 4294967296)) := by
  obtain ⟨_, _, _, rfl⟩ := (Rdp.normalizePath_eq_some_iff separator rest fsPath).mp fsFound
  obtain ⟨_, _, rfl⟩ := (normalizePath_eq_some_iff lawful separator rest sftpPath).mp sftpFound
  have plain (scratch : CString) : ∀ name ∈ (stacked dot [] (endedPieces scratch
      (rest.length % 4294967296))).reverse, name ≠ [] ∧ ∀ c ∈ name, isSeparator c = false :=
    fun name member => (endedPieces_names scratch _).1 name (List.mem_reverse.mp member)
  rw [samePath_writePath (plain _) (plain _), List.reverse_inj]

/-- Within the limits both accept an absolute path without a colon. -/
theorem normalizePath_within (lawful : lib.Lawful) {first : UInt8}
    (separator : isSeparator first = true) {rest : CString} (plain : colon ∉ rest)
    (limits : WithinLimits (first :: rest)) :
    (Rdp.normalizePath (first :: rest)).isSome ∧ (normalizePath lib (first :: rest)).isSome := by
  have fsRoom : fsMaxPath = 4096 := rfl
  have sftpRoom : sftpMaxPath = 2048 := rfl
  have length := limits.sftpLength
  rw [List.length_cons] at length
  have whole : rest.length % 4294967296 = rest.length := Nat.mod_eq_of_lt (by omega)
  have ended (room : Nat) (fits : rest.length ≤ room) :
      endedPieces (rest.take room) rest.length = pieces rest := by
    rw [List.take_of_length_le fits, endedPieces, if_neg (Nat.lt_irrefl _)]
  have fsDepth := (stacksAtMost_cons separator _ rest).mp limits.fsDepth
  have sftpDepth := (stacksAtMost_cons separator _ rest).mp limits.sftpDepth
  constructor
  · refine Option.isSome_iff_exists.mpr
      ⟨_, (Rdp.normalizePath_eq_some_iff separator rest _).mpr ⟨by omega, ?_, ?_, rfl⟩⟩
    · exact fun member => plain (List.mem_of_mem_take (List.mem_of_mem_take member))
    · rw [whole, ended _ (by omega)]
      exact fsDepth
  · refine Option.isSome_iff_exists.mpr
      ⟨_, (normalizePath_eq_some_iff lawful separator rest _).mpr ⟨by omega, ?_, rfl⟩⟩
    rw [whole, ended _ (by omega)]
    exact sftpDepth

/-- If the terminator makes a difference, both normalize the path, to different components. -/
theorem Drifts.not_agree (lawful : lib.Lawful) {first : UInt8} {rest : CString}
    (plain : colon ∉ rest) (drifts : Drifts first rest) : ¬ Agree lib (first :: rest) := by
  intro agree
  obtain ⟨fsEnded, sftpEnded⟩ := endedPieces_drift drifts.long
  have fsFound := (Rdp.normalizePath_eq_some_iff drifts.absolute rest _).mpr
    ⟨by rw [drifts.greatest]; decide,
      fun member => plain (List.mem_of_mem_take (List.mem_of_mem_take member)),
      by rw [drifts.greatest, fsEnded]; exact drifts.fsShallow, rfl⟩
  have sftpFound := (normalizePath_eq_some_iff lawful drifts.absolute rest _).mpr
    ⟨by rw [drifts.greatest]; decide,
      by rw [drifts.greatest, sftpEnded]; exact drifts.sftpShallow, rfl⟩
  have same := (samePath_iff lawful drifts.absolute fsFound sftpFound).mp
    (agree.same _ _ fsFound sftpFound)
  rw [drifts.greatest, fsEnded, sftpEnded] at same
  exact drifts.differ same

end GuacNebula.Ssh
