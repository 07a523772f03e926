import GuacNebula.Lib.CInt
import GuacNebula.Rdp.PathStack

/-! # The length of a scratch path

A path is copied to a scratch buffer before its components are located there. The length of what
was to be copied is compared as an `int`, so that a path of at least 2^32 bytes can pass for a short
one. Then only the beginning of it is looked at, and the terminator may not be.
`normalizePath_stack` is that all other paths are normalized as on a stack.
-/

namespace GuacNebula.Rdp

open CInt LexicalPath

/-- The loop over a scratch buffer, up to the byte at `length`. That is the terminator if the string
is not longer. -/
def locateNames (rules : Rules UInt8) (scratch : CString) (length : Nat) : Option (List CString) :=
  if length < scratch.length then locate rules (scratch.take (length + 1)) [] []
  else scan rules scratch [] []

/-- `guac_rdp_fs_normalize_path`, for a path of any length. -/
def normalizePath : CString → Option CString
  | [] => none
  | first :: rest =>
      if !isSeparator first then none
      else
        let length := toInt rest.length
        if toSize length ≥ fsMaxPath - 1 then none
        else
          (locateNames fsRules (rest.take (fsMaxPath - 2)) length.toNat).map fun components =>
            backslash :: strljoin components.reverse [backslash] (fsMaxPath - 1)

/-- The pieces of a scratch path that are ended by a byte up to the one at `length`. -/
def endedPieces (scratch : CString) (length : Nat) : List CString :=
  if length < scratch.length then (pieces (scratch.take (length + 1))).dropLast else pieces scratch

theorem locateNames_eq_some_iff (rules : Rules UInt8) (separates : rules.separates = isSeparator)
    (sameDot : rules.dot = dot) (scratch : CString) (length : Nat) (found : List CString) :
    locateNames rules scratch length = some found ↔
      (∀ c ∈ scratch.take (length + 1), isSeparator c = false → rules.refuses c = false) ∧
        (∀ count, (stacked dot [] ((endedPieces scratch length).take count)).length ≤
          rules.maxDepth) ∧
        found = stacked dot [] (endedPieces scratch length) := by
  unfold locateNames endedPieces
  by_cases within : length < scratch.length
  · rw [if_pos within, if_pos within, locate_eq_some_iff (Nat.zero_le _), modifyHead_nil_append,
      separates, sameDot]
    rfl
  · rw [if_neg within, if_neg within, scan_pieces rules separates sameDot,
      List.take_of_length_le (by omega)]
    rfl

/-- The components that are located are names, and have room in the scratch buffer. -/
theorem endedPieces_names (scratch : CString) (length : Nat) :
    (∀ name ∈ stacked dot [] (endedPieces scratch length),
        name ≠ [] ∧ ∀ c ∈ name, isSeparator c = false) ∧
      room (stacked dot [] (endedPieces scratch length)) ≤ scratch.length + 1 := by
  have ended : (∀ piece ∈ endedPieces scratch length, ∀ c ∈ piece, isSeparator c = false) ∧
      room (endedPieces scratch length) ≤ scratch.length + 1 := by
    unfold endedPieces
    split_ifs with within
    · obtain ⟨taken, plain⟩ := splitOnP_pieces isSeparator (scratch.take (length + 1))
      refine ⟨fun piece member => plain piece (List.dropLast_subset _ member), ?_⟩
      refine Nat.le_trans (room_dropLast_le _) (Nat.le_trans (Nat.le_of_eq taken) ?_)
      rw [List.length_take]
      omega
    · obtain ⟨taken, plain⟩ := splitOnP_pieces isSeparator scratch
      exact ⟨plain, Nat.le_of_eq taken⟩
  obtain ⟨members, fits⟩ := stacked_pieces [] (endedPieces scratch length)
  rw [room_nil, Nat.zero_add] at fits
  refine ⟨fun name member => ?_, Nat.le_trans fits ended.2⟩
  rcases members name member with inside | ⟨inside, named⟩
  · exact absurd inside List.not_mem_nil
  · exact ⟨named, ended.1 name inside⟩

/-- A length that passes for one within a limit is one up to multiples of 2^32. -/
theorem toSize_toInt_lt (length : Nat) {limit : Nat} (small : limit ≤ 2147483648) :
    (toSize (toInt length) < limit ↔ length % 4294967296 < limit) ∧
      (length % 4294967296 < limit → (toInt length).toNat = length % 4294967296) := by
  unfold toSize toInt
  omega

theorem normalizePath_cons {first : UInt8} (separator : isSeparator first = true) (rest : CString) :
    normalizePath (first :: rest) =
      if rest.length % 4294967296 < fsMaxPath - 1 then
        (locateNames fsRules (rest.take (fsMaxPath - 2)) (rest.length % 4294967296)).map
          fun components => backslash :: strljoin components.reverse [backslash] (fsMaxPath - 1)
      else none := by
  obtain ⟨passes, same⟩ := toSize_toInt_lt rest.length (by decide : fsMaxPath - 1 ≤ 2147483648)
  rw [normalizePath, if_neg (by rw [separator]; decide)]
  dsimp only
  by_cases short : rest.length % 4294967296 < fsMaxPath - 1
  · have passed := passes.mpr short
    rw [if_neg (by omega), if_pos short, same short]
  · have refused := mt passes.mp short
    rw [if_pos (by omega), if_neg short]

/-- A path is normalized to the components that are located in what is looked at. -/
theorem normalizePath_eq_some_iff {first : UInt8} (separator : isSeparator first = true)
    (rest normalized : CString) :
    normalizePath (first :: rest) = some normalized ↔
      rest.length % 4294967296 < fsMaxPath - 1 ∧
        colon ∉ (rest.take (fsMaxPath - 2)).take (rest.length % 4294967296 + 1) ∧
        (∀ count, (stacked dot [] ((endedPieces (rest.take (fsMaxPath - 2))
          (rest.length % 4294967296)).take count)).length ≤ maxPathDepth) ∧
        normalized = writePath backslash (stacked dot []
          (endedPieces (rest.take (fsMaxPath - 2)) (rest.length % 4294967296))).reverse := by
  have located := locateNames_eq_some_iff fsRules rfl rfl (rest.take (fsMaxPath - 2))
    (rest.length % 4294967296)
  have fits := (endedPieces_names (rest.take (fsMaxPath - 2)) (rest.length % 4294967296)).2
  rw [List.length_take] at fits
  have joined : strljoin (stacked dot [] (endedPieces (rest.take (fsMaxPath - 2))
        (rest.length % 4294967296))).reverse [backslash] (fsMaxPath - 1) =
      [backslash].intercalate (stacked dot [] (endedPieces (rest.take (fsMaxPath - 2))
        (rest.length % 4294967296))).reverse := by
    rw [strljoin, List.take_of_length_le]
    rw [length_intercalate, room_reverse]
    omega
  rw [normalizePath_cons separator]
  by_cases passes : rest.length % 4294967296 < fsMaxPath - 1
  · rw [if_pos passes, Option.map_eq_some_iff]
    constructor
    · rintro ⟨names, found, rfl⟩
      obtain ⟨plain, depths, rfl⟩ := (located names).mp found
      exact ⟨passes, (fsRules_refuses _).mp plain, depths, congrArg _ joined⟩
    · rintro ⟨_, plain, depths, rfl⟩
      exact ⟨_, (located _).mpr ⟨(fsRules_refuses _).mpr plain, depths, rfl⟩, congrArg _ joined⟩
  · rw [if_neg passes]
    constructor
    · intro found
      cases found
    · intro all
      exact absurd all.1 passes

/-- Up to a length of 2^32 nothing is mistaken for something shorter. -/
theorem normalizePath_short {path : CString} (short : path.length ≤ 4294967296) :
    normalizePath path = fsNormalizePath path := by
  cases path with
  | nil => rfl
  | cons first rest =>
      rw [List.length_cons] at short
      have length : rest.length % 4294967296 = rest.length := Nat.mod_eq_of_lt short
      have room : fsMaxPath = 4096 := rfl
      by_cases separator : isSeparator first = true
      · rw [normalizePath_cons separator, fsNormalizePath,
          if_neg (c := (!isSeparator first) = true) (by rw [separator]; decide), length]
        by_cases fits : rest.length < fsMaxPath - 1
        · have whole : rest.take (fsMaxPath - 2) = rest := List.take_of_length_le (by omega)
          rw [if_pos fits, if_neg (by omega), whole, locateNames, if_neg (Nat.lt_irrefl _),
            scanComponents_eq]
        · rw [if_neg fits, if_pos (by omega)]
      · have other : (!isSeparator first) = true := by
          rw [Bool.eq_false_iff.mpr separator]
          rfl
        rw [normalizePath, if_pos other, fsNormalizePath, if_pos other]

/-- The length of a path wraps around to one within the limit, and what is looked at of the path
names no stream and is not too deep. -/
structure Wraps (first : UInt8) (rest : CString) : Prop where
  absolute : isSeparator first = true
  long : 4294967296 ≤ rest.length
  passes : rest.length % 4294967296 < fsMaxPath - 1
  noStream : colon ∉ (rest.take (fsMaxPath - 2)).take (rest.length % 4294967296 + 1)
  shallow : ∀ count, (stacked dot [] ((endedPieces (rest.take (fsMaxPath - 2))
    (rest.length % 4294967296)).take count)).length ≤ maxPathDepth

/-- The path is one that is taken for a shorter one. -/
def Overlong : CString → Prop
  | [] => False
  | first :: rest => Wraps first rest

/-- The path is normalized as specified, and what it is normalized to stays the same. -/
structure NormalizesOnStack (path : CString) : Prop where
  exactly : ∀ normalized, normalizePath path = some normalized ↔
    Normalizable path ∧ normalized = writePath backslash (componentStack path).reverse
  again : ∀ normalized, normalizePath path = some normalized →
    normalizePath normalized = some normalized

/-- What is normalized is short. -/
theorem fsNormalizePath_length {path normalized : CString}
    (found : fsNormalizePath path = some normalized) : normalized.length ≤ fsMaxPath := by
  obtain ⟨_, _, names, _, _, _, rfl, _, _, fits⟩ := fsNormalizePath_scanned found
  rw [List.length_cons, length_intercalate, room_reverse]
  omega

theorem normalizesOnStack_short {path : CString} (short : path.length ≤ 4294967296) :
    NormalizesOnStack path := by
  refine ⟨fun normalized => ?_, fun normalized found => ?_⟩
  · rw [normalizePath_short short, fsNormalizePath_eq_some_iff]
  · rw [normalizePath_short short] at found
    have room : fsMaxPath = 4096 := rfl
    have length := fsNormalizePath_length found
    rw [normalizePath_short (by omega)]
    exact fsNormalizePath_again found

/-- A path of more than 2^32 bytes is normalized exactly if it is taken for a shorter one. -/
theorem normalizePath_long {first : UInt8} {rest : CString} (long : 4294967296 ≤ rest.length) :
    (normalizePath (first :: rest)).isSome ↔ Wraps first rest := by
  rw [Option.isSome_iff_exists]
  by_cases separator : isSeparator first = true
  · simp only [normalizePath_eq_some_iff separator]
    exact ⟨fun ⟨_, passes, plain, depths, _⟩ => ⟨separator, long, passes, plain, depths⟩,
      fun wraps => ⟨_, wraps.passes, wraps.noStream, wraps.shallow, rfl⟩⟩
  · have other : (!isSeparator first) = true := by
      rw [Bool.eq_false_iff.mpr separator]
      rfl
    rw [normalizePath, if_pos other]
    exact ⟨nofun, fun wraps => absurd wraps.absolute separator⟩

end GuacNebula.Rdp
