import GuacNebula.Lib.CString
import GuacNebula.Rdp.Path

/-! # File names appended to a path

Two loops with one index copy a path and a file name into a buffer, with a slash between them. The
name is checked while it is copied. `appendFilename_appends` is that the result is exact, and that
neither loop leaves the buffer.
-/

namespace GuacNebula.Rdp

open CString

/-! ## The loops -/

/-- The loop that copies the path, with what is left of it, and the slash behind it. -/
def copyPath (path : CString) : CString → Nat → Buffer → Nat × Buffer
  | [], i, buffer =>
      if i < fsMaxPath ∧ 0 < i ∧ !isSeparator (path.getD (i - 1) 0) then
        (i + 1, buffer.store fsMaxPath i [slash])
      else (i, buffer)
  | c :: rest, i, buffer =>
      if i < fsMaxPath then copyPath path rest (i + 1) (buffer.store fsMaxPath i [c])
      else (i, buffer)

/-- The loop that copies the file name. There is no index when it meets a slash. -/
def copyName : CString → Nat → Buffer → Option Nat × Buffer
  | [], i, buffer => (some i, buffer)
  | c :: rest, i, buffer =>
      if i < fsMaxPath then
        if isSeparator c then (none, buffer)
        else copyName rest (i + 1) (buffer.store fsMaxPath i [c])
      else (some i, buffer)

/-- `guac_rdp_fs_append_filename`, in memory. -/
def appendFilename (memory : Nat → UInt8) (path filename : CString) : Bool × Buffer :=
  let buffer : Buffer := { memory := memory }
  if filename = [dot] then (false, buffer)
  else if filename = [dot, dot] then (false, buffer)
  else
    let (i, buffer) := copyPath path path 0 buffer
    match copyName filename i buffer with
    | (none, buffer) => (false, buffer)
    | (some i, buffer) =>
        if i = fsMaxPath then (false, buffer) else (true, buffer.store fsMaxPath i [0])

/-! ## Exact results -/

/-- A name that may be appended: not `.` or `..`, and without a separator. -/
structure ValidName (separates : UInt8 → Bool) (filename : CString) : Prop where
  ne_current : filename ≠ [dot]
  ne_parent : filename ≠ [dot, dot]
  plain : ∀ c ∈ filename, separates c = false

/-- The path with one slash, unless it is empty or already ends in a separator. -/
def withSlash (separates : UInt8 → Bool) (path : CString) : CString :=
  match path.getLast? with
  | none => path
  | some last => if separates last then path else path ++ [slash]

/-- A name is appended exactly: it is if it is valid and fits, what is in the buffer then is the
path, the slash and the name, and nothing is stored outside of the buffer. -/
structure Appends (limit : Nat) (separates : UInt8 → Bool) (path filename : CString)
    (result : Bool × Buffer) : Prop where
  success : result.1 = true ↔
    ValidName separates filename ∧ (withSlash separates path ++ filename).length < limit
  exactly : result.1 = true →
    CString.string result.2.memory limit = withSlash separates path ++ filename
  inside : result.2.outside = false

@[simp] theorem withSlash_nil (separates : UInt8 → Bool) : withSlash separates [] = [] := rfl

theorem withSlash_concat (separates : UInt8 → Bool) (front : CString) (last : UInt8) :
    withSlash separates (front ++ [last]) =
      if separates last then front ++ [last] else front ++ [last] ++ [slash] := by
  unfold withSlash
  rw [List.getLast?_concat]

theorem withSlash_length (separates : UInt8 → Bool) (path : CString) :
    path.length ≤ (withSlash separates path).length ∧
      (withSlash separates path).length ≤ path.length + 1 := by
  unfold withSlash
  split
  · exact ⟨Nat.le_refl _, Nat.le_succ _⟩
  · split_ifs
    · exact ⟨Nat.le_refl _, Nat.le_succ _⟩
    · rw [List.length_append, List.length_singleton]
      exact ⟨Nat.le_succ _, Nat.le_refl _⟩

theorem zero_not_mem_withSlash (separates : UInt8 → Bool) {path : CString} (text : 0 ∉ path) :
    0 ∉ withSlash separates path := by
  unfold withSlash
  split
  · exact text
  · split_ifs
    · exact text
    · intro member
      rcases List.mem_append.mp member with inside | last
      · exact text inside
      · exact absurd (List.mem_singleton.mp last) (by decide)

section Loops

variable {memory : Nat → UInt8} {buffer : Buffer}

/-- One byte is stored behind those that were. -/
theorem written_byte {size : Nat} {front : CString} {i : Nat}
    (written : Buffer.Written size memory front buffer) (behind : i = front.length)
    (fits : i < size) (c : UInt8) :
    Buffer.Written size memory (front ++ [c]) (buffer.store size i [c]) := by
  rw [← List.append_nil front] at written
  have stored := written.store [c] (congrArg Nat.cast behind) (by
    rw [List.length_singleton]
    omega)
  rwa [List.drop_nil, List.append_nil] at stored

/-- The path and its slash are copied whole. The induction is on what is left of the path, behind
the part `front` that was copied. -/
theorem copyPath_written {path rest : CString} (front : CString) {i : Nat}
    (short : path.length < fsMaxPath) (split : path = front ++ rest) (behind : i = front.length)
    (written : Buffer.Written fsMaxPath memory front buffer) :
    (copyPath path rest i buffer).1 = (withSlash isSeparator path).length ∧
      Buffer.Written fsMaxPath memory (withSlash isSeparator path)
        (copyPath path rest i buffer).2 := by
  induction rest generalizing front i buffer with
  | nil =>
      rw [List.append_nil] at split
      subst split behind
      unfold copyPath
      rcases List.eq_nil_or_concat path with rfl | ⟨front, c, rfl⟩
      · exact ⟨rfl, written⟩
      · rw [List.concat_eq_append] at written short ⊢
        have length : (front ++ [c]).length = front.length + 1 := List.length_append
        have read : (front ++ [c]).getD ((front ++ [c]).length - 1) 0 = c := by
          rw [length, Nat.add_sub_cancel, List.getD_append_right _ _ _ _ (Nat.le_refl _),
            Nat.sub_self]
          rfl
        rw [read, withSlash_concat]
        by_cases separator : isSeparator c = true
        · rw [separator, if_neg fun all => absurd all.2.2 nofun, if_pos rfl]
          exact ⟨rfl, written⟩
        · rw [Bool.eq_false_iff.mpr separator, if_pos ⟨short, by omega, rfl⟩, if_neg (by decide)]
          have longer : (front ++ [c] ++ [slash]).length = (front ++ [c]).length + 1 :=
            List.length_append
          exact ⟨longer.symm, written_byte written rfl short slash⟩
  | cons c rest ih =>
      have room : i < fsMaxPath := by
        rw [split, List.length_append, List.length_cons] at short
        omega
      unfold copyPath
      rw [if_pos room]
      refine ih (front ++ [c]) ?_ ?_ (written_byte written behind room c)
      · rw [split, List.append_assoc, List.singleton_append]
      · rw [List.length_append, List.length_singleton, behind]

/-- Whatever the name is, it is not copied beyond the buffer. -/
theorem copyName_written (rest front : CString) {i : Nat} (behind : i = front.length)
    (written : Buffer.Written fsMaxPath memory front buffer) :
    ∃ copied, Buffer.Written fsMaxPath memory (front ++ copied) (copyName rest i buffer).2 ∧
      ∀ last, (copyName rest i buffer).1 = some last →
        last = (front ++ copied).length ∧
          (last ≠ fsMaxPath → copied = rest ∧ ∀ c ∈ rest, isSeparator c = false) := by
  induction rest generalizing front i buffer with
  | nil =>
      refine ⟨[], by rwa [List.append_nil], fun last same => ?_⟩
      cases same
      rw [List.append_nil]
      exact ⟨behind, fun _ => ⟨rfl, List.forall_mem_nil _⟩⟩
  | cons c rest ih =>
      unfold copyName
      split_ifs with room separator
      · exact ⟨[], by rwa [List.append_nil], nofun⟩
      · obtain ⟨copied, later, result⟩ := ih (front ++ [c])
          (i := i + 1) (by rw [List.length_append, List.length_singleton, behind])
          (written_byte written behind room c)
        rw [List.append_assoc, List.singleton_append] at later result
        refine ⟨c :: copied, later, fun last same => ⟨(result last same).1, fun fits => ?_⟩⟩
        obtain ⟨rfl, plain⟩ := (result last same).2 fits
        exact ⟨rfl, List.forall_mem_cons.mpr ⟨Bool.eq_false_iff.mpr separator, plain⟩⟩
      · refine ⟨[], by rwa [List.append_nil], fun last same => ?_⟩
        cases same
        have full := written.fits
        rw [List.append_nil]
        exact ⟨behind, fun fits => absurd (by omega) fits⟩

/-- A name without a separator that fits is copied up to its end. -/
theorem copyName_plain (buffer : Buffer) {rest : CString} {i : Nat}
    (plain : ∀ c ∈ rest, isSeparator c = false) (fits : i + rest.length < fsMaxPath) :
    (copyName rest i buffer).1 = some (i + rest.length) := by
  induction rest generalizing i buffer with
  | nil => rfl
  | cons c rest ih =>
      rw [List.length_cons] at fits
      have others := List.forall_mem_cons.mp plain
      unfold copyName
      rw [if_pos (by omega), if_neg (Bool.eq_false_iff.mp others.1), ih _ others.2 (by omega),
        List.length_cons, Nat.add_assoc, Nat.add_comm 1]

end Loops

/-- The name is appended exactly, to any path that is shorter than the buffer. -/
theorem appendFilename_appends (memory : Nat → UInt8) {path filename : CString}
    (pathText : 0 ∉ path) (nameText : 0 ∉ filename) (short : path.length < fsMaxPath) :
    Appends fsMaxPath isSeparator path filename (appendFilename memory path filename) := by
  have refused (buffer : Buffer) (inside : buffer.outside = false)
      (invalid : ¬ (ValidName isSeparator filename ∧
        (withSlash isSeparator path ++ filename).length < fsMaxPath)) :
      Appends fsMaxPath isSeparator path filename (false, buffer) :=
    ⟨⟨nofun, fun valid => absurd valid invalid⟩, nofun, inside⟩
  unfold appendFilename
  dsimp only
  split_ifs with current parent
  · exact refused _ rfl fun valid => valid.1.ne_current current
  · exact refused _ rfl fun valid => valid.1.ne_parent parent
  · obtain ⟨index, copiedPath⟩ := copyPath_written [] short rfl rfl
      (Buffer.Written.start fsMaxPath memory)
    generalize copyPath path path 0 { memory := memory } = copiedTo at index copiedPath
    obtain ⟨i, buffer⟩ := copiedTo
    dsimp only at index copiedPath ⊢
    obtain ⟨copied, written, result⟩ := copyName_written filename _ index copiedPath
    have plainResult (plain : ∀ c ∈ filename, isSeparator c = false)
        (fits : i + filename.length < fsMaxPath) := copyName_plain buffer plain fits
    generalize copyName filename i buffer = named at written result plainResult
    obtain ⟨_ | last, buffer⟩ := named
    · refine refused _ written.inside fun ⟨valid, fits⟩ => ?_
      rw [List.length_append, ← index] at fits
      exact absurd (plainResult valid.plain fits) nofun
    · dsimp only at written result plainResult ⊢
      obtain ⟨length, whole⟩ := result last rfl
      split_ifs with full
      · refine refused _ written.inside fun ⟨valid, fits⟩ => ?_
        rw [List.length_append, ← index] at fits
        have same := Option.some.inj (plainResult valid.plain fits)
        omega
      · obtain ⟨rfl, plain⟩ := whole full
        have room := written.fits
        have ended := written_byte written length (by omega) 0
        refine ⟨⟨fun _ => ⟨⟨current, parent, plain⟩, by omega⟩, fun _ => rfl⟩, fun _ => ?_,
          ended.inside⟩
        refine ended.string fun member => ?_
        rcases List.mem_append.mp member with inPath | inName
        · exact zero_not_mem_withSlash isSeparator pathText inPath
        · exact nameText inName

/-! ## The copy without a buffer -/

theorem copyFilename_eq_some_iff (space : Nat) (filename copied : CString) :
    copyFilename space filename = some copied ↔
      copied = filename ∧ filename.length < space ∧ ∀ c ∈ filename, isSeparator c = false := by
  induction filename generalizing space copied with
  | nil =>
      cases space with
      | zero => exact ⟨nofun, fun all => absurd all.2.1 (Nat.not_lt_zero _)⟩
      | succ space =>
          rw [copyFilename, Option.some.injEq]
          exact ⟨fun same => ⟨same.symm, Nat.zero_lt_succ _, List.forall_mem_nil _⟩,
            fun all => all.1.symm⟩
  | cons c rest ih =>
      cases space with
      | zero => exact ⟨nofun, fun all => absurd all.2.1 (Nat.not_lt_zero _)⟩
      | succ space =>
          rw [copyFilename, List.length_cons, List.forall_mem_cons, Nat.succ_lt_succ_iff]
          split_ifs with separator
          · exact ⟨nofun, fun all => absurd (separator.symm.trans all.2.2.1) nofun⟩
          · rw [Option.map_eq_some_iff]
            constructor
            · rintro ⟨rest', found, rfl⟩
              obtain ⟨rfl, fits, plain⟩ := (ih space rest').mp found
              exact ⟨rfl, fits, Bool.eq_false_iff.mpr separator, plain⟩
            · rintro ⟨rfl, fits, _, plain⟩
              exact ⟨rest, (ih space rest).mpr ⟨rfl, fits, plain⟩, rfl⟩

/-- What is in the buffer is the path that the copy without a buffer yields. -/
theorem fsAppendFilename_eq (memory : Nat → UInt8) {path filename : CString}
    (pathText : 0 ∉ path) (nameText : 0 ∉ filename) (short : path.length < fsMaxPath) :
    fsAppendFilename path filename =
      if (appendFilename memory path filename).1 then
        some (CString.string (appendFilename memory path filename).2.memory fsMaxPath)
      else none := by
  have appends := appendFilename_appends memory pathText nameText short
  have same : withTrailingSlash path = withSlash isSeparator path := rfl
  have found (full : CString) : fsAppendFilename path filename = some full ↔
      (ValidName isSeparator filename ∧
        (withSlash isSeparator path ++ filename).length < fsMaxPath) ∧
        full = withSlash isSeparator path ++ filename := by
    rw [fsAppendFilename, List.length_append]
    split_ifs with current parent long
    · exact ⟨nofun, fun all => absurd current all.1.1.ne_current⟩
    · exact ⟨nofun, fun all => absurd parent all.1.1.ne_parent⟩
    · exact absurd short (Nat.not_lt.mpr long)
    · dsimp only
      rw [Option.map_eq_some_iff, same]
      simp only [copyFilename_eq_some_iff]
      constructor
      · rintro ⟨_, ⟨rfl, fits, plain⟩, rfl⟩
        exact ⟨⟨⟨current, parent, plain⟩, by omega⟩, rfl⟩
      · rintro ⟨⟨valid, fits⟩, rfl⟩
        exact ⟨filename, ⟨rfl, by omega, valid.plain⟩, rfl⟩
  split_ifs with success
  · rw [found, appends.exactly success]
    exact ⟨appends.success.mp success, rfl⟩
  · rw [Option.eq_none_iff_forall_ne_some]
    exact fun full appended => success (appends.success.mpr ((found full).mp appended).1)

end GuacNebula.Rdp
