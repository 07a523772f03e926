import GuacNebula.Lib.CString
import GuacNebula.Terminal.Typescript

/-! # The files of a typescript

The names of both files are built in buffers of a fixed size. The check on the length of a name
compares what `snprintf` returns, the length of the whole name, with its limit for equality only:
names beyond the limit pass it cut off.
-/

namespace GuacNebula.Terminal

open CString

/-- The errors of the calls to the system that are told apart. -/
inductive Errno where
  | eexist
  | enametoolong
  | other
  deriving DecidableEq, Repr

/-- What the system does on calls: the creation of a directory, and the openings of files, which are
counted since the same one may have another result later. -/
structure FileCalls where
  mkdir : List UInt8 → Option Errno
  openFile : Nat → List UInt8 → Bool → Except Errno Int

/-- A buffer for a name: the memory it is the start of, and the places that have been stored to. -/
structure NameBuffer where
  memory : Nat → UInt8
  written : List Nat

/-- Bytes are stored from a place on. -/
def NameBuffer.put (buffer : NameBuffer) (place : Nat) (stored : List UInt8) : NameBuffer where
  memory := CString.put buffer.memory place stored
  written := buffer.written ++ List.range' place stored.length

/-- `GUAC_TERMINAL_TYPESCRIPT_MAX_NAME_LENGTH`, the size of both buffers. -/
def maxNameLength : Nat := 2048

/-- `GUAC_TERMINAL_TYPESCRIPT_MAX_SUFFIX`. -/
def maxSuffix : Nat := 255

/-- `GUAC_TERMINAL_TYPESCRIPT_MAX_SUFFIX_LENGTH`. -/
def maxSuffixLength : Nat := 4

/-- `GUAC_TERMINAL_TYPESCRIPT_TIMING_SUFFIX`. -/
def timingSuffix : List UInt8 := bytesOf "timing"

/-- The name in a buffer. -/
def NameBuffer.name (buffer : NameBuffer) : List UInt8 := string buffer.memory maxNameLength

/-- The loop of `guac_terminal_typescript_open_data_file` over the suffixes from `i` on, after an
error. -/
def openSuffixed (calls : FileCalls) (exclusive : Bool) (length : Nat) :
    Nat → Nat → Errno → NameBuffer → Except Errno Int × NameBuffer
  | 0, _, errno, basename => (.error errno, basename)
  | remaining + 1, i, errno, basename =>
      if errno = .eexist then
        let basename := basename.put (length + 1) (decimal i ++ [0])
        match calls.openFile i basename.name exclusive with
        | .ok file => (.ok file, basename)
        | .error errno => openSuffixed calls exclusive length remaining (i + 1) errno basename
      else (.error errno, basename)

/-- `guac_terminal_typescript_open_data_file`. -/
def openDataFile (calls : FileCalls) (path name : List UInt8) (basename : NameBuffer)
    (basenameSize : Nat) (allowWriteExisting : Bool) : Except Errno Int × NameBuffer :=
  let whole := path ++ [0x2F] ++ name
  let basename := basename.put 0 (formatted (basenameSize - maxSuffixLength) whole)
  if whole.length = basenameSize - maxSuffixLength then (.error .enametoolong, basename)
  else
    match calls.openFile 0 basename.name (!allowWriteExisting) with
    | .ok file => (.ok file, basename)
    | .error errno =>
        openSuffixed calls (!allowWriteExisting) whole.length maxSuffix 1 errno
          (basename.put whole.length [0x2E])

/-- The outcome of opening a typescript: the names of the files that have been opened, unless it
failed, and the buffers. -/
structure OpenedNames where
  names : Option (List UInt8 × List UInt8)
  data : NameBuffer
  timing : NameBuffer

/-- The first part of `guac_terminal_typescript_alloc`, up to both files being open. The buffers hold
what their memory held before. -/
def openTypescript (calls : FileCalls) (path name : List UInt8)
    (createPath allowWriteExisting : Bool) (dataMemory timingMemory : Nat → UInt8) : OpenedNames :=
  let data : NameBuffer := { memory := dataMemory, written := [] }
  let timing : NameBuffer := { memory := timingMemory, written := [] }
  if createPath ∧ (calls.mkdir path).any (· ≠ .eexist) then
    { names := none, data := data, timing := timing }
  else
    let (opened, data) := openDataFile calls path name data
      (maxNameLength - (timingSuffix.length + 1)) allowWriteExisting
    match opened with
    | .error _ => { names := none, data := data, timing := timing }
    | .ok _ =>
        let timingName := data.name ++ [0x2E] ++ timingSuffix
        let timing := timing.put 0 (formatted maxNameLength timingName)
        if timingName.length ≥ maxNameLength then
          { names := none, data := data, timing := timing }
        else
          match calls.openFile (maxSuffix + 1) timing.name (!allowWriteExisting) with
          | .error _ => { names := none, data := data, timing := timing }
          | .ok _ =>
              { names := some (data.name, timing.name), data := data, timing := timing }

/-- A suffix that the name of the data file may have. -/
def IsSuffix (suffix : List UInt8) : Prop :=
  suffix = [] ∨ ∃ i, 1 ≤ i ∧ i ≤ maxSuffix ∧ suffix = 0x2E :: decimal i

/-- Every byte was stored inside the buffers, and the files that have been opened, if any, are named
after the path and the name. -/
structure WellNamed (path name : List UInt8) (outcome : OpenedNames) : Prop where
  data : ∀ place ∈ outcome.data.written, place < maxNameLength
  timing : ∀ place ∈ outcome.timing.written, place < maxNameLength
  names : ∀ dataName timingName, outcome.names = some (dataName, timingName) →
    (∃ suffix, IsSuffix suffix ∧ dataName = path ++ [0x2F] ++ name ++ suffix)
      ∧ timingName = dataName ++ [0x2E] ++ timingSuffix

/-! ## Names that fit -/

section Fitting

variable {calls : FileCalls} {whole : List UInt8} {memory : Nat → UInt8}

theorem mem_put_written (buffer : NameBuffer) (place : Nat) (stored : List UInt8) {limit : Nat}
    (before : ∀ index ∈ buffer.written, index < limit) (room : place + stored.length ≤ limit) :
    ∀ index ∈ (buffer.put place stored).written, index < limit := by
  intro index member
  rcases List.mem_append.mp member with earlier | now
  · exact before index earlier
  · exact Nat.lt_of_lt_of_le (List.mem_range'_1.mp now).2 room

/-- The name in a buffer is the text that has been stored with its end. -/
theorem NameBuffer.name_eq {buffer : NameBuffer} {text behind : List UInt8} (nonzero : 0 ∉ text)
    (fits : text.length < maxNameLength)
    (stored : buffer.memory = CString.put memory 0 (text ++ 0 :: behind)) : buffer.name = text := by
  rw [NameBuffer.name, stored]
  exact string_put memory nonzero behind fits

theorem decimal_suffix {i : Nat} (small : i ≤ maxSuffix) :
    (decimal i).length ≤ 3 ∧ 0 ∉ decimal i := by
  have every : ∀ i < maxSuffix + 1, 0 ∉ decimal i := by decide +kernel
  refine ⟨decimal_length_le (by decide) ?_, every i (Nat.lt_succ_of_le small)⟩
  unfold maxSuffix at small
  omega

/-- The name with a suffix is the one that is opened, and it is stored inside the buffer. -/
theorem openSuffixed_spec (nonzero : 0 ∉ whole) (fits : whole.length ≤ 2036) (exclusive : Bool)
    {remaining i : Nat} (first : 1 ≤ i) (last : i + remaining ≤ maxSuffix + 1) (errno : Errno)
    {basename : NameBuffer} {behind : List UInt8}
    (stored : basename.memory = CString.put memory 0 (whole ++ [0x2E] ++ behind))
    (inside : ∀ place ∈ basename.written, place < maxNameLength) :
    let (opened, after) := openSuffixed calls exclusive whole.length remaining i errno basename
    (∀ place ∈ after.written, place < maxNameLength)
      ∧ ∀ file, opened = .ok file →
        ∃ suffix, IsSuffix suffix ∧ suffix.length ≤ 4 ∧ after.name = whole ++ suffix := by
  induction remaining generalizing i errno basename behind with
  | zero => exact ⟨inside, nofun⟩
  | succ remaining ih =>
      obtain ⟨short, digits⟩ := decimal_suffix (i := i) (by omega)
      have place : whole.length + 1 = (whole ++ [0x2E]).length := by simp
      have memory_eq : (basename.put (whole.length + 1) (decimal i ++ [0])).memory =
          CString.put memory 0 (whole ++ [0x2E] ++
            (decimal i ++ [0] ++ behind.drop (decimal i ++ [0]).length)) := by
        simp only [NameBuffer.put, stored, place, put_put]
      have written := mem_put_written basename (whole.length + 1) (decimal i ++ [0]) inside (by
        rw [List.length_append, List.length_singleton]
        unfold maxNameLength
        omega)
      have named : (basename.put (whole.length + 1) (decimal i ++ [0])).name =
          whole ++ 0x2E :: decimal i := by
        have text : whole ++ [0x2E] ++
            (decimal i ++ [0] ++ behind.drop (decimal i ++ [0]).length) =
          whole ++ 0x2E :: decimal i ++ 0 :: behind.drop (decimal i ++ [0]).length := by simp
        refine NameBuffer.name_eq ?_ ?_ (memory_eq.trans (congrArg _ text))
        · simp [nonzero, digits]
        · rw [List.length_append, List.length_cons]
          unfold maxNameLength
          omega
      unfold openSuffixed
      split_ifs with again
      · dsimp only
        split
        · refine ⟨written, fun _ _ => ⟨_, .inr ⟨i, first, by omega, rfl⟩, ?_, named⟩⟩
          rw [List.length_cons]
          omega
        · exact ih (Nat.le_succ_of_le first) (by omega) _ memory_eq written
      · exact ⟨inside, nofun⟩

/-- A name that fits is opened as it is or with a suffix, and one that has just the length of the
limit is refused. -/
theorem openDataFile_spec (calls : FileCalls) (memory : Nat → UInt8) {path name : List UInt8}
    (nonzero : 0 ∉ path ++ [0x2F] ++ name) (fits : (path ++ [0x2F] ++ name).length ≤ 2037)
    (allowWriteExisting : Bool) :
    let (opened, data) := openDataFile calls path name { memory := memory, written := [] } 2041
      allowWriteExisting
    (∀ place ∈ data.written, place < maxNameLength)
      ∧ ∀ file, opened = .ok file → ∃ suffix, IsSuffix suffix ∧ suffix.length ≤ 4
        ∧ (path ++ [0x2F] ++ name).length ≤ 2036 ∧ data.name = path ++ [0x2F] ++ name ++ suffix := by
  unfold openDataFile maxSuffixLength
  generalize path ++ [0x2F] ++ name = whole at nonzero fits
  have stored : (formatted 2037 whole).length ≤ 2037 := by
    rw [formatted, List.length_append, List.length_take, List.length_singleton]
    omega
  have inside := mem_put_written { memory := memory, written := [] } 0 (formatted 2037 whole)
    (List.forall_mem_nil _)
    (Nat.le_trans (Nat.zero_add _ ▸ stored) (by decide : 2037 ≤ maxNameLength))
  dsimp only [Nat.reduceSub]
  split_ifs with full
  · exact ⟨inside, nofun⟩
  · have short : whole.length ≤ 2036 := by omega
    have cut : formatted 2037 whole = whole ++ [0] :=
      congrArg (· ++ [0]) (List.take_of_length_le short)
    split
    · refine ⟨inside, fun _ _ => ⟨[], .inl rfl, by decide, short, ?_⟩⟩
      rw [List.append_nil]
      exact NameBuffer.name_eq nonzero (Nat.lt_of_le_of_lt short (by decide))
        (congrArg (CString.put memory 0) cut)
    · have dotted : ((NameBuffer.put { memory := memory, written := [] } 0
          (formatted 2037 whole)).put whole.length [0x2E]).memory =
          CString.put memory 0 (whole ++ [0x2E] ++ []) := by
        simp only [NameBuffer.put, cut, put_put]
        simp
      have written := mem_put_written _ whole.length [0x2E] inside
        (Nat.le_trans (Nat.succ_le_succ short) (by decide))
      obtain ⟨kept, named⟩ := openSuffixed_spec nonzero short (!allowWriteExisting) (Nat.le_refl 1)
        (Nat.le_of_eq (Nat.add_comm 1 maxSuffix)) _ dotted written
      refine ⟨kept, fun file opened => ?_⟩
      obtain ⟨suffix, valid, size, same⟩ := named file opened
      exact ⟨suffix, valid, size, short, same⟩

/-- If the whole name is at most as long as the limit, the files are named after it, or none are
opened. -/
theorem wellNamed_of_short {path name : List UInt8} (pathString : 0 ∉ path) (nameString : 0 ∉ name)
    (fits : (path ++ [0x2F] ++ name).length ≤ 2037) (createPath allowWriteExisting : Bool)
    (dataMemory timingMemory : Nat → UInt8) :
    WellNamed path name
      (openTypescript calls path name createPath allowWriteExisting dataMemory timingMemory) := by
  have nonzero : 0 ∉ path ++ [0x2F] ++ name := by simp [pathString, nameString]
  have spec := openDataFile_spec calls dataMemory nonzero fits
    allowWriteExisting
  have size : maxNameLength - (timingSuffix.length + 1) = 2041 := by decide
  have untouched : ∀ place ∈ ([] : List Nat), place < maxNameLength := List.forall_mem_nil _
  unfold openTypescript
  split_ifs with uncreated
  · exact ⟨untouched, untouched, nofun⟩
  dsimp only
  rw [size]
  generalize openDataFile calls path name { memory := dataMemory, written := [] } 2041
    allowWriteExisting = result at spec
  obtain ⟨opened, data⟩ := result
  cases opened with
  | error errno => exact ⟨spec.1, untouched, nofun⟩
  | ok file =>
      obtain ⟨suffix, valid, short, whole, named⟩ := spec.2 file rfl
      have whole_nonzero : 0 ∉ data.name ++ [0x2E] ++ timingSuffix := by
        have dataName : 0 ∉ data.name := zero_not_mem_string data.memory maxNameLength
        have suffixName : 0 ∉ timingSuffix := by decide
        simp [dataName, suffixName]
      have room : (data.name ++ [0x2E] ++ timingSuffix).length < maxNameLength := by
        have six : timingSuffix.length = 6 := by decide
        rw [named, List.length_append, List.length_append, List.length_append, six,
          List.length_singleton]
        unfold maxNameLength
        omega
      have cut : formatted maxNameLength (data.name ++ [0x2E] ++ timingSuffix) =
          data.name ++ [0x2E] ++ timingSuffix ++ [0] :=
        congrArg (· ++ [0]) (List.take_of_length_le (Nat.le_pred_of_lt room))
      have timingWritten := mem_put_written { memory := timingMemory, written := [] } 0
        (formatted maxNameLength (data.name ++ [0x2E] ++ timingSuffix)) untouched (by
          rw [cut, List.length_append, List.length_singleton, Nat.zero_add]
          exact room)
      dsimp only
      rw [if_neg (Nat.not_le.mpr room)]
      split
      · exact ⟨spec.1, timingWritten, nofun⟩
      · refine ⟨spec.1, timingWritten, fun dataName timingName names => ?_⟩
        obtain ⟨rfl, rfl⟩ := Prod.mk.inj (Option.some.inj names)
        refine ⟨⟨suffix, valid, named⟩, ?_⟩
        generalize data.name ++ [0x2E] ++ timingSuffix = whole at whole_nonzero room cut ⊢
        exact NameBuffer.name_eq whole_nonzero room (congrArg (CString.put timingMemory 0) cut)

end Fitting

/-! ## Names that do not fit -/

/-- Every call succeeds. -/
def permissiveCalls : FileCalls where
  mkdir _ := none
  openFile _ _ _ := .ok 3

/-- A name beyond the limit is cut off, and a file of the remaining name is opened. -/
theorem openTypescript_long {path name : List UInt8} (pathString : 0 ∉ path)
    (nameString : 0 ∉ name) (long : 2037 < (path ++ [0x2F] ++ name).length)
    (createPath allowWriteExisting : Bool) (dataMemory timingMemory : Nat → UInt8) :
    ∃ timingName, (openTypescript permissiveCalls path name createPath allowWriteExisting dataMemory
      timingMemory).names = some ((path ++ [0x2F] ++ name).take 2036, timingName) := by
  have nonzero : 0 ∉ path ++ [0x2F] ++ name := by simp [pathString, nameString]
  have size : maxNameLength - (timingSuffix.length + 1) = 2041 := by decide
  unfold openTypescript
  rw [if_neg (by simp [permissiveCalls]), size]
  unfold openDataFile maxSuffixLength
  generalize path ++ [0x2F] ++ name = whole at nonzero long
  dsimp only [Nat.reduceSub]
  rw [if_neg (by omega)]
  have cutNonzero : 0 ∉ whole.take 2036 := fun member => nonzero (List.mem_of_mem_take member)
  have short : (whole.take 2036).length ≤ 2036 := List.length_take_le ..
  have named : (NameBuffer.put { memory := dataMemory, written := [] } 0
      (formatted 2037 whole)).name = whole.take 2036 :=
    NameBuffer.name_eq cutNonzero (Nat.lt_of_le_of_lt short (by decide)) rfl
  have room : ¬ (whole.take 2036 ++ [0x2E] ++ timingSuffix).length ≥ maxNameLength := by
    have six : timingSuffix.length = 6 := by decide
    rw [List.length_append, List.length_append, six, List.length_singleton]
    unfold maxNameLength
    omega
  simp only [permissiveCalls, named, if_neg room]
  exact ⟨_, rfl⟩

theorem not_wellNamed_of_long {path name : List UInt8} (pathString : 0 ∉ path)
    (nameString : 0 ∉ name) (long : 2037 < (path ++ [0x2F] ++ name).length)
    (createPath allowWriteExisting : Bool) (dataMemory timingMemory : Nat → UInt8) :
    ¬ WellNamed path name (openTypescript permissiveCalls path name createPath allowWriteExisting
      dataMemory timingMemory) := by
  intro wellNamed
  obtain ⟨timingName, names⟩ := openTypescript_long pathString nameString long createPath
    allowWriteExisting dataMemory timingMemory
  obtain ⟨⟨suffix, _, same⟩, _⟩ := wellNamed.names _ _ names
  have length := congrArg List.length same
  rw [List.length_append, List.length_take] at length
  omega

/-- **The files of a typescript are named after it exactly if the whole name is at most as long as
the limit**, whatever the system does. -/
theorem typescript_wellNamed_iff (path name : List UInt8) (pathString : 0 ∉ path)
    (nameString : 0 ∉ name) (createPath allowWriteExisting : Bool)
    (dataMemory timingMemory : Nat → UInt8) :
    (∀ calls, WellNamed path name
        (openTypescript calls path name createPath allowWriteExisting dataMemory timingMemory)) ↔
      (path ++ [0x2F] ++ name).length ≤ 2037 := by
  constructor
  · intro every
    by_contra beyond
    exact not_wellNamed_of_long pathString nameString (Nat.not_le.mp beyond) createPath
      allowWriteExisting dataMemory timingMemory (every permissiveCalls)
  · intro fits calls
    exact wellNamed_of_short pathString nameString fits createPath allowWriteExisting dataMemory
      timingMemory

/-- A path in which a directory is in another one again and again. -/
def deepPath (depth : Nat) : List UInt8 := (List.replicate depth [0x2F, 0x61]).flatten

theorem deepPath_spec (depth : Nat) : 0 ∉ deepPath depth ∧ (deepPath depth).length = depth * 2 := by
  constructor
  · intro member
    obtain ⟨directory, inside, zero⟩ := List.mem_flatten.mp member
    rw [List.eq_of_mem_replicate inside] at zero
    exact absurd zero (by decide)
  · simp [deepPath]

/-- Memory that was cleared. -/
def clearedMemory : Nat → UInt8 := fun _ => 0

/-- In a directory, the files of a typescript named `a` are named after it. -/
theorem typescript_wellNamed_short :
    WellNamed (deepPath 1) [0x61] (openTypescript permissiveCalls (deepPath 1) [0x61] true false
      clearedMemory clearedMemory) :=
  (typescript_wellNamed_iff (deepPath 1) [0x61] (by decide) (by decide) true false clearedMemory
    clearedMemory).mpr (by decide) permissiveCalls

/-- A path of 2036 bytes leaves no room for the name `a`, but its check passes: the whole name has
one byte more than the limit. -/
theorem typescript_long_name_is_cut :
    ¬ WellNamed (deepPath 1018) [0x61]
      (openTypescript permissiveCalls (deepPath 1018) [0x61] true false clearedMemory
        clearedMemory) := by
  obtain ⟨nonzero, size⟩ := deepPath_spec 1018
  have name : (0 : UInt8) ∉ [0x61] := by decide
  have length : (deepPath 1018 ++ [0x2F] ++ [0x61]).length = 2038 := by
    rw [List.length_append, List.length_append, size]
    rfl
  exact not_wellNamed_of_long nonzero name (by rw [length]; decide) true false clearedMemory
    clearedMemory

end GuacNebula.Terminal
