import GuacNebula.Lib.Utf8
import GuacNebula.Rdp.Completion
import GuacNebula.Rdp.Confinement
import Mathlib.Data.List.TakeWhile

/-! # File names there and back

A directory listing reports the names of the drive in UTF-16, and the server sends the name of a
file back when it is to be opened. Both converters take one code unit for one codepoint. So a
codepoint beyond 16 bits is cut on its way out, and nothing puts it together again on its way back.
The names that are reported go through a buffer of 128 code units, whatever their length.
-/

namespace GuacNebula.Rdp

open CInt LexicalPath

/-! ## The conversions -/

/-- The UTF-8 functions of libguac convert codepoints of up to 21 bits. A codepoint is written if
there is room for it. -/
structure RdpdrPlatform.Utf8Laws {σ : Type*} (platform : RdpdrPlatform σ) : Prop where
  read : ∀ code < 0x200000, ∀ rest,
    platform.utf8Read (Utf8.encode code ++ rest) = (code, Utf8.size code)
  write : ∀ code < 0x200000, ∀ room : Int,
    platform.utf8Write code room = if (Utf8.size code : Int) ≤ room then Utf8.encode code else []
  strlen : ∀ codes : List Nat, (∀ code ∈ codes, code ≠ 0 ∧ code < 0x200000) →
    platform.utf8Strlen (Utf8.encodeText codes) = codes.length

/-- Code units, the least significant byte of each first. -/
def utf16Bytes (units : List Nat) : List UInt8 := units.flatMap (writeUInt 2)

/-- The codepoint that is read for a code unit. -/
def codeUnit (code : Nat) : Nat := code % 0x10000

section Conversions

variable {σ : Type*} {platform : RdpdrPlatform σ} {codes units : List Nat}

theorem utf16Bytes_length (units : List Nat) : (utf16Bytes units).length = 2 * units.length := by
  induction units with
  | nil => rfl
  | cons unit units ih =>
      rw [utf16Bytes, List.flatMap_cons, List.length_append, writeUInt_length, ← utf16Bytes, ih,
        List.length_cons]
      omega

theorem utf16Bytes_append (front back : List Nat) :
    utf16Bytes (front ++ back) = utf16Bytes front ++ utf16Bytes back :=
  List.flatMap_append ..

/-- The name of an entry is stored up to the end of the buffer. -/
theorem utf8ToUtf16_text (laws : platform.Utf8Laws) (small : ∀ code ∈ codes, code < 0x200000)
    (last : Nat) :
    utf8ToUtf16 platform codes.length (Utf8.encodeText codes) (2 * (last + 1))
      = utf16Bytes (codes.take (last + 1)) := by
  induction codes generalizing last with
  | nil => rfl
  | cons code codes ih =>
      have read := laws.read code (small code List.mem_cons_self) (Utf8.encodeText codes)
      rw [List.length_cons, Utf8.encodeText_cons, utf8ToUtf16, read]
      dsimp only
      rw [List.drop_left' (Utf8.encode_length code), List.take_succ_cons, utf16Bytes,
        List.flatMap_cons, ← utf16Bytes]
      congr 1
      cases last with
      | zero => rfl
      | succ last =>
          rw [if_neg (by omega),
            show (2 * ((last + 1 : Nat) + 1 : Int) - 2) = 2 * (last + 1) by omega]
          exact ih (fun later member => small later (List.mem_cons_of_mem _ member)) last

theorem readUInt_utf16Bytes (unit : Nat) (units : List Nat) (rest : List UInt8) :
    readUInt (utf16Bytes (unit :: units) ++ rest) 0 2 = codeUnit unit := by
  have read := @readUInt_writeUInt [] 2 unit (utf16Bytes units ++ rest)
  rw [utf16Bytes, List.flatMap_cons, ← utf16Bytes, List.append_assoc]
  exact read

theorem drop_utf16Bytes (unit : Nat) (units : List Nat) (rest : List UInt8) :
    (utf16Bytes (unit :: units) ++ rest).drop 2 = utf16Bytes units ++ rest := by
  rw [utf16Bytes, List.flatMap_cons, ← utf16Bytes, List.append_assoc,
    List.drop_left' (writeUInt_length 2 unit)]

theorem codeUnit_lt (code : Nat) : codeUnit code < 0x10000 := Nat.mod_lt _ (by decide)

/-- Code units are converted one by one, as long as there is room. -/
theorem utf16Codepoints_units (laws : platform.Utf8Laws) (rest : List UInt8) {room : Int}
    (fits : ((Utf8.encodeText (units.map codeUnit)).length : Int) ≤ room) :
    utf16Codepoints platform units.length (utf16Bytes units ++ rest) room
      = Utf8.encodeText (units.map codeUnit) := by
  induction units generalizing room with
  | nil => rfl
  | cons unit units ih =>
      have small := codeUnit_lt unit
      rw [List.map_cons, Utf8.encodeText_cons, List.length_append, Utf8.encode_length] at fits
      have written := laws.write (codeUnit unit) (by omega) room
      rw [if_pos (by omega)] at written
      rw [List.length_cons, utf16Codepoints, readUInt_utf16Bytes, drop_utf16Bytes, written,
        Utf8.encode_length, ih (by omega), List.map_cons, Utf8.encodeText_cons]

/-- There are never more bytes than the code units have. -/
theorem utf16Codepoints_length_le (laws : platform.Utf8Laws) (rest : List UInt8) (room : Int) :
    (utf16Codepoints platform units.length (utf16Bytes units ++ rest) room).length
      ≤ (Utf8.encodeText (units.map codeUnit)).length := by
  induction units generalizing room with
  | nil => exact Nat.le_refl _
  | cons unit units ih =>
      have small := codeUnit_lt unit
      have written := laws.write (codeUnit unit) (by omega) room
      have bound : (platform.utf8Write (codeUnit unit) room).length
          ≤ Utf8.size (codeUnit unit) := by
        rw [written]
        split
        · exact Nat.le_of_eq (Utf8.encode_length _)
        · exact Nat.zero_le _
      rw [List.length_cons, utf16Codepoints, readUInt_utf16Bytes, drop_utf16Bytes, List.map_cons,
        Utf8.encodeText_cons, List.length_append, List.length_append, Utf8.encode_length]
      exact Nat.add_le_add bound (ih _)

end Conversions

/-! ## Names in paths -/

section Paths

variable {directory absolute name : CString}

theorem fsNormalizePath_eq {first : UInt8} {scratch : CString}
    (separates : isSeparator first = true) (short : (first :: scratch).length < fsMaxPath) :
    fsNormalizePath (first :: scratch) = (scan fsRules scratch [] []).map fun names =>
      backslash :: strljoin names.reverse [backslash] (fsMaxPath - 1) := by
  rw [List.length_cons] at short
  rw [fsNormalizePath, if_neg (by simp [separates]), if_neg (by omega), scanComponents_eq]

/-- A path of components and one more behind them. -/
theorem fsNormalizePath_below {first : UInt8} {scratch : CString} {names : List CString}
    (separates : isSeparator first = true) (scanned : scan fsRules scratch [] [] = some names)
    (short : (first :: scratch ++ backslash :: name).length < fsMaxPath) :
    fsNormalizePath (first :: scratch ++ backslash :: name)
      = (scan fsRules name [] names).map fun names =>
        backslash :: strljoin names.reverse [backslash] (fsMaxPath - 1) := by
  have slashes : fsRules.separates backslash = true := by decide
  rw [List.cons_append] at short ⊢
  rw [fsNormalizePath_eq separates short, scan_append slashes, scanned, Option.bind_some]

theorem rootedPath_cons (first : UInt8) (rest : CString) :
    rootedPath (first :: rest)
      = if isSeparator first = true then some (first :: rest) else none := by
  simp only [isSeparator, Bool.or_eq_true, beq_iff_eq]
  change (if first ≠ backslash ∧ first ≠ slash then none else some (first :: rest)) = _
  by_cases forward : first = slash
  · rw [if_neg fun other => other.2 forward, if_pos (.inl forward)]
  by_cases back : first = backslash
  · rw [if_neg fun other => other.1 back, if_pos (.inr back)]
  · rw [if_pos ⟨back, forward⟩, if_neg fun either => either.elim forward back]

/-- A name is the same entry below a directory and below its normalized path. -/
theorem fsNormalizePath_entry
    (found : (rootedPath directory).bind fsNormalizePath = some absolute)
    (short : (directory ++ backslash :: name).length < fsMaxPath)
    (short' : (absolute ++ backslash :: name).length < fsMaxPath) :
    (rootedPath (directory ++ backslash :: name)).bind fsNormalizePath
      = fsConvertPath absolute name := by
  have whole : fsConvertPath absolute name = fsNormalizePath (absolute ++ backslash :: name) := by
    rw [fsConvertPath, List.take_of_length_le (by omega)]
  have slashes : isSeparator backslash = true := by decide
  obtain ⟨rooted, root, normal⟩ := Option.bind_eq_some_iff.mp found
  obtain ⟨first, scratch, names, rfl, separates, scanned, rfl, allNames, depth, _⟩ :=
    fsNormalizePath_scanned normal
  have back : scan fsRules ([backslash].intercalate names.reverse) [] [] = some names := by
    have level : ([] : List CString).length + names.reverse.length ≤ fsRules.maxDepth := by
      rw [List.length_nil, Nat.zero_add, List.length_reverse]
      exact depth
    have written := scan_intercalate (show fsRules.separates backslash = true from slashes)
      (fun name member => allNames name (List.mem_reverse.mp member)) level
    rwa [List.reverse_reverse, List.append_nil] at written
  rw [whole, fsNormalizePath_below slashes back short']
  cases directory with
  | nil =>
      cases root
      cases scanned
      exact fsNormalizePath_eq slashes short
  | cons c rest =>
      have same : c :: rest = first :: scratch := by
        rw [rootedPath_cons] at root
        split at root
        · exact Option.some.inj root
        · cases root
      cases same
      rw [List.cons_append, rootedPath_cons, if_pos separates, Option.bind_some]
      exact fsNormalizePath_below separates scanned short

end Paths

/-! ## The exchange -/

section Exchange

variable {σ π : Type*} (platform : RdpdrPlatform σ) (os : FiniteOs σ) (pool : IdPool π)

/-- Where the name stands in the information on a directory entry, behind the length of the
information and the fields of its class. -/
def entryNameOffset : Int → Option Nat
  | 1 => some (4 + 64)
  | 2 => some (4 + 68)
  | 3 => some (4 + (69 + 24))
  | 12 => some (4 + 12)
  | _ => none

/-- The name that is reported for an entry, with its terminator. -/
def entryName (offset : Nat) (completion : IoCompletion) : List UInt8 :=
  completion.output.drop offset

/-- The parameters of a Create request for a path: 28 bytes of other parameters, the length of the
path, and the path. -/
def createStream (parameters path : List UInt8) : List UInt8 :=
  parameters ++ (writeUInt 4 path.length ++ path)

/-- The path of a Create request, as it is opened. -/
def createPath (stream : List UInt8) : Option CString :=
  if stream.length < 32 then none
  else
    let pathLength := readInt stream 28 4
    let rest := stream.drop 32
    if isShorter rest pathLength then none
    else some (utf16ToUtf8 platform rest (pathLength.toNat / 2 - 1) fsMaxPath)

/-- The part of `guac_rdpdr_fs_process_create` that opens the path. -/
def createFile (fs : Fs σ π) (device : FsDevice) (pdu : RdpdrPdu) (path : CString) :
    Processed σ π :=
  let access := UInt32.ofNat (readUInt pdu.stream 0 4)
  let createDisposition := UInt32.ofNat (readUInt pdu.stream 20 4)
  let createOptions := UInt32.ofNat (readUInt pdu.stream 24 4)
  match fsOpen os.toOs pool fs path access createDisposition createOptions with
  | (fs, .error error) => answer fs device pdu (fsGetStatus error) (writeUInt 4 0 ++ [0])
  | (fs, .ok fileId) =>
      answer (createDownloadFolder os pool fs fileId) device pdu .success (writeInt fileId ++ [0])

theorem processCreate_path {fs : Fs σ π} {device : FsDevice} {pdu : RdpdrPdu} {path : CString}
    (found : createPath platform pdu.stream = some path) :
    processCreate platform os pool fs device pdu = createFile os pool fs device pdu path := by
  unfold createPath at found
  dsimp only at found
  split_ifs at found with incomplete cut
  cases found
  unfold processCreate
  dsimp only
  rw [if_neg incomplete, if_neg cut]
  unfold createFile
  rfl

/-- A path is opened as the path that it is normalized to. -/
theorem createFile_normalized {fs : Fs σ π} {device : FsDevice} {pdu : RdpdrPdu}
    {path normalized : CString} (found : (rootedPath path).bind fsNormalizePath = some normalized) :
    createFile os pool fs device pdu path = createFile os pool fs device pdu normalized := by
  obtain ⟨rooted, _, normal⟩ := Option.bind_eq_some_iff.mp found
  have again : (rootedPath normalized).bind fsNormalizePath = some normalized := by
    have same := fsNormalizePath_again normal
    obtain ⟨_, _, _, _, _, _, rfl, _⟩ := fsNormalizePath_scanned normal
    rw [rootedPath_cons, if_pos (by decide), Option.bind_some]
    exact same
  unfold createFile fsOpen
  rw [found, again]

/-- The server asks for a file by the path of the directory, in code units, and the name that was
reported for it. -/
def entryRequest (parameters : List UInt8) (directory : List Nat) (name : List UInt8) :
    List UInt8 :=
  createStream parameters (utf16Bytes (directory ++ [0x5C]) ++ name)

/-- The name of an entry comes back with a request: it is the name in the path that is opened, and
that path is opened as the one that the listing has found the entry at. -/
structure NameReturns (directory : List Nat) (name : CString) (stream : List UInt8) : Prop where
  path : createPath platform stream = some (Utf8.encodeText directory ++ backslash :: name)
  opens : ∀ absolutePath entryPath,
    (rootedPath (Utf8.encodeText directory)).bind fsNormalizePath = some absolutePath →
    (absolutePath ++ backslash :: name).length < fsMaxPath →
    fsConvertPath absolutePath name = some entryPath →
    ∀ (fs : Fs σ π) (device : FsDevice) (pdu : RdpdrPdu), pdu.stream = stream →
      processCreate platform os pool fs device pdu = createFile os pool fs device pdu entryPath

/-- The name of an entry comes back with every request for it whose path has room in its buffer. -/
def AlwaysReturns (name : CString) (sent : List UInt8) : Prop :=
  ∀ (parameters : List UInt8) (directory : List Nat), parameters.length = 28 →
    (∀ unit ∈ directory, 0 < unit ∧ unit < 0x10000) →
    (Utf8.encodeText directory ++ backslash :: name).length < fsMaxPath →
    NameReturns platform os pool directory name (entryRequest parameters directory sent)

end Exchange

/-! ## What is sent and what is read -/

section Sent

variable {σ π : Type*} {platform : RdpdrPlatform σ} {codes units : List Nat}

/-- The number of code units that the buffer for the name of an entry has room for. -/
def entryNameUnits : Nat := 128

theorem entryFields_length (file : FsFile) (nameLength : List UInt8) :
    (entryFields file nameLength).length = 60 + nameLength.length := by
  unfold entryFields
  simp only [List.length_append, writeUInt_length]

/-- An entry is reported by as much of its name as its buffer has room for. -/
theorem processEntry_name (laws : platform.Utf8Laws)
    (valid : ∀ code ∈ codes, code ≠ 0 ∧ code < 0x200000) {fs : Fs σ π} (device : FsDevice)
    (pdu : RdpdrPdu) {informationClass : Int} {offset : Nat}
    (known : entryNameOffset informationClass = some offset) {entryFileId : Int} {file : FsFile}
    (opened : fsGetFile fs entryFileId = some file) :
    ∃ completion,
      processEntry platform fs device pdu informationClass (Utf8.encodeText codes) entryFileId
        = [completion]
      ∧ entryName offset completion = utf16Bytes (codes.take entryNameUnits ++ [0]) := by
  have stored := utf8ToUtf16_text laws (fun code member => (valid code member).2) 127
  change utf8ToUtf16 platform codes.length (Utf8.encodeText codes) 256
    = utf16Bytes (codes.take entryNameUnits) at stored
  have kept : (utf16Bytes (codes.take entryNameUnits)).take (codes.length * 2)
      = utf16Bytes (codes.take entryNameUnits) := by
    refine List.take_of_length_le ?_
    rw [utf16Bytes_length, List.length_take]
    omega
  have listed (size : Nat) (fields : FsFile → List UInt8 → List UInt8)
      (length : (fields file (writeUInt 4 (codes.length * 2 + 2))).length = size) :
      ∃ completion,
        answerEntry platform fs device pdu (Utf8.encodeText codes) entryFileId size fields
          = [completion]
        ∧ entryName (4 + size) completion = utf16Bytes (codes.take entryNameUnits ++ [0]) := by
    unfold answerEntry
    rw [opened, laws.strlen codes valid]
    dsimp only
    rw [stored, kept]
    refine ⟨_, rfl, ?_⟩
    change (writeUInt 4 (size + codes.length * 2 + 2)
      ++ fields file (writeUInt 4 (codes.length * 2 + 2))
      ++ utf16Bytes (codes.take entryNameUnits) ++ [0, 0]).drop (4 + size) = _
    rw [List.append_assoc, List.drop_left', utf16Bytes_append]
    · rfl
    · rw [List.length_append, writeUInt_length, length]
  unfold entryNameOffset at known
  split at known
  · cases known
    refine listed 64 entryFields ?_
    rw [entryFields_length, writeUInt_length]
  · cases known
    refine listed 68 (fun file nameLength => entryFields file nameLength ++ writeUInt 4 0) ?_
    rw [List.length_append, entryFields_length, writeUInt_length, writeUInt_length]
  · cases known
    refine listed (69 + 24) (fun file nameLength =>
      entryFields file nameLength ++ writeUInt 4 0 ++ [0] ++ List.replicate 24 0) ?_
    simp only [List.length_append, entryFields_length, writeUInt_length, List.length_replicate,
      List.length_singleton]
  · cases known
    refine listed 12 (fun _ nameLength => writeUInt 4 0 ++ writeUInt 4 0 ++ nameLength) ?_
    simp only [List.length_append, writeUInt_length]
  · cases known

/-- The path of a request is read as its code units up to the terminator. -/
theorem createPath_units {parameters : List UInt8} (length : parameters.length = 28)
    (few : units.length < 0x10000) :
    createPath platform (createStream parameters (utf16Bytes (units ++ [0]))) =
      some ((utf16Codepoints platform units.length (utf16Bytes units ++ utf16Bytes [0])
        fsMaxPath).takeWhile (· ≠ 0)) := by
  have size : (utf16Bytes (units ++ [0])).length = 2 * units.length + 2 := by
    rw [utf16Bytes_length, List.length_append, List.length_singleton]
    omega
  have read : readInt (createStream parameters (utf16Bytes (units ++ [0]))) 28 4
      = ((2 * units.length + 2 : Nat) : Int) := by
    have written := @readUInt_writeUInt parameters 4 (utf16Bytes (units ++ [0])).length
      (utf16Bytes (units ++ [0]))
    rw [length, size, Nat.mod_eq_of_lt (by omega)] at written
    rw [readInt, createStream, size, written]
    exact toInt_of_fits ⟨by omega, by omega⟩
  have rest : (createStream parameters (utf16Bytes (units ++ [0]))).drop 32
      = utf16Bytes (units ++ [0]) := by
    rw [createStream, ← List.append_assoc, List.drop_left']
    rw [List.length_append, length, writeUInt_length]
  have long : (createStream parameters (utf16Bytes (units ++ [0]))).length
      = 32 + (2 * units.length + 2) := by
    rw [createStream, List.length_append, List.length_append, length, writeUInt_length, size]
    omega
  have whole : isShorter (utf16Bytes (units ++ [0])) ((2 * units.length + 2 : Nat) : Int)
      = false := by
    have same := toSize_of_nonneg (show 0 ≤ ((2 * units.length + 2 : Nat) : Int) by omega)
      (by omega)
    unfold isShorter
    rw [size]
    exact decide_eq_false (by omega)
  unfold createPath
  dsimp only
  rw [if_neg (by omega), read, rest, whole, if_neg (by decide), utf16ToUtf8]
  have count : (((2 * units.length + 2 : Nat) : Int)).toNat / 2 - 1 = units.length := by omega
  rw [count, utf16Bytes_append]

end Sent

/-! ## Which names come back -/

section Returns

variable {σ π : Type*} {platform : RdpdrPlatform σ} (os : FiniteOs σ) (pool : IdPool π)
  {codes : List Nat}

/-- The request for an entry is one for code units. -/
theorem entryRequest_units (parameters : List UInt8) (directory codes : List Nat) :
    entryRequest parameters directory (utf16Bytes (codes ++ [0]))
      = createStream parameters (utf16Bytes (directory ++ 0x5C :: codes ++ [0])) := by
  rw [entryRequest, ← utf16Bytes_append, List.append_assoc, List.append_assoc]
  rfl

theorem encodeText_below (directory codes : List Nat) :
    Utf8.encodeText (directory ++ 0x5C :: codes)
      = Utf8.encodeText directory ++ backslash :: Utf8.encodeText codes := by
  rw [Utf8.encodeText_append, Utf8.encodeText_cons]
  rfl

/-- A name that is reported as a whole, in one code unit for each codepoint, comes back. -/
theorem alwaysReturns_of_short (laws : platform.Utf8Laws)
    (small : ∀ code ∈ codes, code ≠ 0 ∧ code < 0x10000) (short : codes.length ≤ entryNameUnits) :
    AlwaysReturns platform os pool (Utf8.encodeText codes)
      (utf16Bytes (codes.take entryNameUnits ++ [0])) := by
  intro parameters directory length units fits
  rw [List.take_of_length_le short, entryRequest_units]
  have nonzero : ∀ unit ∈ directory ++ 0x5C :: codes, unit ≠ 0 ∧ unit < 0x10000 := by
    intro unit member
    rcases List.mem_append.mp member with above | member
    · have bounds := units unit above
      omega
    · rcases List.mem_cons.mp member with rfl | inside
      · decide
      · exact small unit inside
  have same : (directory ++ 0x5C :: codes).map codeUnit = directory ++ 0x5C :: codes := by
    refine (List.map_congr_left fun unit member => ?_).trans (List.map_id _)
    exact Nat.mod_eq_of_lt (nonzero unit member).2
  have whole := encodeText_below directory codes
  have few := Utf8.length_le_encodeText (directory ++ 0x5C :: codes)
  rw [← whole] at fits
  have buffer : fsMaxPath = 4096 := rfl
  have room : ((Utf8.encodeText ((directory ++ 0x5C :: codes).map codeUnit)).length : Int)
      ≤ fsMaxPath := by
    rw [same]
    omega
  have read := utf16Codepoints_units laws (utf16Bytes [0]) room
  have path : createPath platform
      (createStream parameters (utf16Bytes (directory ++ 0x5C :: codes ++ [0])))
        = some (Utf8.encodeText directory ++ backslash :: Utf8.encodeText codes) := by
    rw [createPath_units length (by omega), read, same, List.takeWhile_eq_self_iff.mpr, whole]
    intro byte member
    refine decide_eq_true fun zero => ?_
    exact Utf8.zero_not_mem_encodeText (fun inside => (nonzero 0 inside).1 rfl) (zero ▸ member)
  refine ⟨path, fun absolutePath entryPath found room entry fs device pdu stream => ?_⟩
  rw [← stream] at path
  rw [processCreate_path platform os pool path]
  refine createFile_normalized os pool ?_
  rw [← entry]
  rw [whole] at fits
  exact fsNormalizePath_entry found fits room

theorem codeUnit_size_le (code : Nat) : Utf8.size (codeUnit code) ≤ Utf8.size code :=
  Utf8.size_mono (Nat.mod_le _ _)

/-- What is read takes no more bytes than the name has, and fewer if it is not the whole name. -/
theorem kept_length (codes : List Nat) (most : Nat) :
    (Utf8.encodeText ((codes.take most).map codeUnit)).length ≤ (Utf8.encodeText codes).length
      ∧ ((Utf8.encodeText codes).length
          ≤ (Utf8.encodeText ((codes.take most).map codeUnit)).length →
        (∀ code ∈ codes, code < 0x10000) ∧ codes.length ≤ most) := by
  induction codes generalizing most with
  | nil =>
      rw [List.take_nil]
      exact ⟨Nat.le_refl _, fun _ => ⟨List.forall_mem_nil _, Nat.zero_le most⟩⟩
  | cons code codes ih =>
      have positive := Utf8.size_pos code
      rw [Utf8.encodeText_cons, List.length_append, Utf8.encode_length]
      cases most with
      | zero =>
          rw [List.take_zero, List.map_nil, Utf8.encodeText_nil, List.length_nil]
          exact ⟨Nat.zero_le _, fun whole => by omega⟩
      | succ most =>
          obtain ⟨bound, same⟩ := ih most
          have part := codeUnit_size_le code
          rw [List.take_succ_cons, List.map_cons, Utf8.encodeText_cons, List.length_append,
            Utf8.encode_length]
          refine ⟨by omega, fun whole => ?_⟩
          obtain ⟨small, short⟩ := same (by omega)
          have unit : Utf8.size (codeUnit code) ≠ 4 := by
            rw [Ne, Utf8.size_eq_four]
            exact Nat.not_le.mpr (codeUnit_lt code)
          have most : Utf8.size code ≤ 4 := Utf8.size_le code
          have narrow : ¬ 0x10000 ≤ code := by
            rw [← Utf8.size_eq_four]
            omega
          refine ⟨fun other member => ?_, Nat.succ_le_succ short⟩
          rcases List.mem_cons.mp member with rfl | inside
          · exact Nat.not_le.mp narrow
          · exact small other inside

/-- A name that comes back has been reported as a whole. -/
theorem short_of_alwaysReturns (laws : platform.Utf8Laws)
    (room : (Utf8.encodeText codes).length + 1 < fsMaxPath)
    (returns : AlwaysReturns platform os pool (Utf8.encodeText codes)
      (utf16Bytes (codes.take entryNameUnits ++ [0]))) :
    (∀ code ∈ codes, code < 0x10000) ∧ codes.length ≤ entryNameUnits := by
  have back := (returns (List.replicate 28 0) [] List.length_replicate (List.forall_mem_nil _)
    room).path
  have few : (0x5C :: codes.take entryNameUnits).length < 0x10000 := by
    rw [List.length_cons, List.length_take, entryNameUnits]
    omega
  rw [entryRequest_units, List.nil_append, createPath_units List.length_replicate few] at back
  have cut := congrArg List.length (Option.some.inj back)
  have total : (Utf8.encodeText [] ++ backslash :: Utf8.encodeText codes).length
      ≤ (Utf8.encodeText ((0x5C :: codes.take entryNameUnits).map codeUnit)).length := by
    rw [← cut]
    exact Nat.le_trans (List.takeWhile_sublist _).length_le
      (utf16Codepoints_length_le laws (utf16Bytes [0]) fsMaxPath)
  refine (kept_length codes entryNameUnits).2 ?_
  rw [Utf8.encodeText_nil, List.nil_append, List.length_cons, List.map_cons, Utf8.encodeText_cons,
    List.length_append] at total
  change _ ≤ 1 + _ at total
  omega

end Returns

/-! ## Names in UTF-8 -/

/-- The name of an entry comes back if and only if all of its characters are in the Basic
Multilingual Plane and the buffer has room for them. -/
theorem file_name_returns_iff {σ π : Type*} {platform : RdpdrPlatform σ}
    (laws : platform.Utf8Laws) (os : FiniteOs σ) (pool : IdPool π) {fs : Fs σ π}
    (device : FsDevice) (pdu : RdpdrPdu) {informationClass : Int} {offset : Nat}
    (known : entryNameOffset informationClass = some offset) {entryFileId : Int} {file : FsFile}
    (opened : fsGetFile fs entryFileId = some file) {text : List Char}
    (plain : ∀ char ∈ text, char.toNat ≠ 0)
    (room : (text.flatMap String.utf8EncodeChar).length + 1 < fsMaxPath) :
    (∀ completion ∈ processEntry platform fs device pdu informationClass
        (text.flatMap String.utf8EncodeChar) entryFileId,
      AlwaysReturns platform os pool (text.flatMap String.utf8EncodeChar)
        (entryName offset completion)) ↔
      (∀ char ∈ text, char.toNat < 0x10000) ∧ text.length ≤ 128 := by
  have encoded : text.flatMap String.utf8EncodeChar = Utf8.encodeText (text.map Char.toNat) := by
    rw [Utf8.encodeText, List.flatMap_map]
    rfl
  have valid : ∀ code ∈ text.map Char.toNat, code ≠ 0 ∧ code < 0x200000 := by
    refine List.forall_mem_map.mpr fun char member => ⟨plain char member, ?_⟩
    change char.val.toNat < 0x200000
    rcases char.valid with below | above <;> omega
  rw [encoded] at room ⊢
  obtain ⟨completion, sent, name⟩ := processEntry_name laws valid device pdu known opened
  rw [sent, List.forall_mem_singleton, name]
  constructor
  · intro returns
    obtain ⟨small, short⟩ := short_of_alwaysReturns os pool laws room returns
    rw [List.length_map] at short
    exact ⟨List.forall_mem_map.mp small, short⟩
  · rintro ⟨small, short⟩
    refine alwaysReturns_of_short os pool laws (List.forall_mem_map.mpr fun char member => ?_) ?_
    · exact ⟨plain char member, small char member⟩
    · rw [List.length_map]
      exact short

/-! ### Two names -/

/-- A platform with the UTF-8 functions of libguac, on which every name matches. -/
def utf8Platform : RdpdrPlatform Disk where
  fnmatch _ _ := true
  statvfs _ _ := none
  utf8Write code room := if (Utf8.size code : Int) ≤ room then Utf8.encode code else []
  utf8Read := Utf8.decode
  utf8Strlen name := Utf8.count name.length name

theorem utf8Platform_laws : utf8Platform.Utf8Laws where
  read _ small := Utf8.decode_encode small
  write _ _ _ := rfl
  strlen codes valid := Utf8.count_encodeText (fun code member => (valid code member).2)
    (Utf8.length_le_encodeText codes)

/-- A drive with one file. -/
def namedDrive (name : CString) : Fs Disk QueuePool :=
  mountedFs [(ascii "/d/", .directory [name]), (ascii "/d/" ++ name, .file [])] (ascii "/d") false

/-- The redirected drive. -/
def namedDevice : FsDevice := { deviceId := 0, deviceName := ascii "D" }

/-- A query for the names in a directory. -/
def namesQuery : RdpdrPdu where
  owned := true
  request := { deviceId := 0, fileId := 0, completionId := 7, majorFunc := 12, minorFunc := 1 }
  stream := []

/-- The name `é` is listed, and it comes back. -/
theorem accented_name_returns :
    processEntry utf8Platform (namedDrive [0xC3, 0xA9]) namedDevice namesQuery 12
        ([Char.ofNat 0xE9].flatMap String.utf8EncodeChar) 0 ≠ [] ∧
      ∀ completion ∈ processEntry utf8Platform (namedDrive [0xC3, 0xA9]) namedDevice namesQuery 12
          ([Char.ofNat 0xE9].flatMap String.utf8EncodeChar) 0,
        AlwaysReturns utf8Platform finiteDiskOs queuePool
          ([Char.ofNat 0xE9].flatMap String.utf8EncodeChar) (entryName 16 completion) := by
  have opened : fsGetFile (namedDrive [0xC3, 0xA9]) 0
      = some ((namedDrive [0xC3, 0xA9]).files 0) := by
    rfl
  have plain : ∀ char ∈ [Char.ofNat 0xE9], char.toNat ≠ 0 :=
    List.forall_mem_singleton.mpr (by decide)
  have small : ∀ char ∈ [Char.ofNat 0xE9], char.toNat < 0x10000 :=
    List.forall_mem_singleton.mpr (by decide)
  exact ⟨List.cons_ne_nil _ _, (file_name_returns_iff utf8Platform_laws finiteDiskOs queuePool
    namedDevice namesQuery rfl opened plain (by decide)).mpr ⟨small, by decide⟩⟩

/-- The name of one character beyond 16 bits, U+1F600, comes back as U+F600. -/
theorem astral_name_is_lost :
    ¬ ∀ completion ∈ processEntry utf8Platform (namedDrive [0xF0, 0x9F, 0x98, 0x80]) namedDevice
        namesQuery 12 ([Char.ofNat 0x1F600].flatMap String.utf8EncodeChar) 0,
      AlwaysReturns utf8Platform finiteDiskOs queuePool
        ([Char.ofNat 0x1F600].flatMap String.utf8EncodeChar) (entryName 16 completion) := by
  intro returns
  have back := (returns _ List.mem_cons_self (List.replicate 28 0) [] rfl (List.forall_mem_nil _)
    (by decide)).path
  exact absurd back (by decide +kernel)

end GuacNebula.Rdp
