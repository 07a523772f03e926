import GuacNebula.Lib.CString
import GuacNebula.Rdp.FileNames

/-! # Replies to directory queries

An entry of a directory is reported with its name in UTF-16, which is converted in a buffer of fixed
size. The length of the name follows from the number of its codepoints, and so does the number of
bytes that are read of the buffer: the converter may have stored fewer, or other ones.
-/

namespace GuacNebula.Rdp

open CString

/-! ## The replies -/

/-- The size of `utf16_entry_name`. -/
def entryNameBuffer : Nat := 256

/-- The information on an entry: `size` bytes of fields, among them the length of the name, in front
of the name. -/
structure EntryLayout where
  size : Nat
  nameLengthOffset : Nat
  front : FsFile → List UInt8
  back : List UInt8
  front_length : ∀ file, (front file).length = nameLengthOffset
  size_eq : nameLengthOffset + 4 + back.length = size

/-- The fields with the length of the name. -/
def EntryLayout.fields (layout : EntryLayout) (file : FsFile) (nameLength : List UInt8) :
    List UInt8 :=
  layout.front file ++ nameLength ++ layout.back

/-- The fields before the length of the name, in all but one kind of information. -/
def entryFront (file : FsFile) : List UInt8 :=
  writeUInt 4 0 ++ writeUInt 4 0 ++ writeUInt 8 file.ctime.toNat ++ writeUInt 8 file.atime.toNat
    ++ writeUInt 8 file.mtime.toNat ++ writeUInt 8 file.mtime.toNat ++ writeUInt 8 file.size.toNat
    ++ writeUInt 8 file.size.toNat ++ writeUInt 4 file.attributes

theorem entryFront_length (file : FsFile) : (entryFront file).length = 60 := by
  unfold entryFront
  simp only [List.length_append, writeUInt_length]

/-- What `guac_rdpdr_fs_process_query_directory_info` writes. -/
def directoryLayout : EntryLayout where
  size := 64
  nameLengthOffset := 60
  front := entryFront
  back := []
  front_length := entryFront_length
  size_eq := rfl

/-- What `guac_rdpdr_fs_process_query_full_directory_info` writes. -/
def fullDirectoryLayout : EntryLayout where
  size := 68
  nameLengthOffset := 60
  front := entryFront
  back := writeUInt 4 0
  front_length := entryFront_length
  size_eq := rfl

/-- What `guac_rdpdr_fs_process_query_both_directory_info` writes. -/
def bothDirectoryLayout : EntryLayout where
  size := 69 + 24
  nameLengthOffset := 60
  front := entryFront
  back := writeUInt 4 0 ++ [0] ++ List.replicate 24 0
  front_length := entryFront_length
  size_eq := rfl

/-- What `guac_rdpdr_fs_process_query_names_info` writes. -/
def namesLayout : EntryLayout where
  size := 12
  nameLengthOffset := 8
  front _ := writeUInt 4 0 ++ writeUInt 4 0
  back := []
  front_length _ := rfl
  size_eq := rfl

/-- The information of a class. -/
def entryLayout : Int → Option EntryLayout
  | 1 => some directoryLayout
  | 2 => some fullDirectoryLayout
  | 3 => some bothDirectoryLayout
  | 12 => some namesLayout
  | _ => none

/-- A reply, with the number of bytes that were stored in the buffer for the name and that were read
from its start. -/
structure EntryReply where
  stored : Nat
  read : Nat
  output : List UInt8

section Replies

variable {σ π : Type*} (platform : RdpdrPlatform σ) (fs : Fs σ π)

/-- The reply for an entry that is open as a file, unless there is none. The name is read from the
stack, which holds the buffer and other data behind it. -/
def replyEntry (stack : Nat → UInt8) (layout : EntryLayout) (entryName : CString)
    (entryFileId : Int) : Option EntryReply :=
  let length := platform.utf8Strlen entryName
  let utf16Length := length * 2
  let converted := utf8ToUtf16 platform length entryName entryNameBuffer
  (fsGetFile fs entryFileId).map fun file =>
    { stored := converted.length
      read := utf16Length
      output := writeUInt 4 (layout.size + utf16Length + 2)
        ++ layout.fields file (writeUInt 4 (utf16Length + 2))
        ++ bytes (put stack 0 converted) utf16Length ++ [0, 0] }

end Replies

/-! ## Exact replies -/

/-- The code units of a character: a surrogate pair beyond 16 bits. -/
def utf16Units (char : Char) : List Nat :=
  if char.toNat < 0x10000 then [char.toNat]
  else [0xD800 + (char.toNat - 0x10000) / 0x400, 0xDC00 + (char.toNat - 0x10000) % 0x400]

/-- A reply stays in the buffer, its lengths are those of what follows, and the name in it is the
encoding of the whole name, with a terminator. -/
structure ReplyExact (layout : EntryLayout) (name : CString) (reply : EntryReply) : Prop where
  stored : reply.stored ≤ entryNameBuffer
  read : reply.read ≤ entryNameBuffer
  length : readUInt reply.output 0 4 = (reply.output.drop 4).length
  nameLength : readUInt reply.output (4 + layout.nameLengthOffset) 4 =
    (reply.output.drop (4 + layout.size)).length
  name : ∃ text : List Char, name = text.flatMap String.utf8EncodeChar ∧
    reply.output.drop (4 + layout.size) = utf16Bytes (text.flatMap utf16Units ++ [0])

/-- The names that are reported exactly: UTF-8, of no more characters than the buffer has room for,
and none beyond 16 bits. -/
def ReportableName (name : CString) : Prop :=
  ∃ text : List Char, name = text.flatMap String.utf8EncodeChar ∧ text.length ≤ entryNameUnits ∧
    ∀ char ∈ text, char.toNat < 0x10000

section Exact

variable {σ π : Type*} {platform : RdpdrPlatform σ} {fs : Fs σ π} {text : List Char}

theorem utf8_eq_encodeText (text : List Char) :
    text.flatMap String.utf8EncodeChar = Utf8.encodeText (text.map Char.toNat) := by
  rw [Utf8.encodeText, List.flatMap_map]
  rfl

/-- A name without a zero is the text of characters other than that. -/
theorem codes_valid (nonzero : 0 ∉ text.flatMap String.utf8EncodeChar) :
    ∀ code ∈ text.map Char.toNat, code ≠ 0 ∧ code < 0x200000 := by
  refine List.forall_mem_map.mpr fun char member => ⟨fun zero => ?_, ?_⟩
  · refine nonzero (List.mem_flatMap.mpr ⟨char, member, ?_⟩)
    rw [← Utf8.encode_char, zero]
    exact List.mem_cons_self
  · change char.val.toNat < 0x200000
    rcases char.valid with below | above <;> omega

theorem utf16Units_length (char : Char) :
    (utf16Units char).length = if char.toNat < 0x10000 then 1 else 2 := by
  unfold utf16Units
  split_ifs <;> rfl

/-- There are as many code units as characters only if none of these is beyond 16 bits. -/
theorem utf16Units_text (text : List Char) :
    text.length ≤ (text.flatMap utf16Units).length ∧
      ((text.flatMap utf16Units).length ≤ text.length →
        ∀ char ∈ text, char.toNat < 0x10000) := by
  induction text with
  | nil => exact ⟨Nat.le_refl _, fun _ => List.forall_mem_nil _⟩
  | cons char text ih =>
      have units := utf16Units_length char
      rw [List.flatMap_cons, List.length_append, List.length_cons]
      split_ifs at units with small
      · refine ⟨by omega, fun same => List.forall_mem_cons.mpr ⟨small, ih.2 (by omega)⟩⟩
      · exact ⟨by omega, fun same => absurd same (by omega)⟩

theorem utf16Units_small (small : ∀ char ∈ text, char.toNat < 0x10000) :
    text.flatMap utf16Units = text.map Char.toNat := by
  induction text with
  | nil => rfl
  | cons char text ih =>
      obtain ⟨first, rest⟩ := List.forall_mem_cons.mp small
      rw [List.flatMap_cons, List.map_cons, ih rest, utf16Units, if_pos first]
      rfl

/-- The output of a reply, cut before and behind the fields. -/
theorem output_parts (layout : EntryLayout) (file : FsFile) (name : List UInt8) (count : Nat) :
    let output :=
      writeUInt 4 (layout.size + count) ++ layout.fields file (writeUInt 4 count) ++ name
    output.length = 4 + layout.size + name.length ∧
      readUInt output 0 4 = (layout.size + count) % 256 ^ 4 ∧
      readUInt output (4 + layout.nameLengthOffset) 4 = count % 256 ^ 4 ∧
      output.drop (4 + layout.size) = name := by
  have front := layout.front_length file
  have size := layout.size_eq
  have whole : (layout.fields file (writeUInt 4 count)).length = layout.size := by
    unfold EntryLayout.fields
    rw [List.length_append, List.length_append, writeUInt_length, front, size]
  intro output
  refine ⟨?_, ?_, ?_, ?_⟩
  · simp only [output, List.length_append, writeUInt_length, whole]
  · have read := @readUInt_writeUInt [] 4 (layout.size + count)
      (layout.fields file (writeUInt 4 count) ++ name)
    rwa [List.nil_append, List.length_nil, ← List.append_assoc] at read
  · have read := @readUInt_writeUInt (writeUInt 4 (layout.size + count) ++ layout.front file) 4
      count (layout.back ++ name)
    rw [List.length_append, writeUInt_length, front] at read
    rw [← read]
    simp only [output, EntryLayout.fields, List.append_assoc]
  · exact List.drop_left' (by rw [List.length_append, writeUInt_length, whole])

/-- What is sent for the text of a name: the name that is read has two bytes for each of its
characters. -/
theorem replyEntry_text (laws : platform.Utf8Laws)
    (nonzero : 0 ∉ text.flatMap String.utf8EncodeChar) (stack : Nat → UInt8) (layout : EntryLayout)
    {entryFileId : Int} {file : FsFile} (opened : fsGetFile fs entryFileId = some file) :
    replyEntry platform fs stack layout (text.flatMap String.utf8EncodeChar) entryFileId =
      some
        { stored := 2 * min entryNameUnits text.length
          read := text.length * 2
          output := writeUInt 4 (layout.size + (text.length * 2 + 2))
            ++ layout.fields file (writeUInt 4 (text.length * 2 + 2))
            ++ (bytes (put stack 0 (utf16Bytes ((text.map Char.toNat).take entryNameUnits)))
              (text.length * 2) ++ [0, 0]) } := by
  have valid := codes_valid nonzero
  have converted := utf8ToUtf16_text laws (fun code member => (valid code member).2) 127
  change utf8ToUtf16 platform _ _ entryNameBuffer = utf16Bytes (List.take entryNameUnits _)
    at converted
  unfold replyEntry
  rw [utf8_eq_encodeText, laws.strlen _ valid, opened]
  dsimp only
  rw [converted, List.length_map, Option.map_some, utf16Bytes_length, List.length_take,
    List.length_map, Nat.add_assoc, List.append_assoc]

/-- The name that is read is the one that was stored if this is all that is read. -/
theorem bytes_stored (small : ∀ char ∈ text, char.toNat < 0x10000)
    (fits : text.length ≤ entryNameUnits) (stack : Nat → UInt8) :
    bytes (put stack 0 (utf16Bytes ((text.map Char.toNat).take entryNameUnits)))
        (text.length * 2) = utf16Bytes (text.flatMap utf16Units) := by
  have whole : (text.map Char.toNat).take entryNameUnits = text.flatMap utf16Units := by
    rw [List.take_of_length_le (by rwa [List.length_map]), utf16Units_small small]
  have length : (utf16Bytes (text.flatMap utf16Units)).length = text.length * 2 := by
    rw [utf16Bytes_length, utf16Units_small small, List.length_map, Nat.mul_comm]
  rw [whole, bytes_put, List.take_of_length_le (Nat.le_of_eq length), length,
    List.drop_eq_nil_of_le (Nat.le_of_eq (bytes_length _ _)), List.append_nil]

end Exact

theorem entryLayout_size {informationClass : Int} {layout : EntryLayout}
    (known : entryLayout informationClass = some layout) : layout.size ≤ 93 := by
  unfold entryLayout at known
  split at known <;> cases known <;> decide

/-- The reply that holds as much of the name as was stored is the one that holds all of it. -/
theorem answerEntry_reply {σ π : Type*} {platform : RdpdrPlatform σ} (laws : platform.Utf8Laws)
    (fs : Fs σ π) (device : FsDevice) (pdu : RdpdrPdu) (stack : Nat → UInt8) (layout : EntryLayout)
    {name : CString} (nonzero : 0 ∉ name) (reportable : ReportableName name) (entryFileId : Int) :
    answerEntry platform fs device pdu name entryFileId layout.size layout.fields =
      ((replyEntry platform fs stack layout name entryFileId).map fun reply =>
        ioCompletion device pdu .success reply.output).toList := by
  obtain ⟨text, rfl, fits, small⟩ := reportable
  have valid := codes_valid nonzero
  have converted := utf8ToUtf16_text laws (fun code member => (valid code member).2) 127
  change utf8ToUtf16 platform _ _ 256 = utf16Bytes (List.take entryNameUnits _) at converted
  rcases opened : fsGetFile fs entryFileId with _ | file
  · unfold answerEntry replyEntry
    rw [opened]
    rfl
  rw [replyEntry_text laws nonzero stack layout opened, bytes_stored small fits]
  unfold answerEntry
  rw [utf8_eq_encodeText, laws.strlen _ valid, opened]
  dsimp only
  have whole : (text.map Char.toNat).take entryNameUnits = text.map Char.toNat :=
    List.take_of_length_le (by rwa [List.length_map])
  have length : (utf16Bytes (text.map Char.toNat)).length = text.length * 2 := by
    rw [utf16Bytes_length, List.length_map, Nat.mul_comm]
  rw [converted, whole, List.length_map, List.take_of_length_le (Nat.le_of_eq length),
    utf16Units_small small, Nat.add_assoc, List.append_assoc]
  rfl

/-- Each kind of information is answered by its layout. -/
theorem processEntry_layout {σ π : Type*} (platform : RdpdrPlatform σ) (fs : Fs σ π)
    (device : FsDevice) (pdu : RdpdrPdu) {informationClass : Int} {layout : EntryLayout}
    (known : entryLayout informationClass = some layout) (name : CString) (entryFileId : Int) :
    processEntry platform fs device pdu informationClass name entryFileId =
      answerEntry platform fs device pdu name entryFileId layout.size layout.fields := by
  have plain : entryFields = directoryLayout.fields := by
    funext file nameLength
    exact (List.append_nil _).symm
  have both : (fun file nameLength =>
      entryFields file nameLength ++ writeUInt 4 0 ++ [0] ++ List.replicate 24 0)
      = bothDirectoryLayout.fields := by
    funext file nameLength
    unfold EntryLayout.fields bothDirectoryLayout
    rw [List.append_assoc, List.append_assoc, ← List.append_assoc (writeUInt 4 0)]
    rfl
  have names : (fun (_ : FsFile) nameLength => writeUInt 4 0 ++ writeUInt 4 0 ++ nameLength)
      = namesLayout.fields := by
    funext file nameLength
    exact (List.append_nil _).symm
  unfold entryLayout at known
  split at known <;> cases known <;> unfold processEntry
  · rw [processQueryDirectoryInfo, plain]
    rfl
  · rfl
  · rw [processQueryBothDirectoryInfo, both]
    rfl
  · rw [processQueryNamesInfo, names]
    rfl

/-- For a name that can be reported, the completion carries the reply, whatever else the stack
holds. -/
theorem processEntry_reply {σ π : Type*} {platform : RdpdrPlatform σ} (laws : platform.Utf8Laws)
    (fs : Fs σ π) (device : FsDevice) (pdu : RdpdrPdu) (stack : Nat → UInt8)
    {informationClass : Int} {layout : EntryLayout}
    (known : entryLayout informationClass = some layout) {name : CString} (nonzero : 0 ∉ name)
    (reportable : ReportableName name) (entryFileId : Int) :
    processEntry platform fs device pdu informationClass name entryFileId =
      ((replyEntry platform fs stack layout name entryFileId).map fun reply =>
        ioCompletion device pdu .success reply.output).toList := by
  rw [processEntry_layout platform fs device pdu known,
    answerEntry_reply laws fs device pdu stack layout nonzero reportable entryFileId]

/-- The replies for an entry are exact if and only if there is none, or its name can be reported. -/
theorem replyEntry_exact_iff {σ π : Type*} {platform : RdpdrPlatform σ}
    (laws : platform.Utf8Laws) (fs : Fs σ π) (stack : Nat → UInt8) {informationClass : Int}
    {layout : EntryLayout} (known : entryLayout informationClass = some layout) {name : CString}
    (nonzero : 0 ∉ name) (entryFileId : Int) :
    (∀ reply ∈ replyEntry platform fs stack layout name entryFileId, ReplyExact layout name reply) ↔
      fsGetFile fs entryFileId = none ∨ ReportableName name := by
  have few := entryLayout_size known
  rcases opened : fsGetFile fs entryFileId with _ | file
  · refine iff_of_true (fun reply member => ?_) (Or.inl rfl)
    unfold replyEntry at member
    rw [opened] at member
    cases member
  constructor
  · intro exact
    obtain ⟨reply, sent⟩ : ∃ reply, replyEntry platform fs stack layout name entryFileId
        = some reply := by
      unfold replyEntry
      rw [opened]
      exact ⟨_, rfl⟩
    have kept := exact reply sent
    obtain ⟨text, rfl, same⟩ := kept.name
    have read := kept.read
    rw [replyEntry_text laws nonzero stack layout opened] at sent
    cases sent
    have parts := output_parts layout file
      (bytes (put stack 0 (utf16Bytes ((text.map Char.toNat).take entryNameUnits)))
        (text.length * 2) ++ [0, 0]) (text.length * 2 + 2)
    change text.length * 2 ≤ 256 at read
    have lengths := congrArg List.length (parts.2.2.2.symm.trans same)
    rw [List.length_append, bytes_length, utf16Bytes_length, List.length_append,
      List.length_singleton] at lengths
    change text.length * 2 + 2 = _ at lengths
    refine Or.inr ⟨text, rfl, ?_, (utf16Units_text text).2 (by omega)⟩
    change text.length ≤ 128
    omega
  · rintro (closed | ⟨text, rfl, fits, small⟩) reply sent
    · cases closed
    rw [replyEntry_text laws nonzero stack layout opened, bytes_stored small fits] at sent
    cases sent
    obtain ⟨length, whole, field, rest⟩ := output_parts layout file
      (utf16Bytes (text.flatMap utf16Units) ++ [0, 0]) (text.length * 2 + 2)
    change text.length ≤ 128 at fits
    have units : (utf16Bytes (text.flatMap utf16Units) ++ [0, 0]).length
        = text.length * 2 + 2 := by
      rw [List.length_append, utf16Bytes_length, utf16Units_small small, List.length_map,
        Nat.mul_comm]
      rfl
    refine ⟨?_, ?_, ?_, ?_, text, rfl, ?_⟩
    · change 2 * min 128 text.length ≤ 256
      omega
    · change text.length * 2 ≤ 256
      omega
    · rw [List.length_drop, length, whole, units]
      omega
    · rw [rest, field, units]
      omega
    · rw [rest, utf16Bytes_append]
      rfl

/-- The reply for the name `é`. -/
theorem replyEntry_exact_accented :
    entryLayout 12 = some namesLayout ∧
      ∀ reply ∈ replyEntry utf8Platform (namedDrive [0xC3, 0xA9]) (fun _ => 0) namesLayout
        [0xC3, 0xA9] 0, ReplyExact namesLayout [0xC3, 0xA9] reply :=
  ⟨rfl, (replyEntry_exact_iff utf8Platform_laws (namedDrive [0xC3, 0xA9]) (fun _ => 0)
    (show entryLayout 12 = some namesLayout from rfl) (by decide) 0).mpr
      (Or.inr ⟨[Char.ofNat 0xE9], by decide, by decide,
        List.forall_mem_singleton.mpr (by decide)⟩)⟩

/-- For a name of 129 letters, 258 bytes are read of the buffer, which has 256. -/
theorem replyEntry_overreads :
    ¬ ∀ reply ∈ replyEntry utf8Platform (namedDrive (List.replicate 129 0x61)) (fun _ => 0)
        namesLayout (List.replicate 129 0x61) 0,
      ReplyExact namesLayout (List.replicate 129 0x61) reply := by
  intro exact
  have read := (exact _ rfl).read
  have count : utf8Platform.utf8Strlen (List.replicate 129 0x61) = 129 := by decide +kernel
  change utf8Platform.utf8Strlen (List.replicate 129 0x61) * 2 ≤ 256 at read
  rw [count] at read
  omega

end GuacNebula.Rdp
