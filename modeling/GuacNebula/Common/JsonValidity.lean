import GuacNebula.Common.JsonStream
import GuacNebula.Lib.Rfc8259

/-! # Whether the objects are JSON

An object is written property by property, ended and flushed. Quotes and backslashes are escaped in
its strings, and nothing else. The text that is sent is compared with the grammar of JSON: it is read
as the properties that were written exactly if there were no control characters in them, apart from
strings and numbers of properties beyond the range of `int`.
-/

namespace GuacNebula.Common

open CInt Run

open Rfc8259 (Plain PlainMembers Utf8 objectText parse stringObject)

/-- A C string in UTF-8. -/
structure Utf8String where
  bytes : List UInt8
  terminated : 0 ∉ bytes
  encoded : Utf8 bytes

/-- The bytes of properties. -/
def propertyBytes (properties : List (Utf8String × Utf8String)) :
    List (List UInt8 × List UInt8) :=
  properties.map fun property => (property.1.bytes, property.2.bytes)

/-- The calls that write an object. -/
def objectCalls (properties : List (List UInt8 × List UInt8)) : List JsonCall :=
  properties.map (fun property => .property property.1 property.2) ++ [.endObject, .flush]

/-- The data of all blobs that are sent for an object. -/
def writtenObject (properties : List (List UInt8 × List UInt8)) : List UInt8 :=
  (exec jsonStep .begun (objectCalls properties)).sent.flatten

/-- A string that is not too long has no pieces that are. -/
theorem segments_length_le {segment str piece : List UInt8} (member : piece ∈ segments segment str) :
    piece.length ≤ segment.length + str.length := by
  induction str generalizing segment with
  | nil =>
      rw [segments, List.mem_singleton] at member
      rw [member]
      exact Nat.le_refl _
  | cons current rest ih =>
      rw [segments] at member
      split at member
      · rcases List.mem_cons.mp member with rfl | later
        · exact Nat.le_add_right _ _
        · have bound := ih later
          simp only [List.length_cons, List.length_nil] at bound ⊢
          omega
      · have bound := ih member
        simp only [List.length_append, List.length_cons, List.length_nil] at bound ⊢
        omega

theorem shortSegments_of_length {str : List UInt8} (short : str.length < 2147483648) :
    ShortSegments str := by
  intro piece member
  have bound := segments_length_le member
  rw [List.length_nil] at bound
  omega

/-! ## What is written -/

/-- The text that is written for properties, the first of which is the one with the given index. -/
def writtenProperties : Nat → List (List UInt8 × List UInt8) → List UInt8
  | _, [] => []
  | index, (name, value) :: properties =>
      pairText (index % 4294967296) name value ++ writtenProperties (index + 1) properties

/-- All strings are written whole, and no property but the first is taken for the first. -/
def WithinInt (index : Nat) (properties : List (List UInt8 × List UInt8)) : Prop :=
  (∀ later, index ≤ later → later < index + properties.length →
    later % 4294967296 = 0 → later = 0)
    ∧ ∀ property ∈ properties, ShortSegments property.1 ∧ ShortSegments property.2

theorem pairText_length_le (properties : Nat) (name value : List UInt8) :
    (pairText (properties % 4294967296) name value).length
      ≤ (propertyText properties name value).length := by
  have nameShorter := (stringText_spec name).1
  have valueShorter := (stringText_spec value).1
  have separated : (if properties % 4294967296 ≠ 0 then [comma] else []).length
      ≤ (if properties ≠ 0 then [comma] else []).length := by
    split_ifs <;> simp only [List.length_cons, List.length_nil] <;> omega
  simp only [pairText, propertyText, renderProperty, List.length_append, List.length_cons]
  omega

theorem withinInt_cons {index : Nat} {name value : List UInt8}
    {properties : List (List UInt8 × List UInt8)} :
    WithinInt index ((name, value) :: properties) ↔
      ((index % 4294967296 = 0 → index = 0) ∧ ShortSegments name ∧ ShortSegments value)
        ∧ WithinInt (index + 1) properties := by
  simp only [WithinInt, List.length_cons, List.forall_mem_cons]
  constructor
  · rintro ⟨counted, short, rest⟩
    exact ⟨⟨counted index (Nat.le_refl _) (by omega), short⟩,
      fun later after before => counted later (by omega) (by omega), rest⟩
  · rintro ⟨⟨here, short⟩, counted, rest⟩
    refine ⟨fun later after before => ?_, short, rest⟩
    rcases Nat.eq_or_lt_of_le after with rfl | beyond
    · exact here
    · exact counted later beyond (by omega)

/-- What is written is no longer than the properties, and is the properties if all is within the
range of `int`. -/
theorem writtenProperties_spec (index : Nat) (properties : List (List UInt8 × List UInt8)) :
    (writtenProperties index properties).length ≤ (renderProperties index properties).length
      ∧ (writtenProperties index properties = renderProperties index properties
        ↔ WithinInt index properties) := by
  induction properties generalizing index with
  | nil => exact ⟨Nat.le_refl _, iff_of_true rfl ⟨by simp; omega, by simp⟩⟩
  | cons property properties ih =>
      obtain ⟨name, value⟩ := property
      obtain ⟨shorter, exact⟩ := ih (index + 1)
      have first := pairText_length_le index name value
      constructor
      · simp only [writtenProperties, renderProperties, List.length_append]
        omega
      · rw [writtenProperties, renderProperties, append_eq_append_iff_of_le first shorter,
          pairText_eq_iff, exact, withinInt_cons]

/-- The properties are added to what was sent and buffered. -/
theorem exec_properties {stream : JsonStream} (bounded : stream.state.buffer.length ≤ jsonCapacity)
    {index : Nat} (counter : stream.state.propertiesWritten = index % 4294967296)
    (properties : List (List UInt8 × List UInt8)) :
    let after := exec jsonStep stream
      (properties.map fun property => .property property.1 property.2)
    after.sent.flatten ++ after.state.buffer =
        stream.sent.flatten ++ stream.state.buffer ++ writtenProperties index properties
      ∧ after.state.buffer.length ≤ jsonCapacity := by
  induction properties generalizing stream index with
  | nil => exact ⟨(List.append_nil _).symm, bounded⟩
  | cons property properties ih =>
      obtain ⟨name, value⟩ := property
      have writes := jsonWritePairInt_writes bounded name value
      rw [counter] at writes
      have next : (jsonStep stream (.property name value)).state.propertiesWritten =
          (index + 1) % 4294967296 := by
        change ((jsonWritePairInt name value stream.state).state.propertiesWritten + 1)
          % 4294967296 = (index + 1) % 4294967296
        rw [writes.properties, counter, Nat.mod_add_mod]
      have within : (jsonStep stream (.property name value)).state.buffer.length ≤ jsonCapacity :=
        writes.bounded
      obtain ⟨text, fits⟩ := ih within next
      refine ⟨?_, fits⟩
      rw [List.map_cons, exec_cons, text, writtenProperties]
      have sent : (jsonStep stream (.property name value)).sent.flatten
          ++ (jsonStep stream (.property name value)).state.buffer =
          stream.sent.flatten ++ (stream.state.buffer ++ pairText (index % 4294967296) name value) := by
        rw [← writes.text, ← List.append_assoc]
        exact congrArg (· ++ _) (List.flatten_append ..)
      rw [sent]
      simp only [List.append_assoc]

/-- Ending and flushing sends what is in the buffer and a closing brace. -/
theorem exec_end {stream : JsonStream} (bounded : stream.state.buffer.length ≤ jsonCapacity) :
    (exec jsonStep stream [.endObject, .flush]).sent.flatten =
      stream.sent.flatten ++ stream.state.buffer ++ [closeBrace] := by
  have ended := jsonEndObject_flush bounded
  change (stream.sent ++ (jsonEndObject stream.state).blobs
    ++ (jsonFlush (jsonEndObject stream.state).state).2).flatten = _
  rw [List.flatten_append, List.flatten_append, List.append_assoc, ended, List.append_assoc]

/-- An object is sent as an opening brace, its properties and a closing brace. -/
theorem writtenObject_eq (properties : List (List UInt8 × List UInt8)) :
    writtenObject properties = openBrace :: writtenProperties 0 properties ++ [closeBrace] := by
  have zero : JsonStream.begun.state.propertiesWritten = 0 % 4294967296 := rfl
  have start : JsonStream.begun.state.buffer.length ≤ jsonCapacity := jsonBeginObject_bounded
  obtain ⟨text, fits⟩ := exec_properties start zero properties
  rw [writtenObject, objectCalls, exec_append, exec_end fits, text]
  rfl

/-! ## The text of an object -/

theorem renderProperty_eq (name value : List UInt8) :
    renderProperty name value =
      quote :: Rfc8259.closedText name ++ pairColon :: quote :: Rfc8259.closedText value := rfl

/-- Properties up to the closing brace are members, after a comma if they are not the first. -/
theorem renderProperties_eq (index : Nat) (property : List UInt8 × List UInt8)
    (properties : List (List UInt8 × List UInt8)) :
    renderProperties index (property :: properties) ++ [closeBrace] =
      (if index ≠ 0 then [comma] else []) ++ Rfc8259.membersText (property :: properties) := by
  induction properties generalizing index property with
  | nil =>
      rw [renderProperties, renderProperties, propertyText, renderProperty_eq, List.append_nil,
        List.append_assoc]
      rfl
  | cons next properties ih =>
      rw [renderProperties, propertyText, renderProperty_eq, List.append_assoc, ih (index + 1) next,
        List.append_assoc]
      rfl

theorem renderObject_eq (properties : List (List UInt8 × List UInt8)) :
    renderObject properties = objectText properties := by
  cases properties with
  | nil => rfl
  | cons property properties =>
      rw [renderObject, List.cons_append, renderProperties_eq]
      rfl

/-- What is sent is no longer than the object, and is the object if all is within the range of
`int`. -/
theorem writtenObject_spec (properties : List (List UInt8 × List UInt8)) :
    (writtenObject properties).length ≤ (objectText properties).length
      ∧ (writtenObject properties = objectText properties ↔ WithinInt 0 properties) := by
  obtain ⟨shorter, exact⟩ := writtenProperties_spec 0 properties
  rw [← renderObject_eq, writtenObject_eq, renderObject]
  constructor
  · simp only [List.length_append, List.length_cons]
    omega
  · rw [List.append_left_inj, List.cons_inj_right, exact]

/-- No property but the first is taken for the first, if there are not too many of them. -/
theorem withinInt_zero_iff {properties : List (List UInt8 × List UInt8)} :
    WithinInt 0 properties ↔
      (∀ property ∈ properties, ShortSegments property.1 ∧ ShortSegments property.2)
        ∧ properties.length ≤ 4294967296 := by
  rw [WithinInt, and_comm]
  refine and_congr_right fun _ => ⟨fun counted => ?_, fun few later _ before wrapped => by omega⟩
  by_contra many
  have wrapped := counted 4294967296 (Nat.zero_le _) (by omega) (by decide)
  exact absurd wrapped (by decide)

/-- What is sent is read as the properties exactly if it is their text, in UTF-8, and has no control
characters in it. -/
theorem writtenObject_parses_iff (properties : List (List UInt8 × List UInt8)) :
    parse (writtenObject properties) = some (stringObject properties) ↔
      WithinInt 0 properties ∧ (∀ property ∈ properties, Utf8 property.1 ∧ Utf8 property.2)
        ∧ PlainMembers properties := by
  obtain ⟨shorter, exact⟩ := writtenObject_spec properties
  rw [Rfc8259.parse_eq_stringObject_iff shorter, exact]

/-- **The text that is sent for an object is read as the properties that were written exactly if
their strings have no control characters and no overlong pieces, and there are no more of them than
an `int` can count.** -/
theorem object_parses_iff (properties : List (Utf8String × Utf8String)) :
    parse (writtenObject (propertyBytes properties)) = some (stringObject (propertyBytes properties))
      ↔ (∀ property ∈ properties, Plain property.1.bytes ∧ Plain property.2.bytes)
        ∧ (∀ property ∈ properties, ShortSegments property.1.bytes ∧ ShortSegments property.2.bytes)
        ∧ properties.length ≤ 4294967296 := by
  have valid : ∀ property ∈ propertyBytes properties, Utf8 property.1 ∧ Utf8 property.2 :=
    List.forall_mem_map.mpr fun property _ => ⟨property.1.encoded, property.2.encoded⟩
  rw [writtenObject_parses_iff, withinInt_zero_iff, and_comm, and_iff_right valid, PlainMembers]
  simp only [propertyBytes, List.forall_mem_map, List.length_map]

/-- The string that is a line break. -/
def lineBreak : Utf8String where
  bytes := [0x0A]
  terminated := by decide
  encoded := Rfc8259.utf8_ascii (by decide)

/-- A file whose name is a line break. -/
theorem object_with_line_break :
    parse (writtenObject (propertyBytes [(lineBreak, lineBreak)])) ≠
      some (stringObject (propertyBytes [(lineBreak, lineBreak)])) := by
  rw [ne_eq, writtenObject_parses_iff]
  exact fun both => absurd (both.2.2 _ List.mem_cons_self).1 (by decide)

end GuacNebula.Common
