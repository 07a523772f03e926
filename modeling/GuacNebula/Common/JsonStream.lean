import GuacNebula.Common.Json
import GuacNebula.Lib.CInt
import GuacNebula.Lib.Run
import Mathlib.Data.List.TakeDrop

/-! # JSON streams with C integers

The length of a piece of a string, and the number of properties written, are of type `int` in the
source. The writers with these types are compared here with the text that the calls stand for: it
is what has been sent, and what is left in the buffer, as long as no piece of a string between two
escaped characters is too long for its length, and no property is mistaken for the first one.
-/

namespace GuacNebula.Common

open CInt Run

/-! ## The writers -/

/-- The part of some data that its length, converted to `int`, covers. -/
def covered (data : List UInt8) : List UInt8 := data.take (toInt data.length).toNat

/-- `guac_common_json_write` with the length of the data as its argument. -/
def jsonWriteInt (data : List UInt8) (state : JsonState) : JsonWrite :=
  jsonWrite (covered data) state

/-- The scan of `guac_common_json_write_string`, `segment` being the bytes from `str` up to
`current`. -/
def writeSegmentsInt (written : JsonWrite) (segment : List UInt8) : List UInt8 → JsonWrite
  | [] => if segment ≠ [] then written.andThen (jsonWriteInt segment) else written
  | current :: rest =>
      if current = quote ∨ current = escapeChar then
        let written := if segment ≠ [] then written.andThen (jsonWriteInt segment) else written
        writeSegmentsInt (written.andThen (jsonWrite [escapeChar])) [current] rest
      else writeSegmentsInt written (segment ++ [current]) rest

/-- `guac_common_json_write_string`. -/
def jsonWriteStringInt (str : List UInt8) (state : JsonState) : JsonWrite :=
  (writeSegmentsInt (jsonWrite [quote] state) [] str).andThen (jsonWrite [quote])

/-- The writes of `guac_common_json_write_property`. -/
def jsonWritePairInt (name value : List UInt8) (state : JsonState) : JsonWrite :=
  let separated :=
    if state.propertiesWritten ≠ 0 then jsonWrite [comma] state else ⟨state, [], false⟩
  ((separated.andThen (jsonWriteStringInt name)).andThen (jsonWrite [pairColon])).andThen
    (jsonWriteStringInt value)

/-- `guac_common_json_write_property`: the counter is the bit pattern of an `int`. -/
def jsonWritePropertyInt (name value : List UInt8) (state : JsonState) : JsonWrite :=
  let written := jsonWritePairInt name value state
  { written with
    state := { written.state with
      propertiesWritten := (written.state.propertiesWritten + 1) % 4294967296 } }

/-! ## Streams -/

/-- A call on a stream. -/
inductive JsonCall where
  | beginObject
  | property (name value : List UInt8)
  | endObject
  | flush
  deriving DecidableEq, Repr

/-- The state of a stream, and the blobs sent since the object was begun. -/
structure JsonStream where
  state : JsonState
  sent : List (List UInt8)
  deriving DecidableEq

/-- A stream after an object has been begun. -/
def JsonStream.begun : JsonStream where
  state := jsonBeginObject
  sent := []

/-- A stream after a writer has been called on it. -/
def JsonStream.write (stream : JsonStream) (writer : JsonState → JsonWrite) : JsonStream where
  state := (writer stream.state).state
  sent := stream.sent ++ (writer stream.state).blobs

/-- The effect of a call. -/
def jsonStep (stream : JsonStream) : JsonCall → JsonStream
  | .beginObject => .begun
  | .property name value => stream.write (jsonWritePropertyInt name value)
  | .endObject => stream.write jsonEndObject
  | .flush =>
      { state := (jsonFlush stream.state).1, sent := stream.sent ++ (jsonFlush stream.state).2 }

/-- The text of the object that the calls since the last beginning stand for, and the number of its
properties. -/
structure JsonText where
  text : List UInt8
  properties : Nat
  deriving DecidableEq

/-- The text of an object that has just been begun. -/
def JsonText.begun : JsonText where
  text := [openBrace]
  properties := 0

/-- What a call adds to the text. -/
def renderCall (rendered : JsonText) : JsonCall → JsonText
  | .beginObject => .begun
  | .property name value =>
      { text := rendered.text ++ propertyText rendered.properties name value
        properties := rendered.properties + 1 }
  | .endObject => { rendered with text := rendered.text ++ [closeBrace] }
  | .flush => rendered

/-- A stream and the text beside it. -/
def renderedStep (pair : JsonStream × JsonText) (call : JsonCall) : JsonStream × JsonText :=
  (jsonStep pair.1 call, renderCall pair.2 call)

/-- The writer tells whether it has sent a blob. -/
def Reports (result : JsonWrite) : Prop := result.blobWritten = true ↔ result.blobs ≠ []

/-- What was sent and what is in the buffer is the text, the buffer does not overflow, and whatever
is written next, the writers tell whether they send a blob. -/
structure Streams (stream : JsonStream) (rendered : JsonText) : Prop where
  text : stream.sent.flatten ++ stream.state.buffer = rendered.text
  bounded : stream.state.buffer.length ≤ jsonCapacity
  writes : ∀ data, Reports (jsonWriteInt data stream.state)
  properties : ∀ name value, Reports (jsonWritePropertyInt name value stream.state)

/-- The pieces that a string is written in: a quote or a backslash starts a new one. -/
def segments (segment : List UInt8) : List UInt8 → List (List UInt8)
  | [] => [segment]
  | current :: rest =>
      if current = quote ∨ current = escapeChar then segment :: segments [current] rest
      else segments (segment ++ [current]) rest

/-- The length of every piece of a string is an `int`. -/
def ShortSegments (str : List UInt8) : Prop :=
  ∀ segment ∈ segments [] str, segment.length < 2147483648

/-- The condition under which a property is written as it is: its strings have no overlong pieces,
and a first property is told from a later one. -/
def PropertyGuard (pair : JsonStream × JsonText) : JsonCall → Prop
  | .property name value =>
      (pair.2.properties % 4294967296 = 0 → pair.2.properties = 0)
        ∧ ShortSegments name ∧ ShortSegments value
  | _ => True

/-! ## The text that is written -/

theorem append_eq_append_iff_of_le {first first' second second' : List UInt8}
    (left : first.length ≤ first'.length) (right : second.length ≤ second'.length) :
    first ++ second = first' ++ second' ↔ first = first' ∧ second = second' := by
  constructor
  · intro same
    have lengths := congrArg List.length same
    rw [List.length_append, List.length_append] at lengths
    exact List.append_inj same (by omega)
  · rintro ⟨rfl, rfl⟩
    rfl

theorem covered_length_le (data : List UInt8) : (covered data).length ≤ data.length := by
  rw [covered, List.length_take]
  exact Nat.min_le_right ..

theorem covered_eq_iff (data : List UInt8) : covered data = data ↔ data.length < 2147483648 := by
  rw [covered, List.take_eq_self_iff]
  unfold toInt
  omega

/-- The text that the scan of a string writes. -/
def segmentsText (segment : List UInt8) : List UInt8 → List UInt8
  | [] => covered segment
  | current :: rest =>
      if current = quote ∨ current = escapeChar then
        covered segment ++ escapeChar :: segmentsText [current] rest
      else segmentsText (segment ++ [current]) rest

/-- The scan writes no more than the escaped string, and precisely that if all lengths are right. -/
theorem segmentsText_spec (segment str : List UInt8) :
    (segmentsText segment str).length ≤ (segment ++ escaped str).length
      ∧ (segmentsText segment str = segment ++ escaped str
        ↔ ∀ piece ∈ segments segment str, piece.length < 2147483648) := by
  induction str generalizing segment with
  | nil =>
      rw [escaped, List.flatMap_nil, List.append_nil]
      refine ⟨covered_length_le segment, (covered_eq_iff segment).trans ?_⟩
      rw [segments, List.forall_mem_singleton]
  | cons current rest ih =>
      by_cases special : current = quote ∨ current = escapeChar
      · obtain ⟨shorter, exact⟩ := ih [current]
        have text : segment ++ escaped (current :: rest)
            = segment ++ escapeChar :: ([current] ++ escaped rest) := by
          simp only [escaped, List.flatMap_cons, special, ↓reduceIte, List.cons_append,
            List.nil_append]
        simp only [segmentsText, segments, special, ↓reduceIte, text]
        have tail : (escapeChar :: segmentsText [current] rest).length
            ≤ (escapeChar :: ([current] ++ escaped rest)).length := Nat.succ_le_succ shorter
        constructor
        · rw [List.length_append, List.length_append]
          exact Nat.add_le_add (covered_length_le segment) tail
        · rw [append_eq_append_iff_of_le (covered_length_le segment) tail, covered_eq_iff,
            List.cons_inj_right, exact, List.forall_mem_cons]
      · have text : segment ++ escaped (current :: rest)
            = segment ++ [current] ++ escaped rest := by
          simp only [escaped, List.flatMap_cons, special, ↓reduceIte, List.append_assoc]
        simp only [segmentsText, segments, special, ↓reduceIte, text]
        exact ih (segment ++ [current])

/-- The text that is written for a string. -/
def stringText (str : List UInt8) : List UInt8 := quote :: segmentsText [] str ++ [quote]

theorem stringText_spec (str : List UInt8) :
    (stringText str).length ≤ (renderString str).length
      ∧ (stringText str = renderString str ↔ ShortSegments str) := by
  obtain ⟨shorter, exact⟩ := segmentsText_spec [] str
  rw [List.nil_append] at shorter exact
  constructor
  · rw [stringText, renderString, List.length_append, List.length_append]
    exact Nat.add_le_add_right (Nat.succ_le_succ shorter) _
  · rw [stringText, renderString, List.append_left_inj, List.cons_inj_right]
    exact exact

/-- The text that is written for a property by a stream whose counter has some value. -/
def pairText (counter : Nat) (name value : List UInt8) : List UInt8 :=
  (if counter ≠ 0 then [comma] else []) ++ (stringText name ++ pairColon :: stringText value)

theorem pairText_eq_iff (properties : Nat) (name value : List UInt8) :
    pairText (properties % 4294967296) name value = propertyText properties name value
      ↔ (properties % 4294967296 = 0 → properties = 0) ∧ ShortSegments name
        ∧ ShortSegments value := by
  obtain ⟨nameShorter, nameExact⟩ := stringText_spec name
  obtain ⟨valueShorter, valueExact⟩ := stringText_spec value
  have valueTail : (pairColon :: stringText value).length
      ≤ (pairColon :: renderString value).length := Nat.succ_le_succ valueShorter
  have tail : (stringText name ++ pairColon :: stringText value).length
      ≤ (renderString name ++ pairColon :: renderString value).length := by
    rw [List.length_append, List.length_append]
    exact Nat.add_le_add nameShorter valueTail
  have comma : (if properties % 4294967296 ≠ 0 then [Common.comma] else []).length
      ≤ (if properties ≠ 0 then [Common.comma] else []).length := by
    split_ifs <;> simp only [List.length_cons, List.length_nil] <;> omega
  have separated : (if properties % 4294967296 ≠ 0 then [Common.comma] else [])
      = (if properties ≠ 0 then [Common.comma] else [])
      ↔ (properties % 4294967296 = 0 → properties = 0) := by
    split_ifs <;> simp only [true_iff, false_iff] <;> omega
  rw [pairText, propertyText, renderProperty, append_eq_append_iff_of_le comma tail, separated,
    append_eq_append_iff_of_le nameShorter valueTail, List.cons_inj_right, nameExact, valueExact]

/-! ## What the writers do -/

section Writers

variable {state : JsonState} {data : List UInt8}

theorem Writes.segmentInt {first : JsonWrite} (left : Writes state data first)
    (segment : List UInt8) :
    Writes state (data ++ covered segment)
      (if segment ≠ [] then first.andThen (jsonWriteInt segment) else first) := by
  split
  · exact left.write (covered segment)
  · rename_i empty
    rw [not_not.mp empty, covered, List.take_nil, List.append_nil]
    exact left

theorem writeSegmentsInt_writes {first : JsonWrite} (left : Writes state data first)
    (segment rest : List UInt8) :
    Writes state (data ++ segmentsText segment rest) (writeSegmentsInt first segment rest) := by
  induction rest generalizing first data segment with
  | nil => exact left.segmentInt segment
  | cons current rest ih =>
      by_cases special : current = quote ∨ current = escapeChar
      · have written := ih ((left.segmentInt segment).write [escapeChar]) [current]
        simp only [segmentsText, writeSegmentsInt, special, ↓reduceIte]
        simpa only [List.append_assoc, List.singleton_append] using written
      · simp only [segmentsText, writeSegmentsInt, special, ↓reduceIte]
        exact ih left (segment ++ [current])

theorem jsonWriteStringInt_writes (bounded : state.buffer.length ≤ jsonCapacity)
    (str : List UInt8) : Writes state (stringText str) (jsonWriteStringInt str state) :=
  (writeSegmentsInt_writes (jsonWrite_writes bounded [quote]) [] str).write [quote]

theorem jsonWritePairInt_writes (bounded : state.buffer.length ≤ jsonCapacity)
    (name value : List UInt8) :
    Writes state (pairText state.propertiesWritten name value)
      (jsonWritePairInt name value state) := by
  have separated : Writes state (if state.propertiesWritten ≠ 0 then [comma] else [])
      (if state.propertiesWritten ≠ 0 then jsonWrite [comma] state else ⟨state, [], false⟩) := by
    split
    · exact jsonWrite_writes bounded [comma]
    · exact .nothing bounded
  have named := separated.andThen (jsonWriteStringInt_writes separated.bounded name)
  have paired := named.write [pairColon]
  have valued := paired.andThen (jsonWriteStringInt_writes paired.bounded value)
  simp only [List.append_assoc, List.singleton_append] at valued
  exact valued

/-- A writer reports a blob exactly if it sends one: what does not fit into the buffer is sent. -/
theorem Writes.reports {result : JsonWrite} (writes : Writes state data result) :
    Reports result := by
  constructor
  · intro written none
    have overflow := writes.overflow.mp written
    have text := congrArg List.length writes.text
    rw [none, List.flatten_nil, List.nil_append, List.length_append] at text
    have bounded := writes.bounded
    omega
  · intro some
    by_contra quiet
    exact some (writes.buffered (Bool.eq_false_iff.mpr quiet))

end Writers

/-! ## Runs -/

section Runs

variable {stream : JsonStream} {rendered : JsonText}

/-- The right text in a buffer that does not overflow is all that the writers rely on. -/
theorem Streams.of_text (text : stream.sent.flatten ++ stream.state.buffer = rendered.text)
    (bounded : stream.state.buffer.length ≤ jsonCapacity) : Streams stream rendered where
  text := text
  bounded := bounded
  writes data := (jsonWrite_writes bounded (covered data)).reports
  properties name value := (jsonWritePairInt_writes bounded name value).reports

theorem begun_streams : Streams .begun .begun := .of_text rfl jsonBeginObject_bounded

/-- A writer adds its text to what was sent and buffered. -/
theorem Streams.write_text (streams : Streams stream rendered) {result : JsonWrite}
    {data : List UInt8} (writes : Writes stream.state data result) :
    (stream.sent ++ result.blobs).flatten ++ result.state.buffer = rendered.text ++ data := by
  rw [List.flatten_append, List.append_assoc, writes.text, ← List.append_assoc, streams.text]

/-- A property is written as it is exactly under its condition. -/
theorem Streams.property_iff (streams : Streams stream rendered)
    (counter : stream.state.propertiesWritten = rendered.properties % 4294967296)
    (name value : List UInt8) :
    Streams (jsonStep stream (.property name value)) (renderCall rendered (.property name value))
      ↔ PropertyGuard (stream, rendered) (.property name value) := by
  have writes := jsonWritePairInt_writes streams.bounded name value
  rw [counter] at writes
  have written := streams.write_text writes
  have text : (jsonStep stream (.property name value)).sent.flatten
      ++ (jsonStep stream (.property name value)).state.buffer
      = rendered.text ++ pairText (rendered.properties % 4294967296) name value := written
  refine Iff.trans ?_ (pairText_eq_iff rendered.properties name value)
  constructor
  · intro next
    exact List.append_cancel_left (text.symm.trans next.text)
  · intro same
    refine .of_text (text.trans ?_) writes.bounded
    rw [same]
    rfl

theorem Streams.step_iff (streams : Streams stream rendered)
    (counter : stream.state.propertiesWritten = rendered.properties % 4294967296)
    (call : JsonCall) :
    Streams (jsonStep stream call) (renderCall rendered call)
      ↔ PropertyGuard (stream, rendered) call := by
  cases call with
  | beginObject => exact iff_of_true begun_streams trivial
  | property name value => exact streams.property_iff counter name value
  | endObject =>
      have writes := jsonWrite_writes streams.bounded [closeBrace]
      exact iff_of_true (.of_text (streams.write_text writes) writes.bounded) trivial
  | flush =>
      refine iff_of_true (.of_text ?_ ?_) trivial
      · change (stream.sent ++ (jsonFlush stream.state).2).flatten
          ++ (jsonFlush stream.state).1.buffer = rendered.text
        rw [List.flatten_append, jsonFlush_text, jsonFlush_buffer, List.append_nil, streams.text]
      · change (jsonFlush stream.state).1.buffer.length ≤ jsonCapacity
        rw [jsonFlush_buffer]
        exact Nat.zero_le _

/-- The counter of properties counts them modulo the range of `int`. -/
def Counts (pair : JsonStream × JsonText) : Prop :=
  pair.1.state.propertiesWritten = pair.2.properties % 4294967296

theorem jsonStep_counter (streams : Streams stream rendered)
    (counter : stream.state.propertiesWritten = rendered.properties % 4294967296)
    (call : JsonCall) :
    (jsonStep stream call).state.propertiesWritten
      = (renderCall rendered call).properties % 4294967296 := by
  cases call with
  | beginObject => rfl
  | property name value =>
      have writes := jsonWritePairInt_writes streams.bounded name value
      change ((jsonWritePairInt name value stream.state).state.propertiesWritten + 1) % 4294967296
        = (rendered.properties + 1) % 4294967296
      rw [writes.properties, counter, Nat.mod_add_mod]
  | endObject => exact (jsonWrite_writes streams.bounded [closeBrace]).properties.trans counter
  | flush => exact (jsonFlush_propertiesWritten stream.state).trans counter

end Runs

/-- The pieces of a string without special characters. -/
theorem segments_replicate (segment : List UInt8) (plain : UInt8)
    (ordinary : ¬(plain = quote ∨ plain = escapeChar)) (count : Nat) :
    segments segment (List.replicate count plain) = [segment ++ List.replicate count plain] := by
  induction count generalizing segment with
  | zero => rw [List.replicate_zero, segments, List.append_nil]
  | succ count ih =>
      rw [List.replicate_succ, segments, if_neg ordinary, ih, List.append_assoc,
        List.singleton_append]

end GuacNebula.Common
