import Mathlib.Data.List.Basic

/-! # Streamed JSON objects

Directory listings are sent as a JSON object that is built in a buffer of fixed size and sent
in blobs as the buffer fills. The writers report whether they sent a blob, which is how their
callers pace themselves. `Writes` is what every one of them does: the blobs sent and the new
buffer are the old buffer followed by the data, and a blob is reported precisely if the data
does not fit into the buffer.
-/

namespace GuacNebula.Common

/-- The size of the buffer of `guac_common_json_state`. -/
def jsonCapacity : Nat := 4096

def quote : UInt8 := 0x22
def escapeChar : UInt8 := 0x5C
def comma : UInt8 := 0x2C
def pairColon : UInt8 := 0x3A
def openBrace : UInt8 := 0x7B
def closeBrace : UInt8 := 0x7D

/-- `guac_common_json_state`, the used part of its buffer being a list. -/
structure JsonState where
  buffer : List UInt8
  propertiesWritten : Nat
  deriving DecidableEq

/-- The outcome of a writer: the state it leaves, the blobs it sent, and `blob_written`. -/
structure JsonWrite where
  state : JsonState
  blobs : List (List UInt8)
  blobWritten : Bool
  deriving DecidableEq

/-- `guac_common_json_flush`. -/
def jsonFlush (state : JsonState) : JsonState × List (List UInt8) :=
  if state.buffer.length > 0 then ({ state with buffer := [] }, [state.buffer]) else (state, [])

/-- The loop of `guac_common_json_write`, with the bytes still to be written as its fuel. -/
def jsonWriteLoop : Nat → JsonState → List UInt8 → JsonWrite
  | 0, state, _ => ⟨state, [], false⟩
  | fuel + 1, state, data =>
      if data.length = 0 then ⟨state, [], false⟩
      else
        let blobLength := if data.length > jsonCapacity then jsonCapacity else data.length
        let full : Bool := state.buffer.length + blobLength > jsonCapacity
        let (state, blobs) := if full then jsonFlush state else (state, [])
        let rest := jsonWriteLoop fuel
          { state with buffer := state.buffer ++ data.take blobLength } (data.drop blobLength)
        ⟨rest.state, blobs ++ rest.blobs, full || rest.blobWritten⟩

/-- `guac_common_json_write`. -/
def jsonWrite (data : List UInt8) (state : JsonState) : JsonWrite :=
  jsonWriteLoop data.length state data

/-- The idiom `blob_written |= …` of the writers. -/
def JsonWrite.andThen (first : JsonWrite) (write : JsonState → JsonWrite) : JsonWrite :=
  let second := write first.state
  ⟨second.state, first.blobs ++ second.blobs, first.blobWritten || second.blobWritten⟩

/-- The scan of `guac_common_json_write_string`, `segment` being the bytes from `str` up to
`current`. An escaped character starts the next segment. -/
def writeSegments (written : JsonWrite) (segment : List UInt8) : List UInt8 → JsonWrite
  | [] => if segment ≠ [] then written.andThen (jsonWrite segment) else written
  | current :: rest =>
      if current = quote ∨ current = escapeChar then
        let written := if segment ≠ [] then written.andThen (jsonWrite segment) else written
        writeSegments (written.andThen (jsonWrite [escapeChar])) [current] rest
      else writeSegments written (segment ++ [current]) rest

/-- `guac_common_json_write_string`. -/
def jsonWriteString (str : List UInt8) (state : JsonState) : JsonWrite :=
  (writeSegments (jsonWrite [quote] state) [] str).andThen (jsonWrite [quote])

/-- The writes of `guac_common_json_write_property`. -/
def jsonWritePair (name value : List UInt8) (state : JsonState) : JsonWrite :=
  let separated :=
    if state.propertiesWritten ≠ 0 then jsonWrite [comma] state else ⟨state, [], false⟩
  ((separated.andThen (jsonWriteString name)).andThen (jsonWrite [pairColon])).andThen
    (jsonWriteString value)

/-- `guac_common_json_write_property`. -/
def jsonWriteProperty (name value : List UInt8) (state : JsonState) : JsonWrite :=
  let written := jsonWritePair name value state
  { written with
    state := { written.state with propertiesWritten := written.state.propertiesWritten + 1 } }

/-- `guac_common_json_begin_object`. Its only write never sends a blob. -/
def jsonBeginObject : JsonState :=
  (jsonWrite [openBrace] { buffer := [], propertiesWritten := 0 }).state

/-- `guac_common_json_end_object`. -/
def jsonEndObject (state : JsonState) : JsonWrite := jsonWrite [closeBrace] state

/-! ## The text of an object -/

/-- A string with quotes and backslashes escaped. -/
def escaped (str : List UInt8) : List UInt8 :=
  str.flatMap fun c => if c = quote ∨ c = escapeChar then [escapeChar, c] else [c]

/-- A JSON string. -/
def renderString (str : List UInt8) : List UInt8 := quote :: escaped str ++ [quote]

/-- A name and its value. -/
def renderProperty (name value : List UInt8) : List UInt8 :=
  renderString name ++ pairColon :: renderString value

/-- The text a property adds to an object that already has `written` of them. -/
def propertyText (written : Nat) (name value : List UInt8) : List UInt8 :=
  (if written ≠ 0 then [comma] else []) ++ renderProperty name value

/-- The properties of an object from the one with index `written` on. -/
def renderProperties : Nat → List (List UInt8 × List UInt8) → List UInt8
  | _, [] => []
  | written, (name, value) :: rest =>
      propertyText written name value ++ renderProperties (written + 1) rest

/-- The object with the given properties. -/
def renderObject (properties : List (List UInt8 × List UInt8)) : List UInt8 :=
  openBrace :: renderProperties 0 properties ++ [closeBrace]

/-! ## What the writers do -/

/-- A writer that appends `data` and reports whether it sent a blob. -/
structure Writes (state : JsonState) (data : List UInt8) (result : JsonWrite) : Prop where
  text : result.blobs.flatten ++ result.state.buffer = state.buffer ++ data
  bounded : result.state.buffer.length ≤ jsonCapacity
  properties : result.state.propertiesWritten = state.propertiesWritten
  overflow : result.blobWritten = true ↔ jsonCapacity < state.buffer.length + data.length
  buffered : result.blobWritten = false → result.blobs = []

variable {state : JsonState} {data more : List UInt8}

theorem Writes.buffer {result : JsonWrite} (writes : Writes state data result)
    (none : result.blobWritten = false) : result.state.buffer = state.buffer ++ data := by
  rw [← writes.text, writes.buffered none, List.flatten_nil, List.nil_append]

theorem Writes.nothing (bounded : state.buffer.length ≤ jsonCapacity) :
    Writes state [] ⟨state, [], false⟩ where
  text := (List.append_nil _).symm
  bounded := bounded
  properties := rfl
  overflow := by simp [bounded]
  buffered _ := rfl

/-- Writers in sequence write the data in sequence. -/
theorem Writes.andThen {first : JsonWrite} {write : JsonState → JsonWrite}
    (left : Writes state data first) (right : Writes first.state more (write first.state)) :
    Writes state (data ++ more) (first.andThen write) where
  text := by
    rw [JsonWrite.andThen, List.flatten_append, List.append_assoc, right.text,
      ← List.append_assoc, left.text, List.append_assoc]
  bounded := right.bounded
  properties := right.properties.trans left.properties
  overflow := by
    rw [JsonWrite.andThen, Bool.or_eq_true, left.overflow, right.overflow, List.length_append]
    cases sent : first.blobWritten with
    | true =>
        have := left.overflow.mp sent
        omega
    | false =>
        rw [left.buffer sent, List.length_append]
        omega
  buffered none := by
    obtain ⟨leftNone, rightNone⟩ := Bool.or_eq_false_iff.mp none
    rw [JsonWrite.andThen, left.buffered leftNone, right.buffered rightNone, List.append_nil]

theorem jsonFlush_text (state : JsonState) : (jsonFlush state).2.flatten = state.buffer := by
  unfold jsonFlush
  split
  · exact List.append_nil _
  · rename_i empty
    exact (List.eq_nil_of_length_eq_zero (Nat.eq_zero_of_not_pos empty)).symm

theorem jsonFlush_buffer (state : JsonState) : (jsonFlush state).1.buffer = [] := by
  unfold jsonFlush
  split
  · rfl
  · rename_i empty
    exact List.eq_nil_of_length_eq_zero (Nat.eq_zero_of_not_pos empty)

theorem jsonFlush_propertiesWritten (state : JsonState) :
    (jsonFlush state).1.propertiesWritten = state.propertiesWritten := by
  unfold jsonFlush
  split <;> rfl

theorem jsonWriteLoop_writes (fuel : Nat) (state : JsonState) (data : List UInt8)
    (bounded : state.buffer.length ≤ jsonCapacity) (enough : data.length ≤ fuel) :
    Writes state data (jsonWriteLoop fuel state data) := by
  induction fuel generalizing state data with
  | zero =>
      obtain rfl : data = [] := List.eq_nil_of_length_eq_zero (Nat.le_zero.mp enough)
      exact .nothing bounded
  | succ fuel ih =>
      simp only [jsonWriteLoop]
      split
      · rename_i empty
        obtain rfl : data = [] := List.eq_nil_of_length_eq_zero empty
        exact .nothing bounded
      rename_i nonempty
      generalize size : (if data.length > jsonCapacity then jsonCapacity else data.length) =
        blobLength
      have part : 0 < blobLength ∧ blobLength ≤ jsonCapacity ∧ blobLength ≤ data.length := by
        rw [← size]
        unfold jsonCapacity
        split <;> omega
      have shorter : (data.drop blobLength).length ≤ fuel := by
        rw [List.length_drop]
        omega
      by_cases full : state.buffer.length + blobLength > jsonCapacity
      · simp only [full, decide_true, ↓reduceIte, Bool.true_or]
        have rest := ih
          { (jsonFlush state).1 with
            buffer := (jsonFlush state).1.buffer ++ data.take blobLength }
          (data.drop blobLength)
          (by simp only [jsonFlush_buffer, List.nil_append, List.length_take]; omega) shorter
        refine ⟨?_, rest.bounded, rest.properties.trans (jsonFlush_propertiesWritten state),
          iff_of_true rfl (by omega), nofun⟩
        rw [List.flatten_append, List.append_assoc, rest.text, jsonFlush_text]
        simp only [jsonFlush_buffer, List.nil_append, List.take_append_drop]
      · simp only [full, decide_false, Bool.false_eq_true, ↓reduceIte, Bool.false_or,
          List.nil_append]
        have rest := ih { state with buffer := state.buffer ++ data.take blobLength }
          (data.drop blobLength)
          (by simp only [List.length_append, List.length_take]; omega) shorter
        refine ⟨?_, rest.bounded, rest.properties, ?_, rest.buffered⟩
        · rw [rest.text, List.append_assoc, List.take_append_drop]
        · rw [rest.overflow]
          simp only [List.length_append, List.length_take, List.length_drop,
            Nat.min_eq_left part.2.2]
          omega

theorem jsonWrite_writes (bounded : state.buffer.length ≤ jsonCapacity) (data : List UInt8) :
    Writes state data (jsonWrite data state) :=
  jsonWriteLoop_writes data.length state data bounded (Nat.le_refl _)

/-- A writer is followed by a plain write. -/
theorem Writes.write {first : JsonWrite} (left : Writes state data first)
    (more : List UInt8) : Writes state (data ++ more) (first.andThen (jsonWrite more)) :=
  left.andThen (jsonWrite_writes left.bounded more)

theorem Writes.segment {first : JsonWrite} (left : Writes state data first)
    (segment : List UInt8) :
    Writes state (data ++ segment)
      (if segment ≠ [] then first.andThen (jsonWrite segment) else first) := by
  split
  · exact left.write segment
  · rename_i empty
    rw [not_not.mp empty, List.append_nil]
    exact left

/-- The scan writes the segment it was left with, and then the escaped rest. -/
theorem writeSegments_writes {first : JsonWrite} (left : Writes state data first)
    (segment rest : List UInt8) :
    Writes state (data ++ segment ++ escaped rest) (writeSegments first segment rest) := by
  induction rest generalizing first data segment with
  | nil =>
      rw [escaped, List.flatMap_nil, List.append_nil]
      exact left.segment segment
  | cons current rest ih =>
      simp only [writeSegments]
      split
      · rename_i special
        have text : data ++ segment ++ escaped (current :: rest) =
            data ++ segment ++ [escapeChar] ++ [current] ++ escaped rest := by
          simp only [escaped, List.flatMap_cons, special, ↓reduceIte, List.append_assoc,
            List.cons_append, List.nil_append]
        rw [text]
        exact ih ((left.segment segment).write [escapeChar]) [current]
      · rename_i plain
        have text : data ++ segment ++ escaped (current :: rest) =
            data ++ (segment ++ [current]) ++ escaped rest := by
          simp only [escaped, List.flatMap_cons, plain, ↓reduceIte, List.append_assoc]
        rw [text]
        exact ih left (segment ++ [current])

theorem jsonWriteString_writes (bounded : state.buffer.length ≤ jsonCapacity)
    (str : List UInt8) : Writes state (renderString str) (jsonWriteString str state) := by
  have opened := jsonWrite_writes bounded [quote]
  have body := (writeSegments_writes opened [] str).write [quote]
  simpa only [List.append_nil, List.singleton_append, renderString, jsonWriteString] using body

theorem jsonWritePair_writes (bounded : state.buffer.length ≤ jsonCapacity)
    (name value : List UInt8) :
    Writes state (propertyText state.propertiesWritten name value)
      (jsonWritePair name value state) := by
  have separated : Writes state (if state.propertiesWritten ≠ 0 then [comma] else [])
      (if state.propertiesWritten ≠ 0 then jsonWrite [comma] state else ⟨state, [], false⟩) := by
    split
    · exact jsonWrite_writes bounded [comma]
    · exact .nothing bounded
  have named := separated.andThen (jsonWriteString_writes separated.bounded name)
  have paired := named.write [pairColon]
  have valued := paired.andThen (jsonWriteString_writes paired.bounded value)
  simp only [List.append_assoc, List.singleton_append] at valued
  exact valued

/-- Writing a property writes its text. -/
theorem jsonWriteProperty_text (bounded : state.buffer.length ≤ jsonCapacity)
    (name value : List UInt8) :
    (jsonWriteProperty name value state).blobs.flatten ++
        (jsonWriteProperty name value state).state.buffer =
      state.buffer ++ propertyText state.propertiesWritten name value :=
  (jsonWritePair_writes bounded name value).text

theorem jsonWriteProperty_bounded (bounded : state.buffer.length ≤ jsonCapacity)
    (name value : List UInt8) :
    (jsonWriteProperty name value state).state.buffer.length ≤ jsonCapacity :=
  (jsonWritePair_writes bounded name value).bounded

theorem jsonWriteProperty_propertiesWritten (bounded : state.buffer.length ≤ jsonCapacity)
    (name value : List UInt8) :
    (jsonWriteProperty name value state).state.propertiesWritten = state.propertiesWritten + 1 :=
  congrArg (· + 1) (jsonWritePair_writes bounded name value).properties

/-- A property is reported as sent exactly when it does not fit into the buffer. -/
theorem jsonWriteProperty_overflow (bounded : state.buffer.length ≤ jsonCapacity)
    (name value : List UInt8) :
    (jsonWriteProperty name value state).blobWritten = true ↔
      jsonCapacity < state.buffer.length +
        (propertyText state.propertiesWritten name value).length :=
  (jsonWritePair_writes bounded name value).overflow

/-- Ending the object and flushing sends what was buffered and the closing brace. -/
theorem jsonEndObject_flush (bounded : state.buffer.length ≤ jsonCapacity) :
    (jsonEndObject state).blobs.flatten ++ (jsonFlush (jsonEndObject state).state).2.flatten =
      state.buffer ++ [closeBrace] := by
  rw [jsonFlush_text]
  exact (jsonWrite_writes bounded [closeBrace]).text

theorem length_le_escaped (str : List UInt8) : str.length ≤ (escaped str).length := by
  induction str with
  | nil => exact Nat.le_refl 0
  | cons c str ih =>
      rw [escaped, List.flatMap_cons, List.length_append, List.length_cons]
      have one : 1 ≤ (if c = quote ∨ c = escapeChar then [escapeChar, c] else [c]).length := by
        split <;> simp
      have rest : str.length ≤ (str.flatMap fun c =>
          if c = quote ∨ c = escapeChar then [escapeChar, c] else [c]).length := ih
      omega

theorem jsonBeginObject_bounded : jsonBeginObject.buffer.length ≤ jsonCapacity := by decide

end GuacNebula.Common
