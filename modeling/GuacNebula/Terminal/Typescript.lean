import GuacNebula.Lib.Run
import GuacNebula.Terminal.State
import Mathlib.Data.Nat.Digits.Defs

/-! # Typescripts

A typescript is a recording of the bytes written to a terminal: a data file, which holds the bytes
between a header and a footer, and a timing file, which holds a line for each part of them, with
the time before it and its size. The bytes are buffered, and each flush of the buffer writes to
both files. Files that exist already are written from their start and not truncated.
-/

namespace GuacNebula.Terminal

open CInt Run

/-! ## Files -/

/-- A file that is open for writing. -/
structure DataFile where
  content : List UInt8
  offset : Nat
  deriving DecidableEq, Repr

/-- `open` with `O_CREAT | O_WRONLY` on a file with some content. -/
def DataFile.openExisting (content : List UInt8) : DataFile := { content, offset := 0 }

/-- `guac_common_write`, for a file that takes all the bytes: those in its place are overwritten. -/
def DataFile.write (file : DataFile) (bytes : List UInt8) : DataFile where
  content := file.content.take file.offset ++ bytes ++ file.content.drop (file.offset + bytes.length)
  offset := file.offset + bytes.length

/-! ## Timing lines -/

/-- `GUAC_TERMINAL_TYPESCRIPT_HEADER`. -/
def typescriptHeader : List UInt8 := bytesOf "[BEGIN TYPESCRIPT]\n"

/-- `GUAC_TERMINAL_TYPESCRIPT_FOOTER`. -/
def typescriptFooter : List UInt8 := bytesOf "\n[END TYPESCRIPT]\n"

/-- `GUAC_TERMINAL_TYPESCRIPT_MAX_DELAY`. -/
def typescriptMaxDelay : Int := 86400000

/-- A number in decimal. -/
def decimal (number : Nat) : List UInt8 :=
  (Nat.toDigits 10 number).map fun digit => UInt8.ofNat digit.toNat

/-- A number below 1000 with all of its three digits. -/
def threeDigits (number : Nat) : List UInt8 :=
  [number / 100, number / 10 % 10, number % 10].map fun digit => UInt8.ofNat (0x30 + digit)

/-- What the format `%0.6f %i\n` makes of a number of milliseconds in seconds, and a length. -/
def timestampLine (elapsed : Int) (length : Nat) : List UInt8 :=
  (if elapsed < 0 then [0x2D] else []) ++ decimal (elapsed.natAbs / 1000) ++ [0x2E]
    ++ threeDigits (elapsed.natAbs % 1000) ++ [0x30, 0x30, 0x30, 0x20] ++ decimal length ++ [0x0A]

/-- What is written of a text that `snprintf` has stored in a buffer of some size: a text that does
not fit is cut off and terminated. -/
def stored (size : Nat) (text : List UInt8) : List UInt8 :=
  if text.length < size then text else text.take (size - 1) ++ [0]

/-! ## The typescript -/

/-- A part of the recording: the delay before it, in milliseconds, and its bytes. -/
structure Flush where
  elapsed : Int
  bytes : List UInt8
  deriving DecidableEq, Repr

/-- `guac_terminal_typescript`. `flushes` is not a field of the source: it records what has been
flushed. -/
structure Typescript where
  buffer : List UInt8
  data : DataFile
  timing : DataFile
  lastFlush : Int
  flushes : List Flush
  deriving DecidableEq, Repr

/-- The size of the buffer. -/
def typescriptCapacity : Nat := 4096

/-- The last part of `guac_terminal_typescript_alloc`, after both files have been opened. -/
def typescriptAlloc (data timing : List UInt8) (now : Int) : Typescript where
  buffer := []
  data := (DataFile.openExisting data).write typescriptHeader
  timing := .openExisting timing
  lastFlush := now
  flushes := []

/-- The delay that is written for the time between two flushes. -/
def elapsedTime (lastFlush thisFlush : Int) : Int :=
  let elapsed := toInt (thisFlush - lastFlush)
  if elapsed > typescriptMaxDelay then typescriptMaxDelay else elapsed

/-- `guac_terminal_typescript_flush`, at some time. -/
def typescriptFlush (typescript : Typescript) (now : Int) : Typescript :=
  if typescript.buffer.length = 0 then typescript
  else
    let elapsed := elapsedTime typescript.lastFlush now
    { buffer := []
      data := typescript.data.write typescript.buffer
      timing := typescript.timing.write
        (stored 32 (timestampLine elapsed typescript.buffer.length))
      lastFlush := now
      flushes := typescript.flushes ++ [⟨elapsed, typescript.buffer⟩] }

/-- `guac_terminal_typescript_write`, at some time. -/
def typescriptWrite (typescript : Typescript) (c : UInt8) (now : Int) : Typescript :=
  let typescript :=
    if typescript.buffer.length = typescriptCapacity then typescriptFlush typescript now
    else typescript
  { typescript with buffer := typescript.buffer ++ [c] }

/-- `guac_terminal_typescript_free`: the files that are closed. -/
def typescriptFree (typescript : Typescript) (now : Int) : Typescript :=
  let typescript := typescriptFlush typescript now
  { typescript with data := typescript.data.write typescriptFooter }

/-- A call on a typescript, at some time. -/
inductive TypescriptCall where
  | write (c : UInt8) (now : Int)
  | flush (now : Int)
  deriving DecidableEq, Repr

/-- The effect of a call. -/
def typescriptStep (typescript : Typescript) : TypescriptCall → Typescript
  | .write c now => typescriptWrite typescript c now
  | .flush now => typescriptFlush typescript now

/-- The bytes a call writes. -/
def TypescriptCall.bytes : TypescriptCall → List UInt8
  | .write c _ => [c]
  | .flush _ => []

/-- The bytes of the parts that have been flushed. -/
def flushedBytes (flushes : List Flush) : List UInt8 := flushes.flatMap Flush.bytes

/-- The lines of the timing file. -/
def timingLines (flushes : List Flush) : List UInt8 :=
  flushes.flatMap fun flush => timestampLine flush.elapsed flush.bytes.length

/-- The files hold the recording of some bytes: the data file is the bytes between header and
footer, and the lines of the timing file are those of the parts that were flushed one after the
other, none of them empty, which are together these bytes. -/
structure Recording (typescript : Typescript) (bytes : List UInt8) : Prop where
  data : typescript.data.content = typescriptHeader ++ bytes ++ typescriptFooter
  parts : flushedBytes typescript.flushes = bytes
  nonempty : ∀ flush ∈ typescript.flushes, flush.bytes ≠ []
  timing : typescript.timing.content = timingLines typescript.flushes

/-! ## Writing to files -/

/-- A file with some content after its beginning has been overwritten. -/
def DataFile.overwritten (existing written : List UInt8) : DataFile where
  content := written ++ existing.drop written.length
  offset := written.length

/-- What is written next continues what has been written. -/
theorem DataFile.overwritten_write (existing written bytes : List UInt8) :
    (overwritten existing written).write bytes = overwritten existing (written ++ bytes) := by
  have rest : (written ++ existing.drop written.length).drop (written.length + bytes.length)
      = existing.drop (written ++ bytes).length := by
    rw [List.drop_append, List.drop_drop, List.length_append]
    have whole : written.drop (written.length + bytes.length) = [] :=
      List.drop_eq_nil_of_le (Nat.le_add_right ..)
    rw [whole, List.nil_append, Nat.add_sub_cancel_left]
  rw [DataFile.write, overwritten, overwritten, rest, List.take_left' rfl, List.length_append]

/-- The file ends with what has been written exactly if it was not longer before. -/
theorem DataFile.overwritten_content_iff (existing written : List UInt8) :
    (overwritten existing written).content = written ↔ existing.length ≤ written.length := by
  rw [overwritten, List.append_right_eq_self, List.drop_eq_nil_iff]

/-! ## Timing lines fit into their buffer -/

theorem decimal_length_le {number digits : Nat} (positive : 0 < digits)
    (bound : number < 10 ^ digits) : (decimal number).length ≤ digits := by
  rw [decimal, List.length_map]
  exact Nat.toDigits_length 10 number digits positive bound

theorem elapsedTime_natAbs_lt (lastFlush thisFlush : Int) :
    (elapsedTime lastFlush thisFlush).natAbs / 1000 < 10 ^ 7 := by
  have fits := toInt_fits (thisFlush - lastFlush)
  unfold FitsInt at fits
  unfold elapsedTime typescriptMaxDelay
  dsimp only
  split <;> omega

/-- The buffer of a timing line is large enough. -/
theorem stored_timestampLine (lastFlush thisFlush : Int) {length : Nat}
    (bounded : length ≤ typescriptCapacity) :
    stored 32 (timestampLine (elapsedTime lastFlush thisFlush) length)
      = timestampLine (elapsedTime lastFlush thisFlush) length := by
  have seconds := decimal_length_le (by decide) (elapsedTime_natAbs_lt lastFlush thisFlush)
  have size : (decimal length).length ≤ 4 := by
    apply decimal_length_le (by decide)
    unfold typescriptCapacity at bounded
    omega
  have sign : (if elapsedTime lastFlush thisFlush < 0 then [(0x2D : UInt8)] else []).length ≤ 1 := by
    split <;> decide
  apply if_pos
  simp only [timestampLine, threeDigits, List.length_append, List.length_map, List.length_cons,
    List.length_nil]
  omega

/-! ## What a typescript has recorded -/

/-- A typescript on files with some content has recorded some bytes: some of them have been flushed
to both files, the others are in the buffer. -/
structure Recorded (data timing bytes : List UInt8) (typescript : Typescript) : Prop where
  dataFile : typescript.data
    = .overwritten data (typescriptHeader ++ flushedBytes typescript.flushes)
  timingFile : typescript.timing = .overwritten timing (timingLines typescript.flushes)
  bytes : flushedBytes typescript.flushes ++ typescript.buffer = bytes
  nonempty : ∀ flush ∈ typescript.flushes, flush.bytes ≠ []
  bounded : typescript.buffer.length ≤ typescriptCapacity

theorem typescriptAlloc_recorded (data timing : List UInt8) (now : Int) :
    Recorded data timing [] (typescriptAlloc data timing now) where
  dataFile := DataFile.overwritten_write data [] typescriptHeader
  timingFile := rfl
  bytes := rfl
  nonempty := List.forall_mem_nil _
  bounded := Nat.zero_le _

section Calls

variable {data timing bytes : List UInt8} {typescript : Typescript}

theorem flushedBytes_append (flushes more : List Flush) :
    flushedBytes (flushes ++ more) = flushedBytes flushes ++ flushedBytes more :=
  List.flatMap_append

theorem timingLines_append (flushes more : List Flush) :
    timingLines (flushes ++ more) = timingLines flushes ++ timingLines more :=
  List.flatMap_append

/-- A flush empties the buffer into the files. -/
theorem Recorded.flush (recorded : Recorded data timing bytes typescript) (now : Int) :
    Recorded data timing bytes (typescriptFlush typescript now)
      ∧ (typescriptFlush typescript now).buffer = [] := by
  unfold typescriptFlush
  split
  · rename_i empty
    exact ⟨recorded, List.eq_nil_of_length_eq_zero empty⟩
  · rename_i filled
    refine ⟨?_, rfl⟩
    dsimp only
    rw [stored_timestampLine _ _ recorded.bounded]
    exact
      { dataFile := by
          rw [recorded.dataFile, DataFile.overwritten_write, flushedBytes_append,
            List.append_assoc]
          simp only [flushedBytes, List.flatMap_cons, List.flatMap_nil, List.append_nil]
        timingFile := by
          rw [recorded.timingFile, DataFile.overwritten_write, timingLines_append]
          simp only [timingLines, List.flatMap_cons, List.flatMap_nil, List.append_nil]
        bytes := by
          rw [flushedBytes_append, List.append_nil, ← recorded.bytes]
          simp only [flushedBytes, List.flatMap_cons, List.flatMap_nil, List.append_nil]
        nonempty := by
          intro flush member
          rcases List.mem_append.mp member with earlier | last
          · exact recorded.nonempty flush earlier
          · obtain rfl := List.mem_singleton.mp last
            exact fun empty => filled (congrArg List.length empty)
        bounded := Nat.zero_le _ }

theorem Recorded.write (recorded : Recorded data timing bytes typescript) (c : UInt8) (now : Int) :
    Recorded data timing (bytes ++ [c]) (typescriptWrite typescript c now) := by
  have room : ∃ before, Recorded data timing bytes before
      ∧ before.buffer.length < typescriptCapacity
      ∧ typescriptWrite typescript c now = { before with buffer := before.buffer ++ [c] } := by
    unfold typescriptWrite
    split
    · obtain ⟨flushed, empty⟩ := recorded.flush now
      exact ⟨_, flushed, empty ▸ by decide, rfl⟩
    · rename_i notFull
      exact ⟨_, recorded, Nat.lt_of_le_of_ne recorded.bounded notFull, rfl⟩
  obtain ⟨before, recorded, room, written⟩ := room
  rw [written]
  exact
    { dataFile := recorded.dataFile
      timingFile := recorded.timingFile
      bytes := by rw [← List.append_assoc, recorded.bytes]
      nonempty := recorded.nonempty
      bounded := by
        rw [List.length_append]
        exact room }

theorem Recorded.step (recorded : Recorded data timing bytes typescript) (call : TypescriptCall) :
    Recorded data timing (bytes ++ call.bytes) (typescriptStep typescript call) := by
  cases call with
  | write c now => exact recorded.write c now
  | flush now =>
      rw [TypescriptCall.bytes, List.append_nil]
      exact (recorded.flush now).1

/-- After any run of calls the bytes written have been recorded. -/
theorem Recorded.exec (recorded : Recorded data timing bytes typescript)
    (calls : List TypescriptCall) :
    Recorded data timing (bytes ++ calls.flatMap TypescriptCall.bytes)
      (exec typescriptStep typescript calls) := by
  induction calls generalizing bytes typescript with
  | nil =>
      rw [List.flatMap_nil, List.append_nil]
      exact recorded
  | cons call calls ih =>
      rw [List.flatMap_cons, ← List.append_assoc]
      exact ih (recorded.step call)

/-- The files that are closed hold the recording exactly if they were not longer before. -/
theorem Recorded.free_iff (recorded : Recorded data timing bytes typescript) (now : Int) :
    Recording (typescriptFree typescript now) bytes
      ↔ data.length ≤ (typescriptHeader ++ bytes ++ typescriptFooter).length
        ∧ timing.length ≤ (timingLines (typescriptFree typescript now).flushes).length := by
  obtain ⟨flushed, empty⟩ := recorded.flush now
  have parts : flushedBytes (typescriptFlush typescript now).flushes = bytes := by
    rw [← flushed.bytes, empty, List.append_nil]
  have dataFile : (typescriptFree typescript now).data
      = .overwritten data (typescriptHeader ++ bytes ++ typescriptFooter) := by
    rw [typescriptFree, flushed.dataFile, DataFile.overwritten_write, parts]
  have timingFile : (typescriptFree typescript now).timing
      = .overwritten timing (timingLines (typescriptFree typescript now).flushes) :=
    flushed.timingFile
  constructor
  · rintro ⟨dataContent, -, -, timingContent⟩
    rw [dataFile, DataFile.overwritten_content_iff] at dataContent
    rw [timingFile, DataFile.overwritten_content_iff] at timingContent
    exact ⟨dataContent, timingContent⟩
  · rintro ⟨dataFits, timingFits⟩
    exact
      { data := by
          rw [dataFile]
          exact (DataFile.overwritten_content_iff ..).mpr dataFits
        parts := parts
        nonempty := flushed.nonempty
        timing := by
          rw [timingFile]
          exact (DataFile.overwritten_content_iff ..).mpr timingFits }

end Calls

/-- **Whatever is written and flushed, the files hold the recording of what was written exactly if
neither of them was longer before.** -/
theorem typescript_recording_iff (data timing : List UInt8) (created freed : Int)
    (calls : List TypescriptCall) :
    Recording (typescriptFree (exec typescriptStep (typescriptAlloc data timing created) calls) freed)
        (calls.flatMap TypescriptCall.bytes)
      ↔ data.length ≤ (typescriptHeader ++ calls.flatMap TypescriptCall.bytes
          ++ typescriptFooter).length
        ∧ timing.length ≤ (timingLines (typescriptFree
            (exec typescriptStep (typescriptAlloc data timing created) calls) freed).flushes).length :=
  ((typescriptAlloc_recorded data timing created).exec calls).free_iff freed

/-- Nothing is written to a typescript in whose place there is a file of 64 bytes. -/
theorem typescript_keeps_tail :
    ¬ Recording (typescriptFree (exec typescriptStep
      (typescriptAlloc (List.replicate 64 0x78) [] 0) []) 0) [] := by
  intro recording
  have fits := ((typescript_recording_iff (List.replicate 64 0x78) [] 0 0 []).mp recording).1
  exact absurd fits (by decide)

/-- Two bytes are flushed one by one to new files, 1.5 seconds apart. -/
example : (typescriptFree (exec typescriptStep (typescriptAlloc [] [] 0)
      [.write 0x61 5, .flush 1500, .write 0x62 2000]) 3000).timing.content
    = bytesOf "1.500000 1\n1.500000 1\n" := by
  rfl

end GuacNebula.Terminal
