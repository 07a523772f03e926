import GuacNebula.Common.Iconv

/-! # Readers of all charsets

A reader is given the number of bytes that remain, and whether it keeps to them depends on the
charset. What it may come across besides is not fixed by its input: the byte behind the input, and
variables that nothing has been stored in.
-/

namespace GuacNebula.Common

/-- What the input of a reader does not fix: the byte behind it, and what the variable of
`GUAC_READ_UTF8` holds before it is stored in, for a character and for the one that is peeked at. -/
structure Surroundings where
  behind : UInt8
  unset : Int
  unsetPeek : Int

/-- The surroundings of a reader that is called again to peek. -/
def Surroundings.peek (surroundings : Surroundings) : Surroundings :=
  { surroundings with unset := surroundings.unsetPeek }

/-- A call of a reader: the value returned, the number of bytes that the input is advanced by, and
the number of bytes up to the last one that may have been read. -/
structure ReadCall where
  value : Int
  advance : Nat
  reach : Nat

/-- `guac_iconv_read`, for the bytes that remain. -/
abbrev CharReader := Surroundings → List UInt8 → ReadCall

/-- The codepoint of a byte of CP-1252. -/
def cp1252Value (byte : UInt8) : Int :=
  if 0x80 ≤ byte ∧ byte ≤ 0x9F then cp1252Codepoint.getD (byte.toNat - 0x80) 0 else byte.toNat

namespace CharReader

/-- `GUAC_READ_UTF8`. -/
def utf8 (unicode : Unicode) : CharReader := fun surroundings input =>
  match unicode.utf8Read input with
  | some (value, bytes) => ⟨value, bytes, input.length⟩
  | none => ⟨surroundings.unset, 0, input.length⟩

/-- `GUAC_READ_UTF16`, on a little-endian host. -/
def utf16 : CharReader := fun _ input =>
  match input with
  | low :: high :: _ => ⟨(low.toNat + 256 * high.toNat : Nat), 2, 2⟩
  | _ => ⟨0, 0, 0⟩

/-- `GUAC_READ_CP1252`, which reads a byte even if none remains. -/
def cp1252 : CharReader := fun surroundings input =>
  ⟨cp1252Value (input.headD surroundings.behind), 1, 1⟩

/-- `GUAC_READ_ISO8859_1`, which reads a byte even if none remains. -/
def iso8859_1 : CharReader := fun surroundings input =>
  ⟨(input.headD surroundings.behind).toNat, 1, 1⟩

/-- `guac_iconv_read_normalized`. -/
def normalized (reader : CharReader) : CharReader := fun surroundings input =>
  let read := reader surroundings input
  if read.value = 13 then
    let peek := reader surroundings.peek (input.drop read.advance)
    let reach := max read.reach (read.advance + peek.reach)
    if peek.value = 10 then ⟨10, read.advance + peek.advance, reach⟩ else { read with reach }
  else read

/-- `GUAC_READ_UTF8_NORMALIZED`. -/
def utf8Normalized (unicode : Unicode) : CharReader := (utf8 unicode).normalized

/-- `GUAC_READ_UTF16_NORMALIZED`. -/
def utf16Normalized : CharReader := utf16.normalized

/-- `GUAC_READ_CP1252_NORMALIZED`. -/
def cp1252Normalized : CharReader := cp1252.normalized

/-- `GUAC_READ_ISO8859_1_NORMALIZED`. -/
def iso8859_1Normalized : CharReader := iso8859_1.normalized

end CharReader

/-- The charsets that there are readers and writers for. -/
inductive Charset
  | utf8
  | utf16
  | cp1252
  | iso8859_1
  deriving DecidableEq, Repr

namespace Charset

/-- The reader of a charset that normalizes line endings or does not. -/
def reader (unicode : Unicode) : Charset → Bool → CharReader
  | .utf8, false => .utf8 unicode
  | .utf8, true => .utf8Normalized unicode
  | .utf16, false => .utf16
  | .utf16, true => .utf16Normalized
  | .cp1252, false => .cp1252
  | .cp1252, true => .cp1252Normalized
  | .iso8859_1, false => .iso8859_1
  | .iso8859_1, true => .iso8859_1Normalized

/-- The character that bytes begin with and the number of its bytes, if they are all there. -/
def char? (unicode : Unicode) : Charset → List UInt8 → Option (Int × Nat)
  | .utf8, input => (unicode.utf8Read input).map fun read => ((read.1 : Int), read.2)
  | .utf16, low :: high :: _ => some ((low.toNat + 256 * high.toNat : Nat), 2)
  | .cp1252, byte :: _ => some (cp1252Value byte, 1)
  | .iso8859_1, byte :: _ => some (byte.toNat, 1)
  | _, _ => none

/-- The input has all bytes of its first character and, behind a carriage return that may begin a
line ending, all bytes of the next one. -/
def Complete (unicode : Unicode) (charset : Charset) (normalize : Bool) (input : List UInt8) :
    Prop :=
  charset.char? unicode input ≠ none ∧
    (normalize = true → ∀ bytes, charset.char? unicode input = some (13, bytes) →
      charset.char? unicode (input.drop bytes) ≠ none)

end Charset

/-- A reader reads and skips only what remains of the input, and returns what that determines. -/
def CharReader.WithinInput (reader : CharReader) (input : List UInt8) : Prop :=
  ∀ surroundings, (reader surroundings input).reach ≤ input.length
    ∧ (reader surroundings input).advance ≤ input.length
    ∧ ∀ other, (reader surroundings input).value = (reader other input).value

/-! ## Complete characters -/

section

variable {unicode : Unicode} {charset : Charset} {reader : CharReader}
  {surroundings : Surroundings} {input : List UInt8}

theorem Charset.reader_normalized (unicode : Unicode) (charset : Charset) :
    charset.reader unicode true = (charset.reader unicode false).normalized := by
  cases charset <;> rfl

theorem CharReader.normalized_other (other : (reader surroundings input).value ≠ 13) :
    reader.normalized surroundings input = reader surroundings input :=
  if_neg other

theorem CharReader.normalized_return (returns : (reader surroundings input).value = 13) :
    reader.normalized surroundings input =
      let read := reader surroundings input
      let peek := reader surroundings.peek (input.drop read.advance)
      let reach := max read.reach (read.advance + peek.reach)
      if peek.value = 10 then ⟨10, read.advance + peek.advance, reach⟩ else { read with reach } :=
  if_pos returns

theorem Charset.char?_nil : charset.char? unicode [] = none := by
  cases charset with
  | utf8 => exact Option.map_eq_none_iff.mpr Unicode.utf8Read_nil
  | utf16 | cp1252 | iso8859_1 => rfl

theorem Charset.char?_pos {char : Int} {bytes : Nat}
    (first : charset.char? unicode input = some (char, bytes)) : 0 < bytes := by
  unfold char? at first
  split at first
  · obtain ⟨⟨value, size⟩, read, same⟩ := Option.map_eq_some_iff.mp first
    cases same
    exact unicode.read_pos _ _ _ read
  all_goals cases first
  all_goals exact Nat.succ_pos _

/-- Whatever the surroundings, a complete character is read. -/
theorem Charset.reader_char {char : Int} {bytes : Nat}
    (first : charset.char? unicode input = some (char, bytes)) :
    bytes ≤ input.length ∧ ∃ reach ≤ input.length, ∀ surroundings,
      charset.reader unicode false surroundings input = ⟨char, bytes, reach⟩ := by
  unfold char? at first
  split at first
  · obtain ⟨⟨value, size⟩, read, same⟩ := Option.map_eq_some_iff.mp first
    cases same
    refine ⟨unicode.read_le _ _ _ read, _, Nat.le_refl _, fun surroundings => ?_⟩
    change CharReader.utf8 unicode surroundings _ = _
    unfold CharReader.utf8
    rw [read]
  · cases first
    have enough := Nat.le_add_left 2 (List.length ‹List UInt8›)
    exact ⟨enough, 2, enough, fun _ => rfl⟩
  · cases first
    have enough := Nat.le_add_left 1 (List.length ‹List UInt8›)
    exact ⟨enough, 1, enough, fun _ => rfl⟩
  · cases first
    have enough := Nat.le_add_left 1 (List.length ‹List UInt8›)
    exact ⟨enough, 1, enough, fun _ => rfl⟩
  · cases first

/-- A character that is not complete is what the surroundings make of it, but in UTF-16. -/
theorem Charset.reader_incomplete (incomplete : charset.char? unicode input = none)
    (surroundings : Surroundings) : charset.reader unicode false surroundings input =
      match charset with
      | .utf8 => ⟨surroundings.unset, 0, input.length⟩
      | .utf16 => ⟨0, 0, 0⟩
      | .cp1252 => ⟨cp1252Value surroundings.behind, 1, 1⟩
      | .iso8859_1 => ⟨surroundings.behind.toNat, 1, 1⟩ := by
  cases charset with
  | utf8 =>
      have short : unicode.utf8Read input = none := Option.map_eq_none_iff.mp incomplete
      change CharReader.utf8 unicode surroundings input = _
      unfold CharReader.utf8
      rw [short]
  | utf16 =>
      rcases input with _ | ⟨low, _ | ⟨high, rest⟩⟩
      · rfl
      · rfl
      · cases incomplete
  | cp1252 | iso8859_1 =>
      cases input with
      | nil => rfl
      | cons byte rest => cases incomplete

/-- The readers of UTF-8 are those of the conversion of clipboard text, where the variable always
holds the same before it is stored in. -/
theorem Charset.readUtf8As_eq (unicode : Unicode) (behind : UInt8) (unset : Int) (normalize : Bool)
    (input : List UInt8) :
    let call := Charset.utf8.reader unicode normalize ⟨behind, unset, unset⟩ input
    readUtf8As unicode unset normalize input = (call.value, input.drop call.advance) := by
  have plain (input : List UInt8) : readUtf8 unicode unset input =
      ((CharReader.utf8 unicode ⟨behind, unset, unset⟩ input).value,
        input.drop (CharReader.utf8 unicode ⟨behind, unset, unset⟩ input).advance) := by
    unfold readUtf8 CharReader.utf8
    cases unicode.utf8Read input <;> rfl
  cases normalize with
  | false => exact plain input
  | true =>
      change readNormalized (readUtf8 unicode unset) input =
        (((CharReader.utf8 unicode).normalized ⟨behind, unset, unset⟩ input).value,
          input.drop ((CharReader.utf8 unicode).normalized ⟨behind, unset, unset⟩ input).advance)
      unfold readNormalized CharReader.normalized
      dsimp only [Surroundings.peek]
      rw [plain, plain]
      dsimp only
      split_ifs
      · rw [List.drop_drop]
      · rfl
      · rfl

/-! ## Reads within the input -/

/-- The same call is made in all surroundings, and it keeps to the input. -/
def CharReader.Steady (reader : CharReader) (input : List UInt8) : Prop :=
  ∃ call : ReadCall, call.reach ≤ input.length ∧ call.advance ≤ input.length ∧
    ∀ surroundings, reader surroundings input = call

theorem CharReader.Steady.withinInput (steady : reader.Steady input) :
    reader.WithinInput input := by
  obtain ⟨call, reach, advance, same⟩ := steady
  intro surroundings
  refine ⟨by rw [same]; exact reach, by rw [same]; exact advance, fun other => ?_⟩
  rw [same, same]

theorem Charset.reader_steady
    (complete : charset = .utf16 ∨ charset.char? unicode input ≠ none) :
    (charset.reader unicode false).Steady input := by
  cases first : charset.char? unicode input with
  | some result =>
      obtain ⟨enough, reach, within, reads⟩ := reader_char first
      exact ⟨_, within, enough, reads⟩
  | none =>
      obtain rfl := complete.resolve_right (not_not.mpr first)
      exact ⟨⟨0, 0, 0⟩, Nat.zero_le _, Nat.zero_le _, reader_incomplete first⟩

/-- A reader that peeks keeps to the input if the character and the one behind it do. -/
theorem CharReader.Steady.normalized (steady : reader.Steady input)
    (behind : ∀ advance, (∀ surroundings, (reader surroundings input).value = 13 ∧
      (reader surroundings input).advance = advance) → reader.Steady (input.drop advance)) :
    reader.normalized.Steady input := by
  obtain ⟨call, reach, advance, same⟩ := steady
  by_cases returns : call.value = 13
  · obtain ⟨peek, peekReach, peekAdvance, peeks⟩ :=
      behind call.advance fun surroundings => by rw [same]; exact ⟨returns, rfl⟩
    rw [List.length_drop] at peekReach peekAdvance
    have within : max call.reach (call.advance + peek.reach) ≤ input.length := by omega
    have read : ∀ surroundings, reader.normalized surroundings input =
        if peek.value = 10 then
          ⟨10, call.advance + peek.advance, max call.reach (call.advance + peek.reach)⟩
        else { call with reach := max call.reach (call.advance + peek.reach) } := by
      intro surroundings
      rw [normalized_return (by rw [same]; exact returns)]
      dsimp only
      rw [same, peeks]
    by_cases feed : peek.value = 10
    · exact ⟨_, within, by dsimp only; omega, fun surroundings =>
        (read surroundings).trans (if_pos feed)⟩
    · exact ⟨{ call with reach := max call.reach (call.advance + peek.reach) }, within, advance,
        fun surroundings => (read surroundings).trans (if_neg feed)⟩
  · refine ⟨call, reach, advance, fun surroundings => ?_⟩
    rw [normalized_other (by rw [same]; exact returns), same]

theorem Charset.Complete.steady {normalize : Bool}
    (complete : charset = .utf16 ∨ charset.Complete unicode normalize input) :
    (charset.reader unicode normalize).Steady input := by
  have first := reader_steady (complete.imp_right And.left)
  cases normalize with
  | false => exact first
  | true =>
      rw [reader_normalized]
      refine first.normalized fun advance returns => reader_steady (complete.imp_right ?_)
      rintro ⟨whole, next⟩
      cases char : charset.char? unicode input with
      | none => exact absurd char whole
      | some result =>
          obtain ⟨-, reach, -, reads⟩ := reader_char char
          obtain ⟨value, same⟩ := returns ⟨0, 0, 0⟩
          rw [reads] at value same
          exact next rfl advance (by rw [char, ← value, ← same])

/-- A UTF-8 reader returns what its variable holds if too few bytes are left. -/
theorem Charset.utf8_unset {normalize : Bool} (short : Charset.utf8.char? unicode input = none)
    (surroundings : Surroundings) (other : surroundings.unset ≠ 13) :
    (Charset.utf8.reader unicode normalize surroundings input).value = surroundings.unset := by
  have plain := reader_incomplete short surroundings
  cases normalize with
  | false => rw [plain]
  | true => rw [reader_normalized, CharReader.normalized_other] <;> rw [plain]; exact other

/-- The character that is taken for the one behind the end of the input. -/
def Charset.imagined (surroundings : Surroundings) : Charset → Int
  | .utf8 => surroundings.unsetPeek
  | .utf16 => 0
  | .cp1252 => cp1252Value surroundings.behind
  | .iso8859_1 => surroundings.behind.toNat

/-- The number of bytes that are skipped for the character behind the end of the input. -/
def Charset.imaginedSize : Charset → Nat
  | .utf8 | .utf16 => 0
  | .cp1252 | .iso8859_1 => 1

/-- Behind the last carriage return, the surroundings are taken for a character. -/
theorem Charset.reader_peeks {bytes : Nat}
    (returns : charset.char? unicode input = some (13, bytes))
    (last : charset.char? unicode (input.drop bytes) = none) (surroundings : Surroundings) :
    (charset.reader unicode true surroundings input).value =
        (if charset.imagined surroundings = 10 then 10 else 13) ∧
      (charset.reader unicode true surroundings input).advance =
        if charset.imagined surroundings = 10 then bytes + charset.imaginedSize else bytes := by
  obtain ⟨-, reach, -, reads⟩ := reader_char returns
  rw [reader_normalized, CharReader.normalized_return (by rw [reads])]
  dsimp only
  rw [reads, reader_incomplete last]
  cases charset <;> exact ⟨apply_ite ReadCall.value _ _ _, apply_ite ReadCall.advance _ _ _⟩

/-- A reader keeps to what remains of the input exactly if the characters that it looks for are
complete, and always for UTF-16. -/
theorem reader_within_iff (unicode : Unicode) (charset : Charset) (normalize : Bool) (byte : UInt8)
    (rest : List UInt8) :
    (charset.reader unicode normalize).WithinInput (byte :: rest) ↔
      charset = .utf16 ∨ charset.Complete unicode normalize (byte :: rest) := by
  constructor
  · intro within
    by_contra incomplete
    obtain ⟨other, incomplete⟩ := not_or.mp incomplete
    cases first : charset.char? unicode (byte :: rest) with
    | none =>
        cases charset with
        | utf8 =>
            have same := (within ⟨0, 0, 0⟩).2.2 ⟨0, 1, 0⟩
            rw [Charset.utf8_unset first _ (by decide),
              Charset.utf8_unset first _ (by decide)] at same
            cases same
        | utf16 => exact other rfl
        | cp1252 | iso8859_1 => cases first
    | some result =>
        refine incomplete ⟨by rw [first]; exact Option.some_ne_none _, ?_⟩
        rintro rfl bytes returns last
        have same := (within ⟨0, 0, 0⟩).2.2 ⟨10, 0, 10⟩
        rw [(Charset.reader_peeks returns last _).1, (Charset.reader_peeks returns last _).1] at same
        cases charset with
        | utf16 => exact other rfl
        | utf8 | cp1252 | iso8859_1 => exact absurd same (by decide)
  · intro complete
    exact (Charset.Complete.steady complete).withinInput

/-- A carriage return that is the last byte of CP-1252 text is judged by the byte behind it. -/
theorem last_return_reads_behind :
    ¬ (Charset.cp1252.reader asciiUnicode true).WithinInput [13] := by
  intro within
  exact absurd (within ⟨10, 0, 0⟩).1 (by decide)

end

end GuacNebula.Common
