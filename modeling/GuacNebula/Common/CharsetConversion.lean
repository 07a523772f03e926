import GuacNebula.Common.CharsetReaders

/-! # Conversion between charsets

The loop of `guac_iconv` in surroundings that may change from turn to turn, with the number of bytes
that the input is advanced by. The text of an input is what its characters are, up to the first one
that is not complete, and the encoding of a text is what its characters are written as where there
is room for all of them.
-/

namespace GuacNebula.Common

/-- What a conversion does: whether it returns that a null character has been converted, the number
of bytes that the input is advanced by, and the output. -/
structure Conversion where
  terminated : Bool
  consumed : Nat
  output : List UInt8

/-- The conversion that is left, behind one turn of the loop. -/
def Conversion.after (advance : Nat) (written : List UInt8) (later : Conversion) : Conversion where
  terminated := later.terminated
  consumed := advance + later.consumed
  output := written ++ later.output

/-- The loop of `guac_iconv`, for a number of turns. -/
def convert (reader : CharReader) (writer : IconvWrite) :
    (Nat → Surroundings) → Nat → List UInt8 → Nat → Option Conversion
  | _, 0, _, _ => none
  | surroundings, turns + 1, input, room =>
    if input = [] ∨ room = 0 then some ⟨false, 0, []⟩
    else
      let read := reader (surroundings 0) input
      let written := writer room read.value
      if read.value = 0 then some ⟨true, read.advance, written⟩
      else
        (convert reader writer (fun turn => surroundings (turn + 1)) turns
          (input.drop read.advance) (room - written.length)).map (.after read.advance written)

/-- `GUAC_WRITE_ISO8859_1`. -/
def writeIso8859_1 : IconvWrite := fun _ value => [toByte (if value > 0xFF then 0x3F else value)]

/-- `GUAC_WRITE_UTF8_CRLF`. -/
def writeUtf8Crlf (unicode : Unicode) : IconvWrite := writeCrlf (writeUtf8 unicode)

/-- `GUAC_WRITE_UTF16_CRLF`. -/
def writeUtf16Crlf : IconvWrite := writeCrlf writeUtf16

/-- `GUAC_WRITE_CP1252_CRLF`. -/
def writeCp1252Crlf : IconvWrite := writeCrlf writeCp1252

/-- `GUAC_WRITE_ISO8859_1_CRLF`. -/
def writeIso8859_1Crlf : IconvWrite := writeCrlf writeIso8859_1

namespace Charset

/-- The writer of a charset that writes line feeds as pairs or does not. -/
def writer (unicode : Unicode) : Charset → Bool → IconvWrite
  | .utf8, false => writeUtf8 unicode
  | .utf8, true => writeUtf8Crlf unicode
  | .utf16, false => writeUtf16
  | .utf16, true => writeUtf16Crlf
  | .cp1252, false => writeCp1252
  | .cp1252, true => writeCp1252Crlf
  | .iso8859_1, false => writeIso8859_1
  | .iso8859_1, true => writeIso8859_1Crlf

/-- The bytes of a character. -/
def encodePlain (unicode : Unicode) : Charset → Int → List UInt8
  | .utf8, char => unicode.utf8Write char 4
  | .utf16, char => [toByte char, toByte (char / 256)]
  | .cp1252, char => writeCp1252 1 char
  | .iso8859_1, char => writeIso8859_1 1 char

/-- The bytes of a character where line feeds may be written as pairs. -/
def encodeChar (unicode : Unicode) (charset : Charset) (crlf : Bool) (char : Int) : List UInt8 :=
  if crlf = true ∧ char = 10 then
    charset.encodePlain unicode 13 ++ charset.encodePlain unicode 10
  else charset.encodePlain unicode char

/-- The bytes of a text. -/
def encode (unicode : Unicode) (charset : Charset) (crlf : Bool) (text : List Int) : List UInt8 :=
  text.flatMap (charset.encodeChar unicode crlf)

/-- The character that the input begins with and the number of its bytes, where a line ending may be
taken for a line feed. -/
def nextChar? (unicode : Unicode) (charset : Charset) (normalize : Bool) (input : List UInt8) :
    Option (Int × Nat) :=
  match charset.char? unicode input with
  | none => none
  | some (char, bytes) =>
    if normalize = true ∧ char = 13 then
      match charset.char? unicode (input.drop bytes) with
      | some (10, more) => some (10, bytes + more)
      | _ => some (13, bytes)
    else some (char, bytes)

/-- So many characters of the input, and the input behind them. -/
def decode (unicode : Unicode) (charset : Charset) (normalize : Bool) :
    Nat → List UInt8 → List Int × List UInt8
  | 0, input => ([], input)
  | count + 1, input =>
    match charset.nextChar? unicode normalize input with
    | none => ([], input)
    | some (char, bytes) =>
      let later := decode unicode charset normalize count (input.drop bytes)
      (char :: later.1, later.2)

/-- The characters of the input. -/
def text (unicode : Unicode) (charset : Charset) (normalize : Bool) (input : List UInt8) :
    List Int :=
  (charset.decode unicode normalize input.length input).1

/-- The bytes behind the characters of the input, which do not make a character. -/
def truncated (unicode : Unicode) (charset : Charset) (normalize : Bool) (input : List UInt8) :
    List UInt8 :=
  (charset.decode unicode normalize input.length input).2

/-- The input reads as the text and leaves the rest. -/
inductive Reads (unicode : Unicode) (charset : Charset) (normalize : Bool) :
    List UInt8 → List Int → List UInt8 → Prop where
  | nil (input : List UInt8) : Reads unicode charset normalize input [] input
  | cons {input left : List UInt8} {char : Int} {bytes : Nat} {text : List Int}
      (first : charset.nextChar? unicode normalize input = some (char, bytes))
      (more : Reads unicode charset normalize (input.drop bytes) text left) :
      Reads unicode charset normalize input (char :: text) left

end Charset

/-! ## Turns of the loop -/

section Turns

variable {reader : CharReader} {writer : IconvWrite} {surroundings : Nat → Surroundings}
  {turns room : Nat} {input : List UInt8}

theorem convert_done (done : input = [] ∨ room = 0) :
    convert reader writer surroundings (turns + 1) input room = some ⟨false, 0, []⟩ := by
  rw [convert, if_pos done]

theorem convert_null (pending : input ≠ []) (positive : 0 < room)
    (null : (reader (surroundings 0) input).value = 0) :
    convert reader writer surroundings (turns + 1) input room =
      some ⟨true, (reader (surroundings 0) input).advance, writer room 0⟩ := by
  rw [convert, if_neg (not_or.mpr ⟨pending, Nat.ne_of_gt positive⟩)]
  dsimp only
  rw [if_pos null, null]

theorem convert_turn (pending : input ≠ []) (positive : 0 < room)
    (other : (reader (surroundings 0) input).value ≠ 0) :
    convert reader writer surroundings (turns + 1) input room =
      (convert reader writer (fun turn => surroundings (turn + 1)) turns
        (input.drop (reader (surroundings 0) input).advance)
        (room - (writer room (reader (surroundings 0) input).value).length)).map
          (.after (reader (surroundings 0) input).advance
            (writer room (reader (surroundings 0) input).value)) := by
  rw [convert, if_neg (not_or.mpr ⟨pending, Nat.ne_of_gt positive⟩)]
  dsimp only
  rw [if_neg other]

/-- The turn in which a character is read. -/
theorem convert_char {char : Int} {bytes : Nat} (pending : input ≠ []) (positive : 0 < room)
    (value : (reader (surroundings 0) input).value = char)
    (advance : (reader (surroundings 0) input).advance = bytes) (other : char ≠ 0) :
    convert reader writer surroundings (turns + 1) input room =
      (convert reader writer (fun turn => surroundings (turn + 1)) turns (input.drop bytes)
        (room - (writer room char).length)).map (.after bytes (writer room char)) := by
  subst value advance
  exact convert_turn pending positive other

theorem convert_mono {more : Nat} (enough : turns ≤ more) {result : Conversion}
    (returns : convert reader writer surroundings turns input room = some result) :
    convert reader writer surroundings more input room = some result := by
  induction turns generalizing more surroundings input room result with
  | zero => cases returns
  | succ turns ih =>
      obtain ⟨more, rfl⟩ : ∃ less, more = less + 1 := ⟨more - 1, by omega⟩
      by_cases done : input = [] ∨ room = 0
      · rw [convert_done done] at returns
        rw [convert_done done, returns]
      obtain ⟨pending, some⟩ := not_or.mp done
      have positive := Nat.pos_of_ne_zero some
      by_cases null : (reader (surroundings 0) input).value = 0
      · rw [convert_null pending positive null] at returns
        rw [convert_null pending positive null, returns]
      · rw [convert_turn pending positive null] at returns
        obtain ⟨later, goesOn, rfl⟩ := Option.map_eq_some_iff.mp returns
        rw [convert_turn pending positive null, ih (Nat.le_of_succ_le_succ enough) goesOn]
        rfl

/-- A conversion that ends has a single result. -/
theorem convert_unique {more : Nat} {first second : Conversion}
    (returns : convert reader writer surroundings turns input room = some first)
    (other : convert reader writer surroundings more input room = some second) :
    first = second :=
  Option.some.inj ((convert_mono (Nat.le_max_left turns more) returns).symm.trans
    (convert_mono (Nat.le_max_right turns more) other))

/-- In surroundings that stay as they are, this is the loop of the conversion of clipboard text. -/
theorem convert_iconvLoop (reader : CharReader) (writer : IconvWrite) (surroundings : Surroundings)
    (turns : Nat) (input : List UInt8) (room : Nat) :
    (convert reader writer (fun _ => surroundings) turns input room).map
        (fun result => (result.terminated, result.output)) =
      iconvLoop (fun input => ((reader surroundings input).value,
        input.drop (reader surroundings input).advance)) writer turns input room := by
  induction turns generalizing input room with
  | zero => rfl
  | succ turns ih =>
      by_cases done : input = [] ∨ room = 0
      · rw [convert_done done, iconvLoop_done _ done]
        rfl
      obtain ⟨pending, positive⟩ := not_or.mp done
      rw [iconvLoop_succ turns pending positive]
      dsimp only
      by_cases null : (reader surroundings input).value = 0
      · rw [convert_null pending (Nat.pos_of_ne_zero positive) null, if_pos null, null]
        rfl
      · rw [convert_turn pending (Nat.pos_of_ne_zero positive) null, if_neg null, ← ih,
          Option.map_map, Option.map_map]
        rfl

/-- The conversion of clipboard text from UTF-8 is one of these. -/
theorem iconvLoop_readUtf8As (unicode : Unicode) (behind : UInt8) (unset : Int) (normalize : Bool)
    (writer : IconvWrite) (turns : Nat) (input : List UInt8) (room : Nat) :
    iconvLoop (readUtf8As unicode unset normalize) writer turns input room =
      (convert (Charset.utf8.reader unicode normalize) writer (fun _ => ⟨behind, unset, unset⟩)
        turns input room).map fun result => (result.terminated, result.output) := by
  rw [convert_iconvLoop]
  exact congrArg (iconvLoop · writer turns input room)
    (funext (Charset.readUtf8As_eq unicode behind unset normalize))

end Turns

/-! ## Characters of the input -/

namespace Charset

variable {unicode : Unicode} {charset : Charset} {normalize : Bool} {input left : List UInt8}
  {char : Int} {bytes : Nat} {text : List Int}

theorem nextChar?_eq_none :
    charset.nextChar? unicode normalize input = none ↔ charset.char? unicode input = none := by
  unfold nextChar?
  cases charset.char? unicode input with
  | none => exact iff_of_true rfl rfl
  | some result =>
      refine iff_of_false ?_ (Option.some_ne_none result)
      dsimp only
      split_ifs
      · split <;> exact Option.some_ne_none _
      · exact not_false

theorem nextChar?_plain : charset.nextChar? unicode false input = charset.char? unicode input := by
  unfold nextChar?
  cases charset.char? unicode input with
  | none => rfl
  | some result => exact if_neg fun both => absurd both.1 Bool.false_ne_true

/-- The first character is a complete one, or a line ending that is two of them. -/
theorem nextChar?_cases
    (first : charset.nextChar? unicode normalize input = some (char, bytes)) :
    charset.char? unicode input = some (char, bytes) ∧
        (normalize = true → char = 13 → ∀ more,
          charset.char? unicode (input.drop bytes) ≠ some (10, more)) ∨
      normalize = true ∧ char = 10 ∧ ∃ start more, bytes = start + more ∧
        charset.char? unicode input = some (13, start) ∧
        charset.char? unicode (input.drop start) = some (10, more) := by
  unfold nextChar? at first
  cases plain : charset.char? unicode input with
  | none =>
      rw [plain] at first
      cases first
  | some result =>
      obtain ⟨value, size⟩ := result
      rw [plain] at first
      dsimp only at first
      split_ifs at first with both
      case neg =>
        cases first
        exact .inl ⟨rfl, fun on returns => absurd ⟨on, returns⟩ both⟩
      obtain ⟨on, rfl⟩ := both
      split at first
      case h_1 more next =>
        cases first
        exact .inr ⟨on, rfl, size, more, rfl, rfl, next⟩
      case h_2 lone =>
        cases first
        exact .inl ⟨rfl, fun _ _ => lone⟩

theorem char?_le (first : charset.char? unicode input = some (char, bytes)) :
    bytes ≤ input.length :=
  (reader_char first).1

theorem nextChar?_bounds
    (first : charset.nextChar? unicode normalize input = some (char, bytes)) :
    0 < bytes ∧ bytes ≤ input.length := by
  obtain ⟨plain, -⟩ | ⟨-, -, start, more, rfl, returns, feed⟩ := nextChar?_cases first
  · exact ⟨char?_pos plain, char?_le plain⟩
  · have positive := char?_pos returns
    have bound := char?_le feed
    have enough := char?_le returns
    rw [List.length_drop] at bound
    omega

theorem nextChar?_pending
    (first : charset.nextChar? unicode normalize input = some (char, bytes)) : input ≠ [] := by
  rintro rfl
  have bounds := nextChar?_bounds first
  rw [List.length_nil] at bounds
  omega

theorem decode_reads {count : Nat} (enough : input.length ≤ count) :
    Reads unicode charset normalize input (charset.decode unicode normalize count input).1
        (charset.decode unicode normalize count input).2 ∧
      charset.nextChar? unicode normalize (charset.decode unicode normalize count input).2 =
        none := by
  induction count generalizing input with
  | zero =>
      obtain rfl := List.eq_nil_of_length_eq_zero (Nat.le_zero.mp enough)
      exact ⟨.nil [], nextChar?_eq_none.mpr char?_nil⟩
  | succ count ih =>
      rw [decode]
      cases first : charset.nextChar? unicode normalize input with
      | none => exact ⟨.nil input, first⟩
      | some result =>
          have bounds := nextChar?_bounds first
          have shorter : (input.drop result.2).length ≤ count := by
            rw [List.length_drop]
            omega
          have later := ih shorter
          exact ⟨.cons first later.1, later.2⟩

/-- The input reads as its text, and no other character follows. -/
theorem text_reads (unicode : Unicode) (charset : Charset) (normalize : Bool)
    (input : List UInt8) :
    Reads unicode charset normalize input (charset.text unicode normalize input)
        (charset.truncated unicode normalize input) ∧
      charset.nextChar? unicode normalize (charset.truncated unicode normalize input) = none :=
  decode_reads (Nat.le_refl _)

theorem Reads.eq_nil (reads : Reads unicode charset normalize input text left)
    (last : charset.nextChar? unicode normalize input = none) : text = [] := by
  cases reads with
  | nil => rfl
  | cons first more => exact absurd (first.symm.trans last) (Option.some_ne_none _)

/-- The reader looks for a line feed behind the end of what it can read. -/
def PeeksBehind (charset : Charset) (normalize : Bool) : Prop :=
  normalize = true ∧ charset ≠ .utf16

/-- Whatever the surroundings, the next character is read, unless it is a carriage return that the
reader looks behind for a character that is not there. -/
theorem reader_next (first : charset.nextChar? unicode normalize input = some (char, bytes))
    (inside : charset.PeeksBehind normalize → char = 13 →
      charset.nextChar? unicode normalize (input.drop bytes) ≠ none)
    (surroundings : Surroundings) :
    (charset.reader unicode normalize surroundings input).value = char ∧
      (charset.reader unicode normalize surroundings input).advance = bytes := by
  obtain ⟨plain, lone⟩ | ⟨rfl, rfl, start, more, rfl, returns, feed⟩ := nextChar?_cases first
  · obtain ⟨-, reach, -, reads⟩ := reader_char plain
    cases normalize with
    | false => exact ⟨by rw [reads], by rw [reads]⟩
    | true =>
        rw [reader_normalized]
        by_cases returns : char = 13
        · subst returns
          rw [CharReader.normalized_return (by rw [reads])]
          dsimp only
          rw [reads]
          have peek : (charset.reader unicode false surroundings.peek (input.drop bytes)).value ≠
              10 := by
            cases next : charset.char? unicode (input.drop bytes) with
            | some result =>
                obtain ⟨follow, more⟩ := result
                obtain ⟨-, reach, -, reads⟩ := reader_char next
                rw [reads]
                intro feed
                exact lone rfl rfl more (next.trans (congrArg (fun char => some (char, more)) feed))
            | none =>
                have outside : charset = .utf16 := by
                  by_contra other
                  exact inside ⟨rfl, other⟩ rfl (nextChar?_eq_none.mpr next)
                subst outside
                rw [reader_incomplete next]
                change (0 : Int) ≠ 10
                decide
          rw [if_neg peek]
          exact ⟨rfl, rfl⟩
        · rw [CharReader.normalized_other (by rw [reads]; exact returns), reads]
          exact ⟨rfl, rfl⟩
  · obtain ⟨-, reach, -, reads⟩ := reader_char returns
    obtain ⟨-, peekReach, -, peeks⟩ := reader_char feed
    rw [reader_normalized, CharReader.normalized_return (by rw [reads])]
    dsimp only
    rw [reads, peeks, if_pos rfl]
    exact ⟨rfl, rfl⟩

/-- A carriage return that is the last character is taken for a line feed if the surroundings
are. -/
theorem reader_last (returns : charset.nextChar? unicode true input = some (13, bytes))
    (last : charset.nextChar? unicode true (input.drop bytes) = none)
    (surroundings : Surroundings) :
    (charset.reader unicode true surroundings input).value =
        (if charset.imagined surroundings = 10 then 10 else 13) ∧
      (charset.reader unicode true surroundings input).advance =
        if charset.imagined surroundings = 10 then bytes + charset.imaginedSize else bytes := by
  obtain ⟨plain, -⟩ | ⟨-, feed, -⟩ := nextChar?_cases returns
  · exact reader_peeks plain (nextChar?_eq_none.mp last) surroundings
  · exact absurd feed (by decide)

/-- Where no character is left, there may be found a null character. -/
theorem reader_truncated
    (last : charset.nextChar? unicode normalize input = none) :
    (charset.reader unicode normalize ⟨0, 0, 0⟩ input).value = 0 := by
  have plain : (charset.reader unicode false ⟨0, 0, 0⟩ input).value = 0 := by
    have short := nextChar?_eq_none.mp last
    rw [reader_incomplete short]
    cases charset with
    | utf8 | utf16 | iso8859_1 | cp1252 => rfl
  cases normalize with
  | false => exact plain
  | true =>
      rw [reader_normalized, CharReader.normalized_other (by rw [plain]; decide)]
      exact plain

end Charset

/-! ## Characters of the output -/

/-- A writer puts out the encoding of a character if there is room for it, and never more than there
is room for. -/
structure WriterLaw (writer : IconvWrite) (encode : Int → List UInt8) : Prop where
  nonempty : ∀ char, encode char ≠ []
  fits : ∀ room char, (encode char).length ≤ room → writer room char = encode char
  within : ∀ room char, 0 < room → (writer room char).length ≤ room

namespace Charset

variable {unicode : Unicode} {charset : Charset} {crlf : Bool} {room : Nat} {char : Int}

theorem encodeChar_newline (unicode : Unicode) (charset : Charset) :
    charset.encodeChar unicode true 10 =
      charset.encodePlain unicode 13 ++ charset.encodePlain unicode 10 := rfl

theorem encodeChar_other (other : ¬ (crlf = true ∧ char = 10)) :
    charset.encodeChar unicode crlf char = charset.encodePlain unicode char :=
  if_neg other

theorem writer_crlf (unicode : Unicode) (charset : Charset) :
    charset.writer unicode true = writeCrlf (charset.writer unicode false) := by
  cases charset <;> rfl

theorem writeCp1252_length (room : Nat) (char : Int) : (writeCp1252 room char).length = 1 := by
  unfold writeCp1252
  split <;> rfl

/-- A writer that leaves line feeds as they are writes a character or nothing. -/
theorem writer_plain (lawful : unicode.Lawful) (charset : Charset) (char : Int)
    (positive : 0 < room) : charset.writer unicode false room char =
      if (charset.encodePlain unicode char).length ≤ room then charset.encodePlain unicode char
      else [] := by
  cases charset with
  | utf8 => exact lawful.write_eq char room
  | utf16 =>
      change (if room < 2 then [] else _) = if 2 ≤ room then _ else _
      by_cases small : room < 2
      · rw [if_pos small, if_neg (Nat.not_le.mpr small)]
      · rw [if_neg small, if_pos (Nat.not_lt.mp small)]
        rfl
  | cp1252 =>
      change _ = if (writeCp1252 1 char).length ≤ room then _ else _
      rw [if_pos (by rw [writeCp1252_length]; exact positive)]
      rfl
  | iso8859_1 => exact (if_pos positive).symm

theorem encodePlain_nonempty (lawful : unicode.Lawful) (charset : Charset) (char : Int) :
    charset.encodePlain unicode char ≠ [] := by
  cases charset with
  | utf8 => exact List.ne_nil_of_length_pos (lawful.write_pos char)
  | utf16 | iso8859_1 => exact List.cons_ne_nil _ _
  | cp1252 =>
      exact List.ne_nil_of_length_pos
        (Nat.lt_of_lt_of_eq Nat.one_pos (writeCp1252_length 1 char).symm)

theorem encodeChar_nonempty (lawful : unicode.Lawful) (charset : Charset) (crlf : Bool)
    (char : Int) : charset.encodeChar unicode crlf char ≠ [] := by
  unfold encodeChar
  split
  · exact List.append_ne_nil_of_left_ne_nil (encodePlain_nonempty lawful charset 13) _
  · exact encodePlain_nonempty lawful charset char

/-- The two characters of a line ending differ in their first bytes, and take as many each. -/
theorem encodePlain_ending (lawful : unicode.Lawful) (charset : Charset) :
    ∃ rest, charset.encodePlain unicode 13 = 13 :: rest ∧
      charset.encodePlain unicode 10 = 10 :: rest := by
  cases charset with
  | utf8 => exact ⟨[], lawful.write_ascii 13 (by decide), lawful.write_ascii 10 (by decide)⟩
  | utf16 => exact ⟨[0], rfl, rfl⟩
  | cp1252 | iso8859_1 => exact ⟨[], rfl, rfl⟩

/-- What is written for a line feed that is written as a pair: the pair, or as much of it as of the
carriage return alone. -/
theorem writer_newline (lawful : unicode.Lawful) (charset : Charset) (positive : 0 < room) :
    charset.writer unicode true room 10 =
      if (charset.encodeChar unicode true 10).length ≤ room then charset.encodeChar unicode true 10
      else charset.writer unicode true room 13 := by
  obtain ⟨rest, returns, feed⟩ := encodePlain_ending lawful charset
  rw [encodeChar_newline, List.length_append, writer_crlf]
  change (if 0 < room - (charset.writer unicode false room 13).length then
      charset.writer unicode false room 13 ++
        charset.writer unicode false (room - (charset.writer unicode false room 13).length) 10
    else charset.writer unicode false room 13) =
      if _ then _ else charset.writer unicode false room 13
  rw [writer_plain lawful charset 13 positive, returns, feed, List.length_cons, List.length_cons]
  by_cases first : rest.length + 1 ≤ room
  · rw [if_pos first, List.length_cons]
    by_cases left : 0 < room - (rest.length + 1)
    · rw [if_pos left, writer_plain lawful charset 10 left, feed, List.length_cons]
      by_cases second : rest.length + 1 ≤ room - (rest.length + 1)
      · rw [if_pos second, if_pos (by omega)]
      · rw [if_neg second, if_neg (by omega), List.append_nil]
    · rw [if_neg left, if_neg (by omega)]
  · rw [if_neg first, List.length_nil, Nat.sub_zero, if_pos positive, if_neg (by omega),
      writer_plain lawful charset 10 positive, feed, List.length_cons, if_neg first]
    rfl

theorem writer_other (other : ¬ (crlf = true ∧ char = 10)) :
    charset.writer unicode crlf room char = charset.writer unicode false room char := by
  cases crlf with
  | false => rfl
  | true =>
      rw [writer_crlf]
      exact if_pos fun feed => other ⟨rfl, feed⟩

theorem writer_law (lawful : unicode.Lawful) (charset : Charset) (crlf : Bool) :
    WriterLaw (charset.writer unicode crlf) (charset.encodeChar unicode crlf) where
  nonempty := encodeChar_nonempty lawful charset crlf
  fits room char enough := by
    have positive : 0 < room := Nat.lt_of_lt_of_le
      (List.length_pos_iff.mpr (encodeChar_nonempty lawful charset crlf char)) enough
    by_cases newline : crlf = true ∧ char = 10
    · obtain ⟨rfl, rfl⟩ := newline
      rw [writer_newline lawful charset positive, if_pos enough]
    · rw [encodeChar_other newline] at enough ⊢
      rw [writer_other newline, writer_plain lawful charset char positive, if_pos enough]
  within room char positive := by
    have plain (char : Int) : (charset.writer unicode false room char).length ≤ room := by
      rw [writer_plain lawful charset char positive]
      split
      · assumption
      · exact Nat.zero_le _
    by_cases newline : crlf = true ∧ char = 10
    · obtain ⟨rfl, rfl⟩ := newline
      rw [writer_newline lawful charset positive]
      split
      · assumption
      · rw [writer_other fun both => absurd both.2 (by decide)]
        exact plain 13
    · rw [writer_other newline]
      exact plain char

end Charset

end GuacNebula.Common
