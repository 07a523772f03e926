import Mathlib.Data.List.Basic
import Mathlib.Tactic.SplitIfs
import Mathlib.Tactic.TypeStar

/-! # Character conversion

A reader takes one character off the input and a writer puts one on the output. The conversion
alternates between the two until the input or the room for output runs out or a null character
has been converted.

UTF-8 is read and written by two functions of the protocol library. A read that finds too few
bytes for a character stores no codepoint, and its caller returns the variable all the same, so
the value of that variable is a parameter of the readers.

The capacity of a clipboard is counted in bytes, and what exceeds it is dropped without notice.
-/

namespace GuacNebula.Common

/-- `GUAC_COMMON_CLIPBOARD_MAX_LENGTH`. -/
def clipboardMaxLength : Nat := 262144

/-- `guac_common_clipboard`. -/
structure Clipboard where
  mimetype : List UInt8
  buffer : List UInt8
  length_le : buffer.length ≤ clipboardMaxLength

/-- `guac_common_clipboard_alloc`. -/
def Clipboard.alloc : Clipboard where
  mimetype := []
  buffer := []
  length_le := Nat.zero_le _

/-- `guac_common_clipboard_reset`. The field has room for 255 bytes of the type. -/
def Clipboard.reset (_clipboard : Clipboard) (mimetype : List UInt8) : Clipboard where
  mimetype := mimetype.take 255
  buffer := []
  length_le := Nat.zero_le _

/-- `guac_common_clipboard_append`. -/
def Clipboard.append (clipboard : Clipboard) (data : List UInt8) : Clipboard where
  mimetype := clipboard.mimetype
  buffer := clipboard.buffer ++ data.take (clipboardMaxLength - clipboard.buffer.length)
  length_le := by
    have bound := clipboard.length_le
    rw [List.length_append, List.length_take]
    omega

/-- An append cuts at the capacity what has been collected so far. -/
theorem Clipboard.append_buffer (clipboard : Clipboard) (data : List UInt8) :
    (clipboard.append data).buffer = (clipboard.buffer ++ data).take clipboardMaxLength := by
  unfold append
  rw [List.take_append, List.take_of_length_le clipboard.length_le]

theorem take_append_take {α : Type*} (bound : Nat) (front back : List α) :
    (front.take bound ++ back).take bound = (front ++ back).take bound := by
  rw [List.take_append, List.take_append, List.take_take, Nat.min_self, List.length_take]
  by_cases short : front.length ≤ bound
  · rw [Nat.min_eq_right short]
  · rw [Nat.min_eq_left (by omega), Nat.sub_self, Nat.sub_eq_zero_of_le (by omega)]

/-- Appends one after the other keep what one append of all the data keeps. -/
theorem Clipboard.foldl_append_buffer (clipboard : Clipboard) (blobs : List (List UInt8)) :
    (blobs.foldl append clipboard).buffer =
      (clipboard.buffer ++ blobs.flatten).take clipboardMaxLength := by
  induction blobs generalizing clipboard with
  | nil =>
    rw [List.flatten_nil, List.append_nil, List.take_of_length_le clipboard.length_le]
    rfl
  | cons blob blobs ih =>
    rw [List.foldl_cons, ih, append_buffer, take_append_take, List.flatten_cons,
      List.append_assoc]

/-- `guac_utf8_read` and `guac_utf8_write`. A read returns the codepoint and its number of bytes,
unless it finds too few bytes. A write returns the bytes that it has put into the room given. -/
structure Unicode where
  utf8Read : List UInt8 → Option (Nat × Nat)
  utf8Write : Int → Nat → List UInt8
  read_pos : ∀ input value bytes, utf8Read input = some (value, bytes) → 0 < bytes
  read_le : ∀ input value bytes, utf8Read input = some (value, bytes) → bytes ≤ input.length
  write_le : ∀ value remaining, (utf8Write value remaining).length ≤ remaining

/-- What the two functions promise for UTF-8. A read depends on the bytes of the character alone, and
any fewer are too few. A write is the encoding of the codepoint, of at most four bytes, if there is
room for it. -/
structure Unicode.Lawful (unicode : Unicode) : Prop where
  read_take : ∀ input count value bytes, unicode.utf8Read (input.take count) = some (value, bytes) ↔
    unicode.utf8Read input = some (value, bytes) ∧ bytes ≤ count
  write_pos : ∀ value, 0 < (unicode.utf8Write value 4).length
  write_eq : ∀ value remaining, unicode.utf8Write value remaining =
    if (unicode.utf8Write value 4).length ≤ remaining then unicode.utf8Write value 4 else []
  write_ascii : ∀ value : Nat, value < 128 → unicode.utf8Write value 4 = [UInt8.ofNat value]

/-- `guac_iconv_read`: the value returned, and the input that is left. -/
abbrev IconvRead := List UInt8 → Int × List UInt8

/-- `guac_iconv_write`: the bytes written for a value into the room that remains. -/
abbrev IconvWrite := Nat → Int → List UInt8

/-- The loop of `guac_iconv`: whether a null character has been converted, and the output. -/
def iconvLoop (reader : IconvRead) (writer : IconvWrite) :
    Nat → List UInt8 → Nat → Option (Bool × List UInt8)
  | 0, _, _ => none
  | fuel + 1, input, outRemaining =>
    if input = [] ∨ outRemaining = 0 then some (false, [])
    else
      let read := reader input
      let written := writer outRemaining read.1
      if read.1 = 0 then some (true, written)
      else
        (iconvLoop reader writer fuel read.2 (outRemaining - written.length)).map fun result =>
          (result.1, written ++ result.2)

/-- `guac_iconv`. A turn of the loop that neither reads nor writes a byte is repeated for ever, so
a loop that ends does so within as many turns as there are bytes to read and to write. -/
def iconv (reader : IconvRead) (writer : IconvWrite) (input : List UInt8) (outRemaining : Nat) :
    Option (Bool × List UInt8) :=
  iconvLoop reader writer (input.length + outRemaining + 1) input outRemaining

/-- `GUAC_READ_UTF8`. -/
def readUtf8 (unicode : Unicode) (unset : Int) : IconvRead := fun input =>
  match unicode.utf8Read input with
  | some (value, bytes) => (value, input.drop bytes)
  | none => (unset, input)

/-- `guac_iconv_read_normalized`. -/
def readNormalized (reader : IconvRead) : IconvRead := fun input =>
  let read := reader input
  if read.1 = 13 then
    let peek := reader read.2
    if peek.1 = 10 then (10, peek.2) else read
  else read

/-- `GUAC_READ_UTF8_NORMALIZED`. -/
def readUtf8Normalized (unicode : Unicode) (unset : Int) : IconvRead :=
  readNormalized (readUtf8 unicode unset)

/-- `__GUAC_RDP_CP1252_CODEPOINT`. -/
def cp1252Codepoint : List Int :=
  [0x20AC, 0xFFFD, 0x201A, 0x0192, 0x201E, 0x2026, 0x2020, 0x2021,
    0x02C6, 0x2030, 0x0160, 0x2039, 0x0152, 0xFFFD, 0x017D, 0xFFFD,
    0xFFFD, 0x2018, 0x2019, 0x201C, 0x201D, 0x2022, 0x2013, 0x2014,
    0x02DC, 0x2122, 0x0161, 0x203A, 0x0153, 0xFFFD, 0x017E, 0x0178]

/-- The conversion to `unsigned char`. -/
def toByte (value : Int) : UInt8 := UInt8.ofNat (value % 256).toNat

theorem toByte_natCast (value : Nat) : toByte value = UInt8.ofNat (value % 256) := by
  unfold toByte
  congr 1

/-- UTF-8 input and output of ASCII characters. -/
def asciiUnicode : Unicode where
  utf8Read
    | [] => none
    | byte :: _ => some (byte.toNat, 1)
  utf8Write value remaining := if 0 < remaining then [toByte value] else []
  read_pos := by
    intro input value bytes read
    cases input <;> cases read
    exact Nat.one_pos
  read_le := by
    intro input value bytes read
    cases input <;> cases read
    exact Nat.succ_le_succ (Nat.zero_le _)
  write_le := by
    intro value remaining
    split
    · assumption
    · exact Nat.zero_le _

theorem asciiUnicode_lawful : asciiUnicode.Lawful where
  read_take := by
    intro input count value bytes
    cases input with
    | nil => simp [asciiUnicode]
    | cons byte input =>
      cases count with
      | zero =>
        apply iff_of_false
        · exact fun read => nomatch read
        · rintro ⟨read, none⟩
          cases read
          cases none
      | succ count =>
        constructor
        · intro read
          cases read
          exact ⟨rfl, Nat.succ_le_succ (Nat.zero_le _)⟩
        · exact And.left
  write_pos _ := Nat.one_pos
  write_eq _ _ := rfl
  write_ascii value ascii := by
    change [toByte value] = _
    rw [toByte_natCast, UInt8.ofNat_mod_size]

/-- `GUAC_WRITE_UTF8`. -/
def writeUtf8 (unicode : Unicode) : IconvWrite := fun remaining value =>
  unicode.utf8Write value remaining

/-- `GUAC_WRITE_UTF16`, on a little-endian host. -/
def writeUtf16 : IconvWrite := fun remaining value =>
  if remaining < 2 then [] else [toByte value, toByte (value / 256)]

/-- `GUAC_WRITE_CP1252`. -/
def writeCp1252 : IconvWrite := fun _ value =>
  if (0x80 ≤ value ∧ value ≤ 0x9F) ∨ value > 0xFF then
    let found := (List.range' 0x80 32).find? fun i => cp1252Codepoint.getD (i - 0x80) 0 == value
    -- the question mark stands for what the table lacks
    [toByte ((found.getD 0x3F : Nat) : Int)]
  else [toByte value]

/-- `guac_iconv_write_crlf`. -/
def writeCrlf (writer : IconvWrite) : IconvWrite := fun remaining value =>
  if value ≠ 10 then writer remaining value
  else
    let first := writer remaining 13
    let left := remaining - first.length
    if 0 < left then first ++ writer left 10 else first

section

variable {reader : IconvRead} {writer : IconvWrite}

theorem iconvLoop_succ (fuel : Nat) {input : List UInt8} {outRemaining : Nat}
    (pending : input ≠ []) (room : outRemaining ≠ 0) :
    iconvLoop reader writer (fuel + 1) input outRemaining =
      if (reader input).1 = 0 then some (true, writer outRemaining (reader input).1)
      else
        (iconvLoop reader writer fuel (reader input).2
          (outRemaining - (writer outRemaining (reader input).1).length)).map fun result =>
            (result.1, writer outRemaining (reader input).1 ++ result.2) := by
  rw [iconvLoop, if_neg (not_or.mpr ⟨pending, room⟩)]

theorem iconvLoop_done (fuel : Nat) {input : List UInt8} {outRemaining : Nat}
    (done : input = [] ∨ outRemaining = 0) :
    iconvLoop reader writer (fuel + 1) input outRemaining = some (false, []) := by
  rw [iconvLoop, if_pos done]

theorem iconvLoop_mono {fuel more : Nat} (enough : fuel ≤ more) (input : List UInt8)
    (outRemaining : Nat) (result : Bool × List UInt8)
    (returns : iconvLoop reader writer fuel input outRemaining = some result) :
    iconvLoop reader writer more input outRemaining = some result := by
  induction fuel generalizing more input outRemaining result with
  | zero => cases returns
  | succ fuel ih =>
    obtain ⟨more, rfl⟩ : ∃ less, more = less + 1 := ⟨more - 1, by omega⟩
    by_cases done : input = [] ∨ outRemaining = 0
    · rw [iconvLoop_done fuel done] at returns
      rw [iconvLoop_done more done, returns]
    obtain ⟨pending, room⟩ := not_or.mp done
    rw [iconvLoop_succ fuel pending room] at returns
    rw [iconvLoop_succ more pending room]
    split at returns
    case isTrue null => rw [if_pos null, returns]
    case isFalse other =>
      rw [if_neg other]
      obtain ⟨rest, ran, rfl⟩ := Option.map_eq_some_iff.mp returns
      rw [ih (Nat.le_of_succ_le_succ enough) _ _ _ ran]
      rfl

/-- A turn that makes no progress is taken again and again. -/
theorem iconvLoop_stuck {input : List UInt8} {outRemaining : Nat} (pending : input ≠ [])
    (room : outRemaining ≠ 0) (other : (reader input).1 ≠ 0) (unread : (reader input).2 = input)
    (unwritten : writer outRemaining (reader input).1 = []) (fuel : Nat) :
    iconvLoop reader writer fuel input outRemaining = none := by
  induction fuel with
  | zero => rfl
  | succ fuel ih =>
    rw [iconvLoop_succ fuel pending room, if_neg other, unread, unwritten]
    exact congrArg (Option.map _) ih

/-- No run of the loop takes more turns than `iconv` allows. -/
theorem iconv_eq_some_iff (reads : ∀ input, (reader input).2 <:+ input) (input : List UInt8)
    (outRemaining : Nat) (result : Bool × List UInt8) :
    iconv reader writer input outRemaining = some result ↔
      ∃ fuel, iconvLoop reader writer fuel input outRemaining = some result := by
  constructor
  · intro returns
    exact ⟨_, returns⟩
  rintro ⟨fuel, returns⟩
  induction fuel generalizing input outRemaining result with
  | zero => cases returns
  | succ fuel ih =>
    by_cases done : input = [] ∨ outRemaining = 0
    · rw [iconvLoop_done fuel done] at returns
      rw [iconv, iconvLoop_done _ done, returns]
    obtain ⟨pending, room⟩ := not_or.mp done
    by_cases null : (reader input).1 = 0
    · rw [iconvLoop_succ fuel pending room, if_pos null] at returns
      rw [iconv, iconvLoop_succ _ pending room, if_pos null, returns]
    by_cases stuck : (reader input).2 = input ∧ writer outRemaining (reader input).1 = []
    · rw [iconvLoop_stuck pending room null stuck.1 stuck.2] at returns
      cases returns
    rw [iconvLoop_succ fuel pending room, if_neg null] at returns
    rw [iconv, iconvLoop_succ _ pending room, if_neg null]
    obtain ⟨rest, ran, rfl⟩ := Option.map_eq_some_iff.mp returns
    -- either the input or the room has become smaller
    have progress : (reader input).2.length +
        (outRemaining - (writer outRemaining (reader input).1).length) + 1 ≤
          input.length + outRemaining := by
      have shorter := (reads input).length_le
      by_cases unread : (reader input).2 = input
      · have written : (writer outRemaining (reader input).1).length ≠ 0 := fun none =>
          stuck ⟨unread, List.eq_nil_of_length_eq_zero none⟩
        omega
      · have different : (reader input).2.length ≠ input.length := fun same =>
          unread ((reads input).eq_of_length same)
        omega
    rw [iconvLoop_mono progress _ _ _ (ih _ _ _ ran)]
    rfl

theorem readUtf8_suffix (unicode : Unicode) (unset : Int) (input : List UInt8) :
    (readUtf8 unicode unset input).2 <:+ input := by
  unfold readUtf8
  split
  · exact List.drop_suffix _ _
  · exact List.suffix_rfl

theorem readNormalized_suffix (reads : ∀ input, (reader input).2 <:+ input)
    (input : List UInt8) : (readNormalized reader input).2 <:+ input := by
  dsimp only [readNormalized]
  split_ifs
  · exact (reads _).trans (reads input)
  · exact reads input
  · exact reads input

theorem readNormalized_other {input : List UInt8} (other : (reader input).1 ≠ 13) :
    readNormalized reader input = reader input :=
  if_neg other

theorem readNormalized_pair {input : List UInt8} (returns : (reader input).1 = 13)
    (feed : (reader (reader input).2).1 = 10) :
    readNormalized reader input = (10, (reader (reader input).2).2) :=
  (if_pos returns).trans (if_pos feed)

theorem readNormalized_lone {input : List UInt8} (returns : (reader input).1 = 13)
    (other : (reader (reader input).2).1 ≠ 10) : readNormalized reader input = reader input :=
  (if_pos returns).trans (if_neg other)

end

/-! ## Characters of UTF-8 input -/

/-- The first character of the input and the input after it, where a line ending may be taken for
a line feed. -/
def Unicode.firstChar (unicode : Unicode) (normalize : Bool) (input : List UInt8) :
    Option (Nat × List UInt8) :=
  match unicode.utf8Read input with
  | none => none
  | some (char, bytes) =>
    if normalize ∧ char = 13 then
      match unicode.utf8Read (input.drop bytes) with
      | some (10, more) => some (10, (input.drop bytes).drop more)
      | _ => some (13, input.drop bytes)
    else some (char, input.drop bytes)

/-- The input reads as the text and leaves the rest. -/
inductive Unicode.Reads (unicode : Unicode) (normalize : Bool) :
    List UInt8 → List Nat → List UInt8 → Prop where
  | nil (input : List UInt8) : Reads unicode normalize input [] input
  | cons {input rest left : List UInt8} {char : Nat} {text : List Nat}
      (first : unicode.firstChar normalize input = some (char, rest))
      (more : Reads unicode normalize rest text left) :
      Reads unicode normalize input (char :: text) left

theorem Unicode.Reads.append_iff {unicode : Unicode} {normalize : Bool} {input left : List UInt8}
    {front back : List Nat} :
    unicode.Reads normalize input (front ++ back) left ↔
      ∃ rest, unicode.Reads normalize input front rest ∧ unicode.Reads normalize rest back left := by
  induction front generalizing input with
  | nil =>
    constructor
    · intro reads
      exact ⟨input, .nil input, reads⟩
    · rintro ⟨rest, ⟨⟩, reads⟩
      exact reads
  | cons char front ih =>
    constructor
    · intro reads
      rw [List.cons_append] at reads
      cases reads with
      | cons first more =>
        obtain ⟨rest, before, after⟩ := ih.mp more
        exact ⟨rest, .cons first before, after⟩
    · rintro ⟨rest, before, after⟩
      cases before with
      | cons first more => exact .cons first (ih.mpr ⟨rest, more, after⟩)

/-- The reader of UTF-8 with or without normalization. -/
def readUtf8As (unicode : Unicode) (unset : Int) (normalize : Bool) : IconvRead :=
  if normalize then readUtf8Normalized unicode unset else readUtf8 unicode unset

variable {unicode : Unicode} {unset : Int} {normalize : Bool}

theorem readUtf8_none {input : List UInt8} (short : unicode.utf8Read input = none) :
    readUtf8 unicode unset input = (unset, input) := by
  unfold readUtf8
  rw [short]

theorem readUtf8_some {input : List UInt8} {char bytes : Nat}
    (read : unicode.utf8Read input = some (char, bytes)) :
    readUtf8 unicode unset input = ((char : Int), input.drop bytes) := by
  unfold readUtf8
  rw [read]

theorem Unicode.utf8Read_nil : unicode.utf8Read [] = none := by
  cases read : unicode.utf8Read [] with
  | none => rfl
  | some result =>
    have positive := unicode.read_pos _ _ _ read
    have bound := unicode.read_le _ _ _ read
    exact absurd (Nat.lt_of_lt_of_le positive bound) (Nat.lt_irrefl 0)

theorem Unicode.firstChar_eq_none {input : List UInt8} :
    unicode.firstChar normalize input = none ↔ unicode.utf8Read input = none := by
  unfold firstChar
  cases unicode.utf8Read input with
  | none => exact iff_of_true rfl rfl
  | some result =>
    refine iff_of_false ?_ (Option.some_ne_none result)
    dsimp only
    split_ifs
    · split <;> exact Option.some_ne_none _
    · exact not_false

theorem Unicode.firstChar_nil : unicode.firstChar normalize [] = none :=
  firstChar_eq_none.mpr utf8Read_nil

/-- Input that reads as some text has a first character. -/
theorem Unicode.Reads.utf8Read_ne_none {input left : List UInt8} {text : List Nat}
    (reads : unicode.Reads normalize input text left) (nonempty : text ≠ []) :
    unicode.utf8Read input ≠ none := by
  cases reads with
  | nil => exact absurd rfl nonempty
  | cons first more =>
    intro none
    rw [firstChar_eq_none.mpr none] at first
    cases first

theorem Unicode.Reads.eq_of_nil {input left : List UInt8}
    (reads : unicode.Reads normalize input [] left) : left = input := by
  cases reads
  rfl

/-- Where the reading has come to a place, the whole text goes on from there. -/
theorem Unicode.Reads.continue {input rest : List UInt8} {front text : List Nat}
    (before : unicode.Reads normalize input front rest)
    (whole : unicode.Reads normalize input text []) :
    ∃ back, text = front ++ back ∧ unicode.Reads normalize rest back [] := by
  induction before generalizing text with
  | nil => exact ⟨text, rfl, whole⟩
  | cons first more ih =>
    cases whole with
    | nil =>
      rw [firstChar_nil] at first
      cases first
    | cons same whole =>
      cases first.symm.trans same
      obtain ⟨back, rfl, after⟩ := ih whole
      exact ⟨back, rfl, after⟩

theorem Unicode.firstChar_length {input rest : List UInt8} {char : Nat}
    (first : unicode.firstChar normalize input = some (char, rest)) :
    rest.length < input.length := by
  unfold firstChar at first
  cases read : unicode.utf8Read input with
  | none =>
    rw [read] at first
    cases first
  | some result =>
    obtain ⟨value, bytes⟩ := result
    have positive := unicode.read_pos _ _ _ read
    have bound := unicode.read_le _ _ _ read
    rw [read] at first
    dsimp only at first
    split_ifs at first
    · split at first <;> cases first <;> simp only [List.length_drop] <;> omega
    · cases first
      rw [List.length_drop]
      omega

theorem Unicode.firstChar_suffix {input rest : List UInt8} {char : Nat}
    (first : unicode.firstChar normalize input = some (char, rest)) : rest <:+ input := by
  unfold firstChar at first
  cases read : unicode.utf8Read input with
  | none =>
    rw [read] at first
    cases first
  | some result =>
    rw [read] at first
    dsimp only at first
    split_ifs at first
    · split at first <;> cases first
      · exact (List.drop_suffix _ _).trans (List.drop_suffix _ _)
      · exact List.drop_suffix _ _
    · cases first
      exact List.drop_suffix _ _

theorem Unicode.Reads.length_le {input left : List UInt8} {text : List Nat}
    (reads : unicode.Reads normalize input text left) :
    text.length + left.length ≤ input.length := by
  induction reads with
  | nil input => exact Nat.le_of_eq (Nat.zero_add _)
  | cons first more ih =>
    have shorter := firstChar_length first
    rw [List.length_cons]
    omega

/-- A read that finds too few bytes returns the variable as it was. -/
theorem readUtf8As_none {input : List UInt8} (short : unicode.firstChar normalize input = none) :
    readUtf8As unicode unset normalize input = (unset, input) := by
  have plain : readUtf8 unicode unset input = (unset, input) :=
    readUtf8_none (Unicode.firstChar_eq_none.mp short)
  cases normalize with
  | false => exact plain
  | true =>
    change readNormalized (readUtf8 unicode unset) input = _
    by_cases returns : unset = 13
    · rw [readNormalized_lone] <;> rw [plain]
      · exact returns
      · rw [plain]
        exact fun feed => absurd (returns.symm.trans feed) (by decide)
    · rw [readNormalized_other] <;> rw [plain]
      exact returns

/-- The first character is returned, unless it is a carriage return at the end of what can be read:
then the variable as it was is taken for the character after it. -/
theorem readUtf8As_some {input rest : List UInt8} {char : Nat}
    (first : unicode.firstChar normalize input = some (char, rest))
    (peeked : char ≠ 13 ∨ unicode.utf8Read rest ≠ none ∨ unset ≠ 10) :
    readUtf8As unicode unset normalize input = ((char : Int), rest) := by
  cases read : unicode.utf8Read input with
  | none =>
    rw [Unicode.firstChar_eq_none.mpr read] at first
    cases first
  | some result =>
    obtain ⟨value, bytes⟩ := result
    have plain : readUtf8 unicode unset input = ((value : Int), input.drop bytes) :=
      readUtf8_some read
    unfold Unicode.firstChar at first
    rw [read] at first
    dsimp only at first
    cases normalize with
    | false =>
      cases first
      exact plain
    | true =>
      change readNormalized (readUtf8 unicode unset) input = _
      have head : (readUtf8 unicode unset input).1 = value := by rw [plain]
      have tail : (readUtf8 unicode unset input).2 = input.drop bytes := by rw [plain]
      split_ifs at first with both
      case neg =>
        cases first
        have other : char ≠ 13 := fun returns => both ⟨rfl, returns⟩
        rw [readNormalized_other (by omega), plain]
      obtain ⟨-, rfl⟩ := both
      split at first
      case h_1 more next =>
        cases first
        have peek : readUtf8 unicode unset (readUtf8 unicode unset input).2 =
            (10, (input.drop bytes).drop more) := by rw [tail, readUtf8_some next]; rfl
        rw [readNormalized_pair head (by rw [peek]), peek]
        rfl
      case h_2 other =>
        cases first
        have lone : (readUtf8 unicode unset (readUtf8 unicode unset input).2).1 ≠ 10 := by
          rw [tail]
          cases next : unicode.utf8Read (input.drop bytes) with
          | none =>
            rw [readUtf8_none next]
            simpa [next] using peeked
          | some result =>
            obtain ⟨follow, more⟩ := result
            rw [readUtf8_some next]
            intro feed
            have same : follow = 10 := by omega
            exact other more (by rw [next, same])
        rw [readNormalized_lone head lone, plain]

/-- The variable as it was is taken for the line feed of a pair. -/
theorem readUtf8As_last {input rest : List UInt8}
    (first : unicode.firstChar true input = some (13, rest))
    (last : unicode.utf8Read rest = none) :
    readUtf8As unicode 10 true input = (10, rest) := by
  have plain : readUtf8 unicode 10 input = (13, rest) := by
    cases read : unicode.utf8Read input with
    | none =>
      rw [Unicode.firstChar_eq_none.mpr read] at first
      cases first
    | some result =>
      obtain ⟨value, bytes⟩ := result
      unfold Unicode.firstChar at first
      rw [read] at first
      dsimp only at first
      split_ifs at first with both
      · rw [readUtf8_some read, both.2]
        split at first <;> cases first
        rfl
      · cases first
        exact absurd ⟨rfl, rfl⟩ both
  have peek : readUtf8 unicode 10 rest = (10, rest) := readUtf8_none last
  change readNormalized (readUtf8 unicode 10) input = _
  have head : (readUtf8 unicode 10 input).1 = 13 := by rw [plain]
  have tail : (readUtf8 unicode 10 input).2 = rest := by rw [plain]
  rw [readNormalized_pair head (by rw [tail, peek]), tail, peek]

/-- The first character is the same where the input is cut after it. -/
theorem Unicode.Lawful.firstChar_take (lawful : unicode.Lawful) {input rest : List UInt8}
    {char count : Nat} (first : unicode.firstChar normalize input = some (char, rest))
    (within : input.length ≤ rest.length + count) :
    unicode.firstChar normalize (input.take count) =
      some (char, rest.take (rest.length + count - input.length)) := by
  cases read : unicode.utf8Read input with
  | none =>
    rw [Unicode.firstChar_eq_none.mpr read] at first
    cases first
  | some result =>
    obtain ⟨value, bytes⟩ := result
    have bound := unicode.read_le _ _ _ read
    -- the bytes of a character are found, and nothing else than in the whole input
    have found : bytes ≤ count → unicode.utf8Read (input.take count) = some (value, bytes) :=
      fun enough => (lawful.read_take _ _ _ _).mpr ⟨read, enough⟩
    unfold Unicode.firstChar at first ⊢
    rw [read] at first
    dsimp only at first
    split_ifs at first with both
    case neg =>
      cases first
      rw [List.length_drop] at within ⊢
      rw [found (by omega)]
      dsimp only
      rw [if_neg both, List.drop_take]
      congr 3
      omega
    obtain ⟨rfl, rfl⟩ := both
    split at first
    case h_1 more next =>
      cases first
      have left := unicode.read_le _ _ _ next
      rw [List.length_drop, List.length_drop] at within ⊢
      rw [List.length_drop] at left
      rw [found (by omega)]
      dsimp only
      have peek : unicode.utf8Read ((input.drop bytes).take (count - bytes)) = some (10, more) :=
        (lawful.read_take _ _ _ _).mpr ⟨next, by omega⟩
      rw [if_pos ⟨rfl, rfl⟩, List.drop_take, peek]
      change some (10, ((input.drop bytes).take (count - bytes)).drop more) = _
      rw [List.drop_take]
      congr 3
      omega
    case h_2 other =>
      cases first
      rw [List.length_drop] at within ⊢
      rw [found (by omega)]
      dsimp only
      have lone : ∀ more,
          unicode.utf8Read ((input.drop bytes).take (count - bytes)) ≠ some (10, more) := by
        intro more next
        exact other more ((lawful.read_take _ _ _ _).mp next).1
      have same : input.length - bytes + count - input.length = count - bytes := by omega
      rw [if_pos ⟨rfl, rfl⟩, List.drop_take, same]
      split
      case h_1 more next => exact absurd next (lone more)
      case h_2 => rfl

/-- One turn of the loop on input that has a first character. -/
theorem iconvLoop_char (writer : IconvWrite) (fuel : Nat) {input rest : List UInt8} {char : Nat}
    (first : unicode.firstChar normalize input = some (char, rest))
    (peeked : char ≠ 13 ∨ unicode.utf8Read rest ≠ none ∨ unset ≠ 10) {room : Nat}
    (room_pos : 0 < room) :
    iconvLoop (readUtf8As unicode unset normalize) writer (fuel + 1) input room =
      if char = 0 then some (true, writer room char)
      else
        (iconvLoop (readUtf8As unicode unset normalize) writer fuel rest
          (room - (writer room char).length)).map fun result =>
            (result.1, writer room char ++ result.2) := by
  have pending : input ≠ [] := by
    rintro rfl
    rw [Unicode.firstChar_nil] at first
    cases first
  rw [iconvLoop_succ fuel pending (Nat.pos_iff_ne_zero.mp room_pos),
    readUtf8As_some first peeked]
  exact ite_congr (propext Int.natCast_eq_zero) (fun _ => rfl) (fun _ => rfl)

end GuacNebula.Common
