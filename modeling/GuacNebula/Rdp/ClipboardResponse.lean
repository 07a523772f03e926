import GuacNebula.Common.Iconv
import GuacNebula.Rdp.Cliprdr
import Mathlib.Data.List.Find

/-! # Responses with clipboard text

The data of a user arrives in blobs, and the end of its stream adds a null character. When the
server requests the text, it is converted from UTF-8 to the requested encoding.

The null character that ends a response is the one of the clipboard. A response goes without it
when the clipboard has no room for it, when it lies beyond the room for the converted text, or when
the bytes before it do not read as characters.
-/

namespace GuacNebula.Rdp

open Common

/-- The settings that decide how the clipboard is sent to the server. -/
structure PasteSettings where
  normalizeClipboard : Bool
  clipboardCrlf : Bool

/-- The writer that `guac_rdp_cliprdr_format_data_request` chooses. -/
def remoteWriter (settings : PasteSettings) (requestedFormatId : UInt32) : Option IconvWrite :=
  if requestedFormatId = cfText then
    some (if settings.clipboardCrlf then writeCrlf writeCp1252 else writeCp1252)
  else if requestedFormatId = cfUnicodeText then
    some (if settings.clipboardCrlf then writeCrlf writeUtf16 else writeUtf16)
  else none

/-- The reader that `guac_rdp_cliprdr_format_data_request` chooses. -/
def localReader (unicode : Unicode) (unset : Int) (settings : PasteSettings) : IconvRead :=
  if settings.normalizeClipboard then readUtf8Normalized unicode unset else readUtf8 unicode unset

/-- `guac_rdp_cliprdr_format_data_request`: the data of the Format Data Response. There is none
for a format that has not been declared, and none from a conversion that does not end. -/
def cliprdrFormatDataRequest (unicode : Unicode) (unset : Int) (settings : PasteSettings)
    (clipboard : Common.Clipboard) (requestedFormatId : UInt32) : Option (List UInt8) :=
  (remoteWriter settings requestedFormatId).bind fun writer =>
    (iconv (localReader unicode unset settings) writer clipboard.buffer clipboardMaxLength).map
      Prod.snd

/-- `guac_rdp_clipboard_handler`. -/
def clipboardHandler (clipboard : Common.Clipboard) (mimetype : List UInt8) : Common.Clipboard :=
  clipboard.reset mimetype

/-- `guac_rdp_clipboard_blob_handler`. -/
def clipboardBlobHandler (clipboard : Common.Clipboard) (data : List UInt8) : Common.Clipboard :=
  clipboard.append data

/-- `guac_rdp_clipboard_end_handler`. -/
def clipboardEndHandler (clipboard : Common.Clipboard) : Common.Clipboard :=
  clipboard.append [0]

/-- The clipboard after a stream of a user has ended. -/
def receiveClipboard (clipboard : Common.Clipboard) (mimetype : List UInt8)
    (blobs : List (List UInt8)) : Common.Clipboard :=
  clipboardEndHandler (blobs.foldl clipboardBlobHandler (clipboardHandler clipboard mimetype))

/-- The encodings of the declared formats. -/
inductive TextEncoding where
  | cp1252 | utf16
  deriving DecidableEq, Repr

/-- The format that asks for text in the encoding. -/
def TextEncoding.format : TextEncoding → UInt32
  | cp1252 => cfText
  | utf16 => cfUnicodeText

/-- The character that a byte stands for in CP-1252. -/
def cp1252Character (code : Nat) : Int :=
  if 0x80 ≤ code ∧ code ≤ 0x9F then cp1252Codepoint.getD (code - 0x80) 0 else code

/-- The first byte that stands for the character in CP-1252, or else a question mark. -/
def cp1252Code (char : Nat) : Nat :=
  ((List.range 256).find? fun code => cp1252Character code == char).getD 0x3F

/-- A code unit of UTF-16. -/
def utf16Unit (value : Nat) : List UInt8 :=
  [UInt8.ofNat (value % 256), UInt8.ofNat (value / 256)]

/-- The encoding of a character. Beyond the Basic Multilingual Plane, UTF-16 has two units for it. -/
def TextEncoding.encodeChar : TextEncoding → Nat → List UInt8
  | cp1252, char => [UInt8.ofNat (cp1252Code char)]
  | utf16, char =>
    if char < 0x10000 then utf16Unit char
    else
      utf16Unit (0xD800 + (char - 0x10000) / 0x400) ++ utf16Unit (0xDC00 + (char - 0x10000) % 0x400)

/-- The encoding of a character, with the line ending that the settings ask for. -/
def TextEncoding.encodeEnding (encoding : TextEncoding) (settings : PasteSettings) (char : Nat) :
    List UInt8 :=
  if settings.clipboardCrlf ∧ char = 10 then encoding.encodeChar 13 ++ encoding.encodeChar 10
  else encoding.encodeChar char

/-- The encoding of a text. -/
def TextEncoding.encode (encoding : TextEncoding) (settings : PasteSettings) (text : List Nat) :
    List UInt8 :=
  text.flatMap (encoding.encodeEnding settings)

/-- The text, which ends before the first null character, is a first part of the clipboard. -/
def ClipboardText (unicode : Unicode) (settings : PasteSettings) (clipboard : Common.Clipboard)
    (text : List Nat) : Prop :=
  0 ∉ text ∧ ∃ rest, unicode.Reads settings.normalizeClipboard clipboard.buffer text rest

/-- The response consists of a first part of the text on the clipboard and a null character. -/
def ResponseTerminated (unicode : Unicode) (settings : PasteSettings)
    (clipboard : Common.Clipboard) (encoding : TextEncoding) : Prop :=
  ∀ unset : Int, ∃ text, ClipboardText unicode settings clipboard text ∧
    cliprdrFormatDataRequest unicode unset settings clipboard encoding.format =
      some (encoding.encode settings text ++ encoding.encodeChar 0)

/-- Every character of the text has a single code in the encoding. -/
def SingleCodes (encoding : TextEncoding) (text : List Nat) : Prop :=
  encoding = .utf16 → ∀ char ∈ text, char < 0x10000

/-- The clipboard reads as a text with single codes up to a null character, and the encoded text
has room in a response together with the null character. -/
def TerminatorFits (unicode : Unicode) (settings : PasteSettings) (clipboard : Common.Clipboard)
    (encoding : TextEncoding) : Prop :=
  ∃ text, 0 ∉ text ∧ SingleCodes encoding text ∧
    (∃ rest, unicode.Reads settings.normalizeClipboard clipboard.buffer (text ++ [0]) rest) ∧
      (encoding.encode settings text ++ encoding.encodeChar 0).length ≤ clipboardMaxLength

/-! ## Writing characters -/

/-- The number of bytes of a code. -/
def TextEncoding.size : TextEncoding → Nat
  | cp1252 => 1
  | utf16 => 2

/-- The writer without regard to line endings. -/
def TextEncoding.writer : TextEncoding → IconvWrite
  | cp1252 => writeCp1252
  | utf16 => writeUtf16

/-- The writer with the line endings that the settings ask for. -/
def TextEncoding.endingWriter (encoding : TextEncoding) (settings : PasteSettings) : IconvWrite :=
  if settings.clipboardCrlf then writeCrlf encoding.writer else encoding.writer

theorem remoteWriter_format (settings : PasteSettings) (encoding : TextEncoding) :
    remoteWriter settings encoding.format = some (encoding.endingWriter settings) := by
  cases encoding <;> rfl

theorem cp1252Codepoint_above : ∀ index < 32, 0xFF < cp1252Codepoint.getD index 0 := by
  decide

/-- A character that is a byte outside of the table has that byte for its code. -/
theorem cp1252Code_same {char : Nat} (byte : char < 256) (outside : ¬(0x80 ≤ char ∧ char ≤ 0x9F)) :
    cp1252Code char = char := by
  have same : cp1252Character char = char := if_neg outside
  have found : (List.range 256).find? (fun code => cp1252Character code == char) = some char := by
    apply List.find?_range_eq_some.mpr
    refine ⟨beq_iff_eq.mpr same, List.mem_range.mpr byte, ?_⟩
    intro code before
    unfold cp1252Character
    split
    case isTrue inside =>
      have above := cp1252Codepoint_above (code - 0x80) (by omega)
      simp only [Bool.not_eq_true', beq_eq_false_iff_ne]
      omega
    case isFalse =>
      simp only [Bool.not_eq_true', beq_eq_false_iff_ne]
      omega
  unfold cp1252Code
  rw [found]
  rfl

/-- Bytes outside of the table stand for themselves only. -/
theorem find_outside_table {char : Nat} {codes : List Nat}
    (outside : ∀ code ∈ codes, code ≠ char ∧ ¬(0x80 ≤ code ∧ code ≤ 0x9F)) :
    codes.find? (fun code => cp1252Character code == char) = none := by
  apply List.find?_eq_none.mpr
  intro code member
  obtain ⟨different, other⟩ := outside code member
  unfold cp1252Character
  rw [if_neg other, beq_iff_eq]
  omega

theorem bytes_around_table :
    List.range 256 = List.range 128 ++ (List.range' 0x80 32 ++ List.range' 160 96) := by
  decide +kernel

theorem writeCp1252_char (room char : Nat) :
    writeCp1252 room char = [UInt8.ofNat (cp1252Code char)] := by
  by_cases listed : (0x80 ≤ (char : Int) ∧ (char : Int) ≤ 0x9F) ∨ (char : Int) > 0xFF
  case neg =>
    rw [cp1252Code_same (by omega) (by omega)]
    apply (if_neg listed).trans
    rw [toByte_natCast, UInt8.ofNat_mod_size]
  have before : (List.range 128).find? (fun code => cp1252Character code == char) = none := by
    apply find_outside_table
    intro code member
    have := List.mem_range.mp member
    omega
  have after : (List.range' 160 96).find? (fun code => cp1252Character code == char) = none := by
    apply find_outside_table
    intro code member
    have := List.mem_range'_1.mp member
    omega
  have table : (List.range' 0x80 32).find? (fun code => cp1252Character code == char) =
      (List.range' 0x80 32).find? fun i => cp1252Codepoint.getD (i - 0x80) 0 == char := by
    apply List.find?_congr
    intro code member
    have inside := List.mem_range'_1.mp member
    unfold cp1252Character
    rw [if_pos (by omega)]
  unfold cp1252Code
  rw [bytes_around_table, List.find?_append, List.find?_append, before, after, table,
    Option.none_or, Option.or_none]
  apply (if_pos listed).trans
  dsimp only
  rw [toByte_natCast, UInt8.ofNat_mod_size]

theorem writeUtf16_char {room char : Nat} (fits : 2 ≤ room) (single : char < 0x10000) :
    writeUtf16 room char = utf16Unit char := by
  have high : (char : Int) / 256 = ((char / 256 : Nat) : Int) := rfl
  have byte : char / 256 % 256 = char / 256 := Nat.mod_eq_of_lt (by omega)
  unfold writeUtf16 utf16Unit
  rw [if_neg (by omega), high, toByte_natCast, toByte_natCast, byte]

theorem encodeChar_utf16 {char : Nat} (single : char < 0x10000) :
    TextEncoding.utf16.encodeChar char = utf16Unit char :=
  if_pos single

variable {encoding : TextEncoding} {settings : PasteSettings}

theorem writer_char {room char : Nat} (fits : encoding.size ≤ room)
    (single : encoding = .utf16 → char < 0x10000) :
    encoding.writer room char = encoding.encodeChar char := by
  cases encoding with
  | cp1252 => exact writeCp1252_char room char
  | utf16 =>
    rw [encodeChar_utf16 (single rfl)]
    exact writeUtf16_char fits (single rfl)

theorem encodeChar_length {char : Nat} (single : encoding = .utf16 → char < 0x10000) :
    (encoding.encodeChar char).length = encoding.size := by
  cases encoding with
  | cp1252 => rfl
  | utf16 =>
    rw [encodeChar_utf16 (single rfl)]
    rfl

theorem cp1252Code_lt (char : Nat) : cp1252Code char < 256 := by
  unfold cp1252Code
  cases found : (List.range 256).find? fun code => cp1252Character code == char with
  | none => exact Nat.lt_of_sub_eq_succ rfl
  | some code => exact List.mem_range.mp (List.mem_of_find?_eq_some found)

theorem cp1252Code_eq_zero {char : Nat} (null : cp1252Code char = 0) : char = 0 := by
  unfold cp1252Code at null
  cases found : (List.range 256).find? fun code => cp1252Character code == char with
  | none =>
    rw [found] at null
    cases null
  | some code =>
    rw [found] at null
    obtain rfl : code = 0 := null
    have same := List.find?_some found
    rw [beq_iff_eq] at same
    exact (Int.natCast_inj.mp same).symm

/-- The null character is the only one whose code is null. -/
theorem encodeChar_eq_null {char : Nat} (single : encoding = .utf16 → char < 0x10000)
    (null : encoding.encodeChar char = encoding.encodeChar 0) : char = 0 := by
  cases encoding with
  | cp1252 =>
    apply cp1252Code_eq_zero
    have code := congrArg UInt8.toNat (List.head_eq_of_cons_eq null)
    rwa [UInt8.toNat_ofNat_of_lt' (cp1252Code_lt char)] at code
  | utf16 =>
    rw [encodeChar_utf16 (single rfl)] at null
    have low := congrArg UInt8.toNat (List.head_eq_of_cons_eq null)
    have high := congrArg UInt8.toNat
      (List.head_eq_of_cons_eq (List.tail_eq_of_cons_eq null))
    have below := single rfl
    rw [UInt8.toNat_ofNat_of_lt' (Nat.mod_lt _ (by decide))] at low
    rw [UInt8.toNat_ofNat_of_lt' (by change char / 256 < 256; omega)] at high
    change char % 256 = 0 at low
    change char / 256 = 0 at high
    omega

theorem endingWriter_plain {char : Nat} (plain : ¬(settings.clipboardCrlf = true ∧ char = 10))
    (room : Nat) : encoding.endingWriter settings room char = encoding.writer room char := by
  unfold TextEncoding.endingWriter
  split
  case isFalse => rfl
  case isTrue crlf =>
    have other : (char : Int) ≠ 10 := fun newline => plain ⟨crlf, by omega⟩
    exact if_pos other

theorem endingWriter_newline (crlf : settings.clipboardCrlf = true) {room : Nat}
    (fits : encoding.size ≤ room) :
    encoding.endingWriter settings room 10 =
      if 0 < room - encoding.size then
        encoding.encodeChar 13 ++ encoding.writer (room - encoding.size) 10
      else encoding.encodeChar 13 := by
  have returns : encoding = .utf16 → 13 < 0x10000 := fun _ => by decide
  have first : encoding.writer room 13 = encoding.encodeChar 13 := writer_char fits returns
  unfold TextEncoding.endingWriter
  rw [if_pos crlf]
  dsimp only [writeCrlf]
  rw [first, encodeChar_length returns]
  exact if_neg (fun other => other rfl)

theorem encodeEnding_plain {char : Nat} (plain : ¬(settings.clipboardCrlf = true ∧ char = 10)) :
    encoding.encodeEnding settings char = encoding.encodeChar char :=
  if_neg plain

theorem encodeEnding_newline (crlf : settings.clipboardCrlf = true) :
    encoding.encodeEnding settings 10 = encoding.encodeChar 13 ++ encoding.encodeChar 10 :=
  if_pos ⟨crlf, rfl⟩

theorem TextEncoding.size_pos : 0 < encoding.size := by
  cases encoding <;> decide

/-- A character is written in full if the room is large enough. -/
theorem endingWriter_char {room char : Nat} (single : encoding = .utf16 → char < 0x10000)
    (fits : (encoding.encodeEnding settings char).length ≤ room) :
    encoding.endingWriter settings room char = encoding.encodeEnding settings char := by
  by_cases ending : settings.clipboardCrlf = true ∧ char = 10
  case neg =>
    rw [encodeEnding_plain ending] at fits ⊢
    rw [endingWriter_plain ending]
    rw [encodeChar_length single] at fits
    exact writer_char fits single
  obtain ⟨crlf, rfl⟩ := ending
  have returns : encoding = .utf16 → 13 < 0x10000 := fun _ => by decide
  rw [encodeEnding_newline crlf] at fits ⊢
  rw [List.length_append, encodeChar_length returns, encodeChar_length single] at fits
  have positive := encoding.size_pos
  have feed : encoding.writer (room - encoding.size) 10 = encoding.encodeChar 10 :=
    writer_char (by omega) single
  apply (endingWriter_newline crlf (by omega)).trans
  rw [if_pos (by omega), feed]

/-- What is written for a character ends in the code of another character than null. -/
theorem endingWriter_ends (settings : PasteSettings) {room char : Nat} (room_pos : 0 < room)
    (whole : encoding.size ∣ room) (single : encoding = .utf16 → char < 0x10000) (other : char ≠ 0) :
    ∃ before last, last ≠ 0 ∧ (encoding = .utf16 → last < 0x10000) ∧
      encoding.endingWriter settings room char = before ++ encoding.encodeChar last := by
  have fits : encoding.size ≤ room := Nat.le_of_dvd room_pos whole
  by_cases ending : settings.clipboardCrlf = true ∧ char = 10
  case neg =>
    refine ⟨[], char, other, single, ?_⟩
    rw [endingWriter_plain ending]
    exact writer_char fits single
  obtain ⟨crlf, rfl⟩ := ending
  rw [show ((10 : Nat) : Int) = 10 from rfl, endingWriter_newline crlf fits]
  split
  case isTrue left =>
    have more : encoding.size ≤ room - encoding.size :=
      Nat.le_of_dvd left (Nat.dvd_sub whole (Nat.dvd_refl _))
    exact ⟨encoding.encodeChar 13, 10, by decide, single, congrArg _ (writer_char more single)⟩
  case isFalse => exact ⟨[], 13, by decide, fun _ => by decide, rfl⟩

/-- Only whole codes are written. -/
theorem endingWriter_whole (room : Nat) (value : Int) :
    encoding.size ∣ (encoding.endingWriter settings room value).length := by
  have whole : ∀ room value, encoding.size ∣ (encoding.writer room value).length := by
    intro room value
    cases encoding with
    | cp1252 => exact Nat.one_dvd _
    | utf16 =>
      dsimp only [TextEncoding.writer, writeUtf16]
      split
      · exact Nat.dvd_zero _
      · exact Nat.dvd_refl _
  unfold TextEncoding.endingWriter
  split
  case isFalse => exact whole room value
  dsimp only [writeCrlf]
  split_ifs
  · exact whole room value
  · rw [List.length_append]
    exact Nat.dvd_add (whole _ _) (whole _ _)
  · exact whole room 13

/-! ## The conversion of a response -/

variable {unicode : Unicode} {unset : Int} {normalize : Bool}

/-- A text that has room, with the null character after it, is converted as a whole. -/
theorem iconvLoop_text {text : List Nat} (nonnull : 0 ∉ text) (single : SingleCodes encoding text)
    {input rest : List UInt8} (reads : unicode.Reads normalize input (text ++ [0]) rest)
    {room : Nat} (fits : (encoding.encode settings text ++ encoding.encodeChar 0).length ≤ room)
    {fuel : Nat} (enough : text.length < fuel) :
    iconvLoop (readUtf8As unicode unset normalize) (encoding.endingWriter settings) fuel input
      room = some (true, encoding.encode settings text ++ encoding.encodeChar 0) := by
  have nullSingle : encoding = .utf16 → 0 < 0x10000 := fun _ => by decide
  rw [List.length_append, encodeChar_length nullSingle] at fits
  have positive := encoding.size_pos
  induction text generalizing input room fuel with
  | nil =>
    obtain ⟨fuel, rfl⟩ : ∃ less, fuel = less + 1 := ⟨fuel - 1, by omega⟩
    cases reads with
    | cons first more =>
      have plain : encoding.encodeEnding settings 0 = encoding.encodeChar 0 :=
        encodeEnding_plain (fun both => absurd both.2 (by decide))
      have fits : encoding.size ≤ room := Nat.le_of_add_left_le fits
      rw [iconvLoop_char _ fuel first (Or.inl (by decide)) (by omega), if_pos rfl,
        endingWriter_char nullSingle (by rw [plain, encodeChar_length nullSingle]; exact fits),
        plain]
      rfl
  | cons char text ih =>
    obtain ⟨fuel, rfl⟩ : ∃ less, fuel = less + 1 := ⟨fuel - 1, by omega⟩
    rw [List.length_cons] at enough
    have other : char ≠ 0 := fun null => nonnull (null ▸ List.mem_cons_self)
    have rest_nonnull : 0 ∉ text := fun member => nonnull (List.mem_cons_of_mem _ member)
    have charSingle : encoding = .utf16 → char < 0x10000 := fun utf16 =>
      single utf16 char List.mem_cons_self
    have restSingle : SingleCodes encoding text := fun utf16 char member =>
      single utf16 char (List.mem_cons_of_mem _ member)
    have split : encoding.encode settings (char :: text) =
        encoding.encodeEnding settings char ++ encoding.encode settings text := rfl
    rw [split, List.length_append] at fits
    cases reads with
    | cons first more =>
      -- there is a character after this one
      have peeked := more.utf8Read_ne_none (List.append_ne_nil_of_right_ne_nil _ (by decide))
      have written : encoding.endingWriter settings room char =
          encoding.encodeEnding settings char := endingWriter_char charSingle (by omega)
      rw [iconvLoop_char _ fuel first (Or.inr (Or.inl peeked)) (by omega), if_neg other,
        written, ih rest_nonnull restSingle more (by omega) (by omega), split, List.append_assoc]
      rfl

/-- Only whole codes are put out. -/
theorem iconvLoop_whole {reader : IconvRead} {fuel : Nat} {input : List UInt8} {room : Nat}
    {null : Bool} {output : List UInt8}
    (returns : iconvLoop reader (encoding.endingWriter settings) fuel input room =
      some (null, output)) : encoding.size ∣ output.length := by
  induction fuel generalizing input room null output with
  | zero => cases returns
  | succ fuel ih =>
    by_cases done : input = [] ∨ room = 0
    · rw [iconvLoop_done fuel done] at returns
      cases returns
      exact Nat.dvd_zero _
    obtain ⟨pending, room_pos⟩ := not_or.mp done
    rw [iconvLoop_succ fuel pending room_pos] at returns
    split at returns
    · cases returns
      exact endingWriter_whole _ _
    · obtain ⟨⟨null, rest⟩, ran, same⟩ := Option.map_eq_some_iff.mp returns
      cases same
      rw [List.length_append]
      exact Nat.dvd_add (endingWriter_whole _ _) (ih ran)

/-- Where the last code of the output is null and what is written next is not, there is more
output, and its last code is null. -/
theorem null_after {before first rest written : List UInt8} {last : Nat} (other : last ≠ 0)
    (single : encoding = .utf16 → last < 0x10000)
    (ends : written = first ++ encoding.encodeChar last) (whole : encoding.size ∣ rest.length)
    (output : written ++ rest = before ++ encoding.encodeChar 0) :
    ∃ before, rest = before ++ encoding.encodeChar 0 := by
  have nullLength : (encoding.encodeChar 0).length = encoding.size :=
    encodeChar_length (fun _ => by decide)
  by_cases empty : rest.length = 0
  · rw [List.eq_nil_of_length_eq_zero empty, List.append_nil, ends] at output
    have same := List.append_inj_right' output (by rw [nullLength, encodeChar_length single])
    exact absurd (encodeChar_eq_null single same) other
  · have long : encoding.size ≤ rest.length := Nat.le_of_dvd (Nat.pos_of_ne_zero empty) whole
    have suffix : encoding.encodeChar 0 <:+ rest := by
      apply List.suffix_of_suffix_length_le (List.suffix_append before _)
      · rw [← output]
        exact List.suffix_append written rest
      · rwa [nullLength]
    obtain ⟨before, same⟩ := suffix
    exact ⟨before, same.symm⟩

/-- A character that leaves room for a code has been written in full. -/
theorem encodeEnding_fits {room char : Nat} (whole : encoding.size ∣ room)
    (single : encoding = .utf16 → char < 0x10000)
    (left : encoding.size ≤ room - (encoding.endingWriter settings room char).length) :
    (encoding.encodeEnding settings char).length ≤ room := by
  have positive := encoding.size_pos
  by_cases ending : settings.clipboardCrlf = true ∧ char = 10
  case neg =>
    rw [encodeEnding_plain ending, encodeChar_length single]
    omega
  obtain ⟨crlf, rfl⟩ := ending
  have returns : encoding = .utf16 → 13 < 0x10000 := fun _ => by decide
  have fits : encoding.size ≤ room := by omega
  rw [encodeEnding_newline crlf, List.length_append, encodeChar_length returns,
    encodeChar_length single]
  have more : 0 < room - encoding.size := by
    apply Nat.pos_of_ne_zero
    intro full
    rw [show ((10 : Nat) : Int) = 10 from rfl, endingWriter_newline crlf fits,
      if_neg (by omega), encodeChar_length returns] at left
    omega
  have second := Nat.le_of_dvd more (Nat.dvd_sub whole (Nat.dvd_refl _))
  omega

/-- If the last code of the output is null, a null character has been read, and everything up to
it has been written in full. -/
theorem iconvLoop_terminated {fuel : Nat} {input : List UInt8} {room : Nat}
    (whole : encoding.size ∣ room)
    (single : ∀ text rest, unicode.Reads normalize input text rest → 0 ∉ text →
      SingleCodes encoding text)
    {null : Bool} {output before : List UInt8}
    (returns : iconvLoop (readUtf8As unicode 0x41 normalize) (encoding.endingWriter settings) fuel
      input room = some (null, output))
    (ends : output = before ++ encoding.encodeChar 0) :
    ∃ text, 0 ∉ text ∧ (∃ rest, unicode.Reads normalize input (text ++ [0]) rest) ∧
      (encoding.encode settings text ++ encoding.encodeChar 0).length ≤ room := by
  have nullLength : (encoding.encodeChar 0).length = encoding.size :=
    encodeChar_length (fun _ => by decide)
  have positive := encoding.size_pos
  induction fuel generalizing input room null output before with
  | zero => cases returns
  | succ fuel ih =>
    by_cases done : input = [] ∨ room = 0
    · rw [iconvLoop_done fuel done] at returns
      cases returns
      have empty := congrArg List.length ends
      rw [List.length_append, nullLength, List.length_nil] at empty
      omega
    obtain ⟨pending, room_ne⟩ := not_or.mp done
    have room_pos : 0 < room := Nat.pos_of_ne_zero room_ne
    cases first : unicode.firstChar normalize input with
    | none =>
      -- the letter that stands for the unassigned variable is written, and nothing is read
      rw [iconvLoop_succ fuel pending room_ne, readUtf8As_none first] at returns
      dsimp only at returns
      rw [if_neg (by decide)] at returns
      obtain ⟨⟨null, rest⟩, ran, same⟩ := Option.map_eq_some_iff.mp returns
      cases same
      obtain ⟨front, last, other, lastSingle, written⟩ :=
        endingWriter_ends settings room_pos whole
          (fun _ => (by decide : 0x41 < 0x10000)) (by decide)
      obtain ⟨before, restEnds⟩ :=
        null_after other lastSingle written (iconvLoop_whole ran) ends
      obtain ⟨text, -, ⟨left, reads⟩, -⟩ :=
        ih (Nat.dvd_sub whole (endingWriter_whole _ _)) single ran restEnds
      apply absurd (Unicode.firstChar_eq_none.mp first)
      exact reads.utf8Read_ne_none (List.append_ne_nil_of_right_ne_nil _ (by decide))
    | some found =>
      obtain ⟨char, after⟩ := found
      rw [iconvLoop_char _ fuel first (Or.inr (Or.inr (by decide))) room_pos] at returns
      split at returns
      case isTrue null =>
        subst null
        refine ⟨[], List.not_mem_nil, ⟨after, .cons first (.nil after)⟩, ?_⟩
        rw [List.length_append, nullLength]
        exact Nat.add_le_of_le_sub' (Nat.zero_le _) (Nat.le_of_dvd room_pos whole)
      case isFalse other =>
        obtain ⟨⟨null, rest⟩, ran, same⟩ := Option.map_eq_some_iff.mp returns
        cases same
        have charSingle : encoding = .utf16 → char < 0x10000 := fun utf16 =>
          single [char] after (.cons first (.nil after)) (by simpa using Ne.symm other) utf16 char
            List.mem_cons_self
        obtain ⟨front, last, lastOther, lastSingle, written⟩ :=
          endingWriter_ends settings room_pos whole charSingle other
        obtain ⟨before, restEnds⟩ :=
          null_after lastOther lastSingle written (iconvLoop_whole ran) ends
        have restSingle : ∀ text rest, unicode.Reads normalize after text rest → 0 ∉ text →
            SingleCodes encoding text := by
          intro text rest reads nonnull utf16 next member
          exact single (char :: text) rest (.cons first reads) (by simp [Ne.symm other, nonnull])
            utf16 next (List.mem_cons_of_mem _ member)
        obtain ⟨text, nonnull, ⟨left, reads⟩, fits⟩ :=
          ih (Nat.dvd_sub whole (endingWriter_whole _ _)) restSingle ran restEnds
        refine ⟨char :: text, by simp [Ne.symm other, nonnull], ⟨left, .cons first reads⟩, ?_⟩
        have split : encoding.encode settings (char :: text) =
            encoding.encodeEnding settings char ++ encoding.encode settings text := rfl
        rw [List.length_append, nullLength] at fits
        have full : (encoding.encodeEnding settings char).length ≤ room :=
          encodeEnding_fits whole charSingle (by omega)
        rw [endingWriter_char charSingle full] at fits
        rw [split, List.length_append, List.length_append, nullLength]
        omega

/-! ## Responses -/

/-- What the user has sent is kept up to the capacity, and so is the null character after it. -/
theorem receiveClipboard_buffer (clipboard : Common.Clipboard) (mimetype : List UInt8)
    (blobs : List (List UInt8)) :
    (receiveClipboard clipboard mimetype blobs).buffer =
      (blobs.flatten ++ [0]).take clipboardMaxLength := by
  dsimp only [receiveClipboard, clipboardEndHandler]
  rw [Clipboard.append_buffer]
  change ((blobs.foldl Clipboard.append (clipboard.reset mimetype)).buffer ++ _).take _ = _
  rw [Clipboard.foldl_append_buffer, take_append_take]
  rfl

theorem cliprdrFormatDataRequest_eq (unicode : Unicode) (unset : Int) (settings : PasteSettings)
    (clipboard : Common.Clipboard) (encoding : TextEncoding) :
    cliprdrFormatDataRequest unicode unset settings clipboard encoding.format =
      (iconv (readUtf8As unicode unset settings.normalizeClipboard)
        (encoding.endingWriter settings) clipboard.buffer clipboardMaxLength).map Prod.snd := by
  have reader : localReader unicode unset settings =
      readUtf8As unicode unset settings.normalizeClipboard := rfl
  unfold cliprdrFormatDataRequest
  rw [remoteWriter_format, Option.bind_some, reader]

/-- A null character that is reached with room for it ends the response. -/
theorem ResponseTerminated.of_fits {clipboard : Common.Clipboard}
    (fits : TerminatorFits unicode settings clipboard encoding) :
    ResponseTerminated unicode settings clipboard encoding := by
  intro unset
  obtain ⟨text, nonnull, single, ⟨rest, reads⟩, room⟩ := fits
  obtain ⟨middle, front, -⟩ := Unicode.Reads.append_iff.mp reads
  refine ⟨text, ⟨nonnull, middle, front⟩, ?_⟩
  have enough : text.length < clipboard.buffer.length + clipboardMaxLength + 1 := by
    have short := front.length_le
    omega
  rw [cliprdrFormatDataRequest_eq, iconv, iconvLoop_text nonnull single reads room enough]
  rfl

/-- If every character has a single code, a response ends in no other way. -/
theorem ResponseTerminated.fits {clipboard : Common.Clipboard}
    (single : ∀ text, ClipboardText unicode settings clipboard text → SingleCodes encoding text)
    (terminated : ResponseTerminated unicode settings clipboard encoding) :
    TerminatorFits unicode settings clipboard encoding := by
  obtain ⟨sent, -, response⟩ := terminated 0x41
  rw [cliprdrFormatDataRequest_eq] at response
  obtain ⟨⟨null, output⟩, returns, ends⟩ := Option.map_eq_some_iff.mp response
  have whole : encoding.size ∣ clipboardMaxLength := by cases encoding <;> decide
  obtain ⟨text, nonnull, ⟨rest, reads⟩, room⟩ := iconvLoop_terminated whole
    (fun text rest reads nonnull => single text ⟨nonnull, rest, reads⟩) returns ends
  obtain ⟨middle, front, -⟩ := Unicode.Reads.append_iff.mp reads
  exact ⟨text, nonnull, single text ⟨nonnull, middle, front⟩, ⟨rest, reads⟩, room⟩

/-- The response to a request for the text that a user has sent is a first part of that text and a
null character if the null character of the clipboard is reached with room for it. Where every
character has a single code, it is such a response in no other case. -/
theorem clipboardResponse_terminated (unicode : Unicode) (settings : PasteSettings)
    (clipboard : Common.Clipboard) (mimetype : List UInt8) (blobs : List (List UInt8))
    (encoding : TextEncoding) :
    (TerminatorFits unicode settings (receiveClipboard clipboard mimetype blobs) encoding →
      ResponseTerminated unicode settings (receiveClipboard clipboard mimetype blobs) encoding) ∧
    ((∀ text, ClipboardText unicode settings (receiveClipboard clipboard mimetype blobs) text →
        SingleCodes encoding text) →
      ResponseTerminated unicode settings (receiveClipboard clipboard mimetype blobs) encoding →
        TerminatorFits unicode settings (receiveClipboard clipboard mimetype blobs) encoding) :=
  ⟨ResponseTerminated.of_fits, ResponseTerminated.fits⟩

theorem asciiUnicode_reads {input left : List UInt8} {text : List Nat}
    (reads : asciiUnicode.Reads false input text left) :
    input.map UInt8.toNat = text ++ left.map UInt8.toNat := by
  induction reads with
  | nil input => rfl
  | @cons input rest left char text first more ih =>
    cases input with
    | nil => cases first
    | cons byte input =>
      cases first
      exact congrArg _ ih

theorem singleCodes_cp1252 (text : List Nat) : SingleCodes .cp1252 text :=
  fun utf16 => nomatch utf16

/-- Text that fills the clipboard leaves no room for the null character. -/
theorem clipboardResponse_unterminated :
    ¬ResponseTerminated asciiUnicode ⟨false, false⟩
      (receiveClipboard .alloc [] [List.replicate clipboardMaxLength 0x61]) .cp1252 := by
  intro terminated
  obtain ⟨text, -, -, ⟨rest, reads⟩, -⟩ := terminated.fits fun text _ => singleCodes_cp1252 text
  have bytes := asciiUnicode_reads reads
  have full : (receiveClipboard .alloc [] [List.replicate clipboardMaxLength 0x61]).buffer =
      List.replicate clipboardMaxLength 0x61 := by
    rw [receiveClipboard_buffer, List.flatten_singleton, List.take_left']
    exact List.length_replicate
  rw [full, List.map_replicate] at bytes
  have null : 0 ∈ List.replicate clipboardMaxLength (UInt8.toNat 0x61) := by
    rw [bytes]
    exact List.mem_append_left _ (List.mem_append_right _ List.mem_cons_self)
  exact absurd (List.eq_of_mem_replicate null) (by decide)

end GuacNebula.Rdp
