import Mathlib.Data.List.Basic
import Mathlib.Data.Option.Basic

/-! # JSON texts

RFC 8259 texts as lists of bytes, and the values that they stand for. Strings are the bytes of
their UTF-8 encoding. `parse` reads a text. For objects whose values are strings there is the other
direction as well: `objectText` is the shortest text of such an object, with nothing escaped but
quotes and backslashes. It is read back if there are no control characters in the strings
(`parse_objectText`), and any text that is read as the object has at least its length, and is that
text if it is as short (`parse_covers`).
-/

namespace GuacNebula.Rfc8259

def quote : UInt8 := 0x22
def backslash : UInt8 := 0x5C
def comma : UInt8 := 0x2C
def colon : UInt8 := 0x3A
def openBrace : UInt8 := 0x7B
def closeBrace : UInt8 := 0x7D
def openBracket : UInt8 := 0x5B
def closeBracket : UInt8 := 0x5D

/-- A JSON value. The literal of a number is kept, and the members of an object in their order. -/
inductive Value
  | null
  | bool (value : Bool)
  | number (literal : List UInt8)
  | string (content : List UInt8)
  | array (elements : List Value)
  | object (members : List (List UInt8 × Value))

/-! ## UTF-8 -/

/-- The bytes are those of a sequence of characters. -/
def Utf8 (bytes : List UInt8) : Prop := bytes.toByteArray.IsValidUTF8

instance (bytes : List UInt8) : Decidable (Utf8 bytes) :=
  decidable_of_iff _ ByteArray.validateUTF8_eq_true_iff

/-- The bytes of a code point. -/
def encodeChar (code : Nat) : List UInt8 := String.utf8EncodeChar (Char.ofNat code)

/-! ## Strings -/

/-- What is read in a string: a byte that stands for itself or is escaped by one letter, or a
UTF-16 code unit. -/
inductive StringItem
  | byte (c : UInt8)
  | unit (code : Nat)

/-- A hexadecimal digit. -/
def hexDigit (c : UInt8) : Option Nat :=
  if 0x30 ≤ c ∧ c ≤ 0x39 then some (c.toNat - 0x30)
  else if 0x41 ≤ c ∧ c ≤ 0x46 then some (c.toNat - 0x37)
  else if 0x61 ≤ c ∧ c ≤ 0x66 then some (c.toNat - 0x57)
  else none

/-- Hexadecimal digits, the most significant first. -/
def hexCode : Nat → List UInt8 → Option Nat
  | code, [] => some code
  | code, c :: digits => (hexDigit c).bind fun digit => hexCode (16 * code + digit) digits

/-- What a letter after a backslash stands for, the code units apart. -/
def escapedByte (letter : UInt8) : Option UInt8 :=
  if letter = quote ∨ letter = backslash ∨ letter = 0x2F then some letter
  else if letter = 0x62 then some 0x08
  else if letter = 0x66 then some 0x0C
  else if letter = 0x6E then some 0x0A
  else if letter = 0x72 then some 0x0D
  else if letter = 0x74 then some 0x09
  else none

/-- An item is read before others. -/
def StringItem.before (item : StringItem) (read : List StringItem × List UInt8) :
    List StringItem × List UInt8 :=
  (item :: read.1, read.2)

/-- The items of a string up to its closing quote, and the rest of the text. Control characters
have to be escaped. -/
def readItems : List UInt8 → Option (List StringItem × List UInt8)
  | [] => none
  | c :: text =>
      if c = quote then some ([], text)
      else if c = backslash then
        match text with
        | [] => none
        | letter :: text =>
            if letter = 0x75 then
              match text with
              | first :: second :: third :: fourth :: text =>
                  (hexCode 0 [first, second, third, fourth]).bind fun code =>
                    (readItems text).map (StringItem.unit code).before
              | _ => none
            else
              (escapedByte letter).bind fun c => (readItems text).map (StringItem.byte c).before
      else if c < 0x20 then none
      else (readItems text).map (StringItem.byte c).before

/-- The code unit begins a surrogate pair. -/
def isHigh (code : Nat) : Bool := 0xD800 ≤ code ∧ code < 0xDC00

/-- The code unit ends a surrogate pair. -/
def isLow (code : Nat) : Bool := 0xDC00 ≤ code ∧ code < 0xE000

/-- The bytes of a code unit that is not part of a pair. A surrogate is replaced. -/
def encodeUnit (code : Nat) : List UInt8 :=
  encodeChar (if isHigh code ∨ isLow code then 0xFFFD else code)

/-- The content of a string. -/
def decodeItems : List StringItem → List UInt8
  | [] => []
  | .byte c :: items => c :: decodeItems items
  | .unit high :: .unit low :: items =>
      if isHigh high ∧ isLow low then
        encodeChar (0x10000 + (high - 0xD800) * 0x400 + (low - 0xDC00)) ++ decodeItems items
      else encodeUnit high ++ decodeItems (.unit low :: items)
  | .unit code :: items => encodeUnit code ++ decodeItems items

/-- A string after its opening quote. -/
def readString (text : List UInt8) : Option (List UInt8 × List UInt8) :=
  (readItems text).map fun read => (decodeItems read.1, read.2)

/-! ## Values -/

/-- Whitespace. -/
def isSpace (c : UInt8) : Bool := c = 0x20 ∨ c = 0x09 ∨ c = 0x0A ∨ c = 0x0D

def isDigit (c : UInt8) : Bool := 0x30 ≤ c ∧ c ≤ 0x39

/-- A given character, after whitespace. -/
def expect (c : UInt8) (text : List UInt8) : Option (List UInt8) :=
  match text.dropWhile isSpace with
  | [] => none
  | first :: rest => if first = c then some rest else none

/-- One digit or more. -/
def readDigits (text : List UInt8) : Option (List UInt8 × List UInt8) :=
  if text.takeWhile isDigit = [] then none
  else some (text.takeWhile isDigit, text.dropWhile isDigit)

/-- The integral part of a number, which has no leading zeros. -/
def readInteger : List UInt8 → Option (List UInt8 × List UInt8)
  | [] => none
  | c :: text => if c = 0x30 then some ([c], text) else readDigits (c :: text)

/-- The fraction of a number, if it has one. -/
def readFraction : List UInt8 → Option (List UInt8 × List UInt8)
  | [] => some ([], [])
  | c :: text =>
      if c = 0x2E then (readDigits text).map fun (digits, text) => (c :: digits, text)
      else some ([], c :: text)

/-- The exponent of a number, if it has one. -/
def readExponent : List UInt8 → Option (List UInt8 × List UInt8)
  | [] => some ([], [])
  | c :: text =>
      if c = 0x65 ∨ c = 0x45 then
        let sign := (text.take 1).filter fun c => c = 0x2B ∨ c = 0x2D
        (readDigits (text.drop sign.length)).map fun (digits, text) => (c :: sign ++ digits, text)
      else some ([], c :: text)

/-- A number. -/
def readNumber (text : List UInt8) : Option (List UInt8 × List UInt8) := do
  let sign := (text.take 1).filter (· = 0x2D)
  let (integer, text) ← readInteger (text.drop sign.length)
  let (fraction, text) ← readFraction text
  let (exponent, text) ← readExponent text
  pure (sign ++ integer ++ fraction ++ exponent, text)

/-- A value that is a word or a number. -/
def readScalar (text : List UInt8) : Option (Value × List UInt8) :=
  if [0x74, 0x72, 0x75, 0x65] <+: text then some (.bool true, text.drop 4)
  else if [0x66, 0x61, 0x6C, 0x73, 0x65] <+: text then some (.bool false, text.drop 5)
  else if [0x6E, 0x75, 0x6C, 0x6C] <+: text then some (.null, text.drop 4)
  else (readNumber text).map fun (literal, text) => (.number literal, text)

mutual

/-- A value, and the rest of the text. A level of nesting takes two steps of the fuel at most, and
a byte of the text. -/
def readValue : Nat → List UInt8 → Option (Value × List UInt8)
  | 0, _ => none
  | fuel + 1, text =>
      match text.dropWhile isSpace with
      | [] => none
      | c :: text =>
          if c = quote then (readString text).map fun (content, text) => (.string content, text)
          else if c = openBrace then
            match expect closeBrace text with
            | some text => some (.object [], text)
            | none => (readMembers fuel text).map fun (members, text) => (.object members, text)
          else if c = openBracket then
            match expect closeBracket text with
            | some text => some (.array [], text)
            | none => (readElements fuel text).map fun (elements, text) => (.array elements, text)
          else readScalar (c :: text)

/-- The members of an object up to its closing brace. -/
def readMembers : Nat → List UInt8 → Option (List (List UInt8 × Value) × List UInt8)
  | 0, _ => none
  | fuel + 1, text => do
      let text ← expect quote text
      let (name, text) ← readString text
      let text ← expect colon text
      let (value, text) ← readValue fuel text
      match expect comma text with
      | some text => (readMembers fuel text).map fun read => ((name, value) :: read.1, read.2)
      | none => (expect closeBrace text).map fun text => ([(name, value)], text)

/-- The elements of an array up to its closing bracket. -/
def readElements : Nat → List UInt8 → Option (List Value × List UInt8)
  | 0, _ => none
  | fuel + 1, text => do
      let (value, text) ← readValue fuel text
      match expect comma text with
      | some text => (readElements fuel text).map fun read => (value :: read.1, read.2)
      | none => (expect closeBracket text).map fun text => ([value], text)

end

/-- The value of a text. -/
def parse (text : List UInt8) : Option Value :=
  if Utf8 text then
    match readValue (2 * text.length + 2) text with
    | some (value, rest) => if rest.all isSpace then some value else none
    | none => none
  else none

/-! ## Objects of strings -/

/-- A byte of a string as it is written. -/
def escapeByte (c : UInt8) : List UInt8 :=
  if c = quote ∨ c = backslash then [backslash, c] else [c]

/-- A string as it is written, without its opening quote. -/
def closedText (content : List UInt8) : List UInt8 := content.flatMap escapeByte ++ [quote]

/-- Members with strings as their values, up to the closing brace. -/
def membersText : List (List UInt8 × List UInt8) → List UInt8
  | [] => [closeBrace]
  | [(name, value)] => quote :: closedText name ++ colon :: quote :: closedText value ++ [closeBrace]
  | (name, value) :: members =>
      quote :: closedText name ++ colon :: quote :: closedText value ++ comma :: membersText members

/-- An object whose members have strings as their values. -/
def objectText (members : List (List UInt8 × List UInt8)) : List UInt8 :=
  openBrace :: membersText members

/-- The object with the given members. -/
def stringObject (members : List (List UInt8 × List UInt8)) : Value :=
  .object (members.map fun member => (member.1, .string member.2))

/-- The string has no control characters. -/
def Plain (content : List UInt8) : Prop := ∀ c ∈ content, 0x20 ≤ c

instance (content : List UInt8) : Decidable (Plain content) :=
  List.decidableBAll (0x20 ≤ ·) content

/-! ### What is written is read -/

theorem readItems_quote (text : List UInt8) : readItems (quote :: text) = some ([], text) := by
  rw [readItems.eq_def]
  simp

theorem readItems_letter {letter : UInt8} (byte : letter ≠ 0x75) (text : List UInt8) :
    readItems (backslash :: letter :: text) =
      (escapedByte letter).bind fun c => (readItems text).map (StringItem.byte c).before := by
  rw [readItems.eq_def]
  simp [byte, quote, backslash]

theorem readItems_byte {c : UInt8} (ordinary : ¬(c = quote ∨ c = backslash)) (printable : 0x20 ≤ c)
    (text : List UInt8) :
    readItems (c :: text) = (readItems text).map (StringItem.byte c).before := by
  obtain ⟨notQuote, notBackslash⟩ := not_or.mp ordinary
  rw [readItems.eq_def]
  simp [notQuote, notBackslash, UInt8.not_lt.mpr printable]

theorem readItems_plain {content : List UInt8} (plain : Plain content) (rest : List UInt8) :
    readItems (closedText content ++ rest) = some (content.map .byte, rest) := by
  induction content with
  | nil => exact readItems_quote rest
  | cons c content ih =>
      have plainRest : Plain content := fun c member => plain c (List.mem_cons_of_mem _ member)
      have step : closedText (c :: content) ++ rest =
          escapeByte c ++ (closedText content ++ rest) := by
        simp only [closedText, List.flatMap_cons, List.append_assoc]
      rw [step, escapeByte]
      split
      case isTrue special =>
        have letter : c ≠ 0x75 ∧ escapedByte c = some c := by
          rcases special with rfl | rfl <;> decide
        change readItems (backslash :: c :: (closedText content ++ rest)) = _
        rw [readItems_letter letter.1, letter.2, ih plainRest]
        rfl
      case isFalse ordinary =>
        change readItems (c :: (closedText content ++ rest)) = _
        rw [readItems_byte ordinary (plain c List.mem_cons_self), ih plainRest]
        rfl

theorem decodeItems_bytes (content : List UInt8) : decodeItems (content.map .byte) = content := by
  induction content with
  | nil => rfl
  | cons c content ih => rw [List.map_cons, decodeItems, ih]

theorem readString_plain {content : List UInt8} (plain : Plain content) (rest : List UInt8) :
    readString (closedText content ++ rest) = some (content, rest) := by
  rw [readString, readItems_plain plain, Option.map_some, decodeItems_bytes]

theorem expect_cons {c : UInt8} (visible : isSpace c = false) (rest : List UInt8) :
    expect c (c :: rest) = some rest := by
  simp [expect, visible]

theorem expect_other {c other : UInt8} (visible : isSpace other = false) (different : other ≠ c)
    (rest : List UInt8) : expect c (other :: rest) = none := by
  simp [expect, visible, different]

theorem readValue_plain {content : List UInt8} (plain : Plain content) (fuel : Nat)
    (rest : List UInt8) :
    readValue (fuel + 1) (quote :: closedText content ++ rest) = some (.string content, rest) := by
  have visible : isSpace quote = false := by decide
  simp [readValue, visible, readString_plain plain]

/-- The members up to the value of the first one. -/
theorem readMembers_first {name value : List UInt8} (plainName : Plain name)
    (plainValue : Plain value) (fuel : Nat) (rest : List UInt8) :
    readMembers (fuel + 2)
        (quote :: closedText name ++ colon :: quote :: closedText value ++ rest) =
      match expect comma rest with
      | some text =>
          (readMembers (fuel + 1) text).map fun read => ((name, .string value) :: read.1, read.2)
      | none => (expect closeBrace rest).map fun text => ([(name, .string value)], text) := by
  have text : quote :: closedText name ++ colon :: quote :: closedText value ++ rest =
      quote :: (closedText name ++ (colon :: (quote :: closedText value ++ rest))) := by
    simp only [List.cons_append, List.append_assoc]
  rw [text, readMembers, expect_cons (by decide), Option.bind_eq_bind, Option.bind_some,
    readString_plain plainName, Option.bind_eq_bind, Option.bind_some]
  dsimp only
  rw [expect_cons (by decide), Option.bind_some, readValue_plain plainValue, Option.bind_eq_bind,
    Option.bind_some]

/-- Members that are written are read, when there is a step of the fuel for each of them and one
more for the last value. -/
theorem readMembers_plain {members : List (List UInt8 × List UInt8)}
    (plain : ∀ member ∈ members, Plain member.1 ∧ Plain member.2) (nonempty : members ≠ [])
    {fuel : Nat} (enough : members.length < fuel) (rest : List UInt8) :
    readMembers fuel (membersText members ++ rest) =
      some (members.map fun member => (member.1, .string member.2), rest) := by
  induction members generalizing fuel with
  | nil => exact absurd rfl nonempty
  | cons member members ih =>
      obtain ⟨name, value⟩ := member
      have plainName : Plain name := (plain _ List.mem_cons_self).1
      have plainValue : Plain value := (plain _ List.mem_cons_self).2
      obtain ⟨fuel, rfl⟩ : ∃ less, fuel = less + 2 := ⟨fuel - 2, by simp at enough; omega⟩
      cases members with
      | nil =>
          have first := readMembers_first plainName plainValue fuel (closeBrace :: rest)
          rw [expect_other (by decide) (by decide), expect_cons (by decide)] at first
          simpa [membersText] using first
      | cons next members =>
          have fewer : (next :: members).length < fuel + 1 := by
            simp at enough ⊢
            omega
          have later := ih (fun member inside => plain member (List.mem_cons_of_mem _ inside))
            (List.cons_ne_nil _ _) fewer
          have first := readMembers_first plainName plainValue fuel
            (comma :: (membersText (next :: members) ++ rest))
          rw [expect_cons (by decide)] at first
          dsimp only at first
          rw [later] at first
          simpa [membersText] using first

/-! ### UTF-8 -/

theorem Utf8.append {first second : List UInt8} (left : Utf8 first) (right : Utf8 second) :
    Utf8 (first ++ second) := by
  rw [Utf8, List.toByteArray_append]
  exact ByteArray.IsValidUTF8.append left right

theorem Utf8.flatMap {α : Type*} {encode : α → List UInt8} {items : List α}
    (valid : ∀ item ∈ items, Utf8 (encode item)) : Utf8 (items.flatMap encode) := by
  induction items with
  | nil => exact ByteArray.isValidUTF8_empty
  | cons item items ih =>
      rw [List.flatMap_cons]
      exact (valid item List.mem_cons_self).append
        (ih fun later member => valid later (List.mem_cons_of_mem _ member))

theorem utf8_char (char : Char) : Utf8 (String.utf8EncodeChar char) :=
  Char.isValidUTF8_toByteArray_utf8EncodeChar

theorem utf8_ascii {c : UInt8} (ascii : c < 0x80) : Utf8 [c] := by
  have small : c.toNat < 0x80 := UInt8.lt_iff_toNat_lt.mp ascii
  have valid : c.toUInt32.isValidChar := .inl (by rw [UInt8.toNat_toUInt32]; omega)
  have encoded : String.utf8EncodeChar ⟨c.toUInt32, valid⟩ = [c] := by
    change (if c.toUInt32.toNat ≤ 0x7f then [UInt8.ofNat c.toUInt32.toNat] else _) = [c]
    rw [UInt8.toNat_toUInt32, if_pos (by omega), UInt8.ofNat_toNat]
  exact encoded ▸ utf8_char _

theorem utf8_ascii_all {bytes : List UInt8} (ascii : ∀ c ∈ bytes, c < 0x80) : Utf8 bytes := by
  have valid : Utf8 (bytes.flatMap fun c => [c]) := .flatMap fun c member => utf8_ascii (ascii c member)
  rwa [List.flatMap_singleton'] at valid

theorem escapeByte_high {c : UInt8} (high : 0x80 ≤ c) : escapeByte c = [c] := by
  refine if_neg fun special => ?_
  rcases special with rfl | rfl <;> exact absurd high (by decide)

/-- A character is one byte, or has no bytes of ASCII. -/
theorem utf8EncodeChar_bytes (char : Char) :
    (∃ c, String.utf8EncodeChar char = [c]) ∨ ∀ c ∈ String.utf8EncodeChar char, 0x80 ≤ c := by
  fun_cases String.utf8EncodeChar char with
  | case1 => exact .inl ⟨_, rfl⟩
  | case2 | case3 | case4 =>
      right
      simp [UInt8.le_iff_toNat_le]
      omega

/-- The escapes leave a string in UTF-8. -/
theorem utf8_escape {content : List UInt8} (valid : Utf8 content) :
    Utf8 (content.flatMap escapeByte) := by
  obtain ⟨chars, encoded⟩ := valid
  obtain rfl : content = chars.flatMap String.utf8EncodeChar := List.toByteArray_inj.mp encoded
  rw [List.flatMap_assoc]
  refine Utf8.flatMap fun char _ => ?_
  rcases utf8EncodeChar_bytes char with ⟨c, single⟩ | high
  · have whole : Utf8 [c] := single ▸ utf8_char char
    rw [single, List.flatMap_singleton, escapeByte]
    split
    · exact (utf8_ascii (by decide)).append whole
    · exact whole
  · have same : (String.utf8EncodeChar char).flatMap escapeByte = String.utf8EncodeChar char := by
      rw [List.flatMap_congr fun c member => escapeByte_high (high c member)]
      simp
    rw [same]
    exact utf8_char char

/-- The bytes before and after a byte of ASCII are those of characters. -/
theorem utf8_encode_split (chars : List Char) {c : UInt8} (ascii : c < 0x80)
    {first second : List UInt8}
    (encoded : chars.flatMap String.utf8EncodeChar = first ++ c :: second) :
    Utf8 first ∧ Utf8 second := by
  induction chars generalizing first with
  | nil => cases first <;> cases encoded
  | cons char chars ih =>
      rw [List.flatMap_cons] at encoded
      have rest : Utf8 (chars.flatMap String.utf8EncodeChar) := Utf8.flatMap fun char _ => utf8_char char
      rcases List.append_eq_append_iff.mp encoded with ⟨more, rfl, later⟩ | ⟨more, inside, later⟩
      · obtain ⟨before, after⟩ := ih later
        exact ⟨(utf8_char char).append before, after⟩
      · -- The byte of ASCII is one of the character, so it is all of it.
        cases more with
        | nil =>
            rw [List.append_nil] at inside
            have begins : chars.flatMap String.utf8EncodeChar = [] ++ c :: second := later.symm
            exact ⟨inside ▸ utf8_char char, (ih begins).2⟩
        | cons d more =>
            obtain ⟨rfl, rfl⟩ := List.cons.inj later
            rcases utf8EncodeChar_bytes char with ⟨single, alone⟩ | high
            · obtain ⟨rfl, tail⟩ : first = [] ∧ c :: more = [single] := by
                cases first with
                | nil => exact ⟨rfl, inside.symm.trans alone⟩
                | cons d first => cases first <;> cases inside.symm.trans alone
              cases tail
              exact ⟨ByteArray.isValidUTF8_empty, rest⟩
            · have member : c ∈ String.utf8EncodeChar char := by simp [inside]
              exact absurd ascii (UInt8.not_lt.mpr (high c member))

theorem Utf8.split {c : UInt8} (ascii : c < 0x80) {first second : List UInt8}
    (valid : Utf8 (first ++ c :: second)) : Utf8 first ∧ Utf8 second := by
  obtain ⟨chars, encoded⟩ := valid
  exact utf8_encode_split chars ascii (List.toByteArray_inj.mp encoded).symm

/-- A string is in UTF-8 if it is so with the escapes. -/
theorem utf8_of_escape {content : List UInt8} {before : List UInt8}
    (valid : Utf8 (before ++ content.flatMap escapeByte)) : Utf8 (before ++ content) := by
  induction content generalizing before with
  | nil => exact valid
  | cons c content ih =>
      rw [List.flatMap_cons, escapeByte] at valid
      split at valid
      case isTrue special =>
        obtain ⟨left, right⟩ := valid.split (by decide)
        have after : Utf8 ([c] ++ content) := ih right
        exact left.append after
      case isFalse =>
        have shifted : Utf8 ((before ++ [c]) ++ content) :=
          ih (by simpa only [List.append_assoc] using valid)
        rwa [List.append_assoc, List.singleton_append] at shifted

theorem Utf8.of_cons {c : UInt8} (ascii : c < 0x80) {text : List UInt8} (valid : Utf8 (c :: text)) :
    Utf8 text := by
  have split : Utf8 ([] ++ c :: text) := valid
  exact (split.split ascii).2

theorem Utf8.of_closedText {content rest : List UInt8} (valid : Utf8 (closedText content ++ rest)) :
    Utf8 content ∧ Utf8 rest := by
  rw [closedText, List.append_assoc, List.singleton_append] at valid
  obtain ⟨inside, after⟩ := valid.split (by decide)
  have unescaped : Utf8 ([] ++ content) := utf8_of_escape inside
  exact ⟨unescaped, after⟩

/-- The strings of members that are written in UTF-8 are in UTF-8. -/
theorem Utf8.of_membersText {members : List (List UInt8 × List UInt8)}
    (valid : Utf8 (membersText members)) : ∀ member ∈ members, Utf8 member.1 ∧ Utf8 member.2 := by
  induction members with
  | nil => exact fun member none => absurd none List.not_mem_nil
  | cons member members ih =>
      obtain ⟨name, value⟩ := member
      obtain ⟨rest, text, others⟩ : ∃ rest, membersText ((name, value) :: members) =
          quote :: (closedText name ++ colon :: quote :: (closedText value ++ rest))
            ∧ (Utf8 rest → members ≠ [] → Utf8 (membersText members)) := by
        cases members with
        | nil => exact ⟨[closeBrace], by simp [membersText], fun _ some => absurd rfl some⟩
        | cons next members =>
            exact ⟨comma :: membersText (next :: members), by simp [membersText],
              fun after _ => after.of_cons (by decide)⟩
      rw [text] at valid
      obtain ⟨validName, afterName⟩ := (valid.of_cons (by decide)).of_closedText
      obtain ⟨validValue, afterValue⟩ :=
        ((afterName.of_cons (by decide)).of_cons (by decide)).of_closedText
      refine List.forall_mem_cons.mpr ⟨⟨validName, validValue⟩, ?_⟩
      by_cases none : members = []
      · subst none
        exact fun member none => absurd none List.not_mem_nil
      · exact ih (others afterValue none)

/-! ### Texts that are read as what is written -/

/-- The text up to the rest is at least as long as another one, and is that one if it is as short;
then a condition holds as well. -/
structure Covers (text used rest : List UInt8) (condition : Prop) : Prop where
  length_le : used.length + rest.length ≤ text.length
  tight : text.length = used.length + rest.length → text = used ++ rest ∧ condition

theorem Covers.imp {text used rest : List UInt8} {condition weaker : Prop}
    (covers : Covers text used rest condition) (weaken : condition → weaker) :
    Covers text used rest weaker :=
  ⟨covers.length_le, fun short => (covers.tight short).imp_right weaken⟩

/-- A text is read in two parts. -/
theorem Covers.trans {text first middle second rest : List UInt8} {left right : Prop}
    (before : Covers text first middle left) (after : Covers middle second rest right) :
    Covers text (first ++ second) rest (left ∧ right) := by
  have beforeLength := before.length_le
  have afterLength := after.length_le
  refine ⟨by rw [List.length_append]; omega, fun short => ?_⟩
  rw [List.length_append] at short
  obtain ⟨rfl, leftHolds⟩ := before.tight (by omega)
  obtain ⟨rfl, rightHolds⟩ := after.tight (by omega)
  exact ⟨(List.append_assoc ..).symm, leftHolds, rightHolds⟩

/-- More is read than has to be. -/
theorem Covers.of_longer {text used rest : List UInt8} {condition : Prop}
    (longer : used.length + rest.length < text.length) : Covers text used rest condition :=
  ⟨by omega, fun short => by omega⟩

theorem dropSpace_covers (text : List UInt8) : Covers text [] (text.dropWhile isSpace) True := by
  have suffix := List.dropWhile_suffix isSpace (l := text)
  refine ⟨by simpa using suffix.length_le, fun short => ⟨?_, trivial⟩⟩
  simpa using (suffix.eq_of_length (by simpa using short.symm)).symm

theorem expect_covers {c : UInt8} {text rest : List UInt8} (read : expect c text = some rest) :
    Covers text [c] rest True := by
  have space := dropSpace_covers text
  unfold expect at read
  split at read
  case h_1 => cases read
  case h_2 first more visible =>
    split at read
    case isFalse => cases read
    case isTrue same =>
      cases read
      subst same
      rw [visible] at space
      exact ⟨by simpa [Nat.add_comm] using space.length_le, fun short =>
        space.tight (by simpa [Nat.add_comm] using short)⟩

/-- The bytes that an item takes at least. A code unit takes more. -/
def itemText : StringItem → List UInt8
  | .byte c => escapeByte c
  | .unit _ => List.replicate 5 0x75

/-- The items are printable bytes. -/
def Printable (items : List StringItem) : Prop := ∀ item ∈ items, ∃ c, item = .byte c ∧ 0x20 ≤ c

theorem escapeByte_length_le (c : UInt8) : (escapeByte c).length ≤ 2 := by
  unfold escapeByte
  split <;> simp

/-- The items that follow are read, and one before them. -/
theorem readItems_covers_cons {text more rest : List UInt8} {item : StringItem}
    {items : List StringItem} {condition : Prop} (first : Covers text (itemText item) more condition)
    (later : Covers more (items.flatMap itemText ++ [quote]) rest (Printable items))
    (printable : condition → ∃ c, item = .byte c ∧ 0x20 ≤ c) :
    Covers text ((item :: items).flatMap itemText ++ [quote]) rest (Printable (item :: items)) := by
  rw [List.flatMap_cons, List.append_assoc]
  refine (first.trans later).imp fun both => ?_
  exact List.forall_mem_cons.mpr ⟨printable both.1, both.2⟩

/-- An item that is read before others. -/
theorem map_before_eq_some {read : Option (List StringItem × List UInt8)} {item : StringItem}
    {items : List StringItem} {rest : List UInt8}
    (found : read.map item.before = some (items, rest)) :
    ∃ later, read = some (later, rest) ∧ items = item :: later := by
  obtain ⟨⟨later, more⟩, rfl, same⟩ := Option.map_eq_some_iff.mp found
  cases same
  exact ⟨later, rfl, rfl⟩

/-- A letter that stands for a quote or a backslash is that character. -/
theorem escapedByte_special {letter c : UInt8} (meaning : escapedByte letter = some c)
    (special : c = quote ∨ c = backslash) : letter = c := by
  unfold escapedByte at meaning
  split_ifs at meaning
  · exact Option.some.inj meaning
  all_goals
    cases meaning
    exact absurd special (by decide)

theorem letter_covers {letter c : UInt8} (meaning : escapedByte letter = some c)
    (text : List UInt8) :
    Covers (backslash :: letter :: text) (itemText (.byte c)) text (0x20 ≤ c) := by
  by_cases special : c = quote ∨ c = backslash
  · obtain rfl := escapedByte_special meaning special
    have written : itemText (.byte letter) = [backslash, letter] := if_pos special
    rw [written]
    refine ⟨by simp; omega, fun _ => ⟨rfl, ?_⟩⟩
    rcases special with rfl | rfl <;> decide
  · have written : itemText (.byte c) = [c] := if_neg special
    rw [written]
    exact .of_longer (by simp; omega)

theorem byte_covers {c : UInt8} (ordinary : ¬(c = quote ∨ c = backslash)) (printable : ¬ c < 0x20)
    (text : List UInt8) : Covers (c :: text) (itemText (.byte c)) text (0x20 ≤ c) := by
  have written : itemText (.byte c) = [c] := if_neg ordinary
  rw [written]
  exact ⟨by simp [Nat.add_comm], fun _ => ⟨rfl, UInt8.not_lt.mp printable⟩⟩

/-- The items of a string cover it, each with what it takes at least. -/
theorem readItems_covers {text rest : List UInt8} {items : List StringItem}
    (read : readItems text = some (items, rest)) :
    Covers text (items.flatMap itemText ++ [quote]) rest (Printable items) := by
  fun_induction readItems text generalizing items with
  | case1 => cases read
  | case2 text =>
      cases read
      exact ⟨by simp [Nat.add_comm], fun _ => ⟨rfl, fun item none => absurd none List.not_mem_nil⟩⟩
  | case3 => cases read
  | case4 first second third fourth text _ ih =>
      obtain ⟨code, _, read⟩ := Option.bind_eq_some_iff.mp read
      obtain ⟨later, found, rfl⟩ := map_before_eq_some read
      have covers : Covers (backslash :: 0x75 :: first :: second :: third :: fourth :: text)
          (itemText (.unit code)) text False := .of_longer (by simp [itemText]; omega)
      exact readItems_covers_cons covers (ih found) False.elim
  | case5 => cases read
  | case6 letter text notUnit _ ih =>
      obtain ⟨c, meaning, read⟩ := Option.bind_eq_some_iff.mp read
      obtain ⟨later, found, rfl⟩ := map_before_eq_some read
      exact readItems_covers_cons (letter_covers meaning text) (ih found) fun plain => ⟨c, rfl, plain⟩
  | case7 => cases read
  | case8 c text notQuote notBackslash printable ih =>
      obtain ⟨later, found, rfl⟩ := map_before_eq_some read
      exact readItems_covers_cons (byte_covers (not_or.mpr ⟨notQuote, notBackslash⟩) printable text)
        (ih found) fun plain => ⟨c, rfl, plain⟩

/-- A code point takes four bytes at most, escapes included. -/
theorem encodeChar_escaped_length_le (code : Nat) :
    ((encodeChar code).flatMap escapeByte).length ≤ 4 := by
  unfold encodeChar
  generalize Char.ofNat code = char
  rcases utf8EncodeChar_bytes char with ⟨c, single⟩ | high
  · rw [single, List.flatMap_singleton]
    exact Nat.le_trans (escapeByte_length_le c) (by decide)
  · rw [List.flatMap_congr fun c member => escapeByte_high (high c member), List.flatMap_singleton',
      String.length_utf8EncodeChar]
    exact char.utf8Size_le_four

theorem encodeUnit_escaped_length_le (code : Nat) :
    ((encodeUnit code).flatMap escapeByte).length ≤ 4 :=
  encodeChar_escaped_length_le _

/-- What the items stand for is no longer than the items. -/
theorem decodeItems_escaped_length_le (items : List StringItem) :
    ((decodeItems items).flatMap escapeByte).length ≤ (items.flatMap itemText).length := by
  fun_induction decodeItems items with
  | case1 => exact Nat.le_refl _
  | case2 c items ih =>
      simp only [List.flatMap_cons, List.length_append, itemText]
      omega
  | case3 high low items pair ih =>
      have short := encodeChar_escaped_length_le (0x10000 + (high - 0xD800) * 0x400 + (low - 0xDC00))
      simp only [List.flatMap_append, List.flatMap_cons, List.length_append, itemText,
        List.length_replicate]
      omega
  | case4 high low items single ih =>
      have short := encodeUnit_escaped_length_le high
      simp only [List.flatMap_append, List.flatMap_cons, List.length_append, itemText,
        List.length_replicate] at ih ⊢
      omega
  | case5 code items notPair ih =>
      have short := encodeUnit_escaped_length_le code
      simp only [List.flatMap_append, List.flatMap_cons, List.length_append, itemText,
        List.length_replicate]
      omega

theorem Printable.bytes {items : List StringItem} (printable : Printable items) :
    ∃ content, items = content.map .byte ∧ Plain content := by
  induction items with
  | nil => exact ⟨[], rfl, fun c none => absurd none List.not_mem_nil⟩
  | cons item items ih =>
      obtain ⟨⟨c, rfl, visible⟩, printableRest⟩ := List.forall_mem_cons.mp printable
      obtain ⟨content, rfl, plain⟩ := ih printableRest
      exact ⟨c :: content, rfl, List.forall_mem_cons.mpr ⟨visible, plain⟩⟩

theorem readString_covers {text rest content : List UInt8}
    (read : readString text = some (content, rest)) :
    Covers text (closedText content) rest (Plain content) := by
  obtain ⟨⟨items, more⟩, found, same⟩ := Option.map_eq_some_iff.mp read
  obtain ⟨rfl, rfl⟩ := Prod.mk.inj same
  have covers := readItems_covers found
  have shorter := decodeItems_escaped_length_le items
  have length := covers.length_le
  simp only [List.length_append] at length
  refine ⟨by simp only [closedText, List.length_append]; omega, fun short => ?_⟩
  simp only [closedText, List.length_append] at short
  obtain ⟨written, printable⟩ := covers.tight (by simp only [List.length_append]; omega)
  obtain ⟨content, rfl, plain⟩ := printable.bytes
  rw [decodeItems_bytes]
  refine ⟨written.trans ?_, plain⟩
  rw [closedText, List.flatMap_map]
  rfl

/-! ### Values -/

/-- A word or a number is neither a string nor an object. -/
theorem readScalar_scalar {text rest : List UInt8} {value : Value}
    (read : readScalar text = some (value, rest)) :
    (∀ content, value ≠ .string content) ∧ ∀ members, value ≠ .object members := by
  unfold readScalar at read
  split_ifs at read
  case neg =>
    obtain ⟨⟨literal, more⟩, _, same⟩ := Option.map_eq_some_iff.mp read
    cases same
    exact ⟨nofun, nofun⟩
  all_goals
    cases read
    exact ⟨nofun, nofun⟩

/-- A string is read after its opening quote. -/
theorem readValue_string {fuel : Nat} {text rest content : List UInt8}
    (read : readValue fuel text = some (.string content, rest)) :
    ∃ more, text.dropWhile isSpace = quote :: more ∧ readString more = some (content, rest) := by
  cases fuel with
  | zero => cases read
  | succ fuel =>
      rw [readValue] at read
      split at read
      case h_1 => cases read
      case h_2 c more visible =>
        split_ifs at read with string object array
        · obtain ⟨⟨found, after⟩, here, same⟩ := Option.map_eq_some_iff.mp read
          cases same
          exact ⟨more, string ▸ visible, here⟩
        · split at read
          · cases read
          · obtain ⟨_, _, same⟩ := Option.map_eq_some_iff.mp read
            cases same
        · split at read
          · cases read
          · obtain ⟨_, _, same⟩ := Option.map_eq_some_iff.mp read
            cases same
        · exact absurd rfl ((readScalar_scalar read).1 content)

theorem readValue_string_covers {fuel : Nat} {text rest content : List UInt8}
    (read : readValue fuel text = some (.string content, rest)) :
    Covers text (quote :: closedText content) rest (Plain content) := by
  obtain ⟨more, visible, found⟩ := readValue_string read
  have opened : Covers text [quote] more True := by
    refine expect_covers ?_
    rw [expect, visible]
    exact if_pos rfl
  exact (opened.trans (readString_covers found)).imp And.right

/-- An object is read member by member after its opening brace. -/
theorem readValue_object {fuel : Nat} {text rest : List UInt8}
    {members : List (List UInt8 × Value)}
    (read : readValue fuel text = some (.object members, rest)) :
    ∃ more, expect openBrace text = some more
      ∧ (members = [] ∧ expect closeBrace more = some rest
        ∨ ∃ less, readMembers less more = some (members, rest)) := by
  cases fuel with
  | zero => cases read
  | succ fuel =>
      rw [readValue] at read
      split at read
      case h_1 => cases read
      case h_2 c more visible =>
        split_ifs at read with string object array
        · obtain ⟨_, _, same⟩ := Option.map_eq_some_iff.mp read
          cases same
        · refine ⟨more, by rw [expect, visible]; exact if_pos object, ?_⟩
          split at read
          case h_1 after closed =>
            cases read
            exact .inl ⟨rfl, closed⟩
          case h_2 =>
            obtain ⟨⟨found, after⟩, here, same⟩ := Option.map_eq_some_iff.mp read
            cases same
            exact .inr ⟨fuel, here⟩
        · split at read
          · cases read
          · obtain ⟨_, _, same⟩ := Option.map_eq_some_iff.mp read
            cases same
        · exact absurd rfl ((readScalar_scalar read).2 members)

/-- All strings of the members are without control characters. -/
def PlainMembers (members : List (List UInt8 × List UInt8)) : Prop :=
  ∀ member ∈ members, Plain member.1 ∧ Plain member.2

/-- The first member is read up to its value, and then either the others or the closing brace. -/
theorem readMembers_cons {fuel : Nat} {text rest : List UInt8}
    {members : List (List UInt8 × Value)} (read : readMembers fuel text = some (members, rest)) :
    ∃ less opened name named paired value valued, fuel = less + 1 ∧ expect quote text = some opened
      ∧ readString opened = some (name, named) ∧ expect colon named = some paired
      ∧ readValue less paired = some (value, valued)
      ∧ ((∃ next later, expect comma valued = some next ∧ readMembers less next = some (later, rest)
          ∧ members = (name, value) :: later)
        ∨ expect closeBrace valued = some rest ∧ members = [(name, value)]) := by
  cases fuel with
  | zero => cases read
  | succ fuel =>
      rw [readMembers] at read
      obtain ⟨opened, quoted, read⟩ := Option.bind_eq_some_iff.mp read
      obtain ⟨⟨name, named⟩, string, read⟩ := Option.bind_eq_some_iff.mp read
      obtain ⟨paired, separated, read⟩ := Option.bind_eq_some_iff.mp read
      obtain ⟨⟨value, valued⟩, here, read⟩ := Option.bind_eq_some_iff.mp read
      refine ⟨fuel, opened, name, named, paired, value, valued, rfl, quoted, string, separated, here,
        ?_⟩
      dsimp only at read
      split at read
      case h_1 next continued =>
        obtain ⟨⟨later, after⟩, others, same⟩ := Option.map_eq_some_iff.mp read
        cases same
        exact .inl ⟨next, later, continued, others, rfl⟩
      case h_2 =>
        obtain ⟨after, closed, same⟩ := Option.map_eq_some_iff.mp read
        cases same
        exact .inr ⟨closed, rfl⟩

theorem readMembers_ne_nil {fuel : Nat} {text rest : List UInt8}
    {members : List (List UInt8 × Value)} (read : readMembers fuel text = some (members, rest)) :
    members ≠ [] := by
  obtain ⟨_, _, _, _, _, _, _, _, _, _, _, _, ⟨_, _, _, _, rfl⟩ | ⟨_, rfl⟩⟩ := readMembers_cons read
  · exact List.cons_ne_nil _ _
  · exact List.cons_ne_nil _ _

/-- The first of the members, up to its value. -/
theorem first_covers {fuel : Nat} {text opened named paired valued name value : List UInt8}
    (quoted : expect quote text = some opened) (string : readString opened = some (name, named))
    (separated : expect colon named = some paired)
    (here : readValue fuel paired = some (.string value, valued)) :
    Covers text (quote :: closedText name ++ colon :: quote :: closedText value) valued
      (Plain name ∧ Plain value) := by
  have toName := (expect_covers quoted).trans (readString_covers string)
  have toValue := (expect_covers separated).trans (readValue_string_covers here)
  exact (toName.trans toValue).imp fun both => ⟨both.1.2, both.2.2⟩

/-- Members cover a text that is read as them. -/
theorem readMembers_covers {fuel : Nat} {text rest : List UInt8}
    {members : List (List UInt8 × List UInt8)}
    (read : readMembers fuel text =
      some (members.map fun member => (member.1, .string member.2), rest)) :
    Covers text (membersText members) rest (PlainMembers members) := by
  induction members generalizing fuel text with
  | nil => exact absurd rfl (readMembers_ne_nil read)
  | cons member members ih =>
      obtain ⟨name, value⟩ := member
      obtain ⟨less, opened, found, named, paired, stored, valued, rfl, quoted, string, separated,
        here, ⟨next, later, continued, others, same⟩ | ⟨closed, same⟩⟩ := readMembers_cons read
      · obtain ⟨first, rfl⟩ := List.cons.inj same
        obtain ⟨rfl, rfl⟩ := Prod.mk.inj first
        have whole := (first_covers quoted string separated here).trans
          ((expect_covers continued).trans (ih others))
        cases members with
        | nil => exact absurd rfl (readMembers_ne_nil others)
        | cons second members =>
            exact whole.imp fun both => List.forall_mem_cons.mpr ⟨both.1, both.2.2⟩
      · obtain ⟨first, none⟩ := List.cons.inj same
        obtain ⟨rfl, rfl⟩ := Prod.mk.inj first
        obtain rfl := List.map_eq_nil_iff.mp none
        have whole := (first_covers quoted string separated here).trans (expect_covers closed)
        exact whole.imp fun both => List.forall_mem_singleton.mpr both.1

/-! ### Texts -/

/-- **A text that is read as an object of strings is at least as long as the text that is written for
it. If it is no longer, it is that text, and there are no control characters in the strings.** -/
theorem parse_covers {text : List UInt8} {members : List (List UInt8 × List UInt8)}
    (read : parse text = some (stringObject members)) :
    Covers text (objectText members) [] (PlainMembers members) := by
  unfold parse at read
  split_ifs at read with valid
  split at read
  case h_2 => cases read
  case h_1 value rest found =>
    split_ifs at read with spaces
    obtain rfl := Option.some.inj read
    have ended : Covers rest [] [] True := by
      refine ⟨Nat.zero_le _, fun short => ⟨?_, trivial⟩⟩
      exact List.eq_nil_of_length_eq_zero short
    obtain ⟨more, opened, ⟨none, closed⟩ | ⟨less, inside⟩⟩ := readValue_object found
    · obtain rfl := List.map_eq_nil_iff.mp none
      have whole := ((expect_covers opened).trans (expect_covers closed)).trans ended
      exact whole.imp fun _ member inside => absurd inside List.not_mem_nil
    · have whole := ((expect_covers opened).trans (readMembers_covers inside)).trans ended
      rw [List.append_nil] at whole
      exact whole.imp fun both => both.1.2

theorem utf8_closedText {content : List UInt8} (valid : Utf8 content) : Utf8 (closedText content) :=
  (utf8_escape valid).append (utf8_ascii (by decide))

theorem utf8_cons {c : UInt8} {text : List UInt8} (ascii : c < 0x80) (valid : Utf8 text) :
    Utf8 (c :: text) :=
  (utf8_ascii ascii).append valid

theorem utf8_membersText {members : List (List UInt8 × List UInt8)}
    (valid : ∀ member ∈ members, Utf8 member.1 ∧ Utf8 member.2) : Utf8 (membersText members) := by
  induction members with
  | nil => exact utf8_ascii (by decide)
  | cons member members ih =>
      obtain ⟨name, value⟩ := member
      obtain ⟨⟨validName, validValue⟩, validRest⟩ := List.forall_mem_cons.mp valid
      have first : Utf8 (quote :: closedText name ++ colon :: quote :: closedText value) :=
        (utf8_cons (by decide) (utf8_closedText validName)).append
          (utf8_cons (by decide) (utf8_cons (by decide) (utf8_closedText validValue)))
      cases members with
      | nil => exact first.append (utf8_ascii (by decide))
      | cons next members => exact first.append (utf8_cons (by decide) (ih validRest))

theorem length_le_membersText (members : List (List UInt8 × List UInt8)) :
    members.length ≤ (membersText members).length := by
  induction members with
  | nil => exact Nat.zero_le _
  | cons member members ih =>
      cases members with
      | nil => simp [membersText]
      | cons next members =>
          simp only [membersText, List.length_cons, List.length_append] at ih ⊢
          omega

theorem readValue_object_empty (fuel : Nat) (rest : List UInt8) :
    readValue (fuel + 1) (openBrace :: closeBrace :: rest) = some (.object [], rest) := by
  have visible : isSpace openBrace = false := by decide
  have different : openBrace ≠ quote := by decide
  have closed : expect closeBrace (closeBrace :: rest) = some rest := expect_cons (by decide) rest
  simp [readValue, visible, different, closed]

theorem readValue_object_members {fuel : Nat} {text rest : List UInt8}
    {members : List (List UInt8 × Value)} (inside : expect closeBrace text = none)
    (read : readMembers fuel text = some (members, rest)) :
    readValue (fuel + 1) (openBrace :: text) = some (.object members, rest) := by
  have visible : isSpace openBrace = false := by decide
  have different : openBrace ≠ quote := by decide
  simp [readValue, visible, different, inside, read]

/-- **The text that is written for an object of strings in UTF-8 without control characters is read
as that object.** -/
theorem parse_objectText {members : List (List UInt8 × List UInt8)}
    (valid : ∀ member ∈ members, Utf8 member.1 ∧ Utf8 member.2) (plain : PlainMembers members) :
    parse (objectText members) = some (stringObject members) := by
  have encoded : Utf8 (objectText members) := utf8_cons (by decide) (utf8_membersText valid)
  have whole : readValue (2 * (objectText members).length + 2) (objectText members) =
      some (stringObject members, []) := by
    cases members with
    | nil => exact readValue_object_empty _ []
    | cons member members =>
        obtain ⟨more, begins⟩ : ∃ more, membersText (member :: members) = quote :: more := by
          cases members <;> exact ⟨_, rfl⟩
        have enough : (member :: members).length <
            2 * (objectText (member :: members)).length + 1 := by
          have least := length_le_membersText (member :: members)
          simp only [objectText, List.length_cons] at least ⊢
          omega
        have read := readMembers_plain plain (List.cons_ne_nil _ _) enough []
        rw [List.append_nil] at read
        refine readValue_object_members ?_ read
        rw [begins]
        exact expect_other (by decide) (by decide) more
  rw [parse, if_pos encoded, whole]
  rfl

theorem parse_utf8 {text : List UInt8} {value : Value} (read : parse text = some value) :
    Utf8 text := by
  unfold parse at read
  split_ifs at read with valid
  exact valid

/-- **Any text that is no longer than the one that is written for an object of strings is read as
that object exactly if it is that text, in UTF-8 and without control characters.** -/
theorem parse_eq_stringObject_iff {text : List UInt8} {members : List (List UInt8 × List UInt8)}
    (short : text.length ≤ (objectText members).length) :
    parse text = some (stringObject members) ↔
      text = objectText members ∧ (∀ member ∈ members, Utf8 member.1 ∧ Utf8 member.2)
        ∧ PlainMembers members := by
  constructor
  · intro read
    have covers := parse_covers read
    have longer := covers.length_le
    obtain ⟨whole, plain⟩ := covers.tight (by simp only [List.length_nil] at longer ⊢; omega)
    rw [List.append_nil] at whole
    subst whole
    have members : Utf8 (membersText members) := (parse_utf8 read).of_cons (by decide)
    exact ⟨rfl, members.of_membersText, plain⟩
  · rintro ⟨rfl, valid, plain⟩
    exact parse_objectText valid plain

end GuacNebula.Rfc8259
