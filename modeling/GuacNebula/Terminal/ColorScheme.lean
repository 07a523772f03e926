import GuacNebula.Terminal.NamedColors
import Mathlib.Data.List.DropRight

/-! # Colour schemes

A colour scheme is a list of pairs of a name and a value, in text. The parser marks the parts of the
text by two pointers each, but the functions that read numbers and colours get the first of the two
only, and go on until the text tells them to stop.

What a scheme means is said of its pairs, each of them cut out of the text. The warnings that are
logged are left out.
-/

namespace GuacNebula.Terminal

open CInt

/-! ## The initial palette -/

/-- `GUAC_TERMINAL_INITIAL_PALETTE`, by the components of every colour. -/
def initialPaletteTable : List Nat :=
  [0x000000, 0x993E3E, 0x3E993E, 0x99993E, 0x3E3E99, 0x993E99, 0x3E9999, 0x999999, 0x3E3E3E,
    0xFF6767, 0x67FF67, 0xFFFF67, 0x6767FF, 0xFF67FF, 0x67FFFF, 0xFFFFFF, 0x000000, 0x00005F,
    0x000087, 0x0000AF, 0x0000D7, 0x0000FF, 0x005F00, 0x005F5F, 0x005F87, 0x005FAF, 0x005FD7,
    0x005FFF, 0x008700, 0x00875F, 0x008787, 0x0087AF, 0x0087D7, 0x0087FF, 0x00AF00, 0x00AF5F,
    0x00AF87, 0x00AFAF, 0x00AFD7, 0x00AFFF, 0x00D700, 0x00D75F, 0x00D787, 0x00D7AF, 0x00D7D7,
    0x00D7FF, 0x00FF00, 0x00FF5F, 0x00FF87, 0x00FFAF, 0x00FFD7, 0x00FFFF, 0x5F0000, 0x5F005F,
    0x5F0087, 0x5F00AF, 0x5F00D7, 0x5F00FF, 0x5F5F00, 0x5F5F5F, 0x5F5F87, 0x5F5FAF, 0x5F5FD7,
    0x5F5FFF, 0x5F8700, 0x5F875F, 0x5F8787, 0x5F87AF, 0x5F87D7, 0x5F87FF, 0x5FAF00, 0x5FAF5F,
    0x5FAF87, 0x5FAFAF, 0x5FAFD7, 0x5FAFFF, 0x5FD700, 0x5FD75F, 0x5FD787, 0x5FD7AF, 0x5FD7D7,
    0x5FD7FF, 0x5FFF00, 0x5FFF5F, 0x5FFF87, 0x5FFFAF, 0x5FFFD7, 0x5FFFFF, 0x870000, 0x87005F,
    0x870087, 0x8700AF, 0x8700D7, 0x8700FF, 0x875F00, 0x875F5F, 0x875F87, 0x875FAF, 0x875FD7,
    0x875FFF, 0x878700, 0x87875F, 0x878787, 0x8787AF, 0x8787D7, 0x8787FF, 0x87AF00, 0x87AF5F,
    0x87AF87, 0x87AFAF, 0x87AFD7, 0x87AFFF, 0x87D700, 0x87D75F, 0x87D787, 0x87D7AF, 0x87D7D7,
    0x87D7FF, 0x87FF00, 0x87FF5F, 0x87FF87, 0x87FFAF, 0x87FFD7, 0x87FFFF, 0xAF0000, 0xAF005F,
    0xAF0087, 0xAF00AF, 0xAF00D7, 0xAF00FF, 0xAF5F00, 0xAF5F5F, 0xAF5F87, 0xAF5FAF, 0xAF5FD7,
    0xAF5FFF, 0xAF8700, 0xAF875F, 0xAF8787, 0xAF87AF, 0xAF87D7, 0xAF87FF, 0xAFAF00, 0xAFAF5F,
    0xAFAF87, 0xAFAFAF, 0xAFAFD7, 0xAFAFFF, 0xAFD700, 0xAFD75F, 0xAFD787, 0xAFD7AF, 0xAFD7D7,
    0xAFD7FF, 0xAFFF00, 0xAFFF5F, 0xAFFF87, 0xAFFFAF, 0xAFFFD7, 0xAFFFFF, 0xD70000, 0xD7005F,
    0xD70087, 0xD700AF, 0xD700D7, 0xD700FF, 0xD75F00, 0xD75F5F, 0xD75F87, 0xD75FAF, 0xD75FD7,
    0xD75FFF, 0xD78700, 0xD7875F, 0xD78787, 0xD787AF, 0xD787D7, 0xD787FF, 0xD7AF00, 0xD7AF5F,
    0xD7AF87, 0xD7AFAF, 0xD7AFD7, 0xD7AFFF, 0xD7D700, 0xD7D75F, 0xD7D787, 0xD7D7AF, 0xD7D7D7,
    0xD7D7FF, 0xD7FF00, 0xD7FF5F, 0xD7FF87, 0xD7FFAF, 0xD7FFD7, 0xD7FFFF, 0xFF0000, 0xFF005F,
    0xFF0087, 0xFF00AF, 0xFF00D7, 0xFF00FF, 0xFF5F00, 0xFF5F5F, 0xFF5F87, 0xFF5FAF, 0xFF5FD7,
    0xFF5FFF, 0xFF8700, 0xFF875F, 0xFF8787, 0xFF87AF, 0xFF87D7, 0xFF87FF, 0xFFAF00, 0xFFAF5F,
    0xFFAF87, 0xFFAFAF, 0xFFAFD7, 0xFFAFFF, 0xFFD700, 0xFFD75F, 0xFFD787, 0xFFD7AF, 0xFFD7D7,
    0xFFD7FF, 0xFFFF00, 0xFFFF5F, 0xFFFF87, 0xFFFFAF, 0xFFFFD7, 0xFFFFFF, 0x080808, 0x121212,
    0x1C1C1C, 0x262626, 0x303030, 0x3A3A3A, 0x444444, 0x4E4E4E, 0x585858, 0x626262, 0x6C6C6C,
    0x767676, 0x808080, 0x8A8A8A, 0x949494, 0x9E9E9E, 0xA8A8A8, 0xB2B2B2, 0xBCBCBC, 0xC6C6C6,
    0xD0D0D0, 0xDADADA, 0xE4E4E4, 0xEEEEEE]

/-- A colour of the initial palette, which is the colour of its own index. -/
def initialPalette (index : Int) : Color :=
  { rgbColor (initialPaletteTable.getD index.toNat 0) with paletteIndex := index }

/-- The default scheme, gray on black. -/
def initialColors : Colors where
  palette := initialPalette
  defaultForeground := initialPalette 7
  defaultBackground := initialPalette 0

/-! ## The parser -/

/-- A part of a text between two pointers, and what is behind it. -/
structure TextPart where
  text : List UInt8
  behind : List UInt8

/-- What a function reads that is given the first pointer only. -/
def TextPart.rest (part : TextPart) : List UInt8 := part.text ++ part.behind

/-- `guac_terminal_color_scheme_strip_spaces`. -/
def TextPart.stripSpaces (part : TextPart) : TextPart :=
  let text := part.text.dropWhile isSpace
  { text := text.rdropWhile isSpace
    behind := text.rtakeWhile isSpace ++ part.behind }

/-- The part of a text up to a separator. -/
def TextPart.before (separator : UInt8) (part : TextPart) : TextPart where
  text := part.text.takeWhile (· ≠ separator)
  behind := part.text.dropWhile (· ≠ separator) ++ part.behind

/-- The part of a text behind a separator. -/
def TextPart.after (separator : UInt8) (part : TextPart) : TextPart where
  text := (part.text.dropWhile (· ≠ separator)).tail
  behind := part.behind

/-- `guac_terminal_color_scheme_compare_token`: whether the part is equal to the literal. -/
def TextPart.compareToken (part : TextPart) (literal : String) : Bool := part.text = bytesOf literal

/-- The conversion `%d` of `sscanf`. The number is one that `strtol` reads, which is limited to 64
bits, converted to `int`. -/
def scanDecimal (text : List UInt8) : Option Int :=
  let (negative, _, text) := takeSign 1 (text.dropWhile isSpace)
  let digits := text.takeWhile isDigit
  if digits.isEmpty then none
  else if negative then some (toInt (max (-9223372036854775808) (-(digitsValue digits : Int))))
  else some (toInt (min 9223372036854775807 (digitsValue digits : Int)))

/-- `sscanf` with the format `color%d`, if the number is an index of the palette. -/
def scanNumbered (text : List UInt8) : Option Int :=
  ((scanLiteral (bytesOf "color") text).bind scanDecimal).filter fun index =>
    0 ≤ index ∧ index ≤ 255

/-- The colour that a name stands for. -/
inductive SchemeTarget
  | foreground
  | background
  | palette (index : Int)
  deriving DecidableEq, Repr

/-- `guac_terminal_parse_color_scheme_name`. -/
def parseColorSchemeName (name : TextPart) : Option SchemeTarget :=
  let name := name.stripSpaces
  if name.compareToken "foreground" then some .foreground
  else if name.compareToken "background" then some .background
  else (scanNumbered name.rest).map .palette

/-- `guac_terminal_parse_color_scheme_value`. -/
def parseColorSchemeValue (value : TextPart) (palette : Int → Color) : Option Color :=
  let value := value.stripSpaces
  match scanNumbered value.rest with
  | some index => some (palette index)
  | none => terminalXparsecolor namedColors value.rest

/-- A colour is stored. -/
def Colors.assign (colors : Colors) (color : Color) : SchemeTarget → Colors
  | .foreground => { colors with defaultForeground := color }
  | .background => { colors with defaultBackground := color }
  | .palette index => { colors with palette := Function.update colors.palette index color }

/-- One pair of a scheme: the colours after it, unless it is malformed. -/
def parseColorSchemePair (colors : Colors) (pair : TextPart) : Option Colors :=
  let pair := pair.stripSpaces
  if pair.text = [] then some colors
  else if 0x3A ∈ pair.text then do
    let target ← parseColorSchemeName (pair.before 0x3A)
    let color ← parseColorSchemeValue (pair.after 0x3A) colors.palette
    return colors.assign color target
  else none

/-- The foreground and the background get their own pseudo-indices. -/
def Colors.persist (colors : Colors) : Colors :=
  { colors with
    defaultForeground := { colors.defaultForeground with paletteIndex := colorForeground }
    defaultBackground := { colors.defaultBackground with paletteIndex := colorBackground } }

/-- The loop of `guac_terminal_parse_color_scheme`, which returns at once at a malformed pair. -/
def colorSchemeLoop (colors : Colors) (cursor : List UInt8) : Colors :=
  match parseColorSchemePair colors (TextPart.before 0x3B ⟨cursor, []⟩) with
  | none => colors
  | some colors =>
      match _rest : cursor.dropWhile (· ≠ 0x3B) with
      | [] => colors.persist
      | _ :: later => colorSchemeLoop colors later
termination_by cursor.length
decreasing_by
  have shorter := (List.dropWhile_suffix (l := cursor) (· ≠ 0x3B)).length_le
  rw [_rest, List.length_cons] at shorter
  omega

/-- The text that the name of a scheme stands for. -/
def schemeText (scheme : List UInt8) : List UInt8 :=
  if scheme = bytesOf "gray-black" then bytesOf "foreground:color7;background:color0"
  else if scheme = bytesOf "black-white" then bytesOf "foreground:color0;background:color15"
  else if scheme = bytesOf "green-black" then bytesOf "foreground:color2;background:color0"
  else if scheme = bytesOf "white-black" then bytesOf "foreground:color15;background:color0"
  else scheme

/-- `guac_terminal_parse_color_scheme`. -/
def parseColorScheme (scheme : List UInt8) : Colors :=
  colorSchemeLoop initialColors (schemeText scheme)

/-! ## The meaning of a scheme -/

/-- A text without the spaces around it. -/
def trim (text : List UInt8) : List UInt8 := (text.dropWhile isSpace).rdropWhile isSpace

/-- The pairs of a scheme, without those that are empty. -/
def schemePairs (text : List UInt8) : List (List UInt8) :=
  ((text.splitOn 0x3B).map trim).filter (· ≠ [])

/-- The colour that is meant by a name. -/
def readTarget (name : List UInt8) : Option SchemeTarget :=
  if name = bytesOf "foreground" then some .foreground
  else if name = bytesOf "background" then some .background
  else (scanNumbered name).map .palette

/-- A value is a colour, or refers to what a colour of the palette is by then. -/
inductive SchemeValue
  | numbered (index : Int)
  | color (color : Color)
  deriving DecidableEq, Repr

/-- The colour that a value has with a palette. -/
def SchemeValue.resolve (palette : Int → Color) : SchemeValue → Color
  | .numbered index => palette index
  | .color given => given

/-- What is meant by a value. -/
def readValue (value : List UInt8) : Option SchemeValue :=
  match scanNumbered value with
  | some index => some (.numbered index)
  | none => (terminalXparsecolor namedColors value).map .color

/-- What is meant by a pair, unless it is malformed. -/
def readPair (pair : List UInt8) : Option (SchemeTarget × SchemeValue) :=
  if 0x3A ∈ pair then do
    let target ← readTarget (trim (pair.takeWhile (· ≠ 0x3A)))
    let value ← readValue (trim (pair.dropWhile (· ≠ 0x3A)).tail)
    return (target, value)
  else none

/-- Colours are updated in order by the pairs before the first malformed one. -/
def updateColors (colors : Colors) : List (List UInt8) → Colors
  | [] => colors
  | pair :: pairs =>
      match readPair pair with
      | none => colors
      | some (target, value) =>
          updateColors (colors.assign (value.resolve colors.palette) target) pairs

/-- The colours of a scheme. -/
def schemeColors (scheme : List UInt8) : Colors :=
  (updateColors initialColors (schemePairs (schemeText scheme))).persist

/-! ## Reading within a pair -/

section Reading

variable {tail : List UInt8} (text : List UInt8)

theorem takeSign_nil (width : Nat) : takeSign width [] = (false, width, []) := by
  unfold takeSign
  rw [if_neg (fun both => nomatch both.2), if_neg (fun both => nomatch both.2)]

theorem isDigit_inert {byte : UInt8} (inert : isInert byte = true) : isDigit byte = false := by
  have value := isInert_toNat inert
  unfold isDigit
  simp only [Bool.and_eq_false_iff, decide_eq_false_iff_not, UInt8.le_iff_toNat_le]
  change ¬48 ≤ byte.toNat ∨ ¬byte.toNat ≤ 57
  omega

theorem takeDigits_tail (closes : Closes tail) :
    (text ++ tail).takeWhile isDigit = text.takeWhile isDigit := by
  have none : tail.takeWhile isDigit = [] := by
    cases tail with
    | nil => rfl
    | cons first tail =>
        have other := isDigit_inert (closes.head first rfl)
        exact List.takeWhile_cons_of_neg (by rw [other]; decide)
  rw [List.takeWhile_append, none]
  split_ifs with all
  · rw [List.append_nil, (List.takeWhile_prefix isDigit).eq_of_length all]
  · rfl

theorem scanDecimal_tail (closes : Closes tail) : scanDecimal (text ++ tail) = scanDecimal text := by
  by_cases blank : text.dropWhile isSpace = []
  · have behind : (text ++ tail).dropWhile isSpace = [] ++ tail.dropWhile isSpace :=
      List.dropWhile_append_of_pos (List.dropWhile_eq_nil_iff.mp blank)
    simp only [scanDecimal, behind, blank, takeSign_tail _ _ closes.dropSpaces, takeSign_nil,
      takeDigits_tail _ closes.dropSpaces]
  · have front : (text ++ tail).dropWhile isSpace = text.dropWhile isSpace ++ tail := by
      rw [List.dropWhile_append, if_neg (by simpa using blank)]
    simp only [scanDecimal, front, takeSign_tail _ _ closes, takeDigits_tail _ closes]

theorem scanNumbered_tail (closes : Closes tail) :
    scanNumbered (text ++ tail) = scanNumbered text := by
  have active : ((bytesOf "color").all fun byte => !isInert byte) = true := by decide
  have absent : ∀ byte ∈ tail.head?, byte ∉ bytesOf "color" := by
    intro byte head member
    have other := List.all_eq_true.mp active byte member
    rw [closes.head byte head] at other
    exact Bool.false_ne_true other
  unfold scanNumbered
  rw [scanLiteral_tail text absent]
  cases scanLiteral (bytesOf "color") text with
  | none => rfl
  | some rest =>
      change (scanDecimal (rest ++ tail)).filter _ = (scanDecimal rest).filter _
      rw [scanDecimal_tail rest closes]

theorem keyName_tail (ends : keyName tail = []) : keyName (text ++ tail) = keyName text := by
  induction text with
  | nil => exact ends
  | cons byte text ih =>
      rw [List.cons_append]
      by_cases space : isSpace byte = true
      · rw [keyName_space _ space, keyName_space _ space, ih]
      by_cases stops : byte = 0 ∨ byte = 0x3B
      · rw [keyName_end _ stops, keyName_end _ stops]
      · rw [keyName_cons _ stops (by simpa using space), keyName_cons _ stops (by simpa using space),
          ih]

theorem terminalXparsecolor_tail (closes : Closes tail) (plain : tail.head? ≠ some 0x3A)
    (ends : keyName tail = []) :
    terminalXparsecolor namedColors (text ++ tail) = terminalXparsecolor namedColors text := by
  simp only [terminalXparsecolor, scanRgb_tail _ _ closes plain, findColor_eq,
    keyName_tail _ ends]

/-- Behind the spaces it begins with, a text has ended or goes on with the end of a pair. -/
def Ends (tail : List UInt8) : Prop :=
  ∀ byte ∈ (tail.dropWhile isSpace).head?, byte = 0x3B

theorem Ends.closes (ends : Ends tail) : Closes tail := by
  intro byte head
  rw [ends byte head]
  rfl

theorem Ends.plain (ends : Ends tail) : tail.head? ≠ some 0x3A := by
  intro head
  cases tail with
  | nil => cases head
  | cons first tail =>
      cases head
      exact absurd (ends 0x3A rfl) (by decide)

theorem Ends.keyName (ends : Ends tail) : keyName tail = [] := by
  rw [← keyName_dropSpaces]
  cases rest : tail.dropWhile isSpace with
  | nil => rfl
  | cons byte rest' =>
      have semicolon : byte = 0x3B := ends byte (by rw [rest]; rfl)
      exact keyName_end _ (.inr semicolon)

end Reading

section Pairs

variable (part : TextPart)

theorem TextPart.stripSpaces_behind :
    part.stripSpaces.behind.dropWhile isSpace = part.behind.dropWhile isSpace :=
  List.dropWhile_append_of_pos fun _ member => List.mem_rtakeWhile_imp member

theorem TextPart.stripSpaces_rest :
    part.stripSpaces.rest = trim part.text ++ part.stripSpaces.behind := rfl

theorem dropWhile_ne_cons {separator : UInt8} {text : List UInt8} (member : separator ∈ text) :
    ∃ rest, text.dropWhile (· ≠ separator) = separator :: rest := by
  induction text with
  | nil => cases member
  | cons first text ih =>
      by_cases here : first = separator
      · exact ⟨text, by rw [List.dropWhile_cons_of_neg (by simpa using here), here]⟩
      · rw [List.dropWhile_cons_of_pos (by simpa using here)]
        exact ih ((List.mem_cons.mp member).resolve_left (Ne.symm here))

/-- A name is read within its pair. -/
theorem parseColorSchemeName_eq (pair : TextPart) (colon : 0x3A ∈ pair.text) :
    parseColorSchemeName (pair.before 0x3A) =
      readTarget (trim (pair.text.takeWhile (· ≠ 0x3A))) := by
  have closes : Closes (pair.before 0x3A).stripSpaces.behind := by
    obtain ⟨rest, behind⟩ := dropWhile_ne_cons colon
    unfold Closes
    rw [TextPart.stripSpaces_behind]
    change ∀ byte ∈ ((pair.text.dropWhile (· ≠ 0x3A) ++ pair.behind).dropWhile isSpace).head?, _
    rw [behind]
    rintro byte ⟨⟩
    rfl
  unfold parseColorSchemeName readTarget
  dsimp only
  rw [TextPart.stripSpaces_rest, scanNumbered_tail _ closes]
  simp only [TextPart.compareToken, decide_eq_true_eq]
  rfl

/-- A value is read within its pair. -/
theorem parseColorSchemeValue_eq (pair : TextPart) (ends : Ends pair.behind)
    (palette : Int → Color) :
    parseColorSchemeValue (pair.after 0x3A) palette =
      (readValue (trim (pair.text.dropWhile (· ≠ 0x3A)).tail)).map (·.resolve palette) := by
  have stripped : Ends (pair.after 0x3A).stripSpaces.behind := by
    unfold Ends
    rw [TextPart.stripSpaces_behind]
    exact ends
  unfold parseColorSchemeValue readValue
  dsimp only
  rw [TextPart.stripSpaces_rest, scanNumbered_tail _ stripped.closes,
    terminalXparsecolor_tail _ stripped.closes stripped.plain stripped.keyName]
  have token : (pair.after 0x3A).text = (pair.text.dropWhile (· ≠ 0x3A)).tail := rfl
  rw [token]
  cases scanNumbered (trim (pair.text.dropWhile (· ≠ 0x3A)).tail) with
  | some index => rfl
  | none =>
      dsimp only
      rw [Option.map_map]
      exact Option.map_id'.symm

theorem parseColorSchemePair_eq (colors : Colors) (pair : TextPart) (ends : Ends pair.behind) :
    parseColorSchemePair colors pair =
      if trim pair.text = [] then some colors
      else (readPair (trim pair.text)).map fun read =>
        colors.assign (read.2.resolve colors.palette) read.1 := by
  have stripped : Ends pair.stripSpaces.behind := by
    unfold Ends
    rw [TextPart.stripSpaces_behind]
    exact ends
  unfold parseColorSchemePair readPair
  dsimp only
  change (if trim pair.text = [] then _ else if 0x3A ∈ trim pair.text then _ else _) = _
  by_cases empty : trim pair.text = []
  · rw [if_pos empty, if_pos empty]
  rw [if_neg empty, if_neg empty]
  by_cases colon : 0x3A ∈ trim pair.text
  · rw [if_pos colon, if_pos colon, parseColorSchemeName_eq pair.stripSpaces colon,
      parseColorSchemeValue_eq pair.stripSpaces stripped]
    change Option.bind (readTarget (trim ((trim pair.text).takeWhile (· ≠ 0x3A)))) _ =
      Option.map _ (Option.bind (readTarget (trim ((trim pair.text).takeWhile (· ≠ 0x3A)))) _)
    cases readTarget (trim ((trim pair.text).takeWhile (· ≠ 0x3A))) with
    | none => rfl
    | some target =>
        change Option.bind (Option.map _ (readValue (trim ((trim pair.text).dropWhile
          (· ≠ 0x3A)).tail))) _ = Option.map _ (Option.bind (readValue _) _)
        cases readValue (trim ((trim pair.text).dropWhile (· ≠ 0x3A)).tail) <;> rfl
  · rw [if_neg colon, if_neg colon]
    rfl

end Pairs

/-! ## Whole schemes -/

section Schemes

variable {colors : Colors} {text later : List UInt8}

/-- The first part of a text up to the end of a pair. -/
def firstPart (text : List UInt8) : List UInt8 := text.takeWhile (· ≠ 0x3B)

theorem schemePairs_last (last : text.dropWhile (· ≠ 0x3B) = []) :
    schemePairs text = [trim (firstPart text)].filter (· ≠ []) := by
  have absent : 0x3B ∉ text := fun member => by
    simpa using List.dropWhile_eq_nil_iff.mp last _ member
  have whole : firstPart text = text := by
    have parts := List.takeWhile_append_dropWhile (p := (· ≠ 0x3B)) (l := text)
    rwa [last, List.append_nil] at parts
  unfold schemePairs
  rw [List.splitOn_eq_singleton absent, List.map_singleton, whole]

theorem schemePairs_more {first : UInt8} (more : text.dropWhile (· ≠ 0x3B) = first :: later) :
    schemePairs text = [trim (firstPart text)].filter (· ≠ []) ++ schemePairs later := by
  have separator : first = 0x3B := by
    have head := List.head?_dropWhile_not (· ≠ 0x3B) text
    rw [more] at head
    simpa using head
  have absent : 0x3B ∉ firstPart text := fun member => by
    simpa using List.mem_takeWhile_imp member
  have whole : text = firstPart text ++ 0x3B :: later := by
    rw [← separator, ← more]
    exact List.takeWhile_append_dropWhile.symm
  have split : text.splitOn 0x3B = firstPart text :: later.splitOn 0x3B := by
    conv_lhs => rw [whole]
    exact List.splitOn_append_cons_self_of_not_mem absent later
  unfold schemePairs
  rw [split, List.map_cons, ← List.singleton_append, List.filter_append]

theorem schemePairs_first (text : List UInt8) :
    ∃ pairs, schemePairs text = [trim (firstPart text)].filter (· ≠ []) ++ pairs := by
  cases rest : text.dropWhile (· ≠ 0x3B) with
  | nil => exact ⟨[], by rw [schemePairs_last rest, List.append_nil]⟩
  | cons first later => exact ⟨schemePairs later, schemePairs_more rest⟩

/-- The part of a text that the loop takes next is read as a pair of its own. -/
theorem parseFirstPart (colors : Colors) (text : List UInt8) :
    parseColorSchemePair colors (TextPart.before 0x3B ⟨text, []⟩) =
      if trim (firstPart text) = [] then some colors
      else (readPair (trim (firstPart text))).map fun read =>
        colors.assign (read.2.resolve colors.palette) read.1 := by
  refine parseColorSchemePair_eq colors _ fun byte head => ?_
  change byte ∈ ((text.dropWhile (· ≠ 0x3B) ++ []).dropWhile isSpace).head? at head
  rw [List.append_nil] at head
  cases rest : text.dropWhile (· ≠ 0x3B) with
  | nil =>
      rw [rest] at head
      cases head
  | cons first later =>
      have separator := List.head?_dropWhile_not (· ≠ 0x3B) text
      rw [rest] at separator head
      have semicolon : first = 0x3B := by simpa using separator
      subst semicolon
      cases head
      rfl

variable {updated : Colors} (pairs : List (List UInt8))

theorem updateColors_malformed
    (malformed : parseColorSchemePair colors (TextPart.before 0x3B ⟨text, []⟩) = none) :
    updateColors colors ([trim (firstPart text)].filter (· ≠ []) ++ pairs) = colors ∧
      ¬∀ pair ∈ [trim (firstPart text)].filter (· ≠ []) ++ pairs,
        (readPair pair).isSome = true := by
  rw [parseFirstPart] at malformed
  split_ifs at malformed with empty
  have unread := Option.map_eq_none_iff.mp malformed
  rw [List.filter_cons_of_pos (by simpa using empty), List.filter_nil, List.singleton_append,
    updateColors, unread]
  refine ⟨rfl, fun all => ?_⟩
  have read := all _ List.mem_cons_self
  rw [unread] at read
  cases read

theorem updateColors_read
    (read : parseColorSchemePair colors (TextPart.before 0x3B ⟨text, []⟩) = some updated) :
    updateColors colors ([trim (firstPart text)].filter (· ≠ []) ++ pairs) =
        updateColors updated pairs ∧
      ((∀ pair ∈ [trim (firstPart text)].filter (· ≠ []) ++ pairs,
          (readPair pair).isSome = true) ↔
        ∀ pair ∈ pairs, (readPair pair).isSome = true) := by
  rw [parseFirstPart] at read
  split_ifs at read with empty
  · cases read
    rw [List.filter_cons_of_neg (by simpa using empty), List.filter_nil, List.nil_append]
    exact ⟨rfl, Iff.rfl⟩
  · obtain ⟨meant, present, rfl⟩ := Option.map_eq_some_iff.mp read
    rw [List.filter_cons_of_pos (by simpa using empty), List.filter_nil, List.singleton_append,
      updateColors, present, List.forall_mem_cons, present]
    exact ⟨rfl, and_iff_right rfl⟩

/-- **The parser follows the pairs.** At a malformed pair it returns without the pseudo-indices. -/
theorem colorSchemeLoop_eq (colors : Colors) (text : List UInt8) :
    colorSchemeLoop colors text =
      if ∀ pair ∈ schemePairs text, (readPair pair).isSome = true then
        (updateColors colors (schemePairs text)).persist
      else updateColors colors (schemePairs text) := by
  fun_induction colorSchemeLoop colors text
  case case1 colors text malformed =>
    obtain ⟨pairs, split⟩ := schemePairs_first text
    obtain ⟨unchanged, unread⟩ := updateColors_malformed pairs malformed
    rw [← split] at unchanged unread
    rw [if_neg unread, unchanged]
  case case2 colors text updated read last =>
    have pairs := updateColors_read [] read
    rw [List.append_nil, ← schemePairs_last last] at pairs
    rw [pairs.1, if_pos (pairs.2.mpr fun _ absent => nomatch absent), updateColors]
  case case3 colors text updated read first later more ih =>
    have pairs := updateColors_read (schemePairs later) read
    rw [← schemePairs_more more] at pairs
    rw [ih, pairs.1]
    exact if_congr pairs.2.symm rfl rfl

/-! ## Palette indices -/

/-- No colour has a pseudo-index. -/
structure Colors.Indexed (colors : Colors) : Prop where
  palette : ∀ index, 0 ≤ index → index ≤ 255 → -1 ≤ (colors.palette index).paletteIndex
  foreground : -1 ≤ colors.defaultForeground.paletteIndex
  background : -1 ≤ colors.defaultBackground.paletteIndex

theorem initialColors_indexed : initialColors.Indexed where
  palette index lower _ := by
    change -1 ≤ index
    omega
  foreground := by decide
  background := by decide

theorem Colors.Indexed.assign (indexed : colors.Indexed) {color : Color}
    (kept : -1 ≤ color.paletteIndex) (target : SchemeTarget) :
    (colors.assign color target).Indexed := by
  cases target with
  | foreground => exact { indexed with foreground := kept }
  | background => exact { indexed with background := kept }
  | palette index =>
      refine { indexed with palette := fun other lower upper => ?_ }
      change -1 ≤ (Function.update colors.palette index color other).paletteIndex
      by_cases here : other = index
      · rw [here, Function.update_self]
        exact kept
      · rw [Function.update_of_ne here]
        exact indexed.palette other lower upper

theorem scanNumbered_range {index : Int} (numbered : scanNumbered text = some index) :
    0 ≤ index ∧ index ≤ 255 :=
  of_decide_eq_true (Option.filter_eq_some_iff.mp numbered).2

theorem terminalXparsecolor_index {spec : List UInt8} {color : Color}
    (parsed : terminalXparsecolor namedColors spec = some color) : color.paletteIndex = -1 := by
  unfold terminalXparsecolor at parsed
  split at parsed
  · cases parsed
    rfl
  split at parsed
  · cases parsed
    rfl
  split at parsed
  · cases parsed
    rfl
  split at parsed
  · cases parsed
    rfl
  rw [findColor_eq] at parsed
  obtain ⟨entry, found, rfl⟩ := Option.map_eq_some_iff.mp parsed
  have member : entry ∈ colorEntries := searchPath_subset _ _ (List.mem_of_find?_eq_some found)
  obtain ⟨named, _, rfl⟩ := List.mem_map.mp member
  rfl

theorem Colors.Indexed.resolve (indexed : colors.Indexed) {value : SchemeValue}
    (read : readValue text = some value) : -1 ≤ (value.resolve colors.palette).paletteIndex := by
  unfold readValue at read
  split at read
  · rename_i index numbered
    cases read
    obtain ⟨lower, upper⟩ := scanNumbered_range numbered
    exact indexed.palette index lower upper
  · obtain ⟨color, parsed, rfl⟩ := Option.map_eq_some_iff.mp read
    exact (terminalXparsecolor_index parsed).ge

theorem readPair_value {pair : List UInt8} {target : SchemeTarget} {value : SchemeValue}
    (read : readPair pair = some (target, value)) : ∃ text, readValue text = some value := by
  unfold readPair at read
  split_ifs at read
  obtain ⟨_, _, read⟩ := Option.bind_eq_some_iff.mp read
  obtain ⟨_, parsed, read⟩ := Option.bind_eq_some_iff.mp read
  cases read
  exact ⟨_, parsed⟩

/-- No update of a scheme gives a colour a pseudo-index. -/
theorem Colors.Indexed.updateColors (indexed : colors.Indexed) (pairs : List (List UInt8)) :
    (updateColors colors pairs).Indexed := by
  induction pairs generalizing colors with
  | nil => exact indexed
  | cons pair pairs ih =>
      unfold Terminal.updateColors
      split
      · exact indexed
      · rename_i target value read
        obtain ⟨_, parsed⟩ := readPair_value read
        exact ih (indexed.assign (indexed.resolve parsed) target)

/-- **Parsing a colour scheme.** The result is what the pairs of the scheme mean, up to the first
malformed one, with the pseudo-indices of the foreground and the background, exactly if no pair is
malformed. -/
theorem parseColorScheme_eq_iff (scheme : List UInt8) :
    parseColorScheme scheme = schemeColors scheme ↔
      ∀ pair ∈ schemePairs (schemeText scheme), (readPair pair).isSome = true := by
  unfold parseColorScheme schemeColors
  rw [colorSchemeLoop_eq]
  split_ifs with wellFormed
  · exact iff_of_true rfl wellFormed
  · refine iff_of_false (fun same => ?_) wellFormed
    have kept := (initialColors_indexed.updateColors (schemePairs (schemeText scheme))).foreground
    rw [same] at kept
    have pseudo : -1 ≤ colorForeground := kept
    exact absurd pseudo (by decide)

/-- A word that is no pair leaves the foreground with the index of gray. -/
theorem malformed_scheme_keeps_index :
    parseColorScheme (bytesOf "gray") ≠ schemeColors (bytesOf "gray") := by
  intro same
  have malformed : parseColorSchemePair initialColors
      (TextPart.before 0x3B ⟨schemeText (bytesOf "gray"), []⟩) = none := rfl
  have index := congrArg (fun colors => colors.defaultForeground.paletteIndex) same
  change _ = colorForeground at index
  unfold parseColorScheme at index
  rw [colorSchemeLoop, malformed] at index
  exact absurd index (by decide)

end Schemes

end GuacNebula.Terminal
