import GuacNebula.Terminal.State
import Mathlib.Data.List.DropRight

/-! # Colour specifications

A colour is specified by its components, in one to four hexadecimal digits each, or by its name.
The components are read by `sscanf`, which does not look behind the last of them, and a name is
compared as far as the names of the table reach, so that an escape character behind a specification
changes nothing.
-/

namespace GuacNebula.Terminal

/-- The escape character. -/
def escapeByte : UInt8 := 0x1B

/-! ## Components -/

/-- The value of a hexadecimal digit. -/
def hexValue (byte : UInt8) : Option Nat :=
  if 0x30 ≤ byte ∧ byte ≤ 0x39 then some (byte.toNat - 0x30)
  else if 0x41 ≤ byte ∧ byte ≤ 0x46 then some (byte.toNat - 0x37)
  else if 0x61 ≤ byte ∧ byte ≤ 0x66 then some (byte.toNat - 0x57)
  else none

/-- The digits a text begins with, at most `width` of them, and what follows. -/
def takeHexDigits : Nat → List UInt8 → List Nat × List UInt8
  | 0, text => ([], text)
  | _ + 1, [] => ([], [])
  | width + 1, byte :: text =>
      match hexValue byte with
      | some digit =>
          let (digits, rest) := takeHexDigits width text
          (digit :: digits, rest)
      | none => ([], byte :: text)

/-- The sign a number begins with, if any: whether it is a minus, the width left, and what
follows. -/
def takeSign (width : Nat) (text : List UInt8) : Bool × Nat × List UInt8 :=
  if 0 < width ∧ text.head? = some 0x2B then (false, width - 1, text.tail)
  else if 0 < width ∧ text.head? = some 0x2D then (true, width - 1, text.tail)
  else (false, width, text)

/-- The `0x` a number begins with, if any: the width left, and what follows. -/
def takeBase (width : Nat) (text : List UInt8) : Nat × List UInt8 :=
  if 2 ≤ width ∧ (text.take 2 = [0x30, 0x58] ∨ text.take 2 = [0x30, 0x78]) then
    (width - 2, text.drop 2)
  else (width, text)

/-- The conversion `%x` of `sscanf` with a maximum width: white space is skipped, and the number is
one that `strtoul` reads. -/
def scanHex (width : Nat) (text : List UInt8) : Option (Int × List UInt8) :=
  let (negative, width, text) := takeSign width (text.dropWhile isSpace)
  let (width, text) := takeBase width text
  let (digits, rest) := takeHexDigits width text
  if digits.isEmpty then none
  else
    let value : Nat := digits.foldl (fun value digit => value * 16 + digit) 0
    some (if negative then -value else value, rest)

/-- A part of the format that stands for itself. -/
def scanLiteral (literal text : List UInt8) : Option (List UInt8) :=
  if literal.isPrefixOf text then some (text.drop literal.length) else none

/-- `sscanf` with the format `rgb:%x/%x/%x` and a maximum width for each component. -/
def scanRgb (width : Nat) (spec : List UInt8) : Option (Int × Int × Int) := do
  let (red, rest) ← scanHex width (← scanLiteral (bytesOf "rgb:") spec)
  let (green, rest) ← scanHex width (← scanLiteral (bytesOf "/") rest)
  let (blue, _) ← scanHex width (← scanLiteral (bytesOf "/") rest)
  return (red, green, blue)

/-- The colour with the components that a function makes of those that have been read. -/
def componentColor (component : Int → Int) (components : Int × Int × Int) : Color where
  paletteIndex := -1
  red := UInt8.ofNat (component components.1 % 256).toNat
  green := UInt8.ofNat (component components.2.1 % 256).toNat
  blue := UInt8.ofNat (component components.2.2 % 256).toNat

/-! ### What follows a specification -/

/-- Whether a byte belongs to no number, and to nothing that stands before or between numbers but
the colon. -/
def isInert (byte : UInt8) : Bool :=
  isSpace byte || byte = escapeByte || byte = 0x3A || byte = 0x3B

/-- Behind the spaces it begins with, a text has ended or goes on with an inert byte. -/
def Closes (tail : List UInt8) : Prop :=
  ∀ byte ∈ (tail.dropWhile isSpace).head?, isInert byte = true

theorem isInert_toNat {byte : UInt8} (inert : isInert byte = true) :
    byte.toNat = 32 ∨ 9 ≤ byte.toNat ∧ byte.toNat ≤ 13 ∨ byte.toNat = 27 ∨ byte.toNat = 58
      ∨ byte.toNat = 59 := by
  unfold isInert isSpace escapeByte at inert
  simp only [Bool.or_eq_true, Bool.and_eq_true, decide_eq_true_eq, UInt8.le_iff_toNat_le,
    ← UInt8.toNat_inj] at inert
  change ((((byte.toNat = 32 ∨ 9 ≤ byte.toNat ∧ byte.toNat ≤ 13) ∨ byte.toNat = 27)
    ∨ byte.toNat = 58) ∨ byte.toNat = 59) at inert
  omega

theorem hexValue_inert {byte : UInt8} (inert : isInert byte = true) : hexValue byte = none := by
  have value := isInert_toNat inert
  unfold hexValue
  simp only [UInt8.le_iff_toNat_le]
  change (if 48 ≤ byte.toNat ∧ byte.toNat ≤ 57 then _
    else if 65 ≤ byte.toNat ∧ byte.toNat ≤ 70 then _
    else if 97 ≤ byte.toNat ∧ byte.toNat ≤ 102 then _ else _) = _
  rw [if_neg (by omega), if_neg (by omega), if_neg (by omega)]

theorem ne_of_inert {byte other : UInt8} (inert : isInert byte = true)
    (active : isInert other = false) : byte ≠ other := by
  rintro rfl
  exact Bool.false_ne_true (active.symm.trans inert)

section Scanning

variable {tail : List UInt8}

theorem Closes.head (closes : Closes tail) : ∀ byte ∈ tail.head?, isInert byte = true := by
  cases tail with
  | nil => exact fun _ absent => nomatch absent
  | cons first tail =>
      intro byte head
      cases head
      by_cases space : isSpace first = true
      · unfold isInert
        rw [space]
        rfl
      · refine closes first ?_
        rw [List.dropWhile_cons_of_neg space]
        rfl

theorem Closes.dropSpaces (closes : Closes tail) : Closes (tail.dropWhile isSpace) := by
  unfold Closes
  rwa [List.dropWhile_idempotent]

variable (width : Nat) (text : List UInt8)

theorem takeHexDigits_tail (closes : Closes tail) :
    takeHexDigits width (text ++ tail) =
      ((takeHexDigits width text).1, (takeHexDigits width text).2 ++ tail) := by
  induction text generalizing width with
  | nil =>
      cases tail with
      | nil => cases width <;> rfl
      | cons first tail =>
          have ends := hexValue_inert (closes.head first rfl)
          cases width with
          | zero => rfl
          | succ width =>
              have stops : takeHexDigits (width + 1) (first :: tail) = ([], first :: tail) := by
                rw [takeHexDigits, ends]
              exact stops
  | cons byte text ih =>
      cases width with
      | zero => rfl
      | succ width =>
          simp only [List.cons_append, takeHexDigits]
          cases hexValue byte with
          | none => rfl
          | some digit => simp only [ih]

theorem takeSign_tail (closes : Closes tail) :
    takeSign width (text ++ tail) =
      ((takeSign width text).1, (takeSign width text).2.1, (takeSign width text).2.2 ++ tail) := by
  cases text with
  | nil =>
      have unsigned (rest : List UInt8) (plain : ∀ byte ∈ rest.head?, isInert byte = true) :
          takeSign width rest = (false, width, rest) := by
        have other {sign : UInt8} (active : isInert sign = false) : rest.head? ≠ some sign :=
          fun head => ne_of_inert (plain sign head) active rfl
        unfold takeSign
        rw [if_neg (fun both => other (by decide) both.2),
          if_neg (fun both => other (by decide) both.2)]
      rw [List.nil_append, unsigned tail closes.head, unsigned [] (fun _ absent => nomatch absent)]
      rfl
  | cons byte text =>
      have head : (byte :: text ++ tail).head? = (byte :: text).head? := rfl
      unfold takeSign
      simp only [head]
      by_cases plus : 0 < width ∧ (byte :: text).head? = some 0x2B
      · rw [if_pos plus, if_pos plus]
        rfl
      by_cases minus : 0 < width ∧ (byte :: text).head? = some 0x2D
      · rw [if_neg plus, if_pos minus, if_neg plus, if_pos minus]
        rfl
      · rw [if_neg plus, if_neg minus, if_neg plus, if_neg minus]

theorem takeBase_tail (closes : Closes tail) :
    takeBase width (text ++ tail) = ((takeBase width text).1, (takeBase width text).2 ++ tail) := by
  have short (letter : UInt8) (active : isInert letter = false) :
      (text ++ tail).take 2 = [0x30, letter] ↔ text.take 2 = [0x30, letter] := by
    match text with
    | [] =>
        refine iff_of_false (fun same => ?_) fun same => nomatch same
        cases tail with
        | nil => cases same
        | cons first tail =>
            have zero : first = 0x30 := (List.cons.inj same).1
            exact ne_of_inert (closes.head first rfl) (by decide) zero
    | [byte] =>
        refine iff_of_false (fun same => ?_) fun same => nomatch (List.cons.inj same).2
        cases tail with
        | nil => exact nomatch (List.cons.inj same).2
        | cons first tail =>
            have second : first = letter := (List.cons.inj (List.cons.inj same).2).1
            exact ne_of_inert (closes.head first rfl) active second
    | first :: second :: rest => rfl
  unfold takeBase
  simp only [short 0x58 (by decide), short 0x78 (by decide)]
  split_ifs with based
  · have enough : 2 ≤ text.length := by
      rcases based.2 with same | same
      all_goals
        have length := congrArg List.length same
        rw [List.length_take] at length
        exact min_eq_left_iff.mp length
    rw [List.drop_append_of_le_length enough]
  · rfl

theorem scanHex_tail (closes : Closes tail) :
    scanHex width (text ++ tail) =
      (scanHex width text).map fun read => (read.1, read.2 ++ tail) := by
  by_cases blank : text.dropWhile isSpace = []
  · -- There is no digit before the tail, and none in it.
    have behind : (text ++ tail).dropWhile isSpace = [] ++ tail.dropWhile isSpace :=
      List.dropWhile_append_of_pos (List.dropWhile_eq_nil_iff.mp blank)
    have nothing : ∀ width, (takeHexDigits width []).1 = [] := fun width => by cases width <;> rfl
    have unsigned : ∀ width, takeSign width [] = (false, width, []) := fun width => by
      unfold takeSign
      rw [if_neg (fun both => nomatch both.2), if_neg (fun both => nomatch both.2)]
    have plain : ∀ width, takeBase width [] = (width, []) := fun width => by
      unfold takeBase
      rw [if_neg (fun both => both.2.elim (fun same => nomatch same) fun same => nomatch same)]
    simp only [scanHex, behind, blank, takeSign_tail _ _ closes.dropSpaces, unsigned,
      takeBase_tail _ _ closes.dropSpaces, plain, takeHexDigits_tail _ _ closes.dropSpaces, nothing]
    rfl
  · have front : (text ++ tail).dropWhile isSpace = text.dropWhile isSpace ++ tail := by
      rw [List.dropWhile_append, if_neg (by simpa using blank)]
    simp only [scanHex, front, takeSign_tail _ _ closes, takeBase_tail _ _ closes,
      takeHexDigits_tail _ _ closes]
    split_ifs <;> rfl

theorem prefix_of_prefix_tail {literal : List UInt8}
    (absent : ∀ byte ∈ tail.head?, byte ∉ literal) (begins : literal <+: text ++ tail) :
    literal <+: text := by
  induction text generalizing literal with
  | nil =>
      cases literal with
      | nil => exact List.prefix_rfl
      | cons byte literal =>
          obtain ⟨rest, same⟩ := begins
          have head : tail.head? = some byte := by rw [← List.nil_append tail, ← same]; rfl
          exact absurd List.mem_cons_self (absent byte head)
  | cons first text ih =>
      cases literal with
      | nil => exact List.nil_prefix
      | cons byte literal =>
          obtain ⟨same, later⟩ := List.cons_prefix_cons.mp begins
          refine List.cons_prefix_cons.mpr ⟨same, ih (fun byte head member => ?_) later⟩
          exact absent byte head (List.mem_cons_of_mem _ member)

/-- A part of the format is found before a tail that does not begin with one of its bytes. -/
theorem scanLiteral_tail {literal : List UInt8} (absent : ∀ byte ∈ tail.head?, byte ∉ literal) :
    scanLiteral literal (text ++ tail) = (scanLiteral literal text).map (· ++ tail) := by
  have begins : literal <+: text ++ tail ↔ literal <+: text :=
    ⟨prefix_of_prefix_tail text absent, fun inside => inside.trans (List.prefix_append _ _)⟩
  unfold scanLiteral
  simp only [List.isPrefixOf_iff_prefix, begins]
  split_ifs with inside
  · rw [List.drop_append_of_le_length inside.length_le]
    rfl
  · rfl

/-- No byte of a literal is inert, but for colons. -/
theorem absent_of_closes (closes : Closes tail) {literal : List UInt8}
    (active : (literal.all fun byte => !isInert byte || byte = 0x3A) = true)
    (plain : tail.head? ≠ some 0x3A) : ∀ byte ∈ tail.head?, byte ∉ literal := by
  intro byte head member
  have inert := closes.head byte head
  have kind := List.all_eq_true.mp active byte member
  rw [inert] at kind
  exact plain (of_decide_eq_true kind ▸ head)

/-- What has been read of the components does not depend on a tail behind them. -/
theorem scanRgb_tail (closes : Closes tail) (plain : tail.head? ≠ some 0x3A) :
    scanRgb width (text ++ tail) = scanRgb width text := by
  have colon : ∀ byte ∈ tail.head?, byte ∉ bytesOf "rgb:" :=
    absent_of_closes closes (by decide) plain
  have slash : ∀ byte ∈ tail.head?, byte ∉ bytesOf "/" :=
    absent_of_closes closes (by decide) plain
  -- Each part of the format leaves the tail behind what is still to be read.
  have literal {plain : List UInt8} (absent : ∀ byte ∈ tail.head?, byte ∉ plain)
      (text : List UInt8) {first second : List UInt8 → Option (Int × Int × Int)}
      (later : ∀ rest, first (rest ++ tail) = second rest) :
      (scanLiteral plain (text ++ tail)).bind first = (scanLiteral plain text).bind second := by
    rw [scanLiteral_tail text absent]
    cases scanLiteral plain text with
    | none => rfl
    | some rest => exact later rest
  have number (text : List UInt8) {first second : Int × List UInt8 → Option (Int × Int × Int)}
      (later : ∀ value rest, first (value, rest ++ tail) = second (value, rest)) :
      (scanHex width (text ++ tail)).bind first = (scanHex width text).bind second := by
    rw [scanHex_tail _ _ closes]
    cases scanHex width text with
    | none => rfl
    | some read => exact later read.1 read.2
  refine literal colon text fun rest => number rest fun red rest => ?_
  refine literal slash rest fun rest => number rest fun green rest => ?_
  exact literal slash rest fun rest => number rest fun blue rest => rfl

theorem dropSpaces_escape :
    (text ++ [escapeByte]).dropWhile isSpace = text.dropWhile isSpace ++ [escapeByte] := by
  induction text with
  | nil => rfl
  | cons byte text ih =>
      rw [List.cons_append, List.dropWhile_cons, List.dropWhile_cons]
      split
      · exact ih
      · rfl

theorem closes_escape : Closes [escapeByte] := by
  intro byte head
  cases head
  rfl

end Scanning

/-! ## Names -/

/-- The byte as a `char`. -/
def signedChar (byte : UInt8) : Int := if byte < 0x80 then byte.toNat else byte.toNat - 256

/-- `tolower` in the C locale. -/
def toLower (value : Int) : Int := if 0x41 ≤ value ∧ value ≤ 0x5A then value + 0x20 else value

/-- `guac_terminal_named_color_search`: the comparison of a key with a name. Spaces in the key are
skipped, and what follows a semicolon is not part of it. -/
def namedColorSearch : List UInt8 → List UInt8 → Int
  | _, [] => 0
  | [], _ :: _ => -1
  | first :: key, character :: name =>
      let key := (first :: key).dropWhile isSpace
      let keyChar : Int :=
        match key with
        | [] => 0
        | byte :: _ => if byte = 0x3B then 0 else toLower (signedChar byte)
      let difference := keyChar - signedChar character
      if difference ≠ 0 then difference else namedColorSearch key.tail name

/-- `bsearch` among the elements from `lower` up to `upper`, with the comparison of the key with an
element. -/
def bsearch {Element : Type*} (order : Element → Int) (elements : List Element) (lower upper : Nat) :
    Option Element :=
  if lower < upper then
    match elements[(lower + upper) / 2]? with
    | none => none
    | some element =>
        if order element < 0 then bsearch order elements lower ((lower + upper) / 2)
        else if order element > 0 then bsearch order elements ((lower + upper) / 2 + 1) upper
        else some element
  else none
termination_by upper - lower
decreasing_by all_goals omega

/-- The comparison of a key from which spaces have been skipped with a name that has not ended. -/
def compareCharacter (key : List UInt8) (character : UInt8) (name : List UInt8) : Int :=
  let keyChar : Int :=
    match key with
    | [] => 0
    | byte :: _ => if byte = 0x3B then 0 else toLower (signedChar byte)
  let difference := keyChar - signedChar character
  if difference ≠ 0 then difference else namedColorSearch key.tail name

theorem namedColorSearch_cons (key : List UInt8) (nonempty : key ≠ []) (character : UInt8)
    (name : List UInt8) :
    namedColorSearch key (character :: name) =
      compareCharacter (key.dropWhile isSpace) character name := by
  cases key with
  | nil => exact absurd rfl nonempty
  | cons first key => rfl

/-- A key that has ended, or goes on with an escape character, sorts before the name. -/
theorem compareCharacter_ended {character : UInt8} (lower : 0x30 ≤ character)
    (upper : character < 0x80) (name : List UInt8) :
    compareCharacter [] character name < 0 ∧ compareCharacter [escapeByte] character name < 0 := by
  have value : signedChar character = character.toNat := if_pos upper
  have least : 0x30 ≤ character.toNat := UInt8.le_iff_toNat_le.mp lower
  have escape : toLower (signedChar escapeByte) = 0x1B := by decide
  have plain : escapeByte ≠ 0x3B := by decide
  unfold compareCharacter
  simp only [if_neg plain, escape, value]
  constructor
  · rw [if_pos (by omega)]
    omega
  · rw [if_pos (by omega)]
    omega

/-- The sign of the comparison does not depend on an escape character behind the key. -/
theorem namedColorSearch_escape (key : List UInt8) {name : List UInt8}
    (printable : ∀ byte ∈ name, 0x30 ≤ byte ∧ byte < 0x80) :
    (namedColorSearch (key ++ [escapeByte]) name < 0 ↔ namedColorSearch key name < 0)
      ∧ (namedColorSearch (key ++ [escapeByte]) name > 0 ↔ namedColorSearch key name > 0) := by
  induction name generalizing key with
  | nil =>
      have ended (key : List UInt8) : namedColorSearch key [] = 0 := by cases key <;> rfl
      rw [ended, ended]
      exact ⟨Iff.rfl, Iff.rfl⟩
  | cons character name ih =>
      obtain ⟨⟨lower, upper⟩, later⟩ := List.forall_mem_cons.mp printable
      obtain ⟨ended, escaped⟩ := compareCharacter_ended lower upper name
      rw [namedColorSearch_cons (key ++ [escapeByte]) (by simp) character name, dropSpaces_escape]
      by_cases empty : key = []
      · subst empty
        have before : namedColorSearch [] (character :: name) = -1 := rfl
        change (compareCharacter [escapeByte] character name < 0 ↔ _)
          ∧ (compareCharacter [escapeByte] character name > 0 ↔ _)
        omega
      rw [namedColorSearch_cons key empty character name]
      cases key.dropWhile isSpace with
      | nil =>
          change (compareCharacter [escapeByte] character name < 0 ↔ _)
            ∧ (compareCharacter [escapeByte] character name > 0 ↔ _)
          omega
      | cons byte rest =>
          simp only [compareCharacter, List.cons_append, List.tail_cons]
          split_ifs
          all_goals first
            | exact ⟨Iff.rfl, Iff.rfl⟩
            | exact ih rest later

/-- `GUAC_TERMINAL_NAMED_COLORS`: colours with their names, which are made of lowercase letters and
digits. -/
structure NamedColors where
  colors : List (List UInt8 × Color)
  names : ∀ color ∈ colors, ∀ byte ∈ color.1, 0x30 ≤ byte ∧ byte < 0x80

/-- `guac_terminal_find_color`. -/
def findColor (table : NamedColors) (name : List UInt8) : Option Color :=
  (bsearch (fun color => namedColorSearch name color.1) table.colors 0
    table.colors.length).map Prod.snd

/-- A search finds the same for comparisons of the same signs. -/
theorem bsearch_congr {Element : Type*} {first second : Element → Int} {elements : List Element}
    (signs : ∀ element ∈ elements,
      (first element < 0 ↔ second element < 0) ∧ (first element > 0 ↔ second element > 0))
    (lower upper : Nat) :
    bsearch first elements lower upper = bsearch second elements lower upper := by
  fun_induction bsearch second elements lower upper
  case case1 lower upper more absent =>
    rw [bsearch, if_pos more, absent]
  case case2 lower upper more element present before ih =>
    obtain ⟨less, _⟩ := signs element (List.mem_of_getElem? present)
    rw [bsearch, if_pos more, present]
    exact (if_pos (less.mpr before)).trans ih
  case case3 lower upper more element present notBefore behind ih =>
    obtain ⟨less, greater⟩ := signs element (List.mem_of_getElem? present)
    rw [bsearch, if_pos more, present]
    exact (if_neg (mt less.mp notBefore)).trans ((if_pos (greater.mpr behind)).trans ih)
  case case4 lower upper more element present notBefore notBehind =>
    obtain ⟨less, greater⟩ := signs element (List.mem_of_getElem? present)
    rw [bsearch, if_pos more, present]
    exact (if_neg (mt less.mp notBefore)).trans (if_neg (mt greater.mp notBehind))
  case case5 lower upper ended =>
    rw [bsearch, if_neg ended]

theorem findColor_escape (table : NamedColors) (name : List UInt8) :
    findColor table (name ++ [escapeByte]) = findColor table name :=
  congrArg (Option.map Prod.snd) (bsearch_congr
    (fun color member => namedColorSearch_escape name (table.names color member)) _ _)

/-- `guac_terminal_xparsecolor`. -/
def terminalXparsecolor (table : NamedColors) (spec : List UInt8) : Option Color :=
  match scanRgb 1 spec with
  | some components => some (componentColor (· * 16) components)
  | none =>
  match scanRgb 2 spec with
  | some components => some (componentColor (·) components)
  | none =>
  match scanRgb 3 spec with
  | some components => some (componentColor (· / 16) components)
  | none =>
  match scanRgb 4 spec with
  | some components => some (componentColor (· / 256) components)
  | none => findColor table spec

/-- **An escape character behind a specification changes nothing.** -/
theorem terminalXparsecolor_escape (table : NamedColors) (spec : List UInt8) :
    terminalXparsecolor table (spec ++ [escapeByte]) = terminalXparsecolor table spec := by
  have colon : [escapeByte].head? ≠ some 0x3A := by decide
  simp only [terminalXparsecolor, scanRgb_tail _ _ closes_escape colon, findColor_escape]

end GuacNebula.Terminal
