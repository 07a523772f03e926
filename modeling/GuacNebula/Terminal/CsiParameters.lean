import GuacNebula.Terminal.ParserStatics
import Mathlib.Data.List.GetD
import Mathlib.Data.List.TakeWhile
import Mathlib.Data.Nat.Digits.Defs

/-! # The parameters of control sequences

A control sequence is a private mode character, if any, its parameters between semicolons and a final
byte. The handler collects the digits of a parameter in a buffer and the parameters in an array, which
is never cleared but where a sequence has written to it.

The main result is `csi_parses_rendering`: whatever was written before, a control sequence that is
written byte by byte has its final byte carried out with the parameters that it was rendered from.
-/

namespace GuacNebula.Terminal

open CInt Run

/-! ## Rendering -/

/-- A decimal number of at most nine digits, the first of which may be zero. -/
structure Decimal where
  digits : List (Fin 10)
  nonempty : digits ≠ []
  limit : digits.length ≤ 9

/-- The number that is meant. -/
def Decimal.value (decimal : Decimal) : Nat :=
  Nat.ofDigits 10 (decimal.digits.reverse.map Fin.val)

def digitByte (digit : Fin 10) : UInt8 := UInt8.ofNat (0x30 + digit.val)

/-- A parameter that is omitted is rendered as nothing. -/
def renderParameter : Option Decimal → List UInt8
  | some decimal => decimal.digits.map digitByte
  | none => []

/-- A parameter that is omitted has the value zero. -/
def parameterValue : Option Decimal → Int
  | some decimal => decimal.value
  | none => 0

/-- What is written between the introduction and the end of a control sequence of 1 to 16 parameters,
and its final byte. -/
structure ControlSequence where
  privateMode : Option UInt8
  first : Option Decimal
  rest : List (Option Decimal)
  final : UInt8
  isPrivate : ∀ c ∈ privateMode, 0x3C ≤ c ∧ c ≤ 0x3F
  limit : rest.length ≤ 15
  isFinal : 0x40 ≤ final ∧ final ≤ 0x7E

namespace ControlSequence

variable (sequence : ControlSequence)

def parameters : List (Option Decimal) := sequence.first :: sequence.rest

def values : List Int := sequence.parameters.map parameterValue

def render : List UInt8 :=
  sequence.privateMode.toList
    ++ renderParameter sequence.first
    ++ sequence.rest.flatMap (fun parameter => 0x3B :: renderParameter parameter)
    ++ [sequence.final]

end ControlSequence

/-! ## Digits -/

theorem digitByte_toNat (digit : Fin 10) : (digitByte digit).toNat = 0x30 + digit.val := by
  unfold digitByte
  rw [UInt8.toNat_ofNat']
  omega

theorem digitByte_isDigit (digit : Fin 10) : isDigit (digitByte digit) = true := by
  have value := digitByte_toNat digit
  unfold isDigit
  rw [Bool.and_eq_true, decide_eq_true_eq, decide_eq_true_eq, UInt8.le_iff_toNat_le,
    UInt8.le_iff_toNat_le, value]
  exact ⟨Nat.le_add_right _ _, Nat.add_le_add_left (Nat.le_of_lt_succ digit.isLt) _⟩

/-- Digits are neither white space nor signs. -/
theorem digitByte_plain (digit : Fin 10) :
    isSpace (digitByte digit) = false ∧ digitByte digit ≠ 0x2D ∧ digitByte digit ≠ 0x2B := by
  revert digit
  decide

theorem digitsValue_digits (digits : List (Fin 10)) :
    digitsValue (digits.map digitByte) = Nat.ofDigits 10 (digits.reverse.map Fin.val) := by
  induction digits using List.reverseRecOn with
  | nil => rfl
  | append_singleton digits digit ih =>
      unfold digitsValue at ih ⊢
      rw [List.map_append, List.foldl_append, ih, List.reverse_append, List.map_singleton,
        List.foldl_cons, List.foldl_nil, digitByte_toNat, List.reverse_singleton,
        List.singleton_append, List.map_cons, Nat.ofDigits_cons]
      omega

theorem Decimal.value_lt (decimal : Decimal) : decimal.value < 1000000000 := by
  have small : ∀ digit ∈ decimal.digits.reverse.map Fin.val, digit < 10 := by
    intro digit member
    obtain ⟨value, -, rfl⟩ := List.mem_map.mp member
    exact value.isLt
  have below := Nat.ofDigits_lt_base_pow_length (by decide : 1 < 10) small
  rw [List.length_map, List.length_reverse] at below
  exact below.trans_le (Nat.pow_le_pow_right (by decide) decimal.limit)

/-- Text that begins with a digit, or is empty, is read as the number its digits stand for. -/
theorem atoi_digits (digits : List (Fin 10)) :
    atoi (digits.map digitByte)
      = toInt (min 9223372036854775807 (digitsValue (digits.map digitByte) : Int)) := by
  cases digits with
  | nil => rfl
  | cons digit digits =>
      have isDigits : ∀ c ∈ (digit :: digits).map digitByte, isDigit c = true := by
        intro c member
        obtain ⟨value, -, rfl⟩ := List.mem_map.mp member
        exact digitByte_isDigit value
      have whole : ((digit :: digits).map digitByte).takeWhile isDigit
          = (digit :: digits).map digitByte := List.takeWhile_eq_self_iff.mpr isDigits
      obtain ⟨notSpace, notMinus, notPlus⟩ := digitByte_plain digit
      have text : ((digit :: digits).map digitByte).dropWhile isSpace
          = (digit :: digits).map digitByte := by
        rw [List.map_cons, List.dropWhile_cons, notSpace]
        rfl
      unfold atoi
      rw [text]
      split
      next same => exact absurd (List.cons.inj same).1 notMinus
      next same => exact absurd (List.cons.inj same).1 notPlus
      next => rw [whole]

theorem atoi_renderParameter (parameter : Option Decimal) :
    atoi (renderParameter parameter) = parameterValue parameter := by
  cases parameter with
  | none => rfl
  | some decimal =>
      have below := decimal.value_lt
      have value : digitsValue (decimal.digits.map digitByte) = decimal.value :=
        digitsValue_digits decimal.digits
      change atoi (decimal.digits.map digitByte) = (decimal.value : Int)
      rw [atoi_digits, value, toInt_of_fits]
      · omega
      · unfold FitsInt
        omega

/-! ## Reading -/

/-- The parameters that have been read, behind which there are zeros. -/
def argvOf (values : List Int) (index : Nat) : Int := values.getD index 0

/-- The term while it reads a control sequence: some parameters are complete, and some digits of the
next one are in the buffer. -/
def Term.reading (term : Term) (values : List Int) (buffer : List UInt8) (privateMode : UInt8) :
    Term :=
  { term with
    statics := { term.statics with
      argc := values.length
      argv := argvOf values
      argvBuffer := buffer
      privateModeCharacter := privateMode } }

/-- The case of a final byte with the parameters that have been read, and the end of the sequence. -/
def csiCase (term : Term) (function : CsiFunction) : Term :=
  let term := csiExecute term term.statics.argc term.statics.argv function
  { term with statics := csiResetParameters term.statics }.handler .echo

theorem argvOf_append (values : List Int) (value : Int) :
    Function.update (argvOf values) values.length value = argvOf (values ++ [value]) := by
  funext index
  unfold argvOf
  by_cases last : index = values.length
  · subst last
    simp
  · rw [Function.update_of_ne last]
    by_cases before : index < values.length
    · rw [List.getD_append _ _ _ _ before]
    · have beyond : values.length + 1 ≤ index := by omega
      rw [List.getD_eq_default _ _ (by omega), List.getD_eq_default _ _ (by simpa using beyond)]

theorem finish_reading {values : List Int} (room : values.length < 16) (term : Term)
    (buffer : List UInt8) (privateMode : UInt8) :
    csiFinishParameter (term.reading values buffer privateMode).statics
      = (term.reading (values ++ [atoi buffer]) [] privateMode).statics := by
  unfold csiFinishParameter Term.reading
  dsimp only
  rw [if_pos room, argvOf_append, List.length_append, List.length_singleton]

section

variable (platform : Platform) {term : Term} (handled : term.charHandler = .csi)
  (values : List Int) (privateMode : UInt8)
include handled

/-- The term goes on reading the control sequence. -/
theorem writeByte_reading (buffer : List UInt8) (c : UInt8) :
    writeByte platform (term.reading values buffer privateMode) c
      = csi (term.reading values buffer privateMode) c := by
  have reads : (term.reading values buffer privateMode).charHandler = .csi := handled
  unfold writeByte
  rw [reads]

theorem writeByte_digit {buffer : List UInt8} (room : buffer.length < 255) (digit : Fin 10) :
    writeByte platform (term.reading values buffer privateMode) (digitByte digit)
      = term.reading values (buffer ++ [digitByte digit]) privateMode := by
  have digits : 0x30 ≤ digitByte digit ∧ digitByte digit ≤ 0x39 := by
    simpa [isDigit] using digitByte_isDigit digit
  rw [writeByte_reading platform handled, csi, if_pos digits]
  exact if_pos room

theorem exec_digits (digits : List (Fin 10)) (buffer : List UInt8)
    (room : buffer.length + digits.length ≤ 255) :
    exec (writeByte platform) (term.reading values buffer privateMode) (digits.map digitByte)
      = term.reading values (buffer ++ digits.map digitByte) privateMode := by
  induction digits generalizing buffer with
  | nil => rw [List.map_nil, List.append_nil, exec_nil]
  | cons digit digits ih =>
      rw [List.length_cons] at room
      rw [List.map_cons, exec_cons, writeByte_digit platform handled values privateMode (by omega),
        ih _ (by rw [List.length_append, List.length_singleton]; omega), List.append_assoc,
        List.singleton_append]

theorem exec_parameter (parameter : Option Decimal) :
    exec (writeByte platform) (term.reading values [] privateMode) (renderParameter parameter)
      = term.reading values (renderParameter parameter) privateMode := by
  cases parameter with
  | none => rfl
  | some decimal =>
      have limit := decimal.limit
      exact exec_digits platform handled values privateMode decimal.digits [] (by simp; omega)

/-- A semicolon completes a parameter. -/
theorem writeByte_separator (room : values.length < 16) (buffer : List UInt8) :
    writeByte platform (term.reading values buffer privateMode) 0x3B
      = term.reading (values ++ [atoi buffer]) [] privateMode := by
  rw [writeByte_reading platform handled, csi, if_neg (by decide), if_pos (Or.inr rfl)]
  dsimp only
  rw [if_pos rfl, finish_reading room]
  rfl

/-- A final byte completes the last parameter and is carried out. -/
theorem writeByte_final (room : values.length < 16) (buffer : List UInt8) {c : UInt8}
    (isFinal : 0x40 ≤ c ∧ c ≤ 0x7E) :
    writeByte platform (term.reading values buffer privateMode) c
      = csiCase (term.reading (values ++ [atoi buffer]) [] privateMode) (csiFunction c) := by
  have notDigit : ¬ (0x30 ≤ c ∧ c ≤ 0x39) := by
    simp only [UInt8.le_iff_toNat_le] at isFinal ⊢
    exact fun digit => absurd (isFinal.1.trans digit.2) (by decide)
  have notSeparator : c ≠ 0x3B := by
    rintro rfl
    exact absurd isFinal (by decide)
  rw [writeByte_reading platform handled, csi, if_neg notDigit, if_pos (Or.inl isFinal)]
  dsimp only
  rw [if_neg notSeparator, finish_reading room]
  rfl

/-- The private mode character is kept when it comes first. -/
theorem writeByte_privateMode {c : UInt8} (isPrivate : 0x3C ≤ c ∧ c ≤ 0x3F) :
    writeByte platform (term.reading values [] 0) c = term.reading values [] c := by
  have range : 0x3C ≤ c.toNat ∧ c.toNat ≤ 0x3F :=
    ⟨UInt8.le_iff_toNat_le.mp isPrivate.1, UInt8.le_iff_toNat_le.mp isPrivate.2⟩
  have notDigit : ¬ (0x30 ≤ c ∧ c ≤ 0x39) := by
    simp only [UInt8.le_iff_toNat_le]
    exact fun digit => absurd (range.1.trans digit.2) (by decide)
  have notFinal : ¬ ((0x40 ≤ c ∧ c ≤ 0x7E) ∨ c = 0x3B) := by
    rintro (final | rfl)
    · simp only [UInt8.le_iff_toNat_le] at final
      exact absurd (final.1.trans range.2) (by decide)
    · exact absurd isPrivate (by decide)
  have inRange : 0x3A ≤ c := UInt8.le_iff_toNat_le.mpr (le_trans (by decide) range.1)
  rw [writeByte_reading platform handled, csi, if_neg notDigit, if_neg notFinal]
  exact if_pos ⟨inRange, isPrivate.2, rfl⟩

/-- The parameters behind the first one are read in turn, and the final byte is carried out. -/
theorem exec_parameters (first : Option Decimal) (rest : List (Option Decimal))
    (room : values.length + rest.length < 16) {c : UInt8} (isFinal : 0x40 ≤ c ∧ c ≤ 0x7E) :
    exec (writeByte platform) (term.reading values [] privateMode)
        (renderParameter first
          ++ rest.flatMap (fun parameter => 0x3B :: renderParameter parameter) ++ [c])
      = csiCase (term.reading (values ++ (first :: rest).map parameterValue) [] privateMode)
          (csiFunction c) := by
  induction rest generalizing first values with
  | nil =>
      rw [List.flatMap_nil, List.append_nil, exec_append,
        exec_parameter platform handled values privateMode, exec_cons, exec_nil,
        writeByte_final platform handled values privateMode room _ isFinal, atoi_renderParameter]
      rfl
  | cons second rest ih =>
      rw [List.length_cons] at room
      rw [List.flatMap_cons, List.append_assoc, exec_append,
        exec_parameter platform handled values privateMode, List.cons_append, List.cons_append,
        exec_cons, writeByte_separator platform handled values privateMode (by omega),
        atoi_renderParameter]
      rw [ih (values ++ [parameterValue first]) second
        (by rw [List.length_append, List.length_singleton]; omega), List.append_assoc]
      rfl

theorem exec_privateMode {mode : Option UInt8} (isPrivate : ∀ c ∈ mode, 0x3C ≤ c ∧ c ≤ 0x3F) :
    exec (writeByte platform) (term.reading values [] 0) mode.toList
      = term.reading values [] (mode.getD 0) := by
  cases mode with
  | none => rfl
  | some c => exact writeByte_privateMode platform handled values (isPrivate c rfl)

end

/-! ## Runs -/

/-- While no control sequence is read, there is nothing left of the last one, and no parameters but
those that have been read hold anything. -/
structure Term.CsiTidy (term : Term) : Prop where
  clear : term.charHandler ≠ .csi →
    term.statics.argc = 0 ∧ term.statics.privateModeCharacter = 0 ∧ term.statics.argvBuffer = []
  beyond : ∀ index, term.statics.argc ≤ index → term.statics.argv index = 0

/-- The other handlers touch nothing of a control sequence. -/
theorem writeByte_csiStatics (platform : Platform) {term : Term} (c : UInt8)
    (other : term.charHandler ≠ .csi) :
    (writeByte platform term c).statics.argc = term.statics.argc
      ∧ (writeByte platform term c).statics.argv = term.statics.argv
      ∧ (writeByte platform term c).statics.privateModeCharacter = term.statics.privateModeCharacter
      ∧ (writeByte platform term c).statics.argvBuffer = term.statics.argvBuffer := by
  have kept := writeByte_without platform term c
  have same (statics : HandlerStatics) :
      (statics.without term.charHandler).argc = statics.argc
        ∧ (statics.without term.charHandler).argv = statics.argv
        ∧ (statics.without term.charHandler).privateModeCharacter = statics.privateModeCharacter
        ∧ (statics.without term.charHandler).argvBuffer = statics.argvBuffer := by
    cases handled : term.charHandler
    case csi => exact absurd handled other
    all_goals exact ⟨rfl, rfl, rfl, rfl⟩
  obtain ⟨argc, argv, privateMode, argvBuffer⟩ := same (writeByte platform term c).statics
  rw [← argc, ← argv, ← privateMode, ← argvBuffer, kept]
  exact same term.statics

/-- A control sequence is only left by its final byte, which resets what was read of it. -/
theorem Term.CsiTidy.step {platform : Platform} {term : Term} (tidy : term.CsiTidy) (c : UInt8) :
    (Terminal.writeByte platform term c).CsiTidy := by
  by_cases handled : term.charHandler = .csi
  · have finished := csiFinishParameter_beyond tidy.beyond
    have step : Terminal.writeByte platform term c = Terminal.csi term c := by
      unfold Terminal.writeByte
      rw [handled]
    rw [step]
    unfold Terminal.csi
    split_ifs
    · exact ⟨fun away => absurd handled away, tidy.beyond⟩
    · exact tidy
    · exact ⟨fun away => absurd handled away, finished⟩
    · refine ⟨fun _ => ⟨rfl, rfl, rfl⟩, fun index _ => ?_⟩
      simp only [Term.handler, csiExecute_statics, csiResetParameters]
      split
      · rfl
      · next unread => exact finished index (Nat.not_lt.mp unread)
    · exact ⟨fun away => absurd handled away, tidy.beyond⟩
    · exact tidy
  · obtain ⟨argc, argv, privateMode, argvBuffer⟩ := writeByte_csiStatics platform c handled
    constructor
    · intro _
      rw [argc, privateMode, argvBuffer]
      exact tidy.clear handled
    · rw [argc, argv]
      exact tidy.beyond

/-- When a control sequence begins, nothing of one has been read. -/
theorem Term.CsiTidy.begins {term : Term} (tidy : term.CsiTidy) (platform : Platform)
    (outside : term.charHandler ≠ .csi) (c : UInt8) :
    Terminal.writeByte platform term c
      = (Terminal.writeByte platform term c).reading [] [] 0 := by
  obtain ⟨argc, privateMode, argvBuffer⟩ := tidy.clear outside
  obtain ⟨sameArgc, sameArgv, samePrivate, sameBuffer⟩ := writeByte_csiStatics platform c outside
  have argv : term.statics.argv = argvOf [] := by
    funext index
    exact tidy.beyond index (argc ▸ Nat.zero_le index)
  rw [argc] at sameArgc
  rw [argv] at sameArgv
  rw [privateMode] at samePrivate
  rw [argvBuffer] at sameBuffer
  generalize Terminal.writeByte platform term c = begun at *
  unfold Term.reading
  rw [← sameArgv, ← samePrivate, ← sameBuffer, List.length_nil, ← sameArgc]

/-- Whatever was written before, a control sequence that is written behind its introduction has its
final byte carried out with the parameters that it was rendered from, zeros behind them, and its
private mode character. -/
theorem csi_parses_rendering (platform : Platform) {start : Term}
    (fresh : start.statics = HandlerStatics.zero) (earlier : List UInt8) (introducer : UInt8)
    (outside : (exec (writeByte platform) start earlier).charHandler ≠ .csi)
    (inside : (exec (writeByte platform) start (earlier ++ [introducer])).charHandler = .csi)
    (sequence : ControlSequence) :
    exec (writeByte platform) start (earlier ++ [introducer] ++ sequence.render)
      = csiCase
          ((exec (writeByte platform) start (earlier ++ [introducer])).reading sequence.values []
            (sequence.privateMode.getD 0))
          (csiFunction sequence.final) := by
  have tidy : (exec (writeByte platform) start earlier).CsiTidy := by
    refine exec_invariant ⟨fun _ => ?_, fun index _ => ?_⟩ fun _ c tidy => tidy.step c
    · rw [fresh]
      exact ⟨rfl, rfl, rfl⟩
    · rw [fresh]
      rfl
  have begins := tidy.begins platform outside introducer
  have limit := sequence.limit
  rw [exec_append, exec_append, exec_cons, exec_nil] at *
  generalize writeByte platform (exec (writeByte platform) start earlier) introducer = begun at *
  rw [begins]
  unfold ControlSequence.render
  rw [List.append_assoc, List.append_assoc, exec_append,
    exec_privateMode platform inside [] sequence.isPrivate, ← List.append_assoc,
    exec_parameters platform inside [] _ _ _ (by simp; omega) sequence.isFinal, ← begins]
  rfl

/-- The sequence that hides the cursor: a private mode character, a number and an omitted
parameter. -/
def hideCursor : ControlSequence where
  privateMode := some 0x3F
  first := some ⟨[2, 5], List.cons_ne_nil _ _, by decide⟩
  rest := [none]
  final := 0x6C
  isPrivate := fun _ member => Option.some.inj member ▸ ⟨by decide, by decide⟩
  limit := by decide
  isFinal := by decide

/-- The sequence is written to a new terminal. -/
theorem csi_parses_hideCursor :
    exec (writeByte samplePlatform) (create sampleMetrics (sampleOptions 1 3))
        ([0x1B] ++ [0x5B] ++ hideCursor.render)
      = csiCase
          ((exec (writeByte samplePlatform) (create sampleMetrics (sampleOptions 1 3))
            ([0x1B] ++ [0x5B])).reading hideCursor.values [] 0x3F)
          .resetMode :=
  csi_parses_rendering samplePlatform rfl [0x1B] 0x5B (by decide +kernel) (by decide +kernel)
    hideCursor

end GuacNebula.Terminal
