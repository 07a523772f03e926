import GuacNebula.Terminal.Handlers

/-! # Answers of the terminal

What a program writes can make the terminal write to the standard input of that program: it asks
for the identity or the status of the terminal, or for the position of the cursor. The answers are
the same for every terminal but for the numbers of the row and the column. No other output has an
answer, and while a stream provides the input there are none at all.
-/

namespace GuacNebula.Terminal

/-- What the terminal answers. -/
inductive Answer where
  | answerback | identity | ok
  | position (row column : Int)
  deriving DecidableEq, Repr

/-- The text of an answer. -/
def Answer.text : Answer → String
  | .answerback => "GUACAMOLE"
  | .identity => "\x1b[?6c"
  | .ok => "\x1b[0n"
  | .position row column => "\x1b[" ++ toString row ++ ";" ++ toString column ++ "R"

/-- The bytes are an answer. -/
def IsAnswer (bytes : List UInt8) : Prop := ∃ answer : Answer, bytes = bytesOf answer.text

/-- What is sent to the program when bytes of it are handled are answers. -/
structure Term.Answers (before after : Term) : Prop where
  inputStream : after.inputStream = before.inputStream
  output : ∃ sent, after.output = sent ++ before.output ∧
    ∀ bytes, .stdin bytes ∈ sent → before.inputStream = false ∧ IsAnswer bytes

namespace Term.Answers

variable {first second third : Term}

theorem refl (term : Term) : term.Answers term :=
  ⟨rfl, [], rfl, fun _ none => absurd none List.not_mem_nil⟩

theorem trans (left : first.Answers second) (right : second.Answers third) :
    first.Answers third := by
  obtain ⟨earlier, before, answered⟩ := left.output
  obtain ⟨later, after, answers⟩ := right.output
  refine ⟨right.inputStream.trans left.inputStream, later ++ earlier, ?_, fun bytes sent => ?_⟩
  · rw [after, before, List.append_assoc]
  · rcases List.mem_append.mp sent with late | early
    · exact left.inputStream ▸ answers bytes late
    · exact answered bytes early

/-- A branch sends what one of its sides sends. -/
theorem ite {condition : Prop} [Decidable condition] (left : first.Answers second)
    (right : first.Answers third) : first.Answers (if condition then second else third) := by
  split
  · exact left
  · exact right

/-- Nothing is sent. -/
theorem silent (inputStream : second.inputStream = first.inputStream)
    (output : second.output = first.output) : first.Answers second :=
  ⟨inputStream, [], output, fun _ none => absurd none List.not_mem_nil⟩

/-- Something is sent, but not to the program. -/
theorem other {message : Output} (inputStream : second.inputStream = first.inputStream)
    (output : second.output = message :: first.output) (elsewhere : ∀ bytes, message ≠ .stdin bytes) :
    first.Answers second := by
  refine ⟨inputStream, [message], output, fun bytes sent => ?_⟩
  exact absurd (List.mem_singleton.mp sent).symm (elsewhere bytes)

end Term.Answers

section Handlers

variable (platform : Platform) (term : Term) (c : UInt8)

theorem sendString_answers (answer : Answer) : term.Answers (sendString term answer.text) := by
  unfold sendString
  split
  · exact .refl term
  · refine ⟨rfl, [_], rfl, fun bytes sent => ⟨Bool.eq_false_iff.mpr ‹_›, answer, ?_⟩⟩
    exact Output.stdin.inj (List.mem_singleton.mp sent)

theorem pipeStreamFlush_answers : term.Answers (pipeStreamFlush term) := by
  unfold pipeStreamFlush
  exact .ite (.other rfl rfl nofun) (.refl term)

theorem pipeStreamWrite_answers : term.Answers (pipeStreamWrite term c) := by
  unfold pipeStreamWrite
  dsimp only
  apply Term.Answers.ite _ (.refl term)
  have flushed : term.Answers
      (if term.pipeStream.buffer.length = 6048 then pipeStreamFlush term else term) :=
    .ite (pipeStreamFlush_answers term) (.refl term)
  exact flushed.trans (.silent rfl rfl)

theorem pipeStreamClose_answers : term.Answers (pipeStreamClose term) := by
  unfold pipeStreamClose
  apply Term.Answers.ite _ (.refl term)
  exact (pipeStreamFlush_answers term).trans (.other rfl rfl nofun)

theorem echoCodepoint_answers (codepoint : Int) :
    term.Answers (echoCodepoint platform term codepoint) := by
  unfold echoCodepoint
  apply Term.Answers.ite (sendString_answers term .answerback)
  iterate 11
    apply Term.Answers.ite
    · exact .silent rfl rfl
  exact .silent rfl rfl

theorem echoByte_answers : term.Answers (echoByte platform term c) := by
  unfold echoByte
  dsimp only
  split
  · exact .silent rfl rfl
  · apply Term.Answers.trans _ (echoCodepoint_answers ..)
    exact .silent rfl rfl

theorem echo_answers : term.Answers (echo platform term c) := by
  unfold echo
  dsimp only
  have piped : term.Answers
      (if term.pipeStream.opened = true ∧ c ≠ 0x1B then pipeStreamWrite term c else term) :=
    .ite (pipeStreamWrite_answers term c) (.refl term)
  exact piped.trans (.ite (.refl _) (echoByte_answers ..))

theorem escape_answers : term.Answers (escape term c) := by
  unfold escape
  split
  all_goals
    first
    | exact .silent rfl rfl
    | exact (sendString_answers term .identity).trans (.silent rfl rfl)

theorem csiExecute_answers (argc : Nat) (argv : Nat → Int) (function : CsiFunction) :
    term.Answers (csiExecute term argc argv function) := by
  cases function with
  | identify => exact .ite (sendString_answers term .identity) (.refl term)
  | report =>
      apply Term.Answers.ite (.refl term)
      apply Term.Answers.ite (sendString_answers term .ok)
      exact .ite (sendString_answers term (.position _ _)) (.refl term)
  | _ => exact .silent rfl rfl

theorem csi_answers : term.Answers (csi term c) := by
  have executed (before : Term) : before.Answers
      ({ csiExecute before before.statics.argc before.statics.argv (csiFunction c) with
        statics := csiResetParameters (csiExecute before before.statics.argc before.statics.argv
          (csiFunction c)).statics }.handler .echo) :=
    (csiExecute_answers before ..).trans (.silent rfl rfl)
  unfold csi
  apply Term.Answers.ite
  · apply Term.Answers.ite _ (.refl term)
    exact .silent rfl rfl
  · apply Term.Answers.ite
    · apply Term.Answers.ite
      · exact .silent rfl rfl
      · apply Term.Answers.trans _ (executed _)
        exact .silent rfl rfl
    · apply Term.Answers.ite _ (.refl term)
      exact .silent rfl rfl

theorem osc_answers : term.Answers (osc term c) := by
  unfold osc
  split_ifs
  · exact .silent rfl rfl
  · cases oscHandler term.statics.operation <;> exact .silent rfl rfl
  · exact .silent rfl rfl

theorem download_answers : term.Answers (download term c) := by
  unfold download
  dsimp only [Term.handler]
  split_ifs
  · exact .other rfl rfl nofun
  · exact .silent rfl rfl
  · exact .silent rfl rfl

theorem setDirectory_answers : term.Answers (setDirectory term c) := by
  unfold setDirectory
  dsimp only [Term.handler]
  split_ifs
  · exact .other rfl rfl nofun
  · exact .silent rfl rfl
  · exact .silent rfl rfl

theorem openPipeStream_answers : term.Answers (openPipeStream term c) := by
  unfold openPipeStream pipeStreamOpen
  apply Term.Answers.ite
  · exact (pipeStreamClose_answers term).trans (.other rfl rfl nofun)
  · exact .ite (.silent rfl rfl) (.silent rfl rfl)

theorem paletteByte_answers : term.Answers (paletteByte platform term c) := by
  unfold paletteByte
  dsimp only
  split_ifs <;> exact .silent rfl rfl

/-- A byte of the program's output makes the terminal send nothing to the program but answers. -/
theorem writeByte_answers : term.Answers (writeByte platform term c) := by
  unfold writeByte
  cases term.charHandler with
  | echo => exact echo_answers ..
  | escape => exact escape_answers ..
  | g0Charset => exact .silent rfl rfl
  | g1Charset => exact .silent rfl rfl
  | osc => exact osc_answers ..
  | csi => exact csi_answers ..
  | ctrlFunc =>
      change term.Answers (ctrlFunc platform term c)
      unfold ctrlFunc
      split <;> exact .silent rfl rfl
  | apc =>
      change term.Answers (apc term c)
      unfold apc
      dsimp only [Term.handler]
      split_ifs <;> exact .silent rfl rfl
  | download => exact download_answers ..
  | setDirectory => exact setDirectory_answers ..
  | openPipeStream => exact openPipeStream_answers ..
  | closePipeStream =>
      change term.Answers (closePipeStream term c)
      unfold closePipeStream
      exact .ite ((pipeStreamClose_answers term).trans (.silent rfl rfl)) (.refl term)
  | setScrollback => exact .ite (.silent rfl rfl) (.silent rfl rfl)
  | windowTitle => exact .ite (.other rfl rfl nofun) (.silent rfl rfl)
  | xtermPalette =>
      change term.Answers (xtermPalette platform term c)
      exact (paletteByte_answers platform term c).trans (.ite (.silent rfl rfl) (.refl _))

end Handlers

/-! ## The bytes of answers -/

/-- A byte that starts an escape sequence or is a printable ASCII character. -/
def IsAnswerByte (byte : UInt8) : Prop := byte = 0x1B ∨ 0x20 ≤ byte ∧ byte ≤ 0x7E

instance (byte : UInt8) : Decidable (IsAnswerByte byte) := inferInstanceAs (Decidable (_ ∨ _))

theorem isAnswerByte_of_all {bytes : List UInt8}
    (checked : bytes.all (fun byte => decide (IsAnswerByte byte)) = true) :
    ∀ byte ∈ bytes, IsAnswerByte byte :=
  fun byte member => of_decide_eq_true (List.all_eq_true.mp checked byte member)

theorem digit_isAnswerByte {character : Char} (digit : character.isDigit) :
    IsAnswerByte (UInt8.ofNat character.toNat) := by
  obtain ⟨low, high⟩ := Char.isDigit_iff_toNat.mp digit
  have zero : '0'.toNat = 0x30 := rfl
  have nine : '9'.toNat = 0x39 := rfl
  right
  rw [UInt8.le_iff_toNat_le, UInt8.le_iff_toNat_le, UInt8.toNat_ofNat', Nat.mod_eq_of_lt (by omega)]
  have space : (0x20 : UInt8).toNat = 0x20 := rfl
  have tilde : (0x7E : UInt8).toNat = 0x7E := rfl
  omega

theorem toString_isAnswerByte (number : Int) :
    ∀ byte ∈ bytesOf (toString number), IsAnswerByte byte := by
  intro byte member
  obtain ⟨character, written, rfl⟩ := List.mem_map.mp member
  have digits (natural : Nat) : ∀ digit ∈ (Nat.repr natural).toList, digit.isDigit := by
    intro digit found
    rw [Nat.repr_eq_ofList_toDigits, String.toList_ofList] at found
    exact Nat.isDigit_of_mem_toDigits (by decide) (by decide) found
  cases number with
  | ofNat natural => exact digit_isAnswerByte (digits natural character written)
  | negSucc natural =>
      have text : (toString (Int.negSucc natural)).toList =
          '-' :: (Nat.repr (natural + 1)).toList :=
        String.toList_append ..
      rw [text] at written
      rcases List.mem_cons.mp written with rfl | digit
      · exact .inr (by decide)
      · exact digit_isAnswerByte (digits (natural + 1) character digit)

theorem bytesOf_append (first second : String) :
    bytesOf (first ++ second) = bytesOf first ++ bytesOf second := by
  unfold bytesOf
  rw [String.toList_append, List.map_append]

theorem Answer.bytes (answer : Answer) : ∀ byte ∈ bytesOf answer.text, IsAnswerByte byte := by
  cases answer with
  | answerback => exact isAnswerByte_of_all rfl
  | identity => exact isAnswerByte_of_all rfl
  | ok => exact isAnswerByte_of_all rfl
  | position row column =>
      intro byte member
      unfold Answer.text at member
      simp only [bytesOf_append, List.mem_append] at member
      obtain (((start | first) | between) | second) | stop := member
      · exact isAnswerByte_of_all rfl byte start
      · exact toString_isAnswerByte row byte first
      · exact isAnswerByte_of_all rfl byte between
      · exact toString_isAnswerByte column byte second
      · exact isAnswerByte_of_all rfl byte stop

/-! ## Runs -/

theorem foldl_writeByte_answers (platform : Platform) (term : Term) (text : List UInt8) :
    term.Answers (text.foldl (writeByte platform) term) := by
  induction text generalizing term with
  | nil => exact .refl term
  | cons c text ih => exact (writeByte_answers platform term c).trans (ih _)

/-- Whatever a program writes, in whichever state the terminal is: what that sends to the standard
input of the program are answers of the terminal. These are escape sequences and printable
characters, so no output can enter a line. While a stream provides the input nothing is sent. -/
theorem program_gets_answers (platform : Platform) (term : Term) (text : List UInt8) :
    ∃ sent, (text.foldl (writeByte platform) term).output = sent ++ term.output ∧
      ∀ bytes, .stdin bytes ∈ sent →
        term.inputStream = false ∧ IsAnswer bytes ∧ ∀ byte ∈ bytes, IsAnswerByte byte := by
  obtain ⟨sent, output, answers⟩ := (foldl_writeByte_answers platform term text).output
  refine ⟨sent, output, fun bytes member => ?_⟩
  obtain ⟨free, answer, rfl⟩ := answers bytes member
  exact ⟨free, ⟨answer, rfl⟩, answer.bytes⟩

end GuacNebula.Terminal
