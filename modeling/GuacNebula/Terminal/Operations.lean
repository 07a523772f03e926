import GuacNebula.Terminal.Handlers

/-! # What a byte means

Most bytes written to the terminal only change the state of a handler. The bytes that complete a
character, a control character or a sequence work on the console, and what they do there is told
by an operation: `perform` carries it out, `operation` says which one a byte means in a state of
the terminal, and `writeByte_toConsole` that `guac_terminal_write` does no more and no less to the
console than that.
-/

namespace GuacNebula.Terminal

/-- What a complete character or sequence asks of the console. -/
inductive ConsoleOp where
  | nothing
  | print (codepoint : Int)
  | backspace
  | tab
  | carriageReturn
  | newline
  | linefeed
  | nextLine
  | reverseLinefeed
  | saveCursor
  | restoreCursor
  | setTab
  | reset
  | fillScreen
  | control (argc : Nat) (argv : Nat → Int) (privateMode : UInt8) (function : CsiFunction)
  | requestScrollback (rows : Int)
  | assignColor (index : Int) (color : Option Color)

/-- The console after an operation. -/
def perform (platform : Platform) (console : Console) : ConsoleOp → Console
  | .nothing => console
  | .print codepoint => printCodepoint platform console codepoint
  | .backspace => moveCursor console console.cursorRow (console.cursorCol - 1)
  | .tab => moveCursor console console.cursorRow (nextTab console console.cursorCol)
  | .carriageReturn => moveCursor console console.cursorRow 0
  | .newline => Terminal.newline console
  | .linefeed => Terminal.linefeed console
  | .nextLine => Terminal.nextLine console
  | .reverseLinefeed => Terminal.reverseLinefeed console
  | .saveCursor => Terminal.saveCursor console
  | .restoreCursor => Terminal.restoreCursor console
  | .setTab => Terminal.setTab console console.cursorCol
  | .reset => resetConsole console
  | .fillScreen => Terminal.fillScreen platform console
  | .control argc argv privateMode function => csiConsole console argc argv privateMode function
  | .requestScrollback rows => Terminal.requestScrollback console rows
  | .assignColor index color => Terminal.assignColor console index color

/-- The operation that a complete codepoint means. -/
def codepointOperation (term : Term) (codepoint : Int) : ConsoleOp :=
  if codepoint = 0x08 then .backspace
  else if codepoint = 0x09 then .tab
  else if codepoint = 0x0A ∨ codepoint = 0x0B ∨ codepoint = 0x0C then .newline
  else if codepoint = 0x0D then .carriageReturn
  else if codepoint < 0x20 ∨ codepoint = 0x7F ∨ codepoint = 0x9B then .nothing
  else .print (term.translate codepoint)

/-- The operation that a byte of text means: the one of the codepoint it completes, if any. -/
def byteOperation (term : Term) (c : UInt8) : ConsoleOp :=
  let (codepoint, bytesRemaining) := decodeByte term.mapping.isSome term.statics.codepoint
    term.statics.bytesRemaining c
  if bytesRemaining ≠ 0 then .nothing else codepointOperation term codepoint

/-- The operation that a byte of text means if output may be redirected. -/
def echoOperation (term : Term) (c : UInt8) : ConsoleOp :=
  if (term.pipeStream.opened ∧ c ≠ 0x1B) ∧ term.pipeStream.flags &&& 1 = 0 then .nothing
  else byteOperation term c

/-- The operation that the byte after an escape character means. -/
def escapeOperation (c : UInt8) : ConsoleOp :=
  match Char.ofNat c.toNat with
  | '7' => .saveCursor
  | '8' => .restoreCursor
  | 'D' => .linefeed
  | 'E' => .nextLine
  | 'H' => .setTab
  | 'M' => .reverseLinefeed
  | 'c' => .reset
  | _ => .nothing

/-- The operation that a byte of a control sequence means: a final byte means the function it
selects, with the parameters read before it. -/
def csiOperation (statics : HandlerStatics) (c : UInt8) : ConsoleOp :=
  if 0x40 ≤ c ∧ c ≤ 0x7E then
    let finished := csiFinishParameter statics
    .control finished.argc finished.argv finished.privateModeCharacter (csiFunction c)
  else .nothing

/-- The operation that a byte of a palette command means. -/
def paletteOperation (platform : Platform) (statics : HandlerStatics) (c : UInt8) : ConsoleOp :=
  if statics.readColorSpec ∧ (c = 0x3B ∨ isStringTerminator c) then
    .assignColor statics.paletteIndex (platform.xparsecolor (terminated statics.colorSpec))
  else .nothing

/-- The operation that a byte means in a state of the terminal. -/
def operation (platform : Platform) (term : Term) (c : UInt8) : ConsoleOp :=
  match term.charHandler with
  | .echo => echoOperation term c
  | .escape => escapeOperation c
  | .csi => csiOperation term.statics c
  | .ctrlFunc => if c = 0x38 then .fillScreen else .nothing
  | .setScrollback =>
      if isStringTerminator c then .requestScrollback (atoi term.statics.scrollbackParam)
      else .nothing
  | .xtermPalette => paletteOperation platform term.statics c
  | _ => .nothing

/-! ## The handlers carry out the operations -/

section Handlers

variable (platform : Platform) (term : Term) (c : UInt8)

@[simp] theorem handler_toConsole (handler : CharHandler) :
    (term.handler handler).toConsole = term.toConsole := rfl

@[simp] theorem onConsole_toConsole (change : Console → Console) :
    (term.onConsole change).toConsole = change term.toConsole := rfl

@[simp] theorem sendString_toConsole (text : String) :
    (sendString term text).toConsole = term.toConsole := by
  unfold sendString
  split <;> rfl

@[simp] theorem pipeStreamFlush_toConsole : (pipeStreamFlush term).toConsole = term.toConsole := by
  unfold pipeStreamFlush
  split <;> rfl

@[simp] theorem pipeStreamClose_toConsole : (pipeStreamClose term).toConsole = term.toConsole := by
  unfold pipeStreamClose
  split
  · exact pipeStreamFlush_toConsole term
  · rfl

/-- Writing to the pipe stream concerns the stream and what is sent alone. -/
theorem pipeStreamWrite_spec : ∃ output buffer,
    pipeStreamWrite term c =
      { term with output := output, pipeStream := { term.pipeStream with buffer := buffer } } := by
  unfold pipeStreamWrite pipeStreamFlush
  split
  · split
    · split
      · exact ⟨_, _, rfl⟩
      · exact ⟨_, _, rfl⟩
    · exact ⟨_, _, rfl⟩
  · exact ⟨_, _, rfl⟩

theorem toConsole_ite {condition : Prop} [Decidable condition] {left right : Term}
    {console : Console} (first : condition → left.toConsole = console)
    (second : ¬ condition → right.toConsole = console) :
    (if condition then left else right).toConsole = console := by
  split
  case isTrue holds => exact first holds
  case isFalse fails => exact second fails

/-- The control characters that mean no operation leave the console as it is. -/
theorem echoCodepoint_control {codepoint : Int} (backspace : codepoint ≠ 0x08)
    (tab : codepoint ≠ 0x09)
    (newline : ¬ (codepoint = 0x0A ∨ codepoint = 0x0B ∨ codepoint = 0x0C))
    (carriageReturn : codepoint ≠ 0x0D)
    (other : codepoint < 0x20 ∨ codepoint = 0x7F ∨ codepoint = 0x9B) :
    (echoCodepoint platform term codepoint).toConsole = term.toConsole := by
  unfold echoCodepoint
  refine toConsole_ite (fun _ => sendString_toConsole ..) fun _ => ?_
  refine toConsole_ite (fun _ => rfl) fun _ => ?_
  rw [if_neg backspace, if_neg tab, if_neg newline, if_neg carriageReturn]
  refine toConsole_ite (fun _ => rfl) fun _ => ?_
  refine toConsole_ite (fun _ => rfl) fun _ => ?_
  refine toConsole_ite (fun _ => rfl) fun _ => ?_
  refine toConsole_ite (fun _ => rfl) fun notCsi => ?_
  refine toConsole_ite (fun _ => rfl) fun notDelete => ?_
  exact toConsole_ite (fun _ => rfl) fun notControl => absurd other (by omega)

theorem echoCodepoint_toConsole (codepoint : Int) :
    (echoCodepoint platform term codepoint).toConsole =
      perform platform term.toConsole (codepointOperation term codepoint) := by
  unfold codepointOperation
  split_ifs with backspace tab newline carriageReturn other
  · subst backspace
    rfl
  · subst tab
    rfl
  · rcases newline with rfl | rfl | rfl <;> rfl
  · subst carriageReturn
    rfl
  · exact echoCodepoint_control platform term backspace tab newline carriageReturn other
  · have printable : 0x20 ≤ codepoint ∧ codepoint ≠ 0x7F ∧ codepoint ≠ 0x9B := by omega
    unfold echoCodepoint
    rw [if_neg (by omega), if_neg (by omega), if_neg backspace, if_neg tab, if_neg newline,
      if_neg carriageReturn, if_neg (by omega), if_neg (by omega), if_neg (by omega),
      if_neg printable.2.2, if_neg printable.2.1, if_neg (by omega)]
    rfl

theorem echoByte_toConsole :
    (echoByte platform term c).toConsole =
      perform platform term.toConsole (byteOperation term c) := by
  unfold echoByte byteOperation
  dsimp only
  split
  · rfl
  · exact echoCodepoint_toConsole ..

theorem echo_toConsole :
    (echo platform term c).toConsole =
      perform platform term.toConsole (echoOperation term c) := by
  obtain ⟨output, buffer, written⟩ := pipeStreamWrite_spec term c
  unfold echo echoOperation
  by_cases piped : term.pipeStream.opened ∧ c ≠ 0x1B
  · simp only [if_pos piped, written]
    split
    · rfl
    · exact echoByte_toConsole ..
  · simp only [if_neg piped, if_neg (fun both : _ ∧ _ => piped both.1)]
    exact echoByte_toConsole ..

theorem escape_toConsole :
    (escape term c).toConsole = perform platform term.toConsole (escapeOperation c) := by
  unfold escape escapeOperation
  generalize Char.ofNat c.toNat = character
  split
  case h_12 => exact sendString_toConsole ..
  case h_15 =>
    split
    all_goals first | rfl | contradiction
  all_goals rfl

theorem ctrlFunc_toConsole :
    (ctrlFunc platform term c).toConsole =
      perform platform term.toConsole (if c = 0x38 then .fillScreen else .nothing) := by
  unfold ctrlFunc
  split <;> rfl

/-- The cases of the switch that only send a report leave the console as it is. -/
theorem csiExecute_toConsole (argc : Nat) (argv : Nat → Int) (function : CsiFunction) :
    (csiExecute term argc argv function).toConsole =
      csiConsole term.toConsole argc argv term.statics.privateModeCharacter function := by
  cases function with
  | identify =>
      unfold csiExecute csiIdentify
      dsimp only
      split
      · exact sendString_toConsole ..
      · rfl
  | report =>
      unfold csiExecute csiReport
      dsimp only
      split
      · rfl
      · split
        · exact sendString_toConsole ..
        · split
          · exact sendString_toConsole ..
          · rfl
  | _ => rfl

theorem csi_toConsole :
    (csi term c).toConsole = perform platform term.toConsole (csiOperation term.statics c) := by
  unfold csi csiOperation
  by_cases final : 0x40 ≤ c ∧ c ≤ 0x7E
  · have notDigit : ¬(0x30 ≤ c ∧ c ≤ 0x39) := by
      simp only [UInt8.le_iff_toNat_le] at final ⊢
      exact fun digit => absurd (final.1.trans digit.2) (by decide)
    have notSeparator : c ≠ 0x3B := by
      rintro rfl
      exact absurd final (by decide)
    rw [if_neg notDigit, if_pos (Or.inl final), if_neg notSeparator, if_pos final]
    exact csiExecute_toConsole ..
  · rw [if_neg final]
    split_ifs
    all_goals first | rfl | exact absurd ‹_ ∨ _› (not_or.mpr ⟨final, ‹_›⟩)

theorem setScrollback_toConsole :
    (setScrollback term c).toConsole =
      perform platform term.toConsole
        (if isStringTerminator c then .requestScrollback (atoi term.statics.scrollbackParam)
          else .nothing) := by
  unfold setScrollback
  split <;> rfl

theorem xtermPalette_toConsole :
    (xtermPalette platform term c).toConsole =
      perform platform term.toConsole (paletteOperation platform term.statics c) := by
  have read : (paletteByte platform term c).toConsole =
      perform platform term.toConsole (paletteOperation platform term.statics c) := by
    unfold paletteByte paletteOperation
    by_cases reading : term.statics.readColorSpec
    · simp only [reading, true_and]
      split_ifs <;> rfl
    · simp only [reading]
      split_ifs <;> first | rfl | simp_all
  unfold xtermPalette
  dsimp only
  split
  · exact read
  · exact read

theorem download_toConsole : (download term c).toConsole = term.toConsole := by
  unfold download
  dsimp only [Term.handler]
  split_ifs <;> rfl

theorem setDirectory_toConsole : (setDirectory term c).toConsole = term.toConsole := by
  unfold setDirectory
  dsimp only [Term.handler]
  split_ifs <;> rfl

theorem openPipeStream_toConsole : (openPipeStream term c).toConsole = term.toConsole := by
  unfold openPipeStream
  split_ifs
  · exact pipeStreamClose_toConsole term
  · rfl
  · rfl

theorem closePipeStream_toConsole : (closePipeStream term c).toConsole = term.toConsole := by
  unfold closePipeStream
  split_ifs
  · exact pipeStreamClose_toConsole term
  · rfl

theorem windowTitle_toConsole : (windowTitle term c).toConsole = term.toConsole := by
  unfold windowTitle
  split_ifs <;> rfl

theorem osc_toConsole : (osc term c).toConsole = term.toConsole := by
  unfold osc
  split_ifs
  · rfl
  · cases oscHandler term.statics.operation <;> rfl
  · rfl

theorem apc_toConsole : (apc term c).toConsole = term.toConsole := by
  unfold apc
  dsimp only [Term.handler]
  split_ifs <;> rfl

/-- **A byte does to the console what its operation says.** -/
theorem writeByte_toConsole :
    (writeByte platform term c).toConsole =
      perform platform term.toConsole (operation platform term c) := by
  unfold writeByte operation
  cases term.charHandler with
  | echo => exact echo_toConsole ..
  | escape => exact escape_toConsole ..
  | g0Charset => rfl
  | g1Charset => rfl
  | osc => exact osc_toConsole ..
  | csi => exact csi_toConsole ..
  | ctrlFunc => exact ctrlFunc_toConsole ..
  | apc => exact apc_toConsole ..
  | download => exact download_toConsole ..
  | setDirectory => exact setDirectory_toConsole ..
  | openPipeStream => exact openPipeStream_toConsole ..
  | closePipeStream => exact closePipeStream_toConsole ..
  | setScrollback => exact setScrollback_toConsole ..
  | windowTitle => exact windowTitle_toConsole ..
  | xtermPalette => exact xtermPalette_toConsole ..

/-! ## Static variables -/

theorem sendString_statics (text : String) : (sendString term text).statics = term.statics := by
  unfold sendString
  split <;> rfl

theorem escape_statics : (escape term c).statics = term.statics := by
  unfold escape
  split
  all_goals first | rfl | exact sendString_statics ..

theorem csiExecute_statics (argc : Nat) (argv : Nat → Int) (function : CsiFunction) :
    (csiExecute term argc argv function).statics = term.statics := by
  cases function with
  | identify =>
      unfold csiExecute csiIdentify
      dsimp only
      split
      · exact sendString_statics ..
      · rfl
  | report =>
      unfold csiExecute csiReport
      dsimp only
      split_ifs
      all_goals first | rfl | exact sendString_statics ..
  | _ => rfl

theorem pipeStreamClose_statics : (pipeStreamClose term).statics = term.statics := by
  unfold pipeStreamClose pipeStreamFlush
  split_ifs <;> rfl

end Handlers

end GuacNebula.Terminal
