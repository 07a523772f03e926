import GuacNebula.Lib.Run
import GuacNebula.Terminal.Operations

/-! # The accumulators of the parsers

Eight character handlers keep what they have read of a sequence in static variables. A handler
touches no accumulators but its own, so once text is read again, they are as they were at first
if every handler resets its own when it leaves.
-/

namespace GuacNebula.Terminal

open Run

/-- The accumulators of a handler and the variables which outlive sequences, those of
`guac_terminal_echo` and `guac_terminal_apc`, with the values they have at first. -/
def HandlerStatics.without (statics : HandlerStatics) (handler : CharHandler) : HandlerStatics :=
  let rest := { statics with bytesRemaining := 0, codepoint := 0, escaping := false }
  match handler with
  | .csi => { rest with argc := 0, argv := fun _ => 0, privateModeCharacter := 0, argvBuffer := [] }
  | .osc => { rest with operation := 0 }
  | .download => { rest with filename := [] }
  | .setDirectory => { rest with directory := [] }
  | .openPipeStream => { rest with pipeParam := [], pipeFlags := 0 }
  | .setScrollback => { rest with scrollbackParam := [] }
  | .windowTitle => { rest with title := [] }
  | .xtermPalette => { rest with readColorSpec := false, paletteIndex := 0, colorSpec := [] }
  | _ => rest

/-- Every accumulator has the value it has at first. -/
def HandlerStatics.Clear (statics : HandlerStatics) : Prop :=
  statics.without .echo = HandlerStatics.zero

/-- While text is read, no accumulator holds anything. -/
def Term.Stateless (term : Term) : Prop := term.charHandler = .echo → term.statics.Clear

/-- A byte with which a command ends before its semicolon ends it without a number, and a byte that
ends a palette command ends it without an index and behind an empty colour specification. -/
def LeavesClear (term : Term) (c : UInt8) : Prop :=
  match term.charHandler with
  | .osc => isDigit c = false → c ≠ 0x3B → term.statics.operation = 0
  | .xtermPalette =>
      isStringTerminator c = true →
        term.statics.colorSpec = []
          ∧ (term.statics.readColorSpec = false → term.statics.paletteIndex = 0)
  | _ => True

/-- No accumulators but those of the current handler hold anything, and of the parameters of a
control sequence only those that have been read. -/
structure Term.Tidy (term : Term) : Prop where
  others : term.statics.without term.charHandler = HandlerStatics.zero
  beyond : ∀ index, term.statics.argc ≤ index → term.statics.argv index = 0

/-! ## Handlers -/

section Handlers

variable (platform : Platform) (term : Term) (c : UInt8)

/-- A branch has the accumulators that both of its sides have. -/
theorem without_ite {condition : Prop} [Decidable condition] {left right : Term}
    {handler : CharHandler} {statics : HandlerStatics}
    (first : left.statics.without handler = statics)
    (second : right.statics.without handler = statics) :
    (if condition then left else right).statics.without handler = statics := by
  split
  · exact first
  · exact second

theorem echoCodepoint_without (codepoint : Int) :
    (echoCodepoint platform term codepoint).statics.without .echo = term.statics.without .echo := by
  unfold echoCodepoint
  apply without_ite
  · rw [sendString_statics]
  · repeat' apply without_ite
    all_goals rfl

theorem echo_without :
    (echo platform term c).statics.without .echo = term.statics.without .echo := by
  have byte (before : Term) :
      (echoByte platform before c).statics.without .echo = before.statics.without .echo :=
    without_ite rfl (echoCodepoint_without ..)
  obtain ⟨output, buffer, written⟩ := pipeStreamWrite_spec term c
  have piped : (if term.pipeStream.opened ∧ c ≠ 0x1B then pipeStreamWrite term c
      else term).statics.without .echo = term.statics.without .echo :=
    without_ite (by rw [written]) rfl
  exact without_ite piped ((byte _).trans piped)

theorem csi_without : (csi term c).statics.without .csi = term.statics.without .csi := by
  have finished : (csiFinishParameter term.statics).without .csi = term.statics.without .csi := by
    unfold csiFinishParameter
    split <;> rfl
  unfold csi
  apply without_ite
  · exact without_ite rfl rfl
  apply without_ite
  · apply without_ite
    · exact finished
    · simp only [Term.handler, csiExecute_statics]
      exact finished
  · exact without_ite rfl rfl

/-- A handler touches no accumulators but its own. -/
theorem writeByte_without :
    (writeByte platform term c).statics.without term.charHandler =
      term.statics.without term.charHandler := by
  unfold writeByte
  cases term.charHandler with
  | echo => exact echo_without platform term c
  | escape => rw [escape_statics]
  | g0Charset => rfl
  | g1Charset => rfl
  | ctrlFunc =>
      unfold ctrlFunc Term.handler
      exact without_ite rfl rfl
  | apc =>
      dsimp only [apc, Term.handler]
      split_ifs <;> rfl
  | csi => exact csi_without term c
  | osc =>
      unfold osc
      apply without_ite rfl
      apply without_ite
      · cases oscHandler term.statics.operation <;> rfl
      · rfl
  | download =>
      dsimp only [download, Term.handler]
      split_ifs <;> rfl
  | setDirectory =>
      dsimp only [setDirectory, Term.handler]
      split_ifs <;> rfl
  | openPipeStream =>
      apply without_ite
      · have closed := pipeStreamClose_statics term
        simp only [Term.handler, pipeStreamOpen, closed]
        rfl
      · exact without_ite rfl rfl
  | closePipeStream =>
      apply without_ite
      · exact congrArg (HandlerStatics.without · .closePipeStream) (pipeStreamClose_statics term)
      · rfl
  | setScrollback => exact without_ite rfl rfl
  | windowTitle => exact without_ite rfl rfl
  | xtermPalette =>
      have read : (paletteByte platform term c).statics.without .xtermPalette =
          term.statics.without .xtermPalette := by
        unfold paletteByte
        repeat' apply without_ite
        all_goals rfl
      exact without_ite read read

end Handlers

/-! ## Leaving a handler -/

section Leaving

variable {platform : Platform} {term : Term} {c : UInt8}

/-- The parameters that have been read are reset at the end of a control sequence. -/
theorem csiResetParameters_without {statics : HandlerStatics}
    (beyond : ∀ index, statics.argc ≤ index → statics.argv index = 0) :
    (csiResetParameters statics).without .echo = statics.without .csi := by
  have argv : (csiResetParameters statics).argv = fun _ => 0 := by
    funext index
    by_cases read : index < statics.argc
    · exact if_pos read
    · exact (if_neg read).trans (beyond index (Nat.not_lt.mp read))
  unfold HandlerStatics.without
  rw [argv]
  rfl

theorem csiFinishParameter_beyond {statics : HandlerStatics}
    (beyond : ∀ index, statics.argc ≤ index → statics.argv index = 0) (index : Nat)
    (unread : (csiFinishParameter statics).argc ≤ index) :
    (csiFinishParameter statics).argv index = 0 := by
  unfold csiFinishParameter at unread ⊢
  split at unread
  case isTrue room =>
    have later : statics.argc < index := unread
    rw [if_pos room]
    exact (Function.update_of_ne later.ne' _ _).trans (beyond index later.le)
  case isFalse full =>
    rw [if_neg full]
    exact beyond index unread

/-- Control sequences are left with all parameters reset. -/
theorem Term.Tidy.csi (tidy : term.Tidy) (handled : term.charHandler = .csi) :
    ((Terminal.csi term c).charHandler = .csi ∨ (Terminal.csi term c).statics.Clear)
      ∧ ∀ index, (Terminal.csi term c).statics.argc ≤ index →
        (Terminal.csi term c).statics.argv index = 0 := by
  have finished := csiFinishParameter_beyond tidy.beyond
  unfold Terminal.csi
  split_ifs
  · exact ⟨.inl handled, tidy.beyond⟩
  · exact ⟨.inl handled, tidy.beyond⟩
  · exact ⟨.inl handled, finished⟩
  · have others : (csiFinishParameter term.statics).without .csi = HandlerStatics.zero := by
      rw [← tidy.others, handled]
      unfold csiFinishParameter
      split <;> rfl
    have clear : (csiResetParameters (csiFinishParameter term.statics)).Clear :=
      (csiResetParameters_without finished).trans others
    simp only [Term.handler, csiExecute_statics]
    exact ⟨.inr clear, fun index _ => congrFun (congrArg HandlerStatics.argv clear) index⟩
  · exact ⟨.inl handled, tidy.beyond⟩
  · exact ⟨.inl handled, tidy.beyond⟩

/-- An operating system command is left with its number reset behind a semicolon only. -/
theorem Term.Tidy.osc (tidy : term.Tidy) (handled : term.charHandler = .osc) :
    (LeavesClear term c ∧ ((Terminal.osc term c).charHandler = .osc
        ∨ (Terminal.osc term c).statics.Clear))
      ∨ (¬ LeavesClear term c ∧ (Terminal.osc term c).charHandler = .echo
        ∧ ¬ (Terminal.osc term c).statics.Clear) := by
  have others := tidy.others
  rw [handled] at others
  unfold Terminal.osc LeavesClear
  rw [handled]
  split_ifs with digit separator
  · exact .inl ⟨fun other => absurd digit (by simp [other]), .inl rfl⟩
  · refine .inl ⟨fun _ other => absurd separator other, .inr ?_⟩
    cases oscHandler term.statics.operation <;> exact others
  · have clear : term.statics.Clear ↔ term.statics.operation = 0 := by
      constructor
      · exact congrArg HandlerStatics.operation
      · intro zero
        rw [HandlerStatics.Clear, ← others]
        unfold HandlerStatics.without
        rw [zero]
    by_cases zero : term.statics.operation = 0
    · exact .inl ⟨fun _ _ => zero, .inr (clear.mpr zero)⟩
    · exact .inr ⟨fun leaves => zero (leaves (Bool.not_eq_true _ ▸ digit) separator), rfl,
        mt clear.mp zero⟩

/-- A byte that ends a palette command ends a colour specification first. -/
theorem paletteByte_ends (ends : isStringTerminator c = true) :
    (paletteByte platform term c).statics =
      if term.statics.readColorSpec then
        { term.statics with readColorSpec := false, paletteIndex := 0 }
      else term.statics := by
  have other : isDigit c = false ∧ c ≠ 0x3B := by
    simp only [isStringTerminator, Bool.or_eq_true, decide_eq_true_eq] at ends
    rcases ends with (rfl | rfl) | rfl <;> exact ⟨rfl, by decide⟩
  unfold paletteByte
  simp only [ends, other, or_true, if_true, Bool.false_eq_true, if_false]
  split <;> rfl

/-- A palette command is left with its index reset behind a colour specification only, and with the
length of the last specification. -/
theorem Term.Tidy.xtermPalette (tidy : term.Tidy) (handled : term.charHandler = .xtermPalette) :
    (LeavesClear term c ∧ ((Terminal.xtermPalette platform term c).charHandler = .xtermPalette
        ∨ (Terminal.xtermPalette platform term c).statics.Clear))
      ∨ (¬ LeavesClear term c ∧ (Terminal.xtermPalette platform term c).charHandler = .echo
        ∧ ¬ (Terminal.xtermPalette platform term c).statics.Clear) := by
  have others := tidy.others
  rw [handled] at others
  unfold Terminal.xtermPalette LeavesClear
  rw [handled]
  dsimp only
  split_ifs with ends
  · have clear : (paletteByte platform term c).statics.Clear ↔
        term.statics.colorSpec = []
          ∧ (term.statics.readColorSpec = false → term.statics.paletteIndex = 0) := by
      rw [paletteByte_ends ends, HandlerStatics.Clear, ← others]
      unfold HandlerStatics.without
      cases reading : term.statics.readColorSpec <;> simp [reading, and_comm]
    by_cases empty : term.statics.colorSpec = []
        ∧ (term.statics.readColorSpec = false → term.statics.paletteIndex = 0)
    · exact .inl ⟨fun _ => empty, .inr (clear.mpr empty)⟩
    · exact .inr ⟨fun leaves => empty (leaves ends), rfl, mt clear.mp empty⟩
  · refine .inl ⟨fun other => absurd other (by simpa using ends), .inl ?_⟩
    unfold paletteByte
    dsimp only
    split_ifs <;> exact handled

/-- Two handlers leave accumulators behind. -/
theorem leavesClear_of_ne (notOsc : term.charHandler ≠ .osc)
    (notPalette : term.charHandler ≠ .xtermPalette) : LeavesClear term c := by
  unfold LeavesClear
  split
  case h_1 osc => exact absurd osc notOsc
  case h_2 palette => exact absurd palette notPalette
  case h_3 => trivial

/-- The other handlers go on reading or leave their accumulators as they were at first. -/
theorem Term.Tidy.writeByte_resets (tidy : term.Tidy) (notOsc : term.charHandler ≠ .osc)
    (notPalette : term.charHandler ≠ .xtermPalette) :
    (Terminal.writeByte platform term c).charHandler = term.charHandler
      ∨ (Terminal.writeByte platform term c).statics.Clear := by
  have kept := (writeByte_without platform term c).trans tidy.others
  have own := tidy.others
  unfold Terminal.writeByte at kept ⊢
  cases handled : term.charHandler with
  | osc => exact absurd handled notOsc
  | xtermPalette => exact absurd handled notPalette
  | csi => exact (tidy.csi handled).1
  | echo | escape | g0Charset | g1Charset | ctrlFunc | apc | closePipeStream =>
      rw [handled] at kept
      exact .inr kept
  | download =>
      rw [handled] at own
      dsimp only [download, Term.handler]
      split_ifs
      · exact .inr own
      · exact .inr own
      · exact .inl handled
  | setDirectory =>
      rw [handled] at own
      dsimp only [setDirectory, Term.handler]
      split_ifs
      · exact .inr own
      · exact .inr own
      · exact .inl handled
  | openPipeStream =>
      rw [handled] at own
      have closed := congrArg (HandlerStatics.without · .openPipeStream)
        (pipeStreamClose_statics term)
      dsimp only [openPipeStream, pipeStreamOpen, Term.handler]
      split_ifs
      · exact .inr (closed.trans own)
      · exact .inl handled
      · exact .inl handled
  | setScrollback =>
      rw [handled] at own
      dsimp only [setScrollback, Term.handler]
      split_ifs
      · exact .inr own
      · exact .inl handled
  | windowTitle =>
      rw [handled] at own
      dsimp only [windowTitle, Term.handler]
      split_ifs
      · exact .inr own
      · exact .inl handled

/-- A byte leaves the accumulators of all handlers as they were at first but those of a handler
that goes on reading, or else it is one with which a handler does not leave clear. -/
theorem Term.Tidy.writeByte_cases (tidy : term.Tidy) (platform : Platform) (c : UInt8) :
    (LeavesClear term c ∧ ((Terminal.writeByte platform term c).charHandler = term.charHandler
        ∨ (Terminal.writeByte platform term c).statics.Clear))
      ∨ (¬ LeavesClear term c ∧ (Terminal.writeByte platform term c).charHandler = .echo
        ∧ ¬ (Terminal.writeByte platform term c).statics.Clear) := by
  by_cases osc : term.charHandler = .osc
  · have step : Terminal.writeByte platform term c = Terminal.osc term c := by
      unfold Terminal.writeByte
      rw [osc]
    rw [step, osc]
    exact tidy.osc osc
  by_cases palette : term.charHandler = .xtermPalette
  · have step : Terminal.writeByte platform term c = Terminal.xtermPalette platform term c := by
      unfold Terminal.writeByte
      rw [palette]
    rw [step, palette]
    exact tidy.xtermPalette palette
  · exact .inl ⟨leavesClear_of_ne osc palette, tidy.writeByte_resets osc palette⟩

/-- Cleared accumulators are those of no handler. -/
theorem HandlerStatics.Clear.without {statics : HandlerStatics} (clear : statics.Clear)
    (handler : CharHandler) : statics.without handler = HandlerStatics.zero := by
  have again : statics.without handler = (statics.without .echo).without handler := by
    cases handler <;> rfl
  rw [again, clear]
  cases handler <;> rfl

theorem Term.Tidy.stateless (tidy : term.Tidy) : term.Stateless := by
  intro echoes
  have others := tidy.others
  rwa [echoes] at others

theorem Term.Tidy.step (tidy : term.Tidy)
    (stateless : (Terminal.writeByte platform term c).Stateless) :
    (Terminal.writeByte platform term c).Tidy := by
  have others : (Terminal.writeByte platform term c).statics.without
      (Terminal.writeByte platform term c).charHandler = HandlerStatics.zero := by
    rcases tidy.writeByte_cases platform c with
      ⟨_, stays | clear⟩ | ⟨_, echoes, leaks⟩
    · rw [stays, writeByte_without]
      exact tidy.others
    · exact clear.without _
    · exact absurd (stateless echoes) leaks
  refine ⟨others, ?_⟩
  by_cases csi : term.charHandler = .csi
  · have step : Terminal.writeByte platform term c = Terminal.csi term c := by
      unfold Terminal.writeByte
      rw [csi]
    rw [step]
    exact (tidy.csi csi).2
  · have kept := (writeByte_without platform term c).trans tidy.others
    have same (statics : HandlerStatics) : (statics.without term.charHandler).argv = statics.argv := by
      cases handled : term.charHandler
      case csi => exact absurd handled csi
      all_goals rfl
    intro index _
    rw [← same, kept]
    rfl

theorem Term.Tidy.step_iff (tidy : term.Tidy) :
    (Terminal.writeByte platform term c).Stateless ↔ LeavesClear term c := by
  rcases tidy.writeByte_cases platform c with
    ⟨leaves, stays | clear⟩ | ⟨leaks, echoes, unclear⟩
  · refine iff_of_true (fun echoes => ?_) leaves
    have kept := (writeByte_without platform term c).trans tidy.others
    rwa [← stays, echoes] at kept
  · exact iff_of_true (fun _ => clear) leaves
  · exact iff_of_false (fun stateless => unclear (stateless echoes)) leaks

end Leaving

/-- **Whenever text is read, every accumulator is as it was at first, exactly if each operating
system command ends before its semicolon without a number only, and each palette command without an
index that has no colour specification and with its last colour specification empty.** -/
theorem parser_stateless_iff (platform : Platform) (start : Term)
    (fresh : start.statics = HandlerStatics.zero) (echoes : start.charHandler = .echo)
    (bytes : List UInt8) :
    Always (writeByte platform) Term.Stateless start bytes ↔
      Guarded (writeByte platform) LeavesClear start bytes := by
  have tidy : start.Tidy := by
    refine ⟨?_, fun index _ => ?_⟩
    · rw [fresh, echoes]
      rfl
    · rw [fresh]
      rfl
  exact always_iff_guarded tidy.stateless tidy
    (fun term c tidy _ stateless => tidy.step stateless) fun term c tidy _ => tidy.step_iff

/-- The command that sets the title leaves nothing behind. -/
theorem parser_stateless_title :
    Always (writeByte samplePlatform) Term.Stateless (create sampleMetrics (sampleOptions 1 3))
      [0x1B, 0x5D, 0x32, 0x3B, 0x78, 0x07] := by
  refine (parser_stateless_iff samplePlatform (create sampleMetrics (sampleOptions 1 3)) rfl rfl
    _).mpr ?_
  refine ⟨trivial, trivial, ?_, ?_, trivial, trivial, trivial⟩
  · exact fun notDigit => absurd notDigit (by decide)
  · exact fun _ separator => absurd rfl separator

/-- A command that ends behind its number leaves the number behind. -/
theorem parser_keeps_number :
    ¬ Always (writeByte samplePlatform) Term.Stateless (create sampleMetrics (sampleOptions 1 3))
      [0x1B, 0x5D, 0x32, 0x07] := by
  intro always
  have number : (exec (writeByte samplePlatform) (create sampleMetrics (sampleOptions 1 3))
    [0x1B, 0x5D, 0x32, 0x07]).statics.operation = 2 := by decide +kernel
  have clear := always.last rfl
  have two : (2 : Int) = 0 := number.symm.trans (congrArg HandlerStatics.operation clear)
  exact absurd two (by decide)

end GuacNebula.Terminal
