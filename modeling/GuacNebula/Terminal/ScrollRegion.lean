import GuacNebula.Lib.Run
import GuacNebula.Terminal.ConsoleFrame
import GuacNebula.Terminal.Resize

/-! # The scroll region stays on the screen

Line feeds and the insertion and deletion of lines take the scroll region to lie on the screen.
Three parties write it: the reset, which sets it to the whole screen, the control function `r`,
which takes whatever two parameters it is given, and a resize, which sets only its end. The
region lies on the screen throughout a run exactly if every `r` with two parameters names an
ordered pair of lines of the screen and no resize leaves the start of the region below the screen.
-/

namespace GuacNebula.Terminal

open CInt Run

/-- The scroll region lies on the screen. -/
def Console.RegionOnScreen (console : Console) : Prop :=
  0 ≤ console.scrollStart ∧ console.scrollStart ≤ console.scrollEnd
    ∧ console.scrollEnd < console.grid.termHeight

/-- What changes the scroll region from outside. -/
inductive RegionAction where
  | write (c : UInt8)
  | resize (width height : Int)

/-- The terminal after a byte has been written or its size in pixels has changed. -/
def regionStep (platform : Platform) (metrics : FontMetrics) (term : Term) :
    RegionAction → Term
  | .write c => writeByte platform term c
  | .resize width height => resize metrics term width height

/-- The first and the last line that `r` is given, if it is given two parameters. -/
def ConsoleOp.regionLines : ConsoleOp → Option (Int × Int)
  | .control argc argv _ .scrollRegion => if argc = 2 then some (argv 0, argv 1) else none
  | _ => none

/-- The lines that `r` is given, if any, are lines of a screen of the given height, in order. -/
def ConsoleOp.RegionWithin (op : ConsoleOp) (height : Int) : Prop :=
  ∀ lines ∈ op.regionLines, 1 ≤ lines.1 ∧ lines.1 ≤ lines.2 ∧ lines.2 ≤ height

instance (op : ConsoleOp) (height : Int) : Decidable (op.RegionWithin height) :=
  inferInstanceAs (Decidable (∀ lines ∈ op.regionLines, _))

/-- The condition under which an action keeps the scroll region on the screen. -/
def RegionGuard (platform : Platform) (metrics : FontMetrics) (term : Term) :
    RegionAction → Prop
  | .write c => (operation platform term c).RegionWithin term.grid.termHeight
  | .resize width height =>
      term.scrollStart < (calculateRowsAndColumns metrics height width).1

instance (platform : Platform) (metrics : FontMetrics) (term : Term) :
    ∀ action, Decidable (RegionGuard platform metrics term action)
  | .write c =>
      inferInstanceAs
        (Decidable ((operation platform term c).RegionWithin term.grid.termHeight))
  | .resize _ _ => inferInstanceAs (Decidable (_ < _))

/-! ## Parameters and sizes -/

/-- The parameters read so far are values of `int`, and the screen has at most
`GUAC_TERMINAL_MAX_ROWS` rows. -/
structure Term.Bounded (term : Term) : Prop where
  parameters : ∀ index, FitsInt (term.statics.argv index)
  height : term.grid.termHeight ≤ 1024

section Parameters

variable (platform : Platform) (term : Term) (c : UInt8)

theorem atoi_fits (text : List UInt8) : FitsInt (atoi text) := by
  unfold atoi
  split <;> exact toInt_fits _

theorem csiFinishParameter_fits {statics : HandlerStatics}
    (fits : ∀ index, FitsInt (statics.argv index)) (index : Nat) :
    FitsInt ((csiFinishParameter statics).argv index) := by
  unfold csiFinishParameter
  split
  · by_cases last : index = statics.argc
    · subst last
      simp only [Function.update_self]
      exact atoi_fits _
    · simp only [Function.update_of_ne last]
      exact fits index
  · exact fits index

/-- A branch has the parameters that both of its sides have. -/
theorem argv_ite {condition : Prop} [Decidable condition] {left right : Term}
    {argv : Nat → Int} (first : left.statics.argv = argv) (second : right.statics.argv = argv) :
    (if condition then left else right).statics.argv = argv := by
  split
  · exact first
  · exact second

theorem echoCodepoint_argv (codepoint : Int) :
    (echoCodepoint platform term codepoint).statics.argv = term.statics.argv := by
  unfold echoCodepoint
  apply argv_ite
  · rw [sendString_statics]
  · repeat' apply argv_ite
    all_goals rfl

theorem echo_argv : (echo platform term c).statics.argv = term.statics.argv := by
  have byte (before : Term) : (echoByte platform before c).statics.argv = before.statics.argv :=
    argv_ite rfl (echoCodepoint_argv ..)
  obtain ⟨output, buffer, written⟩ := pipeStreamWrite_spec term c
  have piped : (if term.pipeStream.opened ∧ c ≠ 0x1B then pipeStreamWrite term c
      else term).statics.argv = term.statics.argv :=
    argv_ite (by rw [written]) rfl
  exact argv_ite piped ((byte _).trans piped)

theorem csi_fits (fits : ∀ index, FitsInt (term.statics.argv index)) (index : Nat) :
    FitsInt ((csi term c).statics.argv index) := by
  have finished := csiFinishParameter_fits fits
  unfold csi
  split
  · split <;> exact fits index
  · split
    · dsimp only
      split
      · exact finished index
      · simp only [csiResetParameters, Term.handler, csiExecute_statics]
        split
        · decide
        · exact finished index
    · split <;> exact fits index

/-- Only the handler of control sequences changes the parameters. -/
theorem writeByte_argv (other : term.charHandler ≠ .csi) :
    (writeByte platform term c).statics.argv = term.statics.argv := by
  unfold writeByte
  cases handled : term.charHandler with
  | echo => exact echo_argv platform term c
  | escape => rw [escape_statics]
  | g0Charset => rfl
  | g1Charset => rfl
  | csi => exact absurd handled other
  | ctrlFunc =>
      unfold ctrlFunc Term.handler
      exact argv_ite rfl rfl
  | openPipeStream =>
      unfold openPipeStream
      dsimp only
      apply argv_ite
      · have closed := pipeStreamClose_statics term
        simp only [Term.handler, pipeStreamOpen, closed]
      · exact argv_ite rfl rfl
  | closePipeStream =>
      unfold closePipeStream
      apply argv_ite
      · exact congrArg HandlerStatics.argv (pipeStreamClose_statics term)
      · rfl
  | xtermPalette =>
      have read : (paletteByte platform term c).statics.argv = term.statics.argv := by
        unfold paletteByte
        repeat' apply argv_ite
        all_goals rfl
      exact argv_ite read read
  | osc =>
      unfold osc
      apply argv_ite rfl
      apply argv_ite
      · cases oscHandler term.statics.operation <;> rfl
      · rfl
  | setDirectory =>
      dsimp only [setDirectory, Term.handler]
      split_ifs <;> rfl
  | download =>
      dsimp only [download, Term.handler]
      split_ifs <;> rfl
  | setScrollback => exact argv_ite rfl rfl
  | windowTitle => exact argv_ite rfl rfl
  | apc =>
      dsimp only [apc, Term.handler]
      split_ifs <;> rfl

/-- The handlers keep the parameters values of `int`. -/
theorem writeByte_fits (fits : ∀ index, FitsInt (term.statics.argv index)) (index : Nat) :
    FitsInt ((writeByte platform term c).statics.argv index) := by
  by_cases handled : term.charHandler = .csi
  · have same : writeByte platform term c = csi term c := by
      unfold writeByte
      rw [handled]
    exact same ▸ csi_fits term c fits index
  · exact (writeByte_argv platform term c handled).symm ▸ fits index

/-- The parameters of the operation, if it has any, are values of `int`. -/
def ConsoleOp.ParametersFit : ConsoleOp → Prop
  | .control _ argv _ _ => ∀ index, FitsInt (argv index)
  | _ => True

theorem echoOperation_parametersFit : (echoOperation term c).ParametersFit := by
  unfold echoOperation byteOperation codepointOperation
  dsimp only
  split_ifs <;> trivial

theorem operation_parametersFit (fits : ∀ index, FitsInt (term.statics.argv index)) :
    (operation platform term c).ParametersFit := by
  unfold operation
  cases term.charHandler with
  | echo => exact echoOperation_parametersFit term c
  | escape =>
      unfold escapeOperation
      dsimp only
      split <;> trivial
  | csi =>
      unfold csiOperation
      dsimp only
      split
      · exact csiFinishParameter_fits fits
      · trivial
  | ctrlFunc =>
      dsimp only
      split <;> trivial
  | setScrollback =>
      dsimp only
      split <;> trivial
  | xtermPalette =>
      unfold paletteOperation
      dsimp only
      split <;> trivial
  | _ => trivial

end Parameters

/-! ## The region -/

theorem ConsoleOp.KeepsRegion.within {op : ConsoleOp} (kept : op.KeepsRegion) (height : Int) :
    op.RegionWithin height := by
  have unset : op.regionLines = none := by
    cases op with
    | control argc argv privateMode function =>
        cases function with
        | scrollRegion => exact absurd rfl kept
        | _ => rfl
    | _ => rfl
  intro lines named
  rw [unset] at named
  exact absurd named (Option.not_mem_none lines)

theorem Console.Stays.regionOnScreen {before after : Console} (stays : before.Stays after)
    (valid : before.RegionOnScreen) : after.RegionOnScreen := by
  unfold Console.RegionOnScreen at *
  rw [stays.scrollStart, stays.scrollEnd, stays.termHeight]
  exact valid

/-- The region that `r` sets lies on the screen exactly if its parameters name lines of the
screen in order. The least `int` names none, although one less than it is the greatest. -/
theorem csiScrollRegion_iff {console : Console} {argc : Nat} {argv : Nat → Int}
    {privateMode : UInt8} (fits : ∀ index, FitsInt (argv index))
    (height : console.grid.termHeight ≤ 1024) (valid : console.RegionOnScreen) :
    (csiScrollRegion console argc argv).RegionOnScreen ↔
      (ConsoleOp.control argc argv privateMode .scrollRegion).RegionWithin
        console.grid.termHeight := by
  unfold csiScrollRegion ConsoleOp.RegionWithin ConsoleOp.regionLines
  unfold Console.RegionOnScreen at *
  dsimp only
  split
  · have first := fits 0
    have second := fits 1
    unfold FitsInt at first second
    dsimp only
    constructor
    · rintro region _ ⟨⟩
      unfold toInt at region
      omega
    · intro within
      have lines := within _ rfl
      rw [toInt_of_fits (by unfold FitsInt; omega), toInt_of_fits (by unfold FitsInt; omega)]
      omega
  · dsimp only
    constructor
    · exact fun _ lines named => absurd named (Option.not_mem_none lines)
    · intro _
      omega

/-- One operation keeps the region on the screen exactly under the condition on it. -/
theorem perform_region_iff (platform : Platform) {console : Console} {op : ConsoleOp}
    (fits : op.ParametersFit) (height : console.grid.termHeight ≤ 1024)
    (valid : console.RegionOnScreen) :
    (perform platform console op).RegionOnScreen ↔ op.RegionWithin console.grid.termHeight := by
  by_cases kept : op.KeepsRegion
  · have stays := perform_stays platform console op kept
    exact ⟨fun _ => kept.within _, fun _ => stays.regionOnScreen valid⟩
  · cases op with
    | reset =>
        have size := (resetConsole_sameSize console).termHeight
        have whole : (resetConsole console).RegionOnScreen := by
          unfold Console.RegionOnScreen at *
          rw [size]
          change 0 ≤ (0 : Int) ∧ 0 ≤ console.grid.termHeight - 1
            ∧ console.grid.termHeight - 1 < console.grid.termHeight
          omega
        exact ⟨fun _ lines named => absurd named (Option.not_mem_none lines), fun _ => whole⟩
    | control argc argv privateMode function =>
        cases not_not.mp kept
        exact csiScrollRegion_iff fits height valid
    | _ => exact absurd trivial kept

/-- A resize leaves the start of the region where it is. -/
theorem resizeCells_scrollStart (console : Console) (width height : Int) :
    (resizeCells console width height).scrollStart = console.scrollStart := by
  have shrunk : (resizeShrink console width height).scrollStart = console.scrollStart := by
    unfold resizeShrink
    dsimp only
    split_ifs <;> rfl
  have grown (before : Console) :
      (resizeGrow before width height).scrollStart = before.scrollStart := by
    unfold resizeGrow
    dsimp only
    split_ifs <;> rfl
  unfold resizeCells
  dsimp only
  rw [grown]
  split_ifs
  · exact shrunk
  · exact shrunk

/-- A resize keeps the region on the screen exactly if the screen still holds its start. -/
theorem resizeRowsColumns_region_iff {console : Console} {rows columns : Int}
    (valid : console.RegionOnScreen) :
    (resizeRowsColumns console rows columns).RegionOnScreen ↔ console.scrollStart < rows := by
  unfold resizeRowsColumns
  unfold Console.RegionOnScreen at *
  split
  · have start := resizeCells_scrollStart console columns rows
    have height : (resizeCells console columns rows).grid.termHeight = rows := rfl
    rw [height]
    dsimp only
    rw [start]
    omega
  · next same =>
    constructor
    · intro _
      omega
    · exact fun _ => valid

/-! ## Runs -/

section Runs

variable (platform : Platform) (metrics : FontMetrics)

theorem calculateRowsAndColumns_le (height width : Int) :
    (calculateRowsAndColumns metrics height width).1 ≤ 1024
      ∧ (calculateRowsAndColumns metrics height width).2 ≤ 1024 :=
  ⟨min_le_right _ _, min_le_right _ _⟩

theorem regionStep_write_height (term : Term) (c : UInt8) :
    (regionStep platform metrics term (.write c)).grid.termHeight = term.grid.termHeight := by
  change (writeByte platform term c).toConsole.grid.termHeight = _
  rw [writeByte_toConsole]
  exact (perform_sameSize ..).termHeight

theorem regionStep_bounded {term : Term} (bounded : term.Bounded) (action : RegionAction) :
    (regionStep platform metrics term action).Bounded := by
  cases action with
  | write c =>
      exact ⟨writeByte_fits platform term c bounded.parameters,
        (regionStep_write_height platform metrics term c).trans_le bounded.height⟩
  | resize width height =>
      refine ⟨bounded.parameters, ?_⟩
      change (resizeRowsColumns term.toConsole _ _).grid.termHeight ≤ 1024
      unfold resizeRowsColumns
      split
      · exact (calculateRowsAndColumns_le metrics height width).1
      · exact bounded.height

theorem regionStep_iff {term : Term} (bounded : term.Bounded) (valid : term.RegionOnScreen)
    (action : RegionAction) :
    (regionStep platform metrics term action).RegionOnScreen
      ↔ RegionGuard platform metrics term action := by
  cases action with
  | write c =>
      have fits := operation_parametersFit platform term c bounded.parameters
      change (writeByte platform term c).toConsole.RegionOnScreen ↔ _
      rw [writeByte_toConsole]
      exact perform_region_iff platform fits bounded.height valid
  | resize width height => exact resizeRowsColumns_region_iff valid

theorem create_sameSize (options : TerminalOptions) :
    (create metrics options).grid.termHeight
        = (calculateRowsAndColumns metrics options.height options.width).1
      ∧ (create metrics options).grid.termWidth
        = (calculateRowsAndColumns metrics options.height options.width).2 :=
  ⟨(resetConsole_sameSize _).termHeight, (resetConsole_sameSize _).termWidth⟩

/-- **The scroll region stays on the screen exactly under the conditions on `r` and on
resizes.** -/
theorem scrollRegion_onScreen_iff (options : TerminalOptions)
    (rows : 0 < (calculateRowsAndColumns metrics options.height options.width).1)
    (actions : List RegionAction) :
    Always (regionStep platform metrics) (fun term => term.RegionOnScreen)
        (create metrics options) actions
      ↔ Guarded (regionStep platform metrics) (RegionGuard platform metrics)
        (create metrics options) actions := by
  have height := (create_sameSize metrics options).1
  have bounded : (create metrics options).Bounded :=
    ⟨fun _ => (by decide : FitsInt 0), height.trans_le (calculateRowsAndColumns_le ..).1⟩
  have initial : (create metrics options).RegionOnScreen := by
    unfold Console.RegionOnScreen
    rw [height]
    refine ⟨le_refl 0, Int.le_sub_one_of_lt rows, Int.sub_one_lt_of_le (le_refl _)⟩
  exact always_iff_guarded initial bounded
    (fun term action bounded _ _ => regionStep_bounded platform metrics bounded action)
    (fun term action bounded valid => regionStep_iff platform metrics bounded valid action)

end Runs

/-- The bytes of `CSI 2 ; 3 r` are written, then the terminal is resized to two rows. -/
theorem scrollRegion_onScreen_second_third :
    Always (regionStep samplePlatform sampleMetrics) (fun term => term.RegionOnScreen)
      (create sampleMetrics (sampleOptions 3 1))
      ([0x1B, 0x5B, 0x32, 0x3B, 0x33, 0x72].map .write ++ [.resize 24 32]) := by
  apply (scrollRegion_onScreen_iff samplePlatform sampleMetrics (sampleOptions 3 1) (by decide)
    _).mpr
  decide +kernel

/-- With `CSI 5 ; 2 r` the region starts below its end. -/
theorem scrollRegion_reversed :
    ¬ (Run.exec (regionStep samplePlatform sampleMetrics)
      (create sampleMetrics (sampleOptions 24 80))
      ([0x1B, 0x5B, 0x35, 0x3B, 0x32, 0x72].map .write)).RegionOnScreen := by
  rintro ⟨_, ordered, _⟩
  exact absurd ordered (by decide)

end GuacNebula.Terminal
