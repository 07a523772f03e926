import GuacNebula.Terminal.GridFrame
import GuacNebula.Terminal.Operations

/-! # What operations leave unchanged

No operation changes the size of the terminal, and only two of them change the scroll region: the
reset, and the control function that sets it.
-/

namespace GuacNebula.Terminal

/-- The sizes and defaults that no operation changes. -/
structure Console.SameSize (before after : Console) : Prop where
  termWidth : after.grid.termWidth = before.grid.termWidth
  termHeight : after.grid.termHeight = before.grid.termHeight
  defaultChar : after.grid.defaultChar = before.grid.defaultChar
  displayWidth : after.grid.display.width = before.grid.display.width
  displayHeight : after.grid.display.height = before.grid.display.height
  available : after.grid.buffer.available = before.grid.buffer.available
  defaultCharacter : after.grid.buffer.defaultCharacter = before.grid.buffer.defaultCharacter

/-- Besides the sizes, the scroll region and the view are unchanged. -/
structure Console.Stays (before after : Console) : Prop extends Console.SameSize before after where
  scrollStart : after.scrollStart = before.scrollStart
  scrollEnd : after.scrollEnd = before.scrollEnd
  scrollOffset : after.grid.scrollOffset = before.grid.scrollOffset

namespace Console.Stays

variable {first second third : Console}

theorem refl (console : Console) : console.Stays console :=
  ⟨⟨rfl, rfl, rfl, rfl, rfl, rfl, rfl⟩, rfl, rfl, rfl⟩

theorem trans (left : first.Stays second) (right : second.Stays third) : first.Stays third where
  termWidth := right.termWidth.trans left.termWidth
  termHeight := right.termHeight.trans left.termHeight
  defaultChar := right.defaultChar.trans left.defaultChar
  displayWidth := right.displayWidth.trans left.displayWidth
  displayHeight := right.displayHeight.trans left.displayHeight
  available := right.available.trans left.available
  defaultCharacter := right.defaultCharacter.trans left.defaultCharacter
  scrollStart := right.scrollStart.trans left.scrollStart
  scrollEnd := right.scrollEnd.trans left.scrollEnd
  scrollOffset := right.scrollOffset.trans left.scrollOffset

/-- A branch keeps what both of its sides keep. -/
theorem ite {condition : Prop} [Decidable condition] (left : first.Stays second)
    (right : first.Stays third) : first.Stays (if condition then second else third) := by
  split
  · exact left
  · exact right

/-- Drawing on the grid of a console keeps the sizes and the scroll region. -/
theorem onGrid (console : Console) {grid : Grid} (keeps : console.grid.Keeps grid) :
    console.Stays { console with grid := grid } where
  termWidth := keeps.termWidth
  termHeight := keeps.termHeight
  defaultChar := keeps.defaultChar
  displayWidth := keeps.displayWidth
  displayHeight := keeps.displayHeight
  available := keeps.available
  defaultCharacter := keeps.defaultCharacter
  scrollStart := rfl
  scrollEnd := rfl
  scrollOffset := keeps.scrollOffset

end Console.Stays

/-! ## Operations -/

theorem moveCursor_stays (console : Console) (row col : Int) :
    console.Stays (moveCursor console row col) :=
  ⟨⟨rfl, rfl, rfl, rfl, rfl, rfl, rfl⟩, rfl, rfl, rfl⟩

theorem linefeed_stays (console : Console) : console.Stays (linefeed console) := by
  unfold linefeed
  apply Console.Stays.ite (Console.Stays.onGrid console (scrollUp_keeps ..))
  exact Console.Stays.ite ⟨⟨rfl, rfl, rfl, rfl, rfl, rfl, rfl⟩, rfl, rfl, rfl⟩
    (Console.Stays.refl console)

theorem reverseLinefeed_stays (console : Console) : console.Stays (reverseLinefeed console) := by
  unfold reverseLinefeed
  apply Console.Stays.ite (Console.Stays.onGrid console (scrollDown_keeps ..))
  exact Console.Stays.ite ⟨⟨rfl, rfl, rfl, rfl, rfl, rfl, rfl⟩, rfl, rfl, rfl⟩
    (Console.Stays.refl console)

theorem newline_stays (console : Console) : console.Stays (newline console) := by
  have fed := linefeed_stays console
  unfold newline
  exact Console.Stays.ite (fed.trans (moveCursor_stays ..)) fed

theorem nextLine_stays (console : Console) : console.Stays (nextLine console) :=
  (moveCursor_stays ..).trans (linefeed_stays ..)

theorem wrapCursor_stays (console : Console) : console.Stays (wrapCursor console) := by
  have begun : console.Stays { console with cursorCol := 0 } :=
    ⟨⟨rfl, rfl, rfl, rfl, rfl, rfl, rfl⟩, rfl, rfl, rfl⟩
  unfold wrapCursor
  exact Console.Stays.ite (begun.trans (linefeed_stays ..)) (Console.Stays.refl console)

theorem insertShift_stays (console : Console) : console.Stays (insertShift console) := by
  unfold insertShift
  exact Console.Stays.ite (Console.Stays.onGrid console (copyColumns_keeps ..))
    (Console.Stays.refl console)

theorem terminalSet_keeps (platform : Platform) (grid : Grid) (row col codepoint : Int) :
    grid.Keeps (terminalSet platform grid row col codepoint) := by
  unfold terminalSet
  exact Grid.Keeps.ite (Grid.Keeps.refl grid) (setColumns_keeps ..)

theorem printAtCursor_stays (platform : Platform) (console : Console) (codepoint : Int) :
    console.Stays (printAtCursor platform console codepoint) := by
  have drawn := Console.Stays.onGrid console
    (terminalSet_keeps platform console.grid console.cursorRow console.cursorCol codepoint)
  exact drawn.trans ⟨⟨rfl, rfl, rfl, rfl, rfl, rfl, rfl⟩, rfl, rfl, rfl⟩

theorem printCodepoint_stays (platform : Platform) (console : Console) (codepoint : Int) :
    console.Stays (printCodepoint platform console codepoint) :=
  ((wrapCursor_stays ..).trans (insertShift_stays ..)).trans (printAtCursor_stays ..)

theorem fillRows_keeps (character : TerminalChar) (remaining : Nat) (row : Int) (grid : Grid) :
    grid.Keeps (fillRows character remaining row grid) := by
  induction remaining generalizing row grid with
  | zero => exact Grid.Keeps.refl grid
  | succ remaining ih => exact (setColumns_keeps ..).trans (ih _ _)

theorem resetRows_keeps (remaining : Nat) (row : Int) (grid : Grid) :
    grid.Keeps (resetRows remaining row grid) := by
  induction remaining generalizing row grid with
  | zero => exact Grid.Keeps.refl grid
  | succ remaining ih => exact (setColumns_keeps ..).trans (ih _ _)

theorem resetConsole_sameSize (console : Console) : console.SameSize (resetConsole console) where
  termWidth := (resetRows_keeps ..).termWidth
  termHeight := (resetRows_keeps ..).termHeight
  defaultChar := (resetRows_keeps ..).defaultChar
  displayWidth := (resetRows_keeps ..).displayWidth
  displayHeight := (resetRows_keeps ..).displayHeight
  available := (resetRows_keeps ..).available
  defaultCharacter := (resetRows_keeps ..).defaultCharacter

theorem setFlag_stays (console : Console) (privateMode : UInt8) (number : Int) (value : Bool) :
    console.Stays (setFlag console privateMode number value) := by
  unfold setFlag
  split_ifs <;> exact ⟨⟨rfl, rfl, rfl, rfl, rfl, rfl, rfl⟩, rfl, rfl, rfl⟩

theorem csiInsertCharacters_stays (console : Console) (amount : Int) :
    console.Stays (csiInsertCharacters console amount) :=
  Console.Stays.onGrid console
    ((Grid.Keeps.ite (copyColumns_keeps ..) (Grid.Keeps.refl _)).trans (clearColumns_keeps ..))

theorem csiDeleteCharacters_stays (console : Console) (amount : Int) :
    console.Stays (csiDeleteCharacters console amount) :=
  Console.Stays.onGrid console
    ((Grid.Keeps.ite (copyColumns_keeps ..) (Grid.Keeps.refl _)).trans (clearColumns_keeps ..))

theorem csiEraseDisplay_stays (console : Console) (mode : Int) :
    console.Stays (csiEraseDisplay console mode) := by
  unfold csiEraseDisplay
  dsimp only
  split_ifs
  · exact Console.Stays.onGrid console (clearRange_keeps ..)
  · exact Console.Stays.onGrid console (clearRange_keeps ..)
  · exact Console.Stays.onGrid console (clearRange_keeps ..)
  · exact Console.Stays.refl console

theorem csiEraseLine_stays (console : Console) (mode : Int) :
    console.Stays (csiEraseLine console mode) := by
  unfold csiEraseLine
  dsimp only
  split_ifs
  · exact Console.Stays.onGrid console (clearColumns_keeps ..)
  · exact Console.Stays.onGrid console (clearColumns_keeps ..)
  · exact Console.Stays.onGrid console (clearColumns_keeps ..)
  · exact Console.Stays.refl console

theorem csiClearTab_stays (console : Console) (mode : Int) :
    console.Stays (csiClearTab console mode) := by
  unfold csiClearTab
  split_ifs <;> exact ⟨⟨rfl, rfl, rfl, rfl, rfl, rfl, rfl⟩, rfl, rfl, rfl⟩

theorem csiConsole_stays (console : Console) (argc : Nat) (argv : Nat → Int)
    (privateMode : UInt8) (function : CsiFunction) (kept : function ≠ .scrollRegion) :
    console.Stays (csiConsole console argc argv privateMode function) := by
  cases function with
  | insertCharacters => exact csiInsertCharacters_stays ..
  | deleteCharacters => exact csiDeleteCharacters_stays ..
  | eraseCharacters => exact Console.Stays.onGrid console (clearColumns_keeps ..)
  | eraseDisplay => exact csiEraseDisplay_stays ..
  | eraseLine => exact csiEraseLine_stays ..
  | insertLines => exact Console.Stays.onGrid console (scrollDown_keeps ..)
  | deleteLines => exact Console.Stays.onGrid console (scrollUp_keeps ..)
  | clearTab => exact csiClearTab_stays ..
  | setMode => exact setFlag_stays ..
  | resetMode => exact setFlag_stays ..
  | scrollRegion => exact absurd rfl kept
  | _ => exact ⟨⟨rfl, rfl, rfl, rfl, rfl, rfl, rfl⟩, rfl, rfl, rfl⟩

theorem assignColor_stays (console : Console) (index : Int) (color : Option Color) :
    console.Stays (assignColor console index color) := by
  unfold assignColor displayAssignColor
  split
  · dsimp only
    split <;> exact ⟨⟨rfl, rfl, rfl, rfl, rfl, rfl, rfl⟩, rfl, rfl, rfl⟩
  · exact Console.Stays.refl console

/-- The operation is one of those that leave the scroll region as it is. -/
def ConsoleOp.KeepsRegion : ConsoleOp → Prop
  | .reset => False
  | .control _ _ _ function => function ≠ .scrollRegion
  | _ => True

theorem perform_stays (platform : Platform) (console : Console) (op : ConsoleOp)
    (kept : op.KeepsRegion) : console.Stays (perform platform console op) := by
  cases op with
  | print codepoint => exact printCodepoint_stays ..
  | newline => exact newline_stays console
  | linefeed => exact linefeed_stays console
  | nextLine => exact nextLine_stays console
  | reverseLinefeed => exact reverseLinefeed_stays console
  | reset => exact absurd kept id
  | fillScreen => exact Console.Stays.onGrid console (fillRows_keeps ..)
  | control argc argv privateMode function => exact csiConsole_stays _ _ _ _ _ kept
  | assignColor index color => exact assignColor_stays ..
  | _ => exact ⟨⟨rfl, rfl, rfl, rfl, rfl, rfl, rfl⟩, rfl, rfl, rfl⟩

theorem csiScrollRegion_sameSize (console : Console) (argc : Nat) (argv : Nat → Int) :
    console.SameSize (csiScrollRegion console argc argv) := by
  unfold csiScrollRegion
  split <;> exact ⟨rfl, rfl, rfl, rfl, rfl, rfl, rfl⟩

/-- No operation changes the size of the terminal. -/
theorem perform_sameSize (platform : Platform) (console : Console) (op : ConsoleOp) :
    console.SameSize (perform platform console op) := by
  by_cases kept : op.KeepsRegion
  · exact (perform_stays platform console op kept).toSameSize
  · cases op with
    | reset => exact resetConsole_sameSize console
    | control argc argv privateMode function =>
        cases not_not.mp kept
        exact csiScrollRegion_sameSize console argc argv
    | _ => exact absurd trivial kept

end GuacNebula.Terminal
