import Mathlib.Data.Int.Range
import GuacNebula.Terminal.CellAccesses
import GuacNebula.Terminal.Cursor
import GuacNebula.Terminal.CursorMarks
import GuacNebula.Terminal.OscSkip

/-! # Only allocated cells are addressed

What the handlers do to the cells of the buffer comes down to setting columns and to copying them,
and the columns are computed from the parameters of a sequence and from the position of the cursor,
which may stand in one of the two positions behind the last column.

The main result is `cells_allocated`: in every run of bytes that meet `CellsGuard`, the cells that
are addressed are allocated.
-/

namespace GuacNebula.Terminal

open CInt Run

/-! ## The conditions -/

/-- The number of cells for which the row of the cursor has room once it spans the screen. -/
def Console.room (console : Console) : Int :=
  (console.grid.row console.cursorRow).roomFor console.grid.termWidth

/-- Characters can be inserted: the columns do not overflow, and a negative amount moves neither the
cursor nor what is copied behind the row. -/
def Console.InsertFits (console : Console) (amount : Int) : Prop :=
  (0 < amount → console.cursorCol + amount ≤ 2147483647)
    ∧ (amount ≤ 0 → console.grid.termWidth - amount ≤ 2147483647
      ∧ console.cursorCol ≤ console.room
      ∧ (console.cursorCol + amount < console.grid.termWidth → -amount < console.room))

/-- Characters can be deleted: no more than the columns of the screen, and not from behind the
row. -/
def Console.DeleteFits (console : Console) (amount : Int) : Prop :=
  amount ≤ console.grid.termWidth ∧ console.grid.termWidth - amount ≤ 2147483647
    ∧ (console.cursorCol + amount < console.grid.termWidth →
      amount < (console.grid.row console.cursorRow).roomFor (console.grid.termWidth - amount))
    ∧ (console.grid.termWidth ≤ console.cursorCol + amount →
      console.grid.termWidth - amount ≤ console.room)

/-- Characters can be erased up to a column. -/
def Console.EraseFits (console : Console) (last : Int) : Prop :=
  last < 2147483647 ∧ console.cursorCol ≤ (console.grid.row console.cursorRow).roomFor (last + 1)

/-- The condition for a control sequence. -/
def Console.CsiFits (console : Console) (argument : Int) : CsiFunction → Prop
  | .insertCharacters => console.InsertFits (csiAmount argument)
  | .deleteCharacters => console.DeleteFits (csiAmount argument)
  | .eraseCharacters => console.EraseFits (toInt (console.cursorCol + csiAmount argument - 1))
  | .eraseDisplay => argument = 0 → console.cursorCol ≤ console.room
  | .eraseLine => argument = 0 → console.cursorCol ≤ console.room
  | _ => True

/-- The condition for a character, in the state in which it is written: a screen of one column is
not shifted, and the visible cursor does not stand in the second half of a wide character at the end
of the row. -/
def Console.PrintFits (platform : Platform) (console : Console) (codepoint : Int) : Prop :=
  let begun := wrapCursor console
  let shifted := insertShift begun
  (begun.insertMode → begun.grid.termWidth = 1 → 1 < (begun.grid.row begun.cursorRow).length)
    ∧ (platform.wc.columns codepoint = 2 → shifted.grid.visibleCursorRow = shifted.cursorRow →
      shifted.grid.visibleCursorCol = shifted.cursorCol + 1 →
      shifted.cursorCol + 2
        < (shifted.grid.row shifted.cursorRow).roomFor (shifted.cursorCol + 2))

/-- The condition for a row that is filled with a character of some width. -/
def Grid.FillFits (grid : Grid) (width : Nat) (row : Int) : Prop :=
  (width = 0 → grid.termWidth ≤ (grid.row row).available)
    ∧ (width ≠ 0 → grid.SetFits row 0 (grid.termWidth - 1) width)

/-- The condition for an operation. -/
def ConsoleOp.Fits (platform : Platform) (console : Console) : ConsoleOp → Prop
  | .print codepoint => console.PrintFits platform codepoint
  | .fillScreen => ∀ row, 0 ≤ row → row < console.grid.termHeight →
      console.grid.FillFits platform.indeterminateWidth row
  | .control _ argv _ function => console.CsiFits (argv 0) function
  | _ => True

/-- The condition for a byte. -/
def CellsGuard (platform : Platform) (term : Term) (c : UInt8) : Prop :=
  (operation platform term c).Fits platform term.toConsole

section Decidable

variable (platform : Platform) (console : Console)

instance (amount : Int) : Decidable (console.InsertFits amount) :=
  inferInstanceAs (Decidable ((_ → _) ∧ (_ → _ ∧ _ ∧ (_ → _))))

instance (amount : Int) : Decidable (console.DeleteFits amount) :=
  inferInstanceAs (Decidable (_ ∧ _ ∧ (_ → _) ∧ (_ → _)))

instance (last : Int) : Decidable (console.EraseFits last) :=
  inferInstanceAs (Decidable (_ ∧ _))

instance (argument : Int) : ∀ function, Decidable (console.CsiFits argument function)
  | .insertCharacters => inferInstanceAs (Decidable (console.InsertFits _))
  | .deleteCharacters => inferInstanceAs (Decidable (console.DeleteFits _))
  | .eraseCharacters => inferInstanceAs (Decidable (console.EraseFits _))
  | .eraseDisplay | .eraseLine => inferInstanceAs (Decidable (_ → _))
  | .moveUp | .moveDown | .moveRight | .moveLeft | .nextLine | .previousLine | .moveColumn | .moveTo
  | .insertLines | .deleteLines | .identify | .moveRow | .clearTab | .setMode | .resetMode
  | .graphics | .report | .scrollRegion | .saveCursor | .restoreCursor | .ignored => isTrue trivial

instance (codepoint : Int) : Decidable (console.PrintFits platform codepoint) :=
  inferInstanceAs (Decidable ((_ → _ → _) ∧ (_ → _ → _ → _)))

instance (grid : Grid) (row start stop : Int) (width : Nat) :
    Decidable (grid.SetFits row start stop width) :=
  decidable_of_iff
    ((start ≤ stop → 0 ≤ start ∧
        lastWritten start stop width < (grid.row row).roomFor (stop + 1))
      ∧ (grid.CursorIn row start stop →
        grid.visibleCursorCol + width ≤ (grid.row row).roomFor (stop + 1))
      ∧ (start ≤ stop + 1 ∨ start ≤ (grid.row row).roomFor (stop + 1)))
    ⟨fun fits => ⟨fits.1, fits.2.1, fits.2.2⟩, fun fits => ⟨fits.written, fits.cursor, fits.left⟩⟩

instance (grid : Grid) (width : Nat) (row : Int) : Decidable (grid.FillFits width row) :=
  inferInstanceAs (Decidable ((_ → _) ∧ (_ → _)))

instance : ∀ op : ConsoleOp, Decidable (op.Fits platform console)
  | .print codepoint => inferInstanceAs (Decidable (console.PrintFits platform codepoint))
  | .fillScreen => inferInstanceAs (Decidable (∀ row, 0 ≤ row → row < _ → Grid.FillFits _ _ row))
  | .control _ _ _ _ => inferInstanceAs (Decidable (console.CsiFits _ _))
  | .nothing | .backspace | .tab | .carriageReturn | .newline | .linefeed | .nextLine
  | .reverseLinefeed | .saveCursor | .restoreCursor | .setTab | .reset | .requestScrollback _
  | .assignColor _ _ => isTrue trivial

instance (term : Term) (c : UInt8) : Decidable (CellsGuard platform term c) :=
  inferInstanceAs (Decidable (ConsoleOp.Fits ..))

end Decidable

/-! ## The console -/

/-- What holds of a console whose handlers have addressed allocated cells only. -/
structure Console.CellsSound (console : Console) : Prop where
  sound : console.grid.buffer.Sound
  onScreen : console.CursorOnScreen
  columns : 0 < console.grid.termWidth
  width : console.grid.termWidth ≤ 1024
  rows : console.grid.termHeight ≤ console.grid.buffer.available
  single : console.grid.defaultChar.width = 1

section Operations

variable {console : Console}

theorem linefeed_sound (sound : console.grid.buffer.Sound) :
    (linefeed console).grid.buffer.Sound := by
  unfold linefeed
  split_ifs
  · exact scrollUp_sound sound ..
  · exact sound
  · exact sound

theorem reverseLinefeed_sound (sound : console.grid.buffer.Sound) :
    (reverseLinefeed console).grid.buffer.Sound := by
  unfold reverseLinefeed
  split_ifs
  · exact scrollDown_sound sound ..
  · exact sound
  · exact sound

theorem newline_sound (sound : console.grid.buffer.Sound) :
    (newline console).grid.buffer.Sound := by
  unfold newline
  dsimp only
  split
  all_goals exact linefeed_sound sound

theorem wrapCursor_sound (sound : console.grid.buffer.Sound) :
    (wrapCursor console).grid.buffer.Sound := by
  unfold wrapCursor
  split
  · exact linefeed_sound sound
  · exact sound

/-- A character is shifted on a screen of several columns, or in a longer row. -/
theorem insertShift_sound (sound : console.grid.buffer.Sound) (start : 0 ≤ console.cursorCol)
    (stop : console.cursorCol < console.grid.termWidth)
    (fits : console.insertMode → console.grid.termWidth = 1 →
      1 < (console.grid.row console.cursorRow).length) :
    (insertShift console).grid.buffer.Sound := by
  unfold insertShift
  split
  case isTrue inserting =>
    have room : console.grid.termWidth - 2 + 1 + 1
        ≤ (console.grid.row console.cursorRow).roomFor (console.grid.termWidth - 2 + 1 + 1) :=
      Row.le_roomFor (sound.available _)
    refine (copyColumns_addresses sound (by omega) ⟨?_, by omega, ?_⟩).1.sound
    · omega
    · have narrow := fits inserting
      by_cases one : console.grid.termWidth = 1
      · have long := narrow one
        omega
      · omega
  case isFalse => exact sound

theorem lastWritten_character (column : Int) {width : Nat} (positive : width ≠ 0) :
    lastWritten column (column + width - 1) width = column + width - 1 := by
  have whole : (column + (width : Int) - 1 - column) % width = width - 1 := by
    rw [show column + (width : Int) - 1 - column = width - 1 by omega]
    exact Int.emod_eq_of_lt (by omega) (by omega)
  unfold lastWritten
  rw [whole]
  split
  all_goals omega

/-- A character is written where no half of it is replaced by the cursor at the end of the row. -/
theorem terminalSet_sound {grid : Grid} (sound : grid.buffer.Sound) {platform : Platform}
    {row col codepoint : Int} (start : 0 ≤ col)
    (fits : platform.wc.columns codepoint = 2 → grid.visibleCursorRow = row →
      grid.visibleCursorCol = col + 1 → col + 2 < (grid.row row).roomFor (col + 2)) :
    (terminalSet platform grid row col codepoint).buffer.Sound := by
  have narrow := platform.wc.columns_le_two codepoint
  unfold terminalSet
  dsimp only
  generalize platform.wc.columns codepoint = width at fits narrow
  split
  case isTrue => exact sound
  case isFalse positive =>
    have room : col + width - 1 + 1 ≤ (grid.row row).roomFor (col + width - 1 + 1) :=
      Row.le_roomFor (sound.available row)
    refine (setColumns_addresses sound positive ⟨fun _ => ?_, fun cursor => ?_, by omega⟩).1.sound
    · rw [lastWritten_character col positive]
      exact ⟨start, by omega⟩
    · obtain ⟨same, after, before⟩ := cursor
      by_cases behind : grid.visibleCursorCol = col
      · change grid.visibleCursorCol + (width : Int) ≤ _
        omega
      · have wide : width = 2 := by omega
        subst wide
        have apart := fits rfl same.symm (by omega)
        change grid.visibleCursorCol + ((2 : Nat) : Int) ≤ _
        rw [show col + ((2 : Nat) : Int) - 1 + 1 = col + 2 by omega]
        omega

theorem printCodepoint_sound {platform : Platform} {codepoint : Int} (cells : console.CellsSound)
    (fits : console.PrintFits platform codepoint) :
    (printCodepoint platform console codepoint).grid.buffer.Sound := by
  obtain ⟨wide, halves⟩ := fits
  obtain ⟨onScreen, col⟩ := wrapCursor_onScreen cells.columns cells.onScreen
  have begun := wrapCursor_sound cells.sound
  have width := (wrapCursor_stays console).termWidth
  have shifted := insertShift_sound begun onScreen.colStart (width ▸ col) wide
  have same : (insertShift (wrapCursor console)).cursorCol = (wrapCursor console).cursorCol := by
    unfold insertShift
    split
    all_goals rfl
  exact terminalSet_sound shifted (same ▸ onScreen.colStart) halves

/-! ### Control sequences -/

theorem Console.CellsSound.width_le_room (cells : console.CellsSound) :
    console.grid.termWidth ≤ console.room :=
  Row.le_roomFor (cells.sound.available _)

theorem csiInsertCharacters_sound {amount : Int} (cells : console.CellsSound)
    (fits : console.InsertFits amount) :
    (csiInsertCharacters console amount).grid.buffer.Sound := by
  have start := cells.onScreen.colStart
  have stop := cells.onScreen.colEnd
  have columns := cells.columns
  have narrow := cells.width
  have room := cells.width_le_room
  obtain ⟨right, left⟩ := fits
  have ints : FitsInt (console.cursorCol + amount) ∧ FitsInt (console.cursorCol + amount - 1)
      ∧ FitsInt (console.grid.termWidth - amount - 1) := by
    unfold FitsInt
    omega
  unfold csiInsertCharacters
  dsimp only
  rw [toInt_of_fits ints.1, toInt_of_fits ints.2.1, toInt_of_fits ints.2.2]
  split
  case isTrue within =>
    have whole : console.grid.termWidth - amount - 1 + amount + 1 = console.grid.termWidth := by
      omega
    have moved : (console.grid.row console.cursorRow).CopyFits
        (console.grid.termWidth - amount - 1) amount := by
      unfold Row.CopyFits
      rw [whole]
      change _ ∧ -console.room < _ ∧ _
      omega
    have ordered : console.cursorCol ≤ console.grid.termWidth - amount - 1 + 1 := by omega
    obtain ⟨shift, available⟩ := copyColumns_addresses cells.sound ordered moved
    rw [whole] at available
    refine (clearColumns_addresses shift.sound (fun _ => start) ?_).sound
    by_cases more : 0 < amount
    · exact .inl (by omega)
    · exact .inr (((left (not_lt.mp more)).2.1.trans available).trans
        (Row.available_le_roomFor (shift.sound.available _)))
  case isFalse outside =>
    refine (clearColumns_addresses cells.sound (fun _ => start) ?_).sound
    by_cases more : 0 ≤ amount
    · exact .inl (by omega)
    · have last : console.cursorCol + amount - 1 + 1 = console.grid.termWidth := by omega
      rw [last]
      exact .inr (left (by omega)).2.1

theorem csiDeleteCharacters_sound {amount : Int} (cells : console.CellsSound)
    (fits : console.DeleteFits amount) :
    (csiDeleteCharacters console amount).grid.buffer.Sound := by
  have start := cells.onScreen.colStart
  have stop := cells.onScreen.colEnd
  have columns := cells.columns
  have narrow := cells.width
  obtain ⟨few, more, copied, uncopied⟩ := fits
  have ints : FitsInt (console.cursorCol + amount) ∧ FitsInt (-amount)
      ∧ FitsInt (console.grid.termWidth - amount) := by
    unfold FitsInt
    omega
  unfold csiDeleteCharacters
  dsimp only
  rw [toInt_of_fits ints.1, toInt_of_fits ints.2.1, toInt_of_fits ints.2.2]
  have cleared (grid : Grid) (sound : grid.buffer.Sound)
      (left : console.grid.termWidth - amount
        ≤ (grid.row console.cursorRow).roomFor console.grid.termWidth) :
      (clearColumns grid console.cursorRow (console.grid.termWidth - amount)
        (console.grid.termWidth - 1)).buffer.Sound := by
    refine (clearColumns_addresses sound (fun _ => by omega) (.inr ?_)).sound
    rw [Int.sub_add_cancel]
    exact left
  split
  case isTrue within =>
    have last : console.grid.termWidth - 1 + -amount + 1 = console.grid.termWidth - amount := by
      omega
    have moved : (console.grid.row console.cursorRow).CopyFits (console.grid.termWidth - 1)
        (-amount) := by
      have fits := copied within
      unfold Row.CopyFits
      rw [last]
      omega
    have ordered : console.cursorCol + amount ≤ console.grid.termWidth - 1 + 1 := by omega
    obtain ⟨shift, available⟩ := copyColumns_addresses cells.sound ordered moved
    rw [last] at available
    exact cleared _ shift.sound (((Row.le_roomFor (cells.sound.available _)).trans available).trans
      (Row.available_le_roomFor (shift.sound.available _)))
  case isFalse outside =>
    exact cleared _ cells.sound (uncopied (not_lt.mp outside))

theorem csiEraseCharacters_sound {amount : Int} (cells : console.CellsSound)
    (fits : console.EraseFits (toInt (console.cursorCol + amount - 1))) :
    (csiEraseCharacters console amount).grid.buffer.Sound :=
  (clearColumns_addresses cells.sound (fun _ => cells.onScreen.colStart) (.inr fits.2)).sound

theorem csiEraseDisplay_sound {mode : Int} (cells : console.CellsSound)
    (fits : mode = 0 → console.cursorCol ≤ console.room) :
    (csiEraseDisplay console mode).grid.buffer.Sound := by
  unfold csiEraseDisplay
  dsimp only
  split_ifs with rest
  · exact clearRange_sound cells.sound _ _ (fits rest) cells.onScreen.colStart
  · exact clearRange_fromFirst cells.sound ..
  · exact clearRange_fromFirst cells.sound ..
  · exact cells.sound

theorem csiEraseLine_sound {mode : Int} (cells : console.CellsSound)
    (fits : mode = 0 → console.cursorCol ≤ console.room) :
    (csiEraseLine console mode).grid.buffer.Sound := by
  unfold csiEraseLine
  dsimp only
  split_ifs with rest
  · refine (clearColumns_addresses cells.sound (fun _ => cells.onScreen.colStart) (.inr ?_)).sound
    rw [Int.sub_add_cancel]
    exact fits rest
  · exact clearColumns_first cells.sound ..
  · exact clearColumns_first cells.sound ..
  · exact cells.sound

theorem csiConsole_sound (argc : Nat) (argv : Nat → Int) (privateMode : UInt8)
    {function : CsiFunction} (cells : console.CellsSound)
    (fits : console.CsiFits (argv 0) function) :
    (csiConsole console argc argv privateMode function).grid.buffer.Sound := by
  have flag (value : Bool) :
      (setFlag console privateMode (argv 0) value).grid.buffer.Sound := by
    unfold setFlag
    split_ifs
    all_goals exact cells.sound
  cases function with
  | insertCharacters => exact csiInsertCharacters_sound cells fits
  | deleteCharacters => exact csiDeleteCharacters_sound cells fits
  | eraseCharacters => exact csiEraseCharacters_sound cells fits
  | eraseDisplay => exact csiEraseDisplay_sound cells fits
  | eraseLine => exact csiEraseLine_sound cells fits
  | insertLines => exact scrollDown_sound cells.sound ..
  | deleteLines => exact scrollUp_sound cells.sound ..
  | setMode => exact flag true
  | resetMode => exact flag false
  | clearTab =>
      change (csiClearTab console (argv 0)).grid.buffer.Sound
      unfold csiClearTab
      split_ifs
      all_goals exact cells.sound
  | scrollRegion =>
      change (csiScrollRegion console argc argv).grid.buffer.Sound
      unfold csiScrollRegion
      split
      all_goals exact cells.sound
  | _ => exact cells.sound

/-! ### Filling and resetting the screen -/

/-- A row of the screen is filled. -/
theorem fillRow_addresses {grid : Grid} (sound : grid.buffer.Sound) {row : Int}
    {character : TerminalChar} (fits : grid.FillFits character.width row) :
    grid.Addresses row (setColumns grid row 0 (grid.termWidth - 1) character) := by
  by_cases empty : character.width = 0
  · refine setColumns_empty_addresses sound empty (sound.available row) ?_
    rw [Int.sub_add_cancel]
    exact fits.1 empty
  · exact (setColumns_addresses sound empty (fits.2 empty)).1

/-- Rows other than the one that is filled keep meeting the condition. -/
theorem Grid.FillFits.of_other {before after : Grid} {filled row : Int} {width : Nat}
    (fits : before.FillFits width row) (writes : CellWrites before after)
    (addresses : before.Addresses filled after)
    (apart : before.buffer.index row ≠ before.buffer.index filled) : after.FillFits width row := by
  have same : after.row row = before.row row := by
    unfold Grid.row Buffer.row
    rw [addresses.index]
    exact addresses.others _ apart
  have keeps := writes.keeps.1
  have longer := writes.extended
  unfold FillFits at fits ⊢
  rw [same, keeps.termWidth]
  refine ⟨fits.1, fun positive => ?_⟩
  obtain ⟨written, cursor, left⟩ := fits.2 positive
  refine ⟨?_, ?_, ?_⟩
  · rw [same]
    exact written
  · unfold Grid.CursorIn
    rw [same, longer.visibleCursorRow, longer.visibleCursorCol]
    exact cursor
  · rw [same]
    exact left

/-- The rows of the screen are filled one after the other. No two of them are the same row of the
ring. -/
theorem fillRows_sound {character : TerminalChar} (remaining : Nat) {row : Int} {grid : Grid}
    (sound : grid.buffer.Sound) (positive : 0 < grid.buffer.available)
    (rows : remaining ≤ grid.buffer.available)
    (fits : ∀ other, row ≤ other → other < row + remaining →
      grid.FillFits character.width other) :
    (fillRows character remaining row grid).buffer.Sound := by
  induction remaining generalizing row grid with
  | zero => exact sound
  | succ remaining ih =>
      have filled := fillRow_addresses sound (fits row le_rfl (by omega))
      have writes := setColumns_writes grid row 0 (grid.termWidth - 1) character
      have keeps := writes.keeps.1
      refine ih filled.sound ?_ ?_ fun other after before => ?_
      · rw [keeps.available]
        exact positive
      · rw [keeps.available]
        omega
      · refine (fits other (by omega) (by omega)).of_other writes filled fun same => ?_
        have near := Buffer.index_near positive (by omega) (by omega) same
        omega

theorem fillScreen_sound {platform : Platform} (cells : console.CellsSound)
    (fits : ∀ row, 0 ≤ row → row < console.grid.termHeight →
      console.grid.FillFits platform.indeterminateWidth row) :
    (fillScreen platform console).grid.buffer.Sound := by
  have rows := cells.onScreen.rows
  have height := Int.toNat_of_nonneg rows.le
  refine fillRows_sound _ cells.sound (rows.trans_le cells.rows) ?_ ?_
  · rw [height]
    exact cells.rows
  · intro row start stop
    exact fits row start (by omega)

/-- The rows of the screen are reset one after the other. -/
theorem resetRows_sound (remaining : Nat) {row : Int} {grid : Grid} (sound : grid.buffer.Sound)
    (single : grid.defaultChar.width = 1) : (resetRows remaining row grid).buffer.Sound := by
  induction remaining generalizing row grid with
  | zero => exact sound
  | succ remaining ih =>
      have room : grid.termWidth + 1 ≤ (grid.row row).roomFor (grid.termWidth + 1) :=
        Row.le_roomFor (sound.available row)
      have nonneg : 0 ≤ (grid.row row).roomFor (grid.termWidth + 1) :=
        (sound.available row).trans (Row.available_le_roomFor (sound.available row))
      have fits : grid.SetFits row 0 grid.termWidth grid.defaultChar.width := by
        refine ⟨fun _ => ⟨le_rfl, ?_⟩, fun cursor => ?_, .inr nonneg⟩
        · rw [single, lastWritten_one]
          omega
        · have inside := cursor.2.2
          omega
      have positive : grid.defaultChar.width ≠ 0 := by omega
      refine ih (setColumns_addresses sound positive fits).1.sound ?_
      rw [(setColumns_keeps ..).defaultChar]
      exact single

theorem resetConsole_sound (sound : console.grid.buffer.Sound)
    (single : console.grid.defaultChar.width = 1) :
    (resetConsole console).grid.buffer.Sound :=
  resetRows_sound _ ⟨sound.nonneg, sound.allocated, sound.accesses⟩ single

/-! ### All operations -/

theorem perform_sound (platform : Platform) {op : ConsoleOp} (cells : console.CellsSound)
    (fits : op.Fits platform console) : (perform platform console op).grid.buffer.Sound := by
  have sound := cells.sound
  cases op with
  | print codepoint => exact printCodepoint_sound cells fits
  | newline => exact newline_sound sound
  | linefeed => exact linefeed_sound sound
  | nextLine =>
      change (linefeed (moveCursor console console.cursorRow 0)).grid.buffer.Sound
      exact linefeed_sound sound
  | reverseLinefeed => exact reverseLinefeed_sound sound
  | reset => exact resetConsole_sound sound cells.single
  | fillScreen => exact fillScreen_sound cells fits
  | control argc argv privateMode function =>
      exact csiConsole_sound argc argv privateMode cells fits
  | assignColor index color =>
      change (assignColor console index color).grid.buffer.Sound
      cases color with
      | none => exact sound
      | some color => exact sound
  | _ => exact sound

/-- An operation that meets its condition addresses allocated cells. -/
theorem Console.CellsSound.perform (cells : console.CellsSound) (platform : Platform)
    {op : ConsoleOp} (fits : op.Fits platform console) :
    (perform platform console op).CellsSound := by
  have size := perform_sameSize platform console op
  refine ⟨perform_sound platform cells fits,
    perform_onScreen cells.columns platform op cells.onScreen, ?_, ?_, ?_, ?_⟩
  · rw [size.termWidth]
    exact cells.columns
  · rw [size.termWidth]
    exact cells.width
  · rw [size.termHeight, size.available]
    exact cells.rows
  · rw [size.defaultChar]
    exact cells.single

end Operations

/-! ## Runs -/

/-- The rows of a new terminal hold no cells, and its reset addresses allocated ones. -/
theorem create_cellsSound (metrics : FontMetrics) (options : TerminalOptions)
    (rows : 0 < (calculateRowsAndColumns metrics options.height options.width).1)
    (columns : 0 < (calculateRowsAndColumns metrics options.height options.width).2) :
    (create metrics options).CellsSound := by
  obtain ⟨onScreen, wide⟩ := create_onScreen metrics options rows columns
  obtain ⟨height, width⟩ := create_sameSize metrics options
  obtain ⟨fewRows, fewColumns⟩ := calculateRowsAndColumns_le metrics options.height options.width
  have empty (rows columns : Int) : (options.grid rows columns).buffer.Sound :=
    ⟨fun _ => le_rfl, fun _ => Int.natCast_nonneg 256,
      fun _ member => absurd member List.not_mem_nil⟩
  have available : (create metrics options).grid.buffer.available
      = max options.maxScrollback 1024 :=
    (resetConsole_sameSize _).available
  have single : (create metrics options).grid.defaultChar = options.defaultChar :=
    (resetConsole_sameSize _).defaultChar
  refine ⟨resetConsole_sound (empty _ _) rfl, onScreen, wide, width.trans_le fewColumns, ?_, ?_⟩
  · rw [height, available]
    exact fewRows.trans (le_max_right ..)
  · rw [single]
    rfl

/-- **In every run of bytes that meet their conditions, only allocated cells are addressed.** -/
theorem cells_allocated (platform : Platform) (metrics : FontMetrics) (options : TerminalOptions)
    (rows : 0 < (calculateRowsAndColumns metrics options.height options.width).1)
    (columns : 0 < (calculateRowsAndColumns metrics options.height options.width).2)
    (bytes : List UInt8)
    (guarded : Guarded (writeByte platform) (CellsGuard platform) (create metrics options) bytes) :
    Always (writeByte platform)
      (fun term => ∀ access ∈ term.grid.buffer.accesses, access.Within)
      (create metrics options) bytes := by
  have initial := create_cellsSound metrics options rows columns
  have always : Always (writeByte platform) (fun term => term.toConsole.CellsSound)
      (create metrics options) bytes := by
    refine guarded.always initial fun term c cells met => ?_
    rw [writeByte_toConsole]
    exact cells.perform platform met
  exact always.mono fun term cells => cells.sound.accesses

/-- The line is erased from the cursor on. -/
theorem cells_allocated_erased :
    Always (writeByte samplePlatform)
      (fun term => ∀ access ∈ term.grid.buffer.accesses, access.Within)
      (create sampleMetrics (sampleOptions 1 1))
      [0x1B, 0x5B, 0x4B] :=
  cells_allocated samplePlatform sampleMetrics (sampleOptions 1 1) (by decide) (by decide) _
    (by decide +kernel)

/-- Deleting more characters than the screen has columns clears columns left of the screen. -/
theorem csiDeleteCharacters_outside {console : Console} {amount : Int}
    (columns : 0 < console.grid.termWidth) (more : console.grid.termWidth < amount)
    (fits : FitsInt (console.grid.termWidth - amount)) :
    ∃ access ∈ (csiDeleteCharacters console amount).grid.buffer.accesses, ¬ access.Within := by
  unfold csiDeleteCharacters
  dsimp only
  rw [toInt_of_fits fits]
  exact clearColumns_negative _ _ (by omega) (by omega)

/-- The bytes of the sequence are read with a handler whose static variables are new. -/
theorem exec_deleteTwo (platform : Platform) {term : Term} (echoes : term.charHandler = .echo)
    (fresh : term.statics = HandlerStatics.zero) :
    (exec (writeByte platform) term [0x1B, 0x5B, 0x32, 0x50]).toConsole
      = csiDeleteCharacters term.toConsole 2 := by
  have statics : { HandlerStatics.zero with codepoint := 0x1B, bytesRemaining := 0 }
      = ({ HandlerStatics.zero with codepoint := 0x1B } : HandlerStatics) := rfl
  have digit : writeByte platform
      { term with
        charHandler := .csi, statics := { HandlerStatics.zero with codepoint := 0x1B } } 0x32
      = { term with
        charHandler := .csi
        statics := { HandlerStatics.zero with codepoint := 0x1B, argvBuffer := [0x32] } } := rfl
  have parameter : atoi [0x32] = 2 := by decide
  have introduced : writeByte platform
      { term with
        charHandler := .escape, statics := { HandlerStatics.zero with codepoint := 0x1B } } 0x5B
      = { term with
        charHandler := .csi, statics := { HandlerStatics.zero with codepoint := 0x1B } } := rfl
  rw [exec_cons, writeByte_escape platform term echoes, fresh, statics, exec_cons, introduced,
    exec_cons, digit, exec_cons, exec_nil, writeByte_toConsole]
  change csiDeleteCharacters term.toConsole (csiAmount (atoi [0x32])) = _
  rw [parameter]
  rfl

/-- Two characters are deleted from a screen of one column, which is then cleared from column -1
on. -/
theorem cells_outside_deleted :
    ¬ Always (writeByte samplePlatform)
      (fun term => ∀ access ∈ term.grid.buffer.accesses, access.Within)
      (create sampleMetrics (sampleOptions 1 1)) [0x1B, 0x5B, 0x32, 0x50] := by
  intro always
  have last := always.last
  have size : (create sampleMetrics (sampleOptions 1 1)).toConsole.grid.termWidth = 1 :=
    (create_sameSize sampleMetrics (sampleOptions 1 1)).2
  have console := exec_deleteTwo samplePlatform
    (show (create sampleMetrics (sampleOptions 1 1)).charHandler = .echo from rfl) rfl
  generalize (create sampleMetrics (sampleOptions 1 1)) = term at size console last
  rw [console] at last
  have outside : ∃ access ∈ (csiDeleteCharacters term.toConsole 2).grid.buffer.accesses,
      ¬ access.Within := by
    refine csiDeleteCharacters_outside ?_ ?_ ?_
    · rw [size]
      decide
    · rw [size]
      decide
    · rw [size]
      decide
  obtain ⟨access, member, left⟩ := outside
  exact left (last access member)
end GuacNebula.Terminal
