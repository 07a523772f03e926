import GuacNebula.Terminal.ScrollRegion

/-! # The cursor stays on the screen

Handlers take the cursor to stand in a row of the screen and in a column, or in one of the two
positions that a character written at the right edge leaves it in. Most of them move it through
`guac_terminal_move_cursor`, which shifts positions to the nearest one within the screen. The
screen has no such position if a resize leaves it without rows or columns, and this is the only
way in which the cursor comes to stand outside.
-/

namespace GuacNebula.Terminal

open Run

/-- The cursor stands in a row of the screen, and at most one position further than it stands
when a line is full. -/
structure Console.CursorOnScreen (console : Console) : Prop where
  rowStart : 0 ≤ console.cursorRow
  rowEnd : console.cursorRow < console.grid.termHeight
  colStart : 0 ≤ console.cursorCol
  colEnd : console.cursorCol ≤ console.grid.termWidth + 1

/-- The condition under which an action keeps the cursor on the screen. -/
def CursorGuard (metrics : FontMetrics) : RegionAction → Prop
  | .write _ => True
  | .resize width height =>
      0 < (calculateRowsAndColumns metrics height width).1
        ∧ 0 < (calculateRowsAndColumns metrics height width).2

instance (metrics : FontMetrics) : ∀ action, Decidable (CursorGuard metrics action)
  | .write _ => isTrue trivial
  | .resize _ _ => inferInstanceAs (Decidable (_ ∧ _))

/-! ## Operations -/

section Operations

variable {console : Console}

/-- What does not move the cursor keeps it on the screen. -/
theorem Console.CursorOnScreen.stays {after : Console} (valid : console.CursorOnScreen)
    (stays : console.Stays after) (row : after.cursorRow = console.cursorRow)
    (col : after.cursorCol = console.cursorCol) : after.CursorOnScreen where
  rowStart := row ▸ valid.rowStart
  rowEnd := by
    rw [row, stays.termHeight]
    exact valid.rowEnd
  colStart := col ▸ valid.colStart
  colEnd := by
    rw [col, stays.termWidth]
    exact valid.colEnd

/-- A screen has a nearest position for every position. -/
theorem moveCursor_onScreen (rows : 0 < console.grid.termHeight)
    (columns : 0 < console.grid.termWidth) (row col : Int) :
    (moveCursor console row col).CursorOnScreen := by
  constructor
  · simp only [moveCursor]
    split_ifs <;> omega
  · simp only [moveCursor]
    split_ifs <;> omega
  · simp only [moveCursor]
    split_ifs <;> omega
  · simp only [moveCursor]
    split_ifs <;> omega

theorem linefeed_onScreen (valid : console.CursorOnScreen) :
    (linefeed console).CursorOnScreen := by
  have start := valid.rowStart
  have stays := linefeed_stays console
  unfold linefeed at stays ⊢
  split_ifs at stays ⊢ with last below
  · exact valid.stays stays rfl rfl
  · exact ⟨Int.add_nonneg start Int.one_nonneg, Int.lt_sub_right_iff_add_lt.mp below,
      valid.colStart, valid.colEnd⟩
  · exact valid

theorem reverseLinefeed_onScreen (valid : console.CursorOnScreen) :
    (reverseLinefeed console).CursorOnScreen := by
  have stop := valid.rowEnd
  have stays := reverseLinefeed_stays console
  unfold reverseLinefeed at stays ⊢
  split_ifs at stays ⊢ with first above
  · exact valid.stays stays rfl rfl
  · exact ⟨Int.le_sub_one_of_lt above, lt_of_le_of_lt (Int.sub_le_self _ Int.one_nonneg) stop,
      valid.colStart, valid.colEnd⟩
  · exact valid

theorem setFlag_cursor (privateMode : UInt8) (number : Int) (value : Bool) :
    (setFlag console privateMode number value).cursorRow = console.cursorRow
      ∧ (setFlag console privateMode number value).cursorCol = console.cursorCol := by
  unfold setFlag
  split_ifs <;> exact ⟨rfl, rfl⟩

theorem Console.CursorOnScreen.rows (valid : console.CursorOnScreen) : 0 < console.grid.termHeight :=
  valid.rowStart.trans_lt valid.rowEnd

variable (columns : 0 < console.grid.termWidth)
include columns

theorem newline_onScreen (valid : console.CursorOnScreen) :
    (newline console).CursorOnScreen := by
  have fed := linefeed_onScreen valid
  unfold newline
  dsimp only
  split
  · have width := (linefeed_stays console).termWidth
    exact moveCursor_onScreen fed.rows (width ▸ columns) _ _
  · exact fed

/-- After a line has been begun, if need be, the cursor stands in a column of the screen. -/
theorem wrapCursor_onScreen (valid : console.CursorOnScreen) :
    (wrapCursor console).CursorOnScreen
      ∧ (wrapCursor console).cursorCol < console.grid.termWidth := by
  unfold wrapCursor
  split
  · have begun : ({ console with cursorCol := 0 } : Console).CursorOnScreen :=
      ⟨valid.rowStart, valid.rowEnd, le_refl 0, by dsimp only; omega⟩
    refine ⟨linefeed_onScreen begun, ?_⟩
    have col : (linefeed { console with cursorCol := 0 }).cursorCol = 0 := by
      unfold linefeed
      split_ifs <;> rfl
    rw [col]
    exact columns
  · exact ⟨valid, by omega⟩

/-- A character moves the cursor by at most two columns. -/
theorem printCodepoint_onScreen (platform : Platform) (codepoint : Int)
    (valid : console.CursorOnScreen) :
    (printCodepoint platform console codepoint).CursorOnScreen := by
  obtain ⟨wrapped, col⟩ := wrapCursor_onScreen columns valid
  have shifted : (insertShift (wrapCursor console)).CursorOnScreen
      ∧ (insertShift (wrapCursor console)).cursorCol = (wrapCursor console).cursorCol := by
    have stays := insertShift_stays (wrapCursor console)
    unfold insertShift at stays ⊢
    split_ifs at stays ⊢
    · exact ⟨wrapped.stays stays rfl rfl, rfl⟩
    · exact ⟨wrapped, rfl⟩
  obtain ⟨valid', same⟩ := shifted
  have stays := printCodepoint_stays platform console codepoint
  have width := (wrapCursor_stays console).trans (insertShift_stays _)
  have narrow := platform.wc.columns_le_two codepoint
  constructor
  · exact valid'.rowStart
  · rw [stays.termHeight, ← width.termHeight]
    exact valid'.rowEnd
  · exact Int.add_nonneg valid'.colStart (Int.natCast_nonneg _)
  · rw [stays.termWidth]
    change (insertShift (wrapCursor console)).cursorCol + platform.wc.columns codepoint ≤ _
    omega

theorem csiConsole_onScreen (argc : Nat) (argv : Nat → Int) (privateMode : UInt8)
    (function : CsiFunction) (valid : console.CursorOnScreen) :
    (csiConsole console argc argv privateMode function).CursorOnScreen := by
  have rows := valid.rows
  by_cases region : function = .scrollRegion
  · subst region
    change (csiScrollRegion console argc argv).CursorOnScreen
    unfold csiScrollRegion
    split_ifs <;> exact ⟨valid.rowStart, valid.rowEnd, valid.colStart, valid.colEnd⟩
  · have stays := csiConsole_stays console argc argv privateMode function region
    cases function with
    | moveUp => exact moveCursor_onScreen rows columns _ _
    | moveDown => exact moveCursor_onScreen rows columns _ _
    | moveRight => exact moveCursor_onScreen rows columns _ _
    | moveLeft => exact moveCursor_onScreen rows columns _ _
    | nextLine => exact moveCursor_onScreen rows columns _ _
    | previousLine => exact moveCursor_onScreen rows columns _ _
    | moveColumn => exact moveCursor_onScreen rows columns _ _
    | moveTo => exact moveCursor_onScreen rows columns _ _
    | moveRow => exact moveCursor_onScreen rows columns _ _
    | restoreCursor => exact moveCursor_onScreen rows columns _ _
    | eraseDisplay =>
        have erased : (csiEraseDisplay console (argv 0)).cursorRow = console.cursorRow
            ∧ (csiEraseDisplay console (argv 0)).cursorCol = console.cursorCol := by
          unfold csiEraseDisplay
          dsimp only
          split_ifs <;> exact ⟨rfl, rfl⟩
        exact valid.stays stays erased.1 erased.2
    | eraseLine =>
        have erased : (csiEraseLine console (argv 0)).cursorRow = console.cursorRow
            ∧ (csiEraseLine console (argv 0)).cursorCol = console.cursorCol := by
          unfold csiEraseLine
          dsimp only
          split_ifs <;> exact ⟨rfl, rfl⟩
        exact valid.stays stays erased.1 erased.2
    | clearTab =>
        have cleared : (csiClearTab console (argv 0)).cursorRow = console.cursorRow
            ∧ (csiClearTab console (argv 0)).cursorCol = console.cursorCol := by
          unfold csiClearTab
          split_ifs <;> exact ⟨rfl, rfl⟩
        exact valid.stays stays cleared.1 cleared.2
    | scrollRegion => exact absurd rfl region
    | setMode => exact valid.stays stays (setFlag_cursor ..).1 (setFlag_cursor ..).2
    | resetMode => exact valid.stays stays (setFlag_cursor ..).1 (setFlag_cursor ..).2
    | _ => exact valid.stays stays rfl rfl

/-- Every operation keeps the cursor on a screen that has columns. -/
theorem perform_onScreen (platform : Platform) (op : ConsoleOp)
    (valid : console.CursorOnScreen) : (perform platform console op).CursorOnScreen := by
  have rows := valid.rows
  cases op with
  | print codepoint => exact printCodepoint_onScreen columns platform codepoint valid
  | backspace => exact moveCursor_onScreen rows columns _ _
  | tab => exact moveCursor_onScreen rows columns _ _
  | carriageReturn => exact moveCursor_onScreen rows columns _ _
  | newline => exact newline_onScreen columns valid
  | linefeed => exact linefeed_onScreen valid
  | nextLine => exact linefeed_onScreen (moveCursor_onScreen rows columns _ _)
  | reverseLinefeed => exact reverseLinefeed_onScreen valid
  | restoreCursor => exact moveCursor_onScreen rows columns _ _
  | reset =>
      have size := resetConsole_sameSize console
      exact ⟨le_refl 0, size.termHeight ▸ rows, le_refl 0, by
        rw [perform, size.termWidth]
        exact (Int.add_pos_of_pos_of_nonneg columns Int.one_nonneg).le⟩
  | fillScreen =>
      exact valid.stays (perform_stays platform console .fillScreen trivial) rfl rfl
  | control argc argv privateMode function =>
      exact csiConsole_onScreen columns argc argv privateMode function valid
  | assignColor index color =>
      have stays := assignColor_stays console index color
      cases color with
      | none => exact valid
      | some color => exact valid.stays stays rfl rfl
  | _ => exact ⟨valid.rowStart, valid.rowEnd, valid.colStart, valid.colEnd⟩

end Operations

/-! ## Resizing -/

/-- A size has a position exactly if it is positive. -/
theorem keepWithin_iff (position size : Int) :
    (0 ≤ keepWithin position size ∧ keepWithin position size < size) ↔ 0 < size := by
  unfold keepWithin
  dsimp only
  split_ifs <;> omega

theorem keepWithin_nonneg_iff (position size : Int) :
    (0 ≤ keepWithin position size ∧ keepWithin position size ≤ size + 1) ↔ 0 < size := by
  unfold keepWithin
  dsimp only
  split_ifs <;> omega

/-- A resize keeps the cursor on the screen exactly if it leaves rows and columns. -/
theorem resizeRowsColumns_cursor_iff {console : Console} {rows columns : Int}
    (valid : console.CursorOnScreen) (wide : 0 < console.grid.termWidth) :
    (resizeRowsColumns console rows columns).CursorOnScreen ↔ 0 < rows ∧ 0 < columns := by
  unfold resizeRowsColumns
  split
  · constructor
    · rintro ⟨rowStart, rowEnd, colStart, colEnd⟩
      exact ⟨(keepWithin_iff _ rows).mp ⟨rowStart, rowEnd⟩,
        (keepWithin_nonneg_iff _ columns).mp ⟨colStart, colEnd⟩⟩
    · rintro ⟨rowsLeft, columnsLeft⟩
      obtain ⟨rowStart, rowEnd⟩ := (keepWithin_iff _ rows).mpr rowsLeft
      obtain ⟨colStart, colEnd⟩ := (keepWithin_nonneg_iff _ columns).mpr columnsLeft
      exact ⟨rowStart, rowEnd, colStart, colEnd⟩
  · next same =>
    have rowsSame : rows = console.grid.termHeight := by omega
    have columnsSame : columns = console.grid.termWidth := by omega
    constructor
    · intro _
      exact ⟨rowsSame ▸ valid.rows, columnsSame ▸ wide⟩
    · exact fun _ => valid

theorem resizeRowsColumns_termWidth (console : Console) (rows columns : Int) :
    (resizeRowsColumns console rows columns).grid.termWidth = columns := by
  unfold resizeRowsColumns
  split
  · rfl
  · omega

/-! ## Runs -/

section Runs

variable (platform : Platform) (metrics : FontMetrics)

theorem regionStep_cursor_iff {term : Term} (wide : 0 < term.grid.termWidth)
    (valid : term.CursorOnScreen) (action : RegionAction) :
    (regionStep platform metrics term action).CursorOnScreen ↔ CursorGuard metrics action := by
  cases action with
  | write c =>
      have kept := perform_onScreen wide platform (operation platform term c) valid
      rw [← writeByte_toConsole] at kept
      exact ⟨fun _ => trivial, fun _ => kept⟩
  | resize width height => exact resizeRowsColumns_cursor_iff valid wide

/-- A step that leaves the cursor on the screen leaves the screen columns. -/
theorem regionStep_wide {term : Term} (action : RegionAction)
    (wide : 0 < term.grid.termWidth) (valid : term.CursorOnScreen)
    (next : (regionStep platform metrics term action).CursorOnScreen) :
    0 < (regionStep platform metrics term action).grid.termWidth := by
  cases action with
  | write c =>
      change 0 < (writeByte platform term c).toConsole.grid.termWidth
      rw [writeByte_toConsole, (perform_sameSize ..).termWidth]
      exact wide
  | resize width height =>
      have guarded :=
        (regionStep_cursor_iff platform metrics wide valid (.resize width height)).mp next
      exact (resizeRowsColumns_termWidth ..).symm ▸ guarded.2

/-- The cursor of a new terminal stands in the first cell. -/
theorem create_onScreen (options : TerminalOptions)
    (rows : 0 < (calculateRowsAndColumns metrics options.height options.width).1)
    (columns : 0 < (calculateRowsAndColumns metrics options.height options.width).2) :
    (create metrics options).CursorOnScreen
      ∧ 0 < (create metrics options).grid.termWidth := by
  obtain ⟨height, width⟩ := create_sameSize metrics options
  have wide : 0 < (create metrics options).grid.termWidth := width.symm ▸ columns
  exact ⟨⟨le_refl 0, height.symm ▸ rows, le_refl 0, by
    have colEnd := Int.add_pos_of_pos_of_nonneg wide Int.one_nonneg
    exact colEnd.le⟩, wide⟩

/-- **The cursor stays on the screen exactly if every resize leaves rows and columns.** -/
theorem cursor_onScreen_iff (options : TerminalOptions)
    (rows : 0 < (calculateRowsAndColumns metrics options.height options.width).1)
    (columns : 0 < (calculateRowsAndColumns metrics options.height options.width).2)
    (actions : List RegionAction) :
    Always (regionStep platform metrics) (fun term => term.CursorOnScreen)
        (create metrics options) actions
      ↔ Guarded (regionStep platform metrics) (fun _ action => CursorGuard metrics action)
        (create metrics options) actions := by
  obtain ⟨initial, wide⟩ := create_onScreen metrics options rows columns
  exact always_iff_guarded initial wide
    (fun term action wide valid next =>
      regionStep_wide platform metrics action wide valid next)
    (fun term action wide valid => regionStep_cursor_iff platform metrics wide valid action)

end Runs

/-- The cursor is moved to the third row, then the terminal is resized to two rows. -/
theorem cursor_onScreen_third_row :
    Always (regionStep samplePlatform sampleMetrics) (fun term => term.CursorOnScreen)
      (create sampleMetrics (sampleOptions 3 1))
      ([0x1B, 0x5B, 0x33, 0x48].map .write ++ [.resize 24 32]) :=
  (cursor_onScreen_iff samplePlatform sampleMetrics (sampleOptions 3 1) (by decide) (by decide)
    _).mpr (by decide +kernel)

/-- A resize to a height of eight pixels leaves no row for the cursor. -/
theorem cursor_outside_without_rows :
    ¬ (regionStep samplePlatform sampleMetrics (create sampleMetrics (sampleOptions 3 1))
      (.resize 24 8)).CursorOnScreen := by
  obtain ⟨initial, wide⟩ :=
    create_onScreen sampleMetrics (sampleOptions 3 1) (by decide) (by decide)
  intro valid
  have guarded := (regionStep_cursor_iff samplePlatform sampleMetrics wide initial _).mp valid
  exact absurd guarded.1 (by decide)

end GuacNebula.Terminal
