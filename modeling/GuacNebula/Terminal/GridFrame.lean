import GuacNebula.Terminal.Grid

/-! # What drawing leaves unchanged

The functions that draw into the grid change cells, the position the cursor is shown at, the
selection, and which rows of the ring are on the screen. Everything else is the same afterwards.
-/

namespace GuacNebula.Terminal

/-- The part of the grid that drawing leaves unchanged. -/
structure Grid.Keeps (before after : Grid) : Prop where
  termWidth : after.termWidth = before.termWidth
  termHeight : after.termHeight = before.termHeight
  scrollOffset : after.scrollOffset = before.scrollOffset
  defaultChar : after.defaultChar = before.defaultChar
  currentAttributes : after.currentAttributes = before.currentAttributes
  displayWidth : after.display.width = before.display.width
  displayHeight : after.display.height = before.display.height
  colors : after.display.toColors = before.display.toColors
  available : after.buffer.available = before.buffer.available
  defaultCharacter : after.buffer.defaultCharacter = before.buffer.defaultCharacter

namespace Grid.Keeps

variable {first second third : Grid}

theorem refl (grid : Grid) : grid.Keeps grid :=
  ⟨rfl, rfl, rfl, rfl, rfl, rfl, rfl, rfl, rfl, rfl⟩

theorem trans (left : first.Keeps second) (right : second.Keeps third) : first.Keeps third where
  termWidth := right.termWidth.trans left.termWidth
  termHeight := right.termHeight.trans left.termHeight
  scrollOffset := right.scrollOffset.trans left.scrollOffset
  defaultChar := right.defaultChar.trans left.defaultChar
  currentAttributes := right.currentAttributes.trans left.currentAttributes
  displayWidth := right.displayWidth.trans left.displayWidth
  displayHeight := right.displayHeight.trans left.displayHeight
  colors := right.colors.trans left.colors
  available := right.available.trans left.available
  defaultCharacter := right.defaultCharacter.trans left.defaultCharacter

/-- A branch keeps what both of its sides keep. -/
theorem ite {condition : Prop} [Decidable condition] (left : first.Keeps second)
    (right : first.Keeps third) : first.Keeps (if condition then second else third) := by
  split
  · exact left
  · exact right

theorem displayCall (grid : Grid) (call : DisplayCall) : grid.Keeps (grid.displayCall call) :=
  ⟨rfl, rfl, rfl, rfl, rfl, rfl, rfl, rfl, rfl, rfl⟩

theorem selectTouch (grid : Grid) (startRow startColumn endRow endColumn : Int) :
    grid.Keeps (selectTouch grid startRow startColumn endRow endColumn) :=
  ⟨rfl, rfl, rfl, rfl, rfl, rfl, rfl, rfl, rfl, rfl⟩

end Grid.Keeps

/-! ## The buffer -/

/-- The part of the buffer that its column and row operations leave unchanged. -/
def Buffer.Same (before after : Buffer) : Prop :=
  after.available = before.available ∧ after.defaultCharacter = before.defaultCharacter
    ∧ after.top = before.top

theorem Buffer.Same.trans {first second third : Buffer} (left : first.Same second)
    (right : second.Same third) : first.Same third :=
  ⟨right.1.trans left.1, right.2.1.trans left.2.1, right.2.2.trans left.2.2⟩

theorem bufferGetRow_same (buffer : Buffer) (row width : Int) :
    buffer.Same (bufferGetRow buffer row width) := ⟨rfl, rfl, rfl⟩

theorem bufferCopyColumns_same (buffer : Buffer) (row startColumn endColumn offset : Int) :
    buffer.Same (bufferCopyColumns buffer row startColumn endColumn offset) := ⟨rfl, rfl, rfl⟩

theorem bufferCopyRowsLoop_same (offset step : Int) (remaining : Nat) (row : Int)
    (buffer : Buffer) : buffer.Same (bufferCopyRowsLoop offset step remaining row buffer) := by
  induction remaining generalizing row buffer with
  | zero => exact ⟨rfl, rfl, rfl⟩
  | succ remaining ih =>
      have first : buffer.Same (bufferCopyRow buffer row offset) := ⟨rfl, rfl, rfl⟩
      exact first.trans (ih _ _)

theorem bufferCopyRows_same (buffer : Buffer) (startRow endRow offset : Int) :
    buffer.Same (bufferCopyRows buffer startRow endRow offset) := by
  unfold bufferCopyRows
  split <;> exact bufferCopyRowsLoop_same ..

theorem bufferSetColumns_same (buffer : Buffer) (row startColumn endColumn : Int)
    (character : TerminalChar) :
    buffer.Same (bufferSetColumns buffer row startColumn endColumn character) := by
  unfold bufferSetColumns
  split
  · exact ⟨rfl, rfl, rfl⟩
  · dsimp only
    split <;> exact ⟨rfl, rfl, rfl⟩

/-- Changing the contents of the buffer keeps the rest. -/
theorem Grid.Keeps.onBuffer (grid : Grid) {change : Buffer → Buffer}
    (same : grid.buffer.Same (change grid.buffer)) : grid.Keeps (grid.onBuffer change) :=
  ⟨rfl, rfl, rfl, rfl, rfl, rfl, rfl, rfl, same.1, same.2.1⟩

theorem Grid.Keeps.access (grid : Grid) (row first last : Int) :
    grid.Keeps (grid.access row first last) :=
  Grid.Keeps.onBuffer grid ⟨rfl, rfl, rfl⟩

theorem Grid.Keeps.getRow (grid : Grid) (row width : Int) : grid.Keeps (grid.getRow row width) :=
  Grid.Keeps.onBuffer grid (bufferGetRow_same ..)

/-! ## Drawing -/

theorem setColumnsRaw_keeps (grid : Grid) (row startColumn endColumn : Int)
    (character : TerminalChar) :
    grid.Keeps (setColumnsRaw grid row startColumn endColumn character) :=
  ((Grid.Keeps.displayCall grid _).trans
    (Grid.Keeps.onBuffer _ (bufferSetColumns_same ..))).trans (Grid.Keeps.selectTouch _ ..)

theorem clearBroken_keeps (grid : Grid) (row start stop : Int) :
    grid.Keeps (clearBroken grid row start stop) := by
  have read := (Grid.Keeps.access grid row start stop).trans
    (Grid.Keeps.access (grid.access row start stop) row
      (brokenStart (grid.row row).characters start stop)
      (brokenStart (grid.row row).characters start stop))
  unfold clearBroken
  exact Grid.Keeps.ite (read.trans (setColumnsRaw_keeps ..)) read

theorem forceBreakLeft_keeps (grid : Grid) (row edge : Int) :
    grid.Keeps (forceBreakLeft grid row edge) := by
  unfold forceBreakLeft
  exact Grid.Keeps.ite (clearBroken_keeps ..) (Grid.Keeps.refl grid)

theorem forceBreakRight_keeps (grid : Grid) (row edge : Int) :
    grid.Keeps (forceBreakRight grid row edge) := by
  unfold forceBreakRight
  exact Grid.Keeps.ite ((Grid.Keeps.access ..).trans (clearBroken_keeps ..)) (Grid.Keeps.refl grid)

theorem forceBreak_keeps (grid : Grid) (row edge : Int) :
    grid.Keeps (forceBreak grid row edge) :=
  ((Grid.Keeps.getRow ..).trans (forceBreakLeft_keeps ..)).trans (forceBreakRight_keeps ..)

theorem forceBreaks_keeps (grid : Grid) (row left right : Int) :
    grid.Keeps (forceBreaks grid row left right) :=
  (forceBreak_keeps ..).trans (forceBreak_keeps ..)

theorem setColumnsCursor_keeps (grid : Grid) (row startColumn endColumn : Int)
    (character : TerminalChar) :
    grid.Keeps (setColumnsCursor grid row startColumn endColumn character) := by
  have raw := setColumnsRaw_keeps grid row startColumn endColumn character
  unfold setColumnsCursor
  exact Grid.Keeps.ite (raw.trans (setColumnsRaw_keeps ..)) raw

theorem setColumns_keeps (grid : Grid) (row startColumn endColumn : Int)
    (character : TerminalChar) :
    grid.Keeps (setColumns grid row startColumn endColumn character) :=
  (setColumnsCursor_keeps ..).trans (forceBreaks_keeps ..)

theorem copyColumnsRaw_keeps (grid : Grid) (row startColumn endColumn offset : Int) :
    grid.Keeps (copyColumnsRaw grid row startColumn endColumn offset) :=
  ((Grid.Keeps.displayCall grid _).trans
    (Grid.Keeps.onBuffer _ (bufferCopyColumns_same ..))).trans (Grid.Keeps.selectTouch _ ..)

theorem moveCursorColumn_keeps (grid : Grid) (row startColumn endColumn offset : Int) :
    grid.Keeps (moveCursorColumn grid row startColumn endColumn offset) := by
  unfold moveCursorColumn
  exact Grid.Keeps.ite ⟨rfl, rfl, rfl, rfl, rfl, rfl, rfl, rfl, rfl, rfl⟩ (Grid.Keeps.refl grid)

theorem copyColumns_keeps (grid : Grid) (row startColumn endColumn offset : Int) :
    grid.Keeps (copyColumns grid row startColumn endColumn offset) :=
  ((copyColumnsRaw_keeps ..).trans (moveCursorColumn_keeps ..)).trans (forceBreaks_keeps ..)

theorem moveCursorRow_keeps (grid : Grid) (startRow endRow offset : Int) :
    grid.Keeps (moveCursorRow grid startRow endRow offset) := by
  unfold moveCursorRow
  exact Grid.Keeps.ite ⟨rfl, rfl, rfl, rfl, rfl, rfl, rfl, rfl, rfl, rfl⟩ (Grid.Keeps.refl grid)

theorem copyRows_keeps (grid : Grid) (startRow endRow offset : Int) :
    grid.Keeps (copyRows grid startRow endRow offset) :=
  (((Grid.Keeps.displayCall grid _).trans
    (Grid.Keeps.onBuffer _ (bufferCopyRows_same ..))).trans (Grid.Keeps.selectTouch _ ..)).trans
      (moveCursorRow_keeps ..)

theorem clearColumns_keeps (grid : Grid) (row startColumn endColumn : Int) :
    grid.Keeps (clearColumns grid row startColumn endColumn) :=
  setColumns_keeps ..

theorem clearRows_keeps (remaining : Nat) (row : Int) (grid : Grid) :
    grid.Keeps (clearRows remaining row grid) := by
  induction remaining generalizing row grid with
  | zero => exact Grid.Keeps.refl grid
  | succ remaining ih => exact (clearColumns_keeps ..).trans (ih _ _)

theorem clearFirst_keeps (grid : Grid) (startRow startCol : Int) :
    grid.Keeps (clearFirst grid startRow startCol) := by
  unfold clearFirst
  exact Grid.Keeps.ite (clearColumns_keeps ..) (Grid.Keeps.refl grid)

theorem clearLast_keeps (grid : Grid) (endRow endCol : Int) :
    grid.Keeps (clearLast grid endRow endCol) := by
  unfold clearLast
  exact Grid.Keeps.ite (clearColumns_keeps ..) (Grid.Keeps.refl grid)

theorem clearRange_keeps (grid : Grid) (startRow startCol endRow endCol : Int) :
    grid.Keeps (clearRange grid startRow startCol endRow endCol) :=
  ((clearFirst_keeps ..).trans (clearLast_keeps ..)).trans (clearRows_keeps ..)

theorem advance_keeps (grid : Grid) (startRow endRow amount : Int) :
    grid.Keeps (advance grid startRow endRow amount) := by
  have ring (before : Grid) : before.Keeps (before.onBuffer (Buffer.advance · amount)) :=
    ⟨rfl, rfl, rfl, rfl, rfl, rfl, rfl, rfl, rfl, rfl⟩
  have selection (before : Grid) :
      before.Keeps { before with selection := before.selection.advance amount } :=
    ⟨rfl, rfl, rfl, rfl, rfl, rfl, rfl, rfl, rfl, rfl⟩
  exact (((Grid.Keeps.displayCall grid _).trans (ring _)).trans (moveCursorRow_keeps ..)).trans
    (selection _)

theorem scrollUp_keeps (grid : Grid) (startRow endRow amount : Int) :
    grid.Keeps (scrollUp grid startRow endRow amount) := by
  unfold scrollUp
  exact (Grid.Keeps.ite (advance_keeps ..) (copyRows_keeps ..)).trans (clearRange_keeps ..)

theorem scrollDown_keeps (grid : Grid) (startRow endRow amount : Int) :
    grid.Keeps (scrollDown grid startRow endRow amount) :=
  (copyRows_keeps ..).trans (clearRange_keeps ..)

theorem drawColumns_keeps (characters : Int → TerminalChar) (destRow : Int) (remaining : Nat)
    (column : Int) (grid : Grid) :
    grid.Keeps (drawColumns characters destRow remaining column grid) := by
  induction remaining generalizing column grid with
  | zero => exact Grid.Keeps.refl grid
  | succ remaining ih =>
      exact (Grid.Keeps.ite (Grid.Keeps.displayCall grid _) (Grid.Keeps.refl grid)).trans (ih _ _)

theorem drawRow_keeps (grid : Grid) (row destRow startColumn endColumn stop : Int) :
    grid.Keeps (drawRow grid row destRow startColumn endColumn stop) :=
  ((Grid.Keeps.getRow ..).trans (Grid.Keeps.displayCall _ _)).trans (drawColumns_keeps ..)

theorem drawRows_keeps (remaining : Nat) (row destRow : Int) (grid : Grid) :
    grid.Keeps (drawRows remaining row destRow grid) := by
  induction remaining generalizing row destRow grid with
  | zero => exact Grid.Keeps.refl grid
  | succ remaining ih => exact (drawRow_keeps ..).trans (ih _ _ _)

theorem redrawRect_keeps (startCol endCol : Int) (remaining : Nat) (row : Int) (grid : Grid) :
    grid.Keeps (redrawRect startCol endCol remaining row grid) := by
  induction remaining generalizing row grid with
  | zero => exact Grid.Keeps.refl grid
  | succ remaining ih => exact (drawRow_keeps ..).trans (ih _ _)

end GuacNebula.Terminal
