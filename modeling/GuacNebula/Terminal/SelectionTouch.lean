import GuacNebula.Terminal.SelectionRows

/-! # Stale selections

A committed selection is to be dropped when a cell it covers changes. Every function that changes
cells tells `guac_terminal_select_touch` which: the setting of columns the columns it was asked to
set, and the copies the columns or rows they copy from.

So a selection outlives its text in three ways. A copy may be made over it, since the destination is
not told. The last of some wide characters may stand beyond the columns that are to be set. And a
row of the selection may have left the ring, so that it shares its place with a row that is
written.
-/

namespace GuacNebula.Terminal

open CInt Run

/-! ## Cells -/

/-- What a row shows in a column: there are default characters behind its end. -/
def Row.cell (defaultCharacter : TerminalChar) (row : Row) (column : Int) : TerminalChar :=
  if column < row.length then row.characters column else defaultCharacter

/-- What a grid shows in a row and a column. -/
def Grid.cell (grid : Grid) (row column : Int) : TerminalChar :=
  (grid.row row).cell grid.buffer.defaultCharacter column

theorem Row.grow_cell (defaultCharacter : TerminalChar) (row : Row) (width column : Int) :
    (row.grow defaultCharacter width).cell defaultCharacter column
      = row.cell defaultCharacter column := by
  unfold Row.grow
  split
  · rename_i extended
    unfold Row.cell
    dsimp only
    split_ifs
    all_goals first | rfl | omega
  · rfl

/-- A row of the buffer shows after a change of one row what it showed before, if that row did not
change or it is another one. -/
theorem Buffer.setRow_cell {buffer : Buffer} {row other column : Int} {value : Row}
    {defaultCharacter : TerminalChar}
    (same : buffer.index other = buffer.index row →
      value.cell defaultCharacter column = (buffer.row row).cell defaultCharacter column) :
    ((buffer.setRow row value).row other).cell defaultCharacter column
      = (buffer.row other).cell defaultCharacter column := by
  change (Function.update buffer.rows (buffer.index row) value (buffer.index other)).cell _ _ = _
  by_cases written : buffer.index other = buffer.index row
  · rw [written, Function.update_self, same written, Buffer.row, Buffer.row, written]
  · rw [Function.update_of_ne written]
    rfl

theorem bufferGetRow_cell (buffer : Buffer) (row width other column : Int) :
    ((bufferGetRow buffer row width).row other).cell buffer.defaultCharacter column
      = (buffer.row other).cell buffer.defaultCharacter column :=
  Buffer.setRow_cell fun _ => Row.grow_cell ..

/-- A column that a character is written to lies no further than the last one written. -/
theorem le_lastWritten {start stop column : Int} {width : Nat} (positive : width ≠ 0)
    (after : start ≤ column) (before : column - (column - start) % width ≤ stop) :
    column ≤ lastWritten start stop width := by
  have size : (0 : Int) < width := by omega
  have split := Int.emod_add_mul_ediv (column - start) width
  have split' := Int.emod_add_mul_ediv (stop - start) width
  have part := Int.emod_lt_of_pos (column - start) size
  have nonneg : 0 ≤ (column - start) / width := Int.ediv_nonneg (by omega) size.le
  have product : 0 ≤ (width : Int) * ((column - start) / width) :=
    Int.mul_nonneg size.le nonneg
  have wholes : (column - start) / width ≤ (stop - start) / (width : Int) := by
    apply Int.le_ediv_of_mul_le size
    rw [Int.mul_comm]
    omega
  have scaled := Int.mul_le_mul_of_nonneg_left wholes size.le
  unfold lastWritten
  rw [if_pos (by omega)]
  omega

theorem Row.set_cell {row : Row} {start stop column : Int} {character : TerminalChar}
    (defaultCharacter : TerminalChar) (positive : character.width ≠ 0)
    (outside : ¬(start ≤ column ∧ column ≤ lastWritten start stop character.width)) :
    (row.set start stop character).cell defaultCharacter column
      = row.cell defaultCharacter column := by
  have unwritten : ¬(start ≤ column ∧
      column - (column - start) % character.width ≤ stop) :=
    fun written => outside ⟨written.1, le_lastWritten positive written.1 written.2⟩
  unfold Row.cell Row.set
  dsimp only
  rw [if_neg unwritten]

/-- Setting columns changes cells of one row, as far as the last character reaches. -/
theorem bufferSetColumns_cell {buffer : Buffer} {row start stop other column : Int}
    {character : TerminalChar}
    (outside : buffer.index other = buffer.index row →
      ¬(start ≤ column ∧ column ≤ lastWritten start stop character.width)) :
    ((bufferSetColumns buffer row start stop character).row other).cell buffer.defaultCharacter
      column = (buffer.row other).cell buffer.defaultCharacter column := by
  unfold bufferSetColumns
  split
  · rfl
  · rename_i positive
    dsimp only
    split
    all_goals
      refine Eq.trans ?_ (bufferGetRow_cell buffer row (stop + 1) other column)
      exact Buffer.setRow_cell fun same => Row.set_cell _ positive (outside same)

theorem Row.copy_cell {row : Row} {start stop offset column : Int}
    (defaultCharacter : TerminalChar)
    (outside : ¬(start + offset ≤ column ∧ column ≤ stop + offset)) :
    (row.copy start stop offset).cell defaultCharacter column
      = row.cell defaultCharacter column := by
  unfold Row.cell Row.copy
  dsimp only
  rw [if_neg outside]

/-- The columns that a copy of columns writes: the destination, as far as the row has room for
it. -/
def Buffer.copyTarget (buffer : Buffer) (row startColumn endColumn offset : Int) : Int × Int :=
  let range := ((bufferGetRow buffer row (endColumn + offset + 1)).row row).copyRange
    startColumn endColumn offset
  (range.1 + offset, range.2 + offset)

theorem bufferCopyColumns_cell {buffer : Buffer}
    {row startColumn endColumn offset other column : Int}
    (outside : buffer.index other = buffer.index row →
      ¬((buffer.copyTarget row startColumn endColumn offset).1 ≤ column
        ∧ column ≤ (buffer.copyTarget row startColumn endColumn offset).2)) :
    ((bufferCopyColumns buffer row startColumn endColumn offset).row other).cell
      buffer.defaultCharacter column = (buffer.row other).cell buffer.defaultCharacter column := by
  refine Eq.trans ?_ (bufferGetRow_cell buffer row (endColumn + offset + 1) other column)
  exact Buffer.setRow_cell fun same => Row.copy_cell _ (outside same)

/-- Copying a row leaves the cells of the others. -/
theorem bufferCopyRow_cell {buffer : Buffer} {row offset other column : Int}
    (apart : buffer.index other ≠ buffer.index (row + offset)) :
    ((bufferCopyRow buffer row offset).row other).cell buffer.defaultCharacter column
      = (buffer.row other).cell buffer.defaultCharacter column := by
  have extended := bufferGetRow_cell (bufferGetRow buffer row 0) (row + offset)
    ((bufferGetRow buffer row 0).row row).length other column
  refine Eq.trans (Buffer.setRow_cell fun same => absurd same apart) ?_
  exact extended.trans (bufferGetRow_cell buffer row 0 other column)

theorem bufferCopyRowsLoop_cell {offset step : Int} {remaining : Nat} {row : Int}
    {buffer : Buffer} {other column : Int}
    (apart : ∀ visited < remaining,
      buffer.index other ≠ buffer.index (row + visited * step + offset)) :
    ((bufferCopyRowsLoop offset step remaining row buffer).row other).cell
      buffer.defaultCharacter column = (buffer.row other).cell buffer.defaultCharacter column := by
  induction remaining generalizing row buffer with
  | zero => rfl
  | succ remaining ih =>
      have first : buffer.index other ≠ buffer.index (row + offset) := by
        have begun := apart 0 (Nat.succ_pos remaining)
        rwa [Int.natCast_zero, Int.zero_mul, Int.add_zero] at begun
      have rest : ((bufferCopyRowsLoop offset step remaining (row + step)
            (bufferCopyRow buffer row offset)).row other).cell buffer.defaultCharacter column
          = ((bufferCopyRow buffer row offset).row other).cell buffer.defaultCharacter
            column := by
        refine ih fun visited bound => ?_
        have later := apart (visited + 1) (Nat.succ_lt_succ bound)
        rwa [show row + ((visited + 1 : Nat) : Int) * step = row + step + visited * step by
          rw [Int.natCast_succ, Int.add_mul]; omega] at later
      exact rest.trans (bufferCopyRow_cell first)

/-- Copying rows leaves the rows that are not copied to. -/
theorem bufferCopyRows_cell {buffer : Buffer} {startRow endRow offset other column : Int}
    (apart : ∀ row, startRow ≤ row → row ≤ endRow →
      buffer.index other ≠ buffer.index (row + offset)) :
    ((bufferCopyRows buffer startRow endRow offset).row other).cell buffer.defaultCharacter column
      = (buffer.row other).cell buffer.defaultCharacter column := by
  unfold bufferCopyRows
  split
  · apply bufferCopyRowsLoop_cell
    exact fun visited bound => apart _ (by omega) (by omega)
  · apply bufferCopyRowsLoop_cell
    exact fun visited bound => apart _ (by omega) (by omega)

/-! ## What the selection covers -/

/-- The cell lies in the range that is selected, in reading order. -/
def Selection.Covers (selection : Selection) (row column : Int) : Prop :=
  (selection.normalizedRange.1.1 < row
      ∨ (selection.normalizedRange.1.1 = row ∧ selection.normalizedRange.1.2 ≤ column)) ∧
    (row < selection.normalizedRange.2.1
      ∨ (row = selection.normalizedRange.2.1 ∧ column ≤ selection.normalizedRange.2.2))

instance (selection : Selection) (row column : Int) : Decidable (selection.Covers row column) :=
  inferInstanceAs (Decidable (_ ∧ _))

/-- The cell is covered by a committed selection that is active. -/
def Grid.Covers (grid : Grid) (row column : Int) : Prop :=
  (grid.selection.textSelected = true ∧ grid.selection.selectionCommitted = true)
    ∧ grid.selection.Covers row column

/-- A region that is told meets the selection if it has a covered cell. -/
theorem Selection.contains_of_covers {selection : Selection}
    {startRow startColumn endRow endColumn row column : Int}
    (selected : selection.textSelected = true) (covers : selection.Covers row column)
    (after : startRow < row ∨ (startRow = row ∧ startColumn ≤ column))
    (before : row < endRow ∨ (row = endRow ∧ column ≤ endColumn)) :
    selection.contains startRow startColumn endRow endColumn = true := by
  unfold Covers at covers
  unfold contains
  rw [selected]
  generalize selection.normalizedRange = range at covers
  obtain ⟨⟨firstRow, firstColumn⟩, ⟨lastRow, lastColumn⟩⟩ := range
  dsimp only at covers ⊢
  simp only [Bool.not_true, Bool.false_eq_true, if_false]
  split_ifs
  all_goals first | rfl | omega

/-- A selection that is active after a region has been told has not changed, and if it is committed
it does not meet the region. -/
theorem Selection.touch_active {selection : Selection}
    {startRow startColumn endRow endColumn : Int}
    (active : (selection.touch startRow startColumn endRow endColumn).textSelected = true) :
    selection.touch startRow startColumn endRow endColumn = selection
      ∧ (selection.selectionCommitted = true →
        selection.contains startRow startColumn endRow endColumn = false) := by
  unfold touch at active ⊢
  split_ifs at active ⊢ with uncommitted met
  · refine ⟨rfl, fun committed => ?_⟩
    rw [committed] at uncommitted
    cases uncommitted
  · exact ⟨rfl, fun _ => Bool.eq_false_iff.mpr met⟩

/-- Whatever changes cells that a committed selection covers drops the selection. -/
structure Grid.Reports (before after : Grid) : Prop where
  index : ∀ row, after.buffer.index row = before.buffer.index row
  defaultCharacter : after.buffer.defaultCharacter = before.buffer.defaultCharacter
  active : after.selection.textSelected = true → after.selection = before.selection
  cells : ∀ row column, after.Covers row column →
    after.cell row column = before.cell row column

namespace Grid.Reports

variable {first second third : Grid}

theorem refl (grid : Grid) : grid.Reports grid :=
  ⟨fun _ => rfl, rfl, fun _ => rfl, fun _ _ _ => rfl⟩

theorem covers (reports : first.Reports second) {row column : Int}
    (covers : second.Covers row column) : first.Covers row column := by
  have same := reports.active covers.1.1
  exact ⟨same ▸ covers.1, same ▸ covers.2⟩

theorem trans (left : first.Reports second) (right : second.Reports third) :
    first.Reports third where
  index row := (right.index row).trans (left.index row)
  defaultCharacter := right.defaultCharacter.trans left.defaultCharacter
  active selected := by
    have same := right.active selected
    exact same.trans (left.active (same ▸ selected))
  cells row column covers :=
    (right.cells row column covers).trans (left.cells row column (right.covers covers))

/-- A branch reports what both of its sides report. -/
theorem ite {condition : Prop} [Decidable condition] (left : first.Reports second)
    (right : first.Reports third) : first.Reports (if condition then second else third) := by
  split
  · exact left
  · exact right

theorem getRow (grid : Grid) (row width : Int) : grid.Reports (grid.getRow row width) :=
  ⟨fun _ => rfl, rfl, fun _ => rfl, fun _ _ _ => bufferGetRow_cell ..⟩

theorem access (grid : Grid) (row start stop : Int) :
    grid.Reports (grid.access row start stop) :=
  ⟨fun _ => rfl, rfl, fun _ => rfl, fun _ _ _ => rfl⟩

end Grid.Reports

/-- No other row that the selection covers shares the place of a row in the ring. -/
def Grid.Unshared (grid : Grid) (row : Int) : Prop :=
  ∀ other column, grid.Covers other column → grid.buffer.index other = grid.buffer.index row →
    other = row

theorem Grid.Reports.unshared {before after : Grid} (reports : before.Reports after) {row : Int}
    (unshared : before.Unshared row) : after.Unshared row := by
  intro other column covers same
  rw [reports.index, reports.index] at same
  exact unshared other column (reports.covers covers) same

/-! ## Columns -/

/-- Columns are set without regard to what they cut: if the last character does not stand beyond
them, or what stands there is not selected, what is told is enough. -/
theorem setColumnsRaw_reports {grid : Grid} {row start stop : Int} {character : TerminalChar}
    (unshared : grid.Unshared row)
    (within : ∀ column, grid.Covers row column → stop < column →
      column ≤ lastWritten start stop character.width →
      grid.selection.contains row start row stop = true) :
    grid.Reports (setColumnsRaw grid row start stop character) := by
  have same := bufferSetColumns_same grid.buffer row start stop character
  refine ⟨Buffer.index_congr same.2.2 same.1, same.2.1, fun active => ?_,
    fun other column covers => ?_⟩
  · exact (Selection.touch_active active).1
  · obtain ⟨kept, missed⟩ := Selection.touch_active covers.1.1
    have before : grid.Covers other column := ⟨kept ▸ covers.1, kept ▸ covers.2⟩
    have unmet := missed before.1.2
    refine (congrArg (fun character => Row.cell character _ column) same.2.1).trans ?_
    apply bufferSetColumns_cell
    rintro shared ⟨after, written⟩
    cases unshared other column before shared
    by_cases told : column ≤ stop
    · have met := Selection.contains_of_covers before.1.1 before.2 (Or.inr ⟨rfl, after⟩)
        (Or.inr ⟨rfl, told⟩)
      exact absurd met (Bool.eq_false_iff.mp unmet)
    · exact absurd (within column before (not_le.mp told) written) (Bool.eq_false_iff.mp unmet)

theorem clearBroken_reports {grid : Grid} {row : Int} (unshared : grid.Unshared row)
    (start stop : Int) : grid.Reports (clearBroken grid row start stop) := by
  have read := (Grid.Reports.access grid row start stop).trans
    (Grid.Reports.access (grid.access row start stop) row
      (brokenStart (grid.row row).characters start stop)
      (brokenStart (grid.row row).characters start stop))
  unfold clearBroken
  apply Grid.Reports.ite _ read
  apply read.trans (setColumnsRaw_reports (read.unshared unshared) _)
  intro column covers beyond written
  change column ≤ lastWritten _ _ 1 at written
  rw [lastWritten_one] at written
  omega

theorem forceBreakLeft_reports {grid : Grid} {row : Int} (unshared : grid.Unshared row)
    (edge : Int) : grid.Reports (forceBreakLeft grid row edge) := by
  unfold forceBreakLeft
  exact Grid.Reports.ite (clearBroken_reports unshared ..) (.refl grid)

theorem forceBreakRight_reports {grid : Grid} {row : Int} (unshared : grid.Unshared row)
    (edge : Int) : grid.Reports (forceBreakRight grid row edge) := by
  unfold forceBreakRight
  apply Grid.Reports.ite _ (.refl grid)
  have read := Grid.Reports.access grid row edge
    (min (scanEnd (grid.row row).characters ((grid.row row).length - 1 - edge).toNat edge + 1)
      ((grid.row row).length - 1))
  exact read.trans (clearBroken_reports (read.unshared unshared) ..)

theorem forceBreak_reports {grid : Grid} {row : Int} (unshared : grid.Unshared row)
    (edge : Int) : grid.Reports (forceBreak grid row edge) := by
  have extended := Grid.Reports.getRow grid row 0
  have left := extended.trans (forceBreakLeft_reports (extended.unshared unshared) edge)
  exact left.trans (forceBreakRight_reports (left.unshared unshared) edge)

theorem forceBreaks_reports {grid : Grid} {row : Int} (unshared : grid.Unshared row)
    (left right : Int) : grid.Reports (forceBreaks grid row left right) := by
  have first := forceBreak_reports unshared left
  exact first.trans (forceBreak_reports (first.unshared unshared) right)

/-- Where a range of columns is set, the selection covers no part of the last characters that stands
beyond the range, unless it meets the range as well. The last character set may be the one at the
visible cursor, which is set once more. -/
def Grid.ToldSet (grid : Grid) (row start stop : Int) (character : TerminalChar) : Prop :=
  ∀ column, grid.Covers row column → stop < column →
    (column ≤ lastWritten start stop character.width
      ∨ (grid.CursorIn row start stop
        ∧ column ≤ lastWritten grid.visibleCursorCol grid.visibleCursorCol character.width)) →
    grid.selection.contains row start row stop = true

/-- The character at the cursor is set within columns that have been told already. -/
theorem setColumnsCursor_reports {grid : Grid} {row start stop : Int} {character : TerminalChar}
    (unshared : grid.Unshared row) (told : grid.ToldSet row start stop character) :
    grid.Reports (setColumnsCursor grid row start stop character) := by
  have raw : grid.Reports (setColumnsRaw grid row start stop character) :=
    setColumnsRaw_reports unshared
      fun column covers beyond written => told column covers beyond (Or.inl written)
  unfold setColumnsCursor
  dsimp only
  split
  · rename_i cursor
    refine raw.trans (setColumnsRaw_reports (raw.unshared unshared) ?_)
    intro column covers beyond written
    obtain ⟨kept, missed⟩ := Selection.touch_active covers.1.1
    have unmet := missed (raw.covers covers).1.2
    have before := (raw.covers covers).2
    exfalso
    refine Bool.eq_false_iff.mp unmet ?_
    by_cases inside : column ≤ stop
    · apply Selection.contains_of_covers (raw.covers covers).1.1 before (Or.inr ⟨rfl, ?_⟩)
        (Or.inr ⟨rfl, inside⟩)
      exact cursor.2.1.trans beyond.le
    · exact told column (raw.covers covers) (not_le.mp inside) (Or.inr ⟨cursor, written⟩)
  · exact raw

theorem setColumns_reports {grid : Grid} {row start stop : Int} {character : TerminalChar}
    (unshared : grid.Unshared row) (told : grid.ToldSet row start stop character) :
    grid.Reports (setColumns grid row start stop character) := by
  have set := setColumnsCursor_reports unshared told
  exact set.trans (forceBreaks_reports (set.unshared unshared) ..)

/-- Blanks stand in one column each. -/
theorem clearColumns_reports {grid : Grid} {row : Int} (unshared : grid.Unshared row)
    (start stop : Int) : grid.Reports (clearColumns grid row start stop) := by
  apply setColumns_reports unshared
  intro column covers beyond written
  change column ≤ lastWritten _ _ 1 ∨ _ ∧ column ≤ lastWritten _ _ 1 at written
  rw [lastWritten_one, lastWritten_one] at written
  rcases written with last | ⟨cursor, last⟩
  · omega
  · have inside := cursor.2.2
    omega

theorem clearRows_reports {remaining : Nat} {row : Int} {grid : Grid}
    (unshared : ∀ visited < remaining, grid.Unshared (row + visited)) :
    grid.Reports (clearRows remaining row grid) := by
  induction remaining generalizing row grid with
  | zero => exact .refl grid
  | succ remaining ih =>
      have first := unshared 0 (Nat.succ_pos remaining)
      rw [Int.natCast_zero, Int.add_zero] at first
      have cleared := clearColumns_reports first 0 (grid.termWidth - 1)
      refine cleared.trans (ih fun visited bound => ?_)
      have later := unshared (visited + 1) (Nat.succ_lt_succ bound)
      rw [Int.natCast_succ, ← Int.add_assoc, Int.add_right_comm] at later
      exact cleared.unshared later

theorem clearFirst_reports {grid : Grid} {startRow startCol : Int}
    (unshared : startCol > 0 → grid.Unshared startRow) :
    grid.Reports (clearFirst grid startRow startCol) := by
  unfold clearFirst
  split
  · rename_i cut
    exact clearColumns_reports (unshared cut) ..
  · exact .refl grid

theorem clearLast_reports {grid : Grid} {endRow endCol : Int}
    (unshared : endCol < grid.termWidth - 1 → grid.Unshared endRow) :
    grid.Reports (clearLast grid endRow endCol) := by
  unfold clearLast
  split
  · rename_i cut
    exact clearColumns_reports (unshared cut) ..
  · exact .refl grid

/-- No row that is cleared shares its place with another one that the selection covers. -/
def Grid.ToldClear (grid : Grid) (startRow startCol endRow endCol : Int) : Prop :=
  ∀ row, (startRow ≤ row ∧ row ≤ endRow) ∨ (row = startRow ∧ startCol > 0)
    ∨ (row = endRow ∧ endCol < grid.termWidth - 1) → grid.Unshared row

theorem clearRange_reports {grid : Grid} {startRow startCol endRow endCol : Int}
    (told : grid.ToldClear startRow startCol endRow endCol) :
    grid.Reports (clearRange grid startRow startCol endRow endCol) := by
  have first : grid.Reports (clearFirst grid startRow startCol) :=
    clearFirst_reports fun cut => told _ (Or.inr (Or.inl ⟨rfl, cut⟩))
  have last : (clearFirst grid startRow startCol).Reports
      (clearLast (clearFirst grid startRow startCol) endRow endCol) := by
    apply clearLast_reports
    rw [(clearFirst_keeps ..).termWidth]
    exact fun cut => first.unshared (told _ (Or.inr (Or.inr ⟨rfl, cut⟩)))
  have ends := first.trans last
  refine ends.trans (clearRows_reports fun visited bound => ends.unshared (told _ (Or.inl ?_)))
  constructor
  · split_ifs <;> omega
  · split_ifs at bound ⊢ <;> omega

/-! ## Copies -/

/-- Where columns are copied, the selection covers no part of the destination, unless it meets the
columns that are copied as well. -/
def Grid.ToldCopyColumns (grid : Grid) (row startColumn endColumn offset : Int) : Prop :=
  ∀ column, grid.Covers row column →
    (grid.buffer.copyTarget row startColumn endColumn offset).1 ≤ column →
    column ≤ (grid.buffer.copyTarget row startColumn endColumn offset).2 →
    grid.selection.contains row startColumn row endColumn = true

theorem copyColumnsRaw_reports {grid : Grid} {row startColumn endColumn offset : Int}
    (unshared : grid.Unshared row)
    (told : grid.ToldCopyColumns row startColumn endColumn offset) :
    grid.Reports (copyColumnsRaw grid row startColumn endColumn offset) := by
  refine ⟨fun _ => rfl, rfl, fun active => ?_, fun other column covers => ?_⟩
  · exact (Selection.touch_active active).1
  · obtain ⟨kept, missed⟩ := Selection.touch_active covers.1.1
    have before : grid.Covers other column := ⟨kept ▸ covers.1, kept ▸ covers.2⟩
    have unmet := missed before.1.2
    have copied : ((bufferCopyColumns grid.buffer row startColumn endColumn offset).row
        other).cell grid.buffer.defaultCharacter column = grid.cell other column := by
      apply bufferCopyColumns_cell
      rintro shared ⟨after, written⟩
      cases unshared other column before shared
      exact absurd (told column before after written) (Bool.eq_false_iff.mp unmet)
    exact copied

theorem copyColumns_reports {grid : Grid} {row startColumn endColumn offset : Int}
    (unshared : grid.Unshared row)
    (told : grid.ToldCopyColumns row startColumn endColumn offset) :
    grid.Reports (copyColumns grid row startColumn endColumn offset) := by
  have raw := copyColumnsRaw_reports unshared told
  have moved : grid.Reports
      (moveCursorColumn (copyColumnsRaw grid row startColumn endColumn offset) row startColumn
        endColumn offset) := by
    apply raw.trans
    unfold moveCursorColumn
    exact Grid.Reports.ite ⟨fun _ => rfl, rfl, fun _ => rfl, fun _ _ _ => rfl⟩ (.refl _)
  exact moved.trans (forceBreaks_reports (moved.unshared unshared) ..)

/-- Where rows are copied, no row that the selection covers has the place of one that is copied to,
unless the selection meets the rows that are copied as well. -/
def Grid.ToldCopyRows (grid : Grid) (startRow endRow offset : Int) : Prop :=
  ∀ other column, grid.Covers other column → ∀ row, startRow ≤ row → row ≤ endRow →
    grid.buffer.index other = grid.buffer.index (row + offset) →
    grid.selection.contains startRow 0 endRow grid.termWidth = true

theorem copyRows_reports {grid : Grid} {startRow endRow offset : Int}
    (told : grid.ToldCopyRows startRow endRow offset) :
    grid.Reports (copyRows grid startRow endRow offset) := by
  have same := bufferCopyRows_same grid.buffer startRow endRow offset
  have reported (moved : Grid) (buffer : moved.buffer = bufferCopyRows grid.buffer startRow endRow
        offset) (selection : moved.selection = grid.selection.touch startRow 0 endRow
        grid.termWidth) : grid.Reports moved := by
    refine ⟨fun row => ?_, ?_, fun active => ?_, fun other column covers => ?_⟩
    · rw [buffer]
      exact Buffer.index_congr same.2.2 same.1 row
    · rw [buffer]
      exact same.2.1
    · rw [selection] at active ⊢
      exact (Selection.touch_active active).1
    · have active := covers.1.1
      rw [selection] at active
      obtain ⟨kept, missed⟩ := Selection.touch_active active
      rw [← selection] at kept
      have before : grid.Covers other column := ⟨kept ▸ covers.1, kept ▸ covers.2⟩
      rw [Grid.cell, Grid.row, buffer, same.2.1]
      apply bufferCopyRows_cell
      intro row first last shared
      exact absurd (told other column before row first last shared)
        (Bool.eq_false_iff.mp (missed before.1.2))
  unfold copyRows moveCursorRow
  dsimp only
  split
  · exact reported _ rfl rfl
  · exact reported _ rfl rfl

/-! ## Operations on the buffer -/

/-- An operation that changes cells of the buffer. -/
inductive BufferOp where
  | setColumns (row startColumn endColumn : Int) (character : TerminalChar)
  | copyColumns (row startColumn endColumn offset : Int)
  | copyRows (startRow endRow offset : Int)
  | clearColumns (row startColumn endColumn : Int)
  | clearRange (startRow startCol endRow endCol : Int)
  | scrollUp (startRow endRow amount : Int)
  | scrollDown (startRow endRow amount : Int)

/-- The effect of an operation. -/
def bufferStep (grid : Grid) : BufferOp → Grid
  | .setColumns row startColumn endColumn character =>
      Terminal.setColumns grid row startColumn endColumn character
  | .copyColumns row startColumn endColumn offset =>
      Terminal.copyColumns grid row startColumn endColumn offset
  | .copyRows startRow endRow offset => Terminal.copyRows grid startRow endRow offset
  | .clearColumns row startColumn endColumn =>
      Terminal.clearColumns grid row startColumn endColumn
  | .clearRange startRow startCol endRow endCol =>
      Terminal.clearRange grid startRow startCol endRow endCol
  | .scrollUp startRow endRow amount => Terminal.scrollUp grid startRow endRow amount
  | .scrollDown startRow endRow amount => Terminal.scrollDown grid startRow endRow amount

/-- The condition under which what an operation tells covers what it changes of the selection. A
scroll is one within a region: the screen as a whole takes the selection along. -/
def TouchGuard (grid : Grid) : BufferOp → Prop
  | .setColumns row startColumn endColumn character =>
      grid.Unshared row ∧ grid.ToldSet row startColumn endColumn character
  | .copyColumns row startColumn endColumn offset =>
      grid.Unshared row ∧ grid.ToldCopyColumns row startColumn endColumn offset
  | .copyRows startRow endRow offset => grid.ToldCopyRows startRow endRow offset
  | .clearColumns row _ _ => grid.Unshared row
  | .clearRange startRow startCol endRow endCol =>
      grid.ToldClear startRow startCol endRow endCol
  | .scrollUp startRow endRow amount =>
      ¬(startRow = 0 ∧ endRow = grid.termHeight - 1)
        ∧ grid.ToldCopyRows (toInt (startRow + amount)) endRow (toInt (-amount))
        ∧ grid.ToldClear (toInt (endRow - amount + 1)) 0 endRow (grid.termWidth - 1)
  | .scrollDown startRow endRow amount =>
      grid.ToldCopyRows startRow (toInt (endRow - amount)) amount
        ∧ grid.ToldClear startRow 0 (toInt (startRow + amount - 1)) (grid.termWidth - 1)

/-- While the selection is active, the cells it covered at the start are what they were. -/
def SelectionFresh (start grid : Grid) : Prop :=
  grid.selection.textSelected = true →
    ∀ row column, start.Covers row column → grid.cell row column = start.cell row column

/-- A region is scrolled by a copy of rows and the clearing of those that it uncovers. -/
theorem copyRows_clearRange_reports {grid : Grid}
    {startRow endRow offset firstRow lastRow : Int}
    (copied : grid.ToldCopyRows startRow endRow offset)
    (cleared : grid.ToldClear firstRow 0 lastRow (grid.termWidth - 1)) :
    grid.Reports
      (clearRange (copyRows grid startRow endRow offset) firstRow 0 lastRow
        ((copyRows grid startRow endRow offset).termWidth - 1)) := by
  have copy := copyRows_reports copied
  refine copy.trans (clearRange_reports fun row written => copy.unshared (cleared row ?_))
  rwa [(copyRows_keeps ..).termWidth] at written

theorem bufferStep_reports {grid : Grid} (op : BufferOp) (guard : TouchGuard grid op) :
    grid.Reports (bufferStep grid op) := by
  cases op with
  | setColumns row startColumn endColumn character => exact setColumns_reports guard.1 guard.2
  | copyColumns row startColumn endColumn offset => exact copyColumns_reports guard.1 guard.2
  | copyRows startRow endRow offset => exact copyRows_reports guard
  | clearColumns row startColumn endColumn => exact clearColumns_reports guard ..
  | clearRange startRow startCol endRow endCol => exact clearRange_reports guard
  | scrollUp startRow endRow amount =>
      obtain ⟨part, copied, cleared⟩ := guard
      unfold bufferStep scrollUp
      dsimp only
      rw [if_neg part]
      exact copyRows_clearRange_reports copied cleared
  | scrollDown startRow endRow amount => exact copyRows_clearRange_reports guard.1 guard.2

/-- What has been reported since the start leaves an active selection fresh. -/
theorem Grid.Reports.fresh {start grid : Grid} (reports : start.Reports grid) :
    SelectionFresh start grid := by
  intro selected row column covers
  have same := reports.active selected
  exact reports.cells row column ⟨same.symm ▸ covers.1, same.symm ▸ covers.2⟩

/-- **A committed selection does not outlive its text, through any run of operations on the buffer
that tell what they change of it.** -/
theorem selectionFresh_always (grid : Grid) (ops : List BufferOp)
    (guarded : Guarded bufferStep TouchGuard grid ops) :
    Always bufferStep (SelectionFresh grid) grid ops := by
  have always := guarded.always (Grid.Reports.refl grid)
    fun before op reports guard => reports.trans (bufferStep_reports op guard)
  exact always.mono fun after reports => reports.fresh

/-- A grid of two cells, one above the other, the lower of which shows `b` and the upper of which is
selected. -/
def sampleCommitted : Grid :=
  { setColumns ((sampleOptions 2 1).grid 2 1) 1 0 0
      { (sampleOptions 2 1).defaultChar with value := 0x62 } with
    selection :=
      { textSelected := true
        selectionCommitted := true
        startRow := 0
        startColumn := 0
        startWidth := 1
        endRow := 0
        endColumn := 0
        endWidth := 1 } }

theorem sampleCommitted_covers {row column : Int} (covers : sampleCommitted.Covers row column) :
    row = 0 ∧ column = 0 := by
  have range : sampleCommitted.selection.normalizedRange = ((0, 0), (0, 0)) := rfl
  obtain ⟨-, first, last⟩ := covers
  rw [range] at first last
  dsimp only at first last
  omega

/-- The row below a selected cell may be cleared, and the cell itself replaced. -/
theorem guarded_of_covers {grid : Grid}
    (covered : ∀ row column, grid.Covers row column → row = 0 ∧ column = 0)
    (apart : grid.buffer.index 0 ≠ grid.buffer.index 1) (character : TerminalChar) :
    Guarded bufferStep TouchGuard grid [.clearColumns 1 0 0, .setColumns 0 0 0 character] := by
  have below : grid.Unshared 1 := by
    intro other column covers same
    rw [(covered other column covers).1] at same
    exact absurd same apart
  have first : grid.Reports (bufferStep grid (.clearColumns 1 0 0)) :=
    clearColumns_reports below 0 0
  have second : TouchGuard (bufferStep grid (.clearColumns 1 0 0))
      (.setColumns 0 0 0 character) := by
    generalize bufferStep grid (.clearColumns 1 0 0) = cleared at first
    constructor
    · intro other column covers _
      exact (covered other column (first.covers covers)).1
    · intro column covers beyond _
      have inside := (covered 0 column (first.covers covers)).2
      omega
  exact ⟨below, second, trivial⟩

/-- The cell below the selection is cleared, then the selected one is replaced. -/
theorem selectionFresh_replaced :
    Always bufferStep (SelectionFresh sampleCommitted) sampleCommitted
      [.clearColumns 1 0 0, .setColumns 0 0 0 default] :=
  selectionFresh_always sampleCommitted _
    (guarded_of_covers (fun _ _ => sampleCommitted_covers) (by decide +kernel) default)

/-- The row below the selection is copied over it. -/
theorem selectionFresh_overwritten :
    ¬ Always bufferStep (SelectionFresh sampleCommitted) sampleCommitted [.copyRows 1 1 (-1)] := by
  intro always
  have active : (bufferStep sampleCommitted (.copyRows 1 1 (-1))).selection.textSelected = true := by
    decide +kernel
  have differs : ((bufferStep sampleCommitted (.copyRows 1 1 (-1))).cell 0 0).value
      ≠ (sampleCommitted.cell 0 0).value := by
    decide +kernel
  have covered : sampleCommitted.Covers 0 0 := ⟨⟨rfl, rfl⟩, by decide +kernel⟩
  have fresh := always.last
  rw [exec_cons, exec_nil] at fresh
  exact differs (congrArg TerminalChar.value (fresh active 0 0 covered))

end GuacNebula.Terminal
