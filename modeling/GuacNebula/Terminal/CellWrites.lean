import GuacNebula.Terminal.GridFrame

/-! # Sequences of writes to cells

Setting columns, forcing breaks around them and clearing ranges all come down to one operation,
which sets a range of columns of a row and drops the selection if the range meets it. What holds
across this one operation therefore holds across all of them.
-/

namespace GuacNebula.Terminal

/-- A sequence of writes to ranges of cells. Rows may be extended, and cells read, in between. -/
inductive CellWrites (first : Grid) : Grid → Prop
  | refl : CellWrites first first
  | getRow {grid : Grid} (previous : CellWrites first grid) (row width : Int) :
      CellWrites first (grid.getRow row width)
  | access {grid : Grid} (previous : CellWrites first grid) (row start stop : Int) :
      CellWrites first (grid.access row start stop)
  | set {grid : Grid} (previous : CellWrites first grid) (row start stop : Int)
      (character : TerminalChar) : CellWrites first (setColumnsRaw grid row start stop character)

namespace CellWrites

variable {first second third : Grid}

theorem trans (left : CellWrites first second) (right : CellWrites second third) :
    CellWrites first third := by
  induction right with
  | refl => exact left
  | getRow previous row width ih => exact ih.getRow row width
  | access previous row start stop ih => exact ih.access row start stop
  | set previous row start stop character ih => exact ih.set row start stop character

/-- A branch writes what either of its sides writes. -/
theorem ite {condition : Prop} [Decidable condition] (left : CellWrites first second)
    (right : CellWrites first third) : CellWrites first (if condition then second else third) := by
  split
  · exact left
  · exact right

end CellWrites

theorem clearBroken_writes (grid : Grid) (row start stop : Int) :
    CellWrites grid (clearBroken grid row start stop) := by
  have unwritten : CellWrites grid grid := .refl
  have read := (unwritten.access row start stop).access row
    (brokenStart (grid.row row).characters start stop)
    (brokenStart (grid.row row).characters start stop)
  unfold clearBroken
  exact CellWrites.ite (read.set ..) read

theorem forceBreakLeft_writes (grid : Grid) (row edge : Int) :
    CellWrites grid (forceBreakLeft grid row edge) := by
  unfold forceBreakLeft
  exact CellWrites.ite (clearBroken_writes ..) .refl

theorem forceBreakRight_writes (grid : Grid) (row edge : Int) :
    CellWrites grid (forceBreakRight grid row edge) := by
  unfold forceBreakRight
  apply CellWrites.ite _ .refl
  exact (CellWrites.refl.access ..).trans (clearBroken_writes ..)

theorem forceBreak_writes (grid : Grid) (row edge : Int) :
    CellWrites grid (forceBreak grid row edge) :=
  ((CellWrites.refl.getRow row 0).trans (forceBreakLeft_writes ..)).trans
    (forceBreakRight_writes ..)

theorem forceBreaks_writes (grid : Grid) (row left right : Int) :
    CellWrites grid (forceBreaks grid row left right) :=
  (forceBreak_writes ..).trans (forceBreak_writes ..)

theorem setColumns_writes (grid : Grid) (row startColumn endColumn : Int)
    (character : TerminalChar) :
    CellWrites grid (setColumns grid row startColumn endColumn character) := by
  have unwritten : CellWrites grid grid := .refl
  have raw := unwritten.set row startColumn endColumn character
  apply CellWrites.trans _ (forceBreaks_writes ..)
  unfold setColumnsCursor
  exact CellWrites.ite (raw.set ..) raw

theorem clearRows_writes (remaining : Nat) (row : Int) (grid : Grid) :
    CellWrites grid (clearRows remaining row grid) := by
  induction remaining generalizing row grid with
  | zero => exact .refl
  | succ remaining ih => exact (setColumns_writes ..).trans (ih _ _)

theorem clearRange_writes (grid : Grid) (startRow startCol endRow endCol : Int) :
    CellWrites grid (clearRange grid startRow startCol endRow endCol) := by
  have begun : CellWrites grid (clearFirst grid startRow startCol) := by
    unfold clearFirst
    exact CellWrites.ite (setColumns_writes ..) .refl
  have ended (before : Grid) : CellWrites before (clearLast before endRow endCol) := by
    unfold clearLast
    exact CellWrites.ite (setColumns_writes ..) .refl
  exact (begun.trans (ended _)).trans (clearRows_writes ..)

/-- The selection after it has been dropped. -/
def Selection.dropped (selection : Selection) : Selection :=
  { selection with textSelected := false, selectionCommitted := false }

theorem Selection.touch_eq (selection : Selection) (startRow startColumn endRow endColumn : Int) :
    selection.touch startRow startColumn endRow endColumn = selection
      ∨ selection.touch startRow startColumn endRow endColumn = selection.dropped := by
  unfold Selection.touch
  split_ifs
  · exact Or.inl rfl
  · exact Or.inr rfl
  · exact Or.inl rfl

/-- Writes to cells leave the screen where it is, and they keep the selection or drop it. -/
theorem CellWrites.keeps {first last : Grid} (writes : CellWrites first last) :
    first.Keeps last ∧ last.buffer.top = first.buffer.top
      ∧ (last.selection = first.selection ∨ last.selection = first.selection.dropped) := by
  induction writes with
  | refl => exact ⟨.refl first, rfl, Or.inl rfl⟩
  | getRow previous row width ih => exact ⟨ih.1.trans (.getRow ..), ih.2⟩
  | access previous row start stop ih => exact ⟨ih.1.trans (.access ..), ih.2⟩
  | @set grid previous row start stop character ih =>
      obtain ⟨keeps, top, selection⟩ := ih
      refine ⟨keeps.trans (setColumnsRaw_keeps ..), ?_, ?_⟩
      · exact (bufferSetColumns_same ..).2.2.trans top
      · rcases grid.selection.touch_eq row start row stop with kept | dropped
        · exact selection.imp kept.trans kept.trans
        · right
          refine dropped.trans ?_
          rcases selection with same | same
          · exact congrArg Selection.dropped same
          · rw [same]
            rfl

end GuacNebula.Terminal
