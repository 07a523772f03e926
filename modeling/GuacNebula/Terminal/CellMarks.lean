import GuacNebula.Terminal.SelectionRows

/-! # Cells that carry the cursor

The cursor is drawn by an attribute of the cell it stands on. Cells are written, moved and broken
between the moments at which the cursor is drawn, and what is written in place of a broken character
has the attributes of that character. So this module follows where in the buffer the attribute may
be: a place that the attribute is not in gets it only with the character that is written there.

A broken character hands its attributes to all cells of what is left of it. They stay the only ones
with the cursor if no continuation follows a marked cell that is one itself.
-/

namespace GuacNebula.Terminal

/-- The cell of a row has the cursor attribute. -/
def Row.Marked (row : Row) (column : Int) : Prop :=
  0 ≤ column ∧ column < row.length ∧ (row.characters column).attributes.cursor = true

/-- What follows the cell is a continuation only if the cell is none itself, and of a character of
no more than `GUAC_TERMINAL_MAX_CHAR_WIDTH` columns. -/
def Row.Whole (row : Row) (column : Int) : Prop :=
  column + 1 < row.length → (row.characters (column + 1)).value = charContinuation →
    (row.characters column).value ≠ charContinuation
      ∧ 1 ≤ (row.characters column).width ∧ (row.characters column).width ≤ 2

instance (row : Row) (column : Int) : Decidable (row.Whole column) :=
  inferInstanceAs (Decidable (_ → _ → _))

/-- The cells of a row that have the cursor attribute are among the given ones, and whole. -/
def Row.MarkedIn (row : Row) (places : Int → Prop) : Prop :=
  ∀ column, row.Marked column → places column ∧ row.Whole column

/-- The places of a buffer that have the cursor attribute, by their rows of the ring and their
columns, are among the given ones. -/
def Buffer.MarkedIn (buffer : Buffer) (places : Int → Int → Prop) : Prop :=
  ∀ index, (buffer.rows index).MarkedIn (places index)

/-- The character stands for itself and does not carry the cursor. -/
structure TerminalChar.Plain (character : TerminalChar) : Prop where
  unmarked : character.attributes.cursor = false
  whole : character.value ≠ charContinuation

/-! ## Rows -/

namespace Row

variable {row : Row} {places others : Int → Prop}

theorem MarkedIn.mono (marked : row.MarkedIn places)
    (allowed : ∀ column, row.Marked column → places column → others column) :
    row.MarkedIn others :=
  fun column mark => ⟨allowed column mark (marked column mark).1, (marked column mark).2⟩

/-- Default characters at the end of a row are not marked. -/
theorem MarkedIn.grow (marked : row.MarkedIn places) {defaultCharacter : TerminalChar}
    (plain : defaultCharacter.Plain) (width : Int) :
    (row.grow defaultCharacter width).MarkedIn places := by
  unfold Row.grow
  split
  · rename_i extended
    rintro column ⟨nonneg, within, cursor⟩
    dsimp only at within cursor
    split at cursor
    · rw [plain.unmarked] at cursor
      cases cursor
    · rename_i kept
      have old : column < row.length := by omega
      obtain ⟨place, whole⟩ := marked column ⟨nonneg, old, cursor⟩
      refine ⟨place, fun next continued => ?_⟩
      dsimp only at next continued ⊢
      rw [if_neg kept]
      split at continued
      · exact absurd continued plain.whole
      · exact whole (by omega) continued
  · exact marked

/-- A column that takes the continuation of a character follows one that the character is written
to. -/
theorem written_of_continued {start stop column : Int} {width : Nat} (positive : width ≠ 0)
    (after : start ≤ column + 1)
    (before : column + 1 - (column + 1 - start) % width ≤ stop)
    (inner : (column + 1 - start) % width ≠ 0) :
    start ≤ column ∧ column - (column - start) % width ≤ stop := by
  have size : (0 : Int) < width := by omega
  have nonneg := Int.emod_nonneg (column + 1 - start) size.ne'
  have bound := Int.emod_lt_of_pos (column + 1 - start) size
  have split := Int.emod_add_mul_ediv (column + 1 - start) width
  have whole : 0 ≤ (width : Int) * ((column + 1 - start) / width) :=
    Int.mul_nonneg size.le (Int.ediv_nonneg (by omega) size.le)
  have part : (column - start) % width = (column + 1 - start) % width - 1 := by
    have moved : column - start = (column + 1 - start) % width - 1
        + width * ((column + 1 - start) / width) := by
      omega
    rw [moved, Int.add_mul_emod_self_left]
    exact Int.emod_eq_of_lt (by omega) (by omega)
  rw [part]
  omega

/-- Writing an unmarked character takes the mark from the cells it is written to. -/
theorem MarkedIn.set (marked : row.MarkedIn places) {character : TerminalChar}
    (plain : character.Plain) (positive : character.width ≠ 0) (start stop : Int) :
    (row.set start stop character).MarkedIn
      fun column => places column ∧ ¬(start ≤ column ∧ column ≤ stop) := by
  have size : (0 : Int) < character.width := by omega
  rintro column ⟨nonneg, within, cursor⟩
  unfold Row.set at within cursor
  dsimp only at within cursor
  split at cursor
  · split at cursor
    · rw [plain.unmarked] at cursor
      cases cursor
    · change character.attributes.cursor = true at cursor
      rw [plain.unmarked] at cursor
      cases cursor
  · rename_i unwritten
    obtain ⟨place, whole⟩ := marked column ⟨nonneg, within, cursor⟩
    have part := Int.emod_nonneg (column - start) size.ne'
    refine ⟨⟨place, fun inside => unwritten ⟨inside.1, by omega⟩⟩, fun next continued => ?_⟩
    unfold Row.set at next continued ⊢
    dsimp only at next continued ⊢
    rw [if_neg unwritten]
    split at continued
    · rename_i written
      split at continued
      · exact absurd continued plain.whole
      · rename_i inner
        exact absurd (written_of_continued positive written.1 written.2 inner) unwritten
    · exact whole next continued

theorem set_one (row : Row) {character : TerminalChar} (single : character.width = 1)
    (column : Int) :
    row.set column column character =
      { row with characters := Function.update row.characters column character } := by
  unfold Row.set
  congr 1
  funext other
  rw [single]
  dsimp only
  rw [Int.natCast_one, Int.emod_one]
  by_cases same : other = column
  · subst same
    rw [Function.update_self, if_pos (by omega), if_pos rfl]
  · rw [Function.update_of_ne same, if_neg (by omega)]

/-- Writing a single cell that may be marked keeps the marks among the given places. -/
theorem MarkedIn.setOne (marked : row.MarkedIn places) {character : TerminalChar}
    (value : character.value ≠ charContinuation) (single : character.width = 1) {column : Int}
    (allowed : character.attributes.cursor = true → places column) :
    (row.set column column character).MarkedIn places := by
  rw [set_one row single]
  rintro other ⟨nonneg, within, cursor⟩
  dsimp only at within cursor
  by_cases here : other = column
  · subst here
    rw [Function.update_self] at cursor
    refine ⟨allowed cursor, fun _ _ => ?_⟩
    dsimp only
    rw [Function.update_self, single]
    exact ⟨value, by omega, by omega⟩
  · rw [Function.update_of_ne here] at cursor
    obtain ⟨place, whole⟩ := marked other ⟨nonneg, within, cursor⟩
    refine ⟨place, fun next continued => ?_⟩
    dsimp only at next continued ⊢
    rw [Function.update_of_ne here]
    by_cases follows : other + 1 = column
    · rw [follows, Function.update_self] at continued
      exact absurd continued value
    · rw [Function.update_of_ne follows] at continued
      exact whole next continued

end Row

/-! ## The buffer -/

namespace Buffer

variable {buffer : Buffer} {places others : Int → Int → Prop}

theorem MarkedIn.mono (marked : buffer.MarkedIn places)
    (allowed : ∀ index column, (buffer.rows index).Marked column → places index column →
      others index column) : buffer.MarkedIn others :=
  fun index => (marked index).mono (allowed index)

/-- A row is replaced by one whose marks are at places of its own. -/
theorem MarkedIn.setRow (marked : buffer.MarkedIn places) {row : Int} {value : Row}
    {own : Int → Prop} (fits : value.MarkedIn own) :
    (buffer.setRow row value).MarkedIn fun index column =>
      if index = buffer.index row then own column else places index column := by
  intro index
  unfold Buffer.setRow
  dsimp only
  by_cases here : index = buffer.index row
  · rw [here, Function.update_self]
    simp only [if_true]
    exact fits
  · rw [Function.update_of_ne here]
    simp only [if_neg here]
    exact marked index

theorem MarkedIn.getRow (marked : buffer.MarkedIn places)
    (plain : buffer.defaultCharacter.Plain) (row width : Int) :
    (bufferGetRow buffer row width).MarkedIn places := by
  apply (marked.setRow ((marked (buffer.index row)).grow plain width)).mono
  intro index column _ place
  split at place
  · rename_i here
    exact here ▸ place
  · exact place

end Buffer

section Columns

variable {buffer : Buffer} {places : Int → Int → Prop} {row : Int} {character : TerminalChar}

/-- Writing an unmarked character to columns of a row takes the marks from them. -/
theorem bufferSetColumns_markedIn (marked : buffer.MarkedIn places)
    (default : buffer.defaultCharacter.Plain) (plain : character.Plain)
    (positive : character.width ≠ 0) (start stop : Int) :
    (bufferSetColumns buffer row start stop character).MarkedIn fun index column =>
      places index column ∧ ¬(index = buffer.index row ∧ start ≤ column ∧ column ≤ stop) := by
  have extended := marked.getRow default row (stop + 1)
  have written : ((bufferGetRow buffer row (stop + 1)).setRow row
      (((bufferGetRow buffer row (stop + 1)).row row).set start stop character)).MarkedIn
        fun index column =>
          places index column ∧ ¬(index = buffer.index row ∧ start ≤ column ∧ column ≤ stop) := by
    apply (extended.setRow ((extended (buffer.index row)).set plain positive start stop)).mono
    intro index column _ place
    split at place
    · rename_i here
      change index = buffer.index row at here
      exact ⟨here ▸ place.1, fun inside => place.2 inside.2⟩
    · rename_i elsewhere
      exact ⟨place, fun inside => elsewhere inside.1⟩
  unfold bufferSetColumns
  rw [if_neg positive]
  dsimp only
  split
  · exact written
  · exact written

/-- Writing one cell that may be marked keeps the marks among the given places. -/
theorem bufferSetColumns_markedOne (marked : buffer.MarkedIn places)
    (default : buffer.defaultCharacter.Plain) (value : character.value ≠ charContinuation)
    (single : character.width = 1) {column : Int}
    (allowed : character.attributes.cursor = true → places (buffer.index row) column) :
    (bufferSetColumns buffer row column column character).MarkedIn places := by
  have extended := marked.getRow default row (column + 1)
  have written : ((bufferGetRow buffer row (column + 1)).setRow row
      (((bufferGetRow buffer row (column + 1)).row row).set column column character)).MarkedIn
        places := by
    apply (extended.setRow ((extended (buffer.index row)).setOne value single allowed)).mono
    intro index other _ place
    split at place
    · rename_i here
      exact here ▸ place
    · exact place
  unfold bufferSetColumns
  rw [if_neg (by omega)]
  dsimp only
  split
  · exact written
  · exact written

end Columns

/-! ## Breaks -/

/-- The columns right of where the scan for the start of a character ends are continuations. -/
theorem scanStart_spec (characters : Int → TerminalChar) (column : Nat) :
    scanStart characters column ≤ column
      ∧ ∀ other : Int, (scanStart characters column : Int) < other → other ≤ column →
        (characters other).value = charContinuation := by
  induction column with
  | zero =>
      refine ⟨le_rfl, fun other after before => ?_⟩
      rw [scanStart] at after
      omega
  | succ column ih =>
      rw [scanStart]
      split
      · rename_i continued
        refine ⟨ih.1.trans (Nat.le_succ column), fun other after before => ?_⟩
        by_cases last : other = (column : Int) + 1
        · rw [last]
          exact continued
        · exact ih.2 other after (by omega)
      · exact ⟨le_rfl, fun other after before => by omega⟩

/-- The columns up to where the scan for the end of a character ends are continuations, and so is
none that follows them among the ones left. -/
theorem scanEnd_spec (characters : Int → TerminalChar) (remaining : Nat) (column : Int) :
    column ≤ scanEnd characters remaining column
      ∧ scanEnd characters remaining column ≤ column + remaining
      ∧ ∀ other, column < other → other ≤ scanEnd characters remaining column →
        (characters other).value = charContinuation := by
  induction remaining generalizing column with
  | zero =>
      rw [scanEnd]
      exact ⟨le_rfl, by omega, fun other after before => by omega⟩
  | succ remaining ih =>
      rw [scanEnd]
      split
      · rename_i continued
        obtain ⟨start, stop, inner⟩ := ih (column + 1)
        refine ⟨by omega, by omega, fun other after before => ?_⟩
        by_cases first : other = column + 1
        · rw [first]
          exact continued
        · exact inner other (by omega) before
      · exact ⟨le_rfl, by omega, fun other after before => by omega⟩

/-- What is left of a broken character has a whole cell at its start only if that is all of it. -/
theorem broken_single {row : Row} {start stop : Int} (within : stop < row.length)
    (ordered : start ≤ stop)
    (continued : ∀ column, start < column → column ≤ stop →
      (row.characters column).value = charContinuation)
    (broken : Broken row.characters (brokenStart row.characters start stop) stop)
    (whole : row.Whole (brokenStart row.characters start stop)) :
    brokenStart row.characters start stop = stop := by
  by_cases complete : (row.characters start).value ≠ charContinuation
      ∧ ((row.characters start).width : Int) < stop - start + 1
  · have first : brokenStart row.characters start stop = start + (row.characters start).width :=
      if_pos complete
    rw [first] at whole ⊢
    by_contra apart
    obtain ⟨solid, wide, -⟩ := whole (by omega) (continued _ (by omega) (by omega))
    by_cases empty : (row.characters start).width = 0
    · rw [empty, Int.natCast_zero, Int.add_zero, empty] at wide
      exact absurd wide (by decide)
    · exact solid (continued _ (by omega) (by omega))
  · have first : brokenStart row.characters start stop = start := if_neg complete
    rw [first] at whole broken ⊢
    by_contra apart
    obtain ⟨solid, -, narrow⟩ := whole (by omega) (continued _ (by omega) (by omega))
    rcases broken with continuation | width
    · exact solid continuation
    · exact complete ⟨solid, by omega⟩

/-- Where the clearing of what is left of a character starts. -/
theorem brokenStart_bounds (characters : Int → TerminalChar) {start stop : Int}
    (ordered : start ≤ stop) :
    start ≤ brokenStart characters start stop ∧ brokenStart characters start stop ≤ stop := by
  unfold brokenStart
  split <;> omega

/-! ## The grid -/

/-- The characters that rows are filled with are plain, and take one column. -/
structure Grid.PlainDefaults (grid : Grid) : Prop where
  defaultCharacter : grid.buffer.defaultCharacter.Plain
  defaultChar : grid.defaultChar.Plain
  defaultWidth : grid.defaultChar.width = 1
  currentAttributes : grid.currentAttributes.cursor = false

theorem Grid.PlainDefaults.keeps {before after : Grid} (plain : before.PlainDefaults)
    (keeps : before.Keeps after) : after.PlainDefaults where
  defaultCharacter := keeps.defaultCharacter ▸ plain.defaultCharacter
  defaultChar := keeps.defaultChar ▸ plain.defaultChar
  defaultWidth := keeps.defaultChar ▸ plain.defaultWidth
  currentAttributes := keeps.currentAttributes ▸ plain.currentAttributes

section Breaks

variable {grid : Grid} {places : Int → Int → Prop}

theorem setColumnsRaw_markedIn (plain : grid.PlainDefaults)
    (marked : grid.buffer.MarkedIn places) {character : TerminalChar}
    (unmarked : character.Plain) (positive : character.width ≠ 0) (row start stop : Int) :
    (setColumnsRaw grid row start stop character).buffer.MarkedIn fun index column =>
      places index column
        ∧ ¬(index = grid.buffer.index row ∧ start ≤ column ∧ column ≤ stop) :=
  bufferSetColumns_markedIn marked plain.defaultCharacter unmarked positive start stop

theorem setColumnsRaw_markedOne (plain : grid.PlainDefaults)
    (marked : grid.buffer.MarkedIn places) {character : TerminalChar}
    (value : character.value ≠ charContinuation) (single : character.width = 1)
    {row column : Int}
    (allowed : character.attributes.cursor = true → places (grid.buffer.index row) column) :
    (setColumnsRaw grid row column column character).buffer.MarkedIn places :=
  bufferSetColumns_markedOne marked plain.defaultCharacter value single allowed

theorem cleared_value (character : TerminalChar) :
    character.cleared.value ≠ charContinuation := by
  change (32 : Int) ≠ -1
  decide

/-- Clearing what is left of a broken character marks no cell that was not marked. -/
theorem clearBroken_markedIn (plain : grid.PlainDefaults)
    (marked : grid.buffer.MarkedIn places) {row start stop : Int} (nonneg : 0 ≤ start)
    (ordered : start ≤ stop) (within : stop < (grid.row row).length)
    (continued : ∀ column, start < column → column ≤ stop →
      ((grid.row row).characters column).value = charContinuation) :
    (clearBroken grid row start stop).buffer.MarkedIn places := by
  have bounds := brokenStart_bounds (grid.row row).characters ordered
  have plain' := plain.keeps ((Grid.Keeps.access grid row start stop).trans
    (Grid.Keeps.access (grid.access row start stop) row
      (brokenStart (grid.row row).characters start stop)
      (brokenStart (grid.row row).characters start stop)))
  unfold clearBroken
  dsimp only
  split
  · rename_i broken
    by_cases cursor : ((grid.row row).characters
        (brokenStart (grid.row row).characters start stop)).attributes.cursor = true
    · obtain ⟨place, whole⟩ := marked (grid.buffer.index row) _
        ⟨nonneg.trans bounds.1, bounds.2.trans_lt within, cursor⟩
      have single := broken_single within ordered continued broken whole
      rw [single] at place plain' ⊢
      apply setColumnsRaw_markedOne plain' marked (cleared_value _) rfl
      exact fun _ => place
    · have blank : ((grid.row row).characters
          (brokenStart (grid.row row).characters start stop)).cleared.Plain :=
        ⟨Bool.eq_false_iff.mpr cursor, cleared_value _⟩
      apply Buffer.MarkedIn.mono (setColumnsRaw_markedIn plain' marked blank _ _ _ _)
      · exact fun index column _ place => place.1
      · exact Nat.one_ne_zero
  · exact marked

/-- The cells left of an edge are all initialized. -/
def Row.EdgeWithin (row : Row) (edge : Int) : Prop := edge ≤ max 0 row.length

theorem forceBreakLeft_markedIn (plain : grid.PlainDefaults)
    (marked : grid.buffer.MarkedIn places) {row edge : Int}
    (within : (grid.row row).EdgeWithin edge) :
    (forceBreakLeft grid row edge).buffer.MarkedIn places := by
  unfold forceBreakLeft
  split
  · rename_i positive
    have last : edge - 1 < (grid.row row).length := by
      unfold Row.EdgeWithin at within
      omega
    obtain ⟨start, continued⟩ := scanStart_spec (grid.row row).characters (edge - 1).toNat
    have size := Int.toNat_of_nonneg (show 0 ≤ edge - 1 by omega)
    apply clearBroken_markedIn plain marked (by omega) (by omega) last
    exact fun column after before => continued column after (by omega)
  · exact marked

theorem forceBreakRight_markedIn (plain : grid.PlainDefaults)
    (marked : grid.buffer.MarkedIn places) (row edge : Int) :
    (forceBreakRight grid row edge).buffer.MarkedIn places := by
  unfold forceBreakRight
  dsimp only
  split
  · rename_i inside
    obtain ⟨start, stop, continued⟩ := scanEnd_spec (grid.row row).characters
      ((grid.row row).length - 1 - edge).toNat edge
    have size := Int.toNat_of_nonneg (show 0 ≤ (grid.row row).length - 1 - edge by omega)
    have plain' := plain.keeps (Grid.Keeps.access grid row edge
      (min (scanEnd (grid.row row).characters ((grid.row row).length - 1 - edge).toNat edge + 1)
        ((grid.row row).length - 1)))
    apply clearBroken_markedIn plain' marked inside.1 start
    · change scanEnd (grid.row row).characters ((grid.row row).length - 1 - edge).toNat edge
        < (grid.row row).length
      omega
    · exact continued
  · exact marked

end Breaks

/-! ## Where the cursor and the ends of rows are -/

theorem Row.grow_length (defaultCharacter : TerminalChar) (row : Row) (width : Int) :
    (row.grow defaultCharacter width).length = max row.length width := by
  unfold Row.grow
  split
  · rename_i extended
    exact (max_eq_right extended).symm
  · rename_i kept
    exact (max_eq_left (not_le.mp kept).le).symm

/-- Rows only grow, as far as the last column that is set. -/
structure Grid.Extends (before after : Grid) : Prop where
  length : ∀ index, (before.buffer.rows index).length ≤ (after.buffer.rows index).length
  index : ∀ row, after.buffer.index row = before.buffer.index row
  visibleCursorRow : after.visibleCursorRow = before.visibleCursorRow
  visibleCursorCol : after.visibleCursorCol = before.visibleCursorCol

namespace Grid.Extends

variable {first second third : Grid}

theorem refl (grid : Grid) : grid.Extends grid :=
  ⟨fun _ => le_rfl, fun _ => rfl, rfl, rfl⟩

theorem trans (left : first.Extends second) (right : second.Extends third) :
    first.Extends third where
  length index := (left.length index).trans (right.length index)
  index row := (right.index row).trans (left.index row)
  visibleCursorRow := right.visibleCursorRow.trans left.visibleCursorRow
  visibleCursorCol := right.visibleCursorCol.trans left.visibleCursorCol

theorem row (longer : first.Extends second) (row : Int) :
    (first.row row).length ≤ (second.row row).length := by
  unfold Grid.row Buffer.row
  rw [longer.index]
  exact longer.length _

theorem edgeWithin (longer : first.Extends second) {row edge : Int}
    (within : (first.row row).EdgeWithin edge) : (second.row row).EdgeWithin edge := by
  have rowLonger := longer.row row
  unfold Row.EdgeWithin at within ⊢
  omega

end Grid.Extends

theorem Buffer.setRow_row (buffer : Buffer) (row : Int) (value : Row) :
    (buffer.setRow row value).row row = value :=
  Function.update_self ..

theorem setRow_length {buffer : Buffer} {row : Int} (value : Row)
    (longer : (buffer.row row).length ≤ value.length) (index : Int) :
    (buffer.rows index).length ≤ ((buffer.setRow row value).rows index).length := by
  unfold Buffer.setRow
  dsimp only
  by_cases here : index = buffer.index row
  · rw [here, Function.update_self]
    exact longer
  · rw [Function.update_of_ne here]

theorem bufferGetRow_length (buffer : Buffer) (row width index : Int) :
    (buffer.rows index).length ≤ ((bufferGetRow buffer row width).rows index).length := by
  apply setRow_length
  rw [Row.grow_length]
  exact le_max_left ..

theorem bufferSetColumns_rowLength (buffer : Buffer) (row start stop index : Int)
    (character : TerminalChar) :
    (buffer.rows index).length
      ≤ ((bufferSetColumns buffer row start stop character).rows index).length := by
  unfold bufferSetColumns
  split
  · exact le_rfl
  · have extended := bufferGetRow_length buffer row (stop + 1) index
    dsimp only
    generalize bufferGetRow buffer row (stop + 1) = grown at extended ⊢
    have written := setRow_length ((grown.row row).set start stop character) le_rfl index
    split
    · exact extended.trans written
    · exact extended.trans written

theorem CellWrites.extended {first last : Grid} (writes : CellWrites first last) :
    first.Extends last := by
  induction writes with
  | refl => exact .refl first
  | getRow previous row width ih =>
      exact ih.trans ⟨bufferGetRow_length _ _ _, fun _ => rfl, rfl, rfl⟩
  | access previous row start stop ih =>
      exact ih.trans ⟨fun _ => le_rfl, fun _ => rfl, rfl, rfl⟩
  | @set grid previous row start stop character ih =>
      have same := bufferSetColumns_same grid.buffer row start stop character
      exact ih.trans ⟨fun index => bufferSetColumns_rowLength ..,
        Buffer.index_congr same.2.2 same.1, rfl, rfl⟩

/-- A row is extended to the last column that is set. -/
theorem bufferSetColumns_lastLength (buffer : Buffer) (row start stop : Int)
    {character : TerminalChar} (positive : character.width ≠ 0) :
    stop + 1 ≤ ((bufferSetColumns buffer row start stop character).row row).length := by
  have extended : ((bufferGetRow buffer row (stop + 1)).row row).length
      = max (buffer.row row).length (stop + 1) :=
    (congrArg Row.length (Buffer.setRow_row ..)).trans (Row.grow_length ..)
  unfold bufferSetColumns
  rw [if_neg positive]
  dsimp only
  generalize bufferGetRow buffer row (stop + 1) = grown at extended
  have written : ((grown.setRow row ((grown.row row).set start stop character)).row row).length
      = ((grown.row row).set start stop character).length :=
    congrArg Row.length (Buffer.setRow_row ..)
  have same : ((grown.row row).set start stop character).length = (grown.row row).length := rfl
  have reached : stop + 1
      ≤ ((grown.setRow row ((grown.row row).set start stop character)).row row).length := by
    omega
  split
  · exact reached
  · exact reached

/-! ## Setting and clearing -/

section Columns

variable {grid : Grid} {places : Int → Int → Prop}

theorem forceBreak_markedIn (plain : grid.PlainDefaults) (marked : grid.buffer.MarkedIn places)
    {row edge : Int} (within : (grid.row row).EdgeWithin edge) :
    (forceBreak grid row edge).buffer.MarkedIn places := by
  have read : CellWrites grid (grid.getRow row 0) := CellWrites.refl.getRow row 0
  have left := read.trans (forceBreakLeft_writes (grid.getRow row 0) row edge)
  have plain' := plain.keeps read.keeps.1
  apply forceBreakRight_markedIn (plain.keeps left.keeps.1)
  apply forceBreakLeft_markedIn plain' (marked.getRow plain.defaultCharacter row 0)
  exact read.extended.edgeWithin within

theorem forceBreaks_markedIn (plain : grid.PlainDefaults)
    (marked : grid.buffer.MarkedIn places) {row left right : Int}
    (first : (grid.row row).EdgeWithin left) (last : (grid.row row).EdgeWithin right) :
    (forceBreaks grid row left right).buffer.MarkedIn places := by
  have broken := forceBreak_writes grid row left
  exact forceBreak_markedIn (plain.keeps broken.keeps.1) (forceBreak_markedIn plain marked first)
    (broken.extended.edgeWithin last)

/-- The places that may be marked after columns have been set: those that might be before, less the
columns, and the one of the visible cursor if it stands in them. -/
def Grid.SetPlaces (grid : Grid) (places : Int → Int → Prop) (row start stop index column : Int) :
    Prop :=
  (places index column ∧ ¬(index = grid.buffer.index row ∧ start ≤ column ∧ column ≤ stop))
    ∨ (grid.CursorIn row start stop ∧ index = grid.buffer.index row
      ∧ column = grid.visibleCursorCol)

/-- Setting columns takes the mark from their cells but the one with the visible cursor, if the
character takes no more than its column. -/
theorem setColumnsCursor_markedIn (plain : grid.PlainDefaults)
    (marked : grid.buffer.MarkedIn places) {character : TerminalChar} (unmarked : character.Plain)
    (positive : character.width ≠ 0) {row start stop : Int}
    (single : grid.CursorIn row start stop → character.width = 1) :
    (setColumnsCursor grid row start stop character).buffer.MarkedIn
      (grid.SetPlaces places row start stop) := by
  have raw := setColumnsRaw_markedIn plain marked unmarked positive row start stop
  have writes : CellWrites grid (setColumnsRaw grid row start stop character) :=
    CellWrites.refl.set row start stop character
  unfold setColumnsCursor
  dsimp only
  generalize setColumnsRaw grid row start stop character = set at writes raw
  have longer := writes.extended
  have same : set.CursorIn row start stop ↔ grid.CursorIn row start stop := by
    unfold Grid.CursorIn
    rw [longer.visibleCursorRow, longer.visibleCursorCol]
  split
  · rename_i cursor
    have width : character.withCursor.width = 1 := single (same.mp cursor)
    have value : character.withCursor.value ≠ charContinuation := unmarked.whole
    have outside : set.buffer.MarkedIn (grid.SetPlaces places row start stop) :=
      raw.mono fun index column _ place => Or.inl place
    apply setColumnsRaw_markedOne (plain.keeps writes.keeps.1) outside value width
    exact fun _ => Or.inr ⟨same.mp cursor, longer.index row, longer.visibleCursorCol⟩
  · exact raw.mono fun index column _ place => Or.inl place

theorem setColumns_markedIn (plain : grid.PlainDefaults)
    (marked : grid.buffer.MarkedIn places) {character : TerminalChar} (unmarked : character.Plain)
    (positive : character.width ≠ 0) {row start stop : Int}
    (single : grid.CursorIn row start stop → character.width = 1)
    (within : start ≤ max 0 (max (grid.row row).length (stop + 1))) :
    (setColumns grid row start stop character).buffer.MarkedIn
      (grid.SetPlaces places row start stop) := by
  have raw : CellWrites grid (setColumnsRaw grid row start stop character) :=
    CellWrites.refl.set row start stop character
  have cursor : CellWrites (setColumnsRaw grid row start stop character)
      (setColumnsCursor grid row start stop character) := by
    unfold setColumnsCursor
    exact CellWrites.ite (CellWrites.refl.set ..) .refl
  have set := raw.trans cursor
  have last := (bufferSetColumns_lastLength grid.buffer row start stop positive).trans
    (cursor.extended.row row)
  have first := set.extended.row row
  unfold setColumns
  apply forceBreaks_markedIn (plain.keeps set.keeps.1)
    (setColumnsCursor_markedIn plain marked unmarked positive single)
  · unfold Row.EdgeWithin
    omega
  · unfold Row.EdgeWithin
    omega

end Columns

end GuacNebula.Terminal
