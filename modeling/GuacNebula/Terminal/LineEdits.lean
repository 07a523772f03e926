import GuacNebula.Terminal.CursorMarks
import GuacNebula.Terminal.CharacterEdits

/-! # Inserting and deleting lines

`CSI L` and `CSI M` edit the rows from the one of the cursor to the end of the scroll region: they
insert blank rows at the cursor, or delete rows there. The rows should be spliced. A deletion from
the whole screen moves the rows that go into the scrollback instead.

The handlers pass their parameter on as it is. Rows are copied within the region only, but the rows
that are cleared are as many as are asked for: from the cursor down, beyond the end of the region,
or from the end of the region up, beyond the cursor and into the scrollback. The ring is moved by
as many rows as well.
-/

namespace GuacNebula.Terminal

open CInt

/-! ## The edits -/

/-- The functions that edit lines: `L` and `M`. -/
inductive LineEdit
  | insert | delete
  deriving DecidableEq, Repr

def LineEdit.function : LineEdit → CsiFunction
  | .insert => .insertLines
  | .delete => .deleteLines

/-- What an edit of lines starts from: the height of the terminal, the row of the cursor, the scroll
region, and the number of lines to edit. -/
structure LineShape where
  height : Int
  row : Int
  scrollStart : Int
  scrollEnd : Int
  amount : Int

/-- The shape of an edit of lines in the given state. -/
def Console.lineShape (console : Console) (amount : Int) : LineShape where
  height := console.grid.termHeight
  row := console.cursorRow
  scrollStart := console.scrollStart
  scrollEnd := console.scrollEnd
  amount := csiAmount amount

/-- The rows that are edited: those from the cursor to the end of the scroll region. -/
def LineShape.region (shape : LineShape) : List Int :=
  (List.range (shape.scrollEnd - shape.row + 1).toNat).map fun place : Nat => shape.row + place

/-- The list with elements inserted at its beginning or deleted there, at the same length. -/
def LineEdit.splice {α : Type} (amount : Nat) (blank : α) (lines : List α) : LineEdit → List α
  | .insert => (List.replicate amount blank ++ lines).take lines.length
  | .delete => lines.drop amount ++ List.replicate (min amount lines.length) blank

/-- What the rows of the region are to show: another row, or nothing. -/
def LineEdit.sources (shape : LineShape) (edit : LineEdit) : List (Option Int) :=
  edit.splice shape.amount.toNat none (shape.region.map some)

/-- The number of rows that are pushed into the scrollback. -/
def LineEdit.pushed (shape : LineShape) : LineEdit → Int
  | .insert => 0
  | .delete =>
      if shape.row = 0 ∧ shape.scrollEnd = shape.height - 1 then min shape.amount shape.height
      else 0

/-- A row is blank as far as the screen is wide. -/
def Grid.RowBlank (grid : Grid) (row : Int) : Prop :=
  ∀ column, 0 ≤ column → column < grid.termWidth →
    (grid.cell row column).unmarked = grid.blank.unmarked

/-- A row shows what another one has shown, or nothing. -/
def Grid.ShowsRow (before after : Grid) (row : Int) : Option Int → Prop
  | some source => ∀ column, 0 ≤ column → after.cell row column = before.cell source column
  | none => after.RowBlank row

/-- A row of the screen, or one of the scrollback that the screen can be scrolled back to. -/
def Console.Stored (console : Console) (row : Int) : Prop :=
  (0 ≤ row ∨ -getAvailableScroll console ≤ row) ∧ row < console.grid.termHeight

/-- The edit splices the rows of the region, and no other row changes. The sum of the row and the
amount, which the program computes as an `int`, does not overflow. -/
structure LinesEffect (edit : LineEdit) (before : Console) (amount : Int) (after : Console) :
    Prop where
  summed : FitsInt (before.cursorRow + csiAmount amount)
  top : 0 ≤ after.grid.buffer.top ∧ after.grid.buffer.top < after.grid.buffer.available
  moved : ∀ row, after.grid.buffer.index row =
    before.grid.buffer.index (row + edit.pushed (before.lineShape amount))
  outside : ∀ row, before.Stored row →
    before.grid.termHeight - before.grid.buffer.available
      ≤ row - edit.pushed (before.lineShape amount) →
    row - edit.pushed (before.lineShape amount) ∉ (before.lineShape amount).region →
    ∀ column, after.grid.cell (row - edit.pushed (before.lineShape amount)) column
      = before.grid.cell row column
  inside : List.Forall₂ (before.grid.ShowsRow after.grid) (before.lineShape amount).region
    (edit.sources (before.lineShape amount))

/-- The values that an edit of lines can have. -/
structure LineShape.Valid (shape : LineShape) : Prop where
  height : FitsInt (shape.height + 1)
  row : 0 ≤ shape.row ∧ shape.row < shape.height
  region : 0 ≤ shape.scrollStart ∧ shape.scrollStart ≤ shape.scrollEnd
    ∧ shape.scrollEnd < shape.height
  amount : 1 ≤ shape.amount ∧ FitsInt shape.amount

/-- The ring has room for the screen and for what it can be scrolled back to. -/
structure Console.Ringed (console : Console) : Prop where
  ring : console.grid.termHeight ≤ console.grid.buffer.available
  size : FitsInt console.grid.buffer.available
  length : console.grid.buffer.length ≤ console.grid.buffer.available
  top : 0 ≤ console.grid.buffer.top ∧ console.grid.buffer.top < console.grid.buffer.available
  width : 0 < console.grid.termWidth ∧ FitsInt console.grid.termWidth

/-! ## Rows of the region -/

section Region

variable {shape : LineShape} {edit : LineEdit} {row : Int}

/-- The row that a row of the region is to show. -/
def LineEdit.source (shape : LineShape) (row : Int) : LineEdit → Option Int
  | .insert => if row < shape.row + shape.amount then none else some (row - shape.amount)
  | .delete =>
      if row + shape.amount ≤ shape.scrollEnd then some (row + shape.amount) else none

theorem LineShape.mem_region : row ∈ shape.region ↔ shape.row ≤ row ∧ row ≤ shape.scrollEnd := by
  unfold region
  rw [List.mem_map]
  constructor
  · rintro ⟨place, member, rfl⟩
    have inside := List.mem_range.mp member
    omega
  · intro inside
    exact ⟨(row - shape.row).toNat, List.mem_range.mpr (by omega), by omega⟩

theorem LineEdit.sources_eq (positive : 0 ≤ shape.amount) :
    edit.sources shape = shape.region.map (edit.source shape) := by
  have size : shape.region.length = (shape.scrollEnd - shape.row + 1).toNat := by
    unfold LineShape.region
    rw [List.length_map, List.length_range]
  have line (place : Nat) (inside : place < shape.region.length) :
      shape.region[place] = shape.row + place := by
    simp only [LineShape.region, List.getElem_map, List.getElem_range]
  cases edit with
  | insert =>
      refine List.ext_getElem ?_ fun place left right => ?_
      · simp only [sources, splice, List.length_take, List.length_append, List.length_map]
        omega
      · rw [List.length_map] at right
        simp only [sources, splice, source, List.getElem_take, List.getElem_append,
          List.length_replicate, List.getElem_replicate, List.getElem_map, line]
        split_ifs
        all_goals first | rfl | exact congrArg some (by omega) | omega
  | delete =>
      refine List.ext_getElem ?_ fun place left right => ?_
      · simp only [sources, splice, List.length_drop, List.length_append, List.length_map,
          List.length_replicate]
        omega
      · rw [List.length_map] at right
        simp only [sources, splice, source, List.getElem_append, List.length_drop,
          List.length_map, List.getElem_drop, List.getElem_replicate, List.getElem_map, line]
        split_ifs
        all_goals first | rfl | exact congrArg some (by omega) | omega

end Region

/-! ## Copied rows -/

section Copied

variable {buffer : Buffer} {offset step row column : Int} {remaining : Nat}

/-- A copy of a row shows what the row has shown. -/
theorem bufferCopyRow_moved (nonneg : 0 ≤ column) :
    ((bufferCopyRow buffer row offset).row (row + offset)).cell buffer.defaultCharacter column
      = (buffer.row row).cell buffer.defaultCharacter column := by
  rw [← bufferGetRow_cell buffer row 0 row column]
  refine Eq.trans (congrArg (Row.cell buffer.defaultCharacter · column) (Buffer.setRow_row ..)) ?_
  unfold Row.cell
  dsimp only
  split
  case isTrue inside => exact if_pos ⟨nonneg, inside⟩
  case isFalse => rfl

/-- If no row is written that is still to be copied, and none is written twice, the copies show what
the rows have shown. -/
theorem bufferCopyRowsLoop_moved (nonneg : 0 ≤ column)
    (written : ∀ first second : Nat, first < second → second < remaining →
      buffer.index (row + first * step + offset) ≠ buffer.index (row + second * step + offset))
    (read : ∀ first second : Nat, first < second → second < remaining →
      buffer.index (row + second * step) ≠ buffer.index (row + first * step + offset))
    {visited : Nat} (visit : visited < remaining) :
    ((bufferCopyRowsLoop offset step remaining row buffer).row
        (row + visited * step + offset)).cell buffer.defaultCharacter column
      = (buffer.row (row + visited * step)).cell buffer.defaultCharacter column := by
  induction remaining generalizing row buffer visited with
  | zero => exact absurd visit (Nat.not_lt_zero visited)
  | succ remaining ih =>
      have next (count : Nat) :
          row + ((count + 1 : Nat) : Int) * step = row + step + count * step := by
        rw [Int.natCast_succ, Int.add_mul]
        omega
      have begin : row + ((0 : Nat) : Int) * step = row := by
        rw [Int.natCast_zero, Int.zero_mul, Int.add_zero]
      unfold bufferCopyRowsLoop
      cases visited with
      | zero =>
          rw [begin]
          have rest : ((bufferCopyRowsLoop offset step remaining (row + step)
                (bufferCopyRow buffer row offset)).row (row + offset)).cell
                buffer.defaultCharacter column
              = ((bufferCopyRow buffer row offset).row (row + offset)).cell
                buffer.defaultCharacter column := by
            apply bufferCopyRowsLoop_cell
            intro later bound
            have apart := written 0 (later + 1) (Nat.succ_pos later) (Nat.succ_lt_succ bound)
            rwa [begin, next] at apart
          exact rest.trans (bufferCopyRow_moved nonneg)
      | succ visited =>
          rw [next]
          have apart := read 0 (visited + 1) (Nat.succ_pos visited) visit
          rw [begin, next] at apart
          have rest : ((bufferCopyRowsLoop offset step remaining (row + step)
                (bufferCopyRow buffer row offset)).row (row + step + visited * step + offset)).cell
                buffer.defaultCharacter column
              = ((bufferCopyRow buffer row offset).row (row + step + visited * step)).cell
                buffer.defaultCharacter column := by
            apply ih _ _ (Nat.lt_of_succ_lt_succ visit)
            · intro first second before bound
              have later := written (first + 1) (second + 1) (Nat.succ_lt_succ before)
                (Nat.succ_lt_succ bound)
              rwa [next, next] at later
            · intro first second before bound
              have later := read (first + 1) (second + 1) (Nat.succ_lt_succ before)
                (Nat.succ_lt_succ bound)
              rwa [next, next] at later
          exact rest.trans (bufferCopyRow_cell apart)

/-- Rows are copied in an order in which none of them is written before it has been copied. -/
theorem bufferCopyRows_moved (positive : 0 < buffer.available) {startRow endRow : Int}
    (room : endRow - startRow + |offset| < buffer.available) (shifted : offset ≠ 0)
    (nonneg : 0 ≤ column) (low : startRow ≤ row) (high : row ≤ endRow) :
    ((bufferCopyRows buffer startRow endRow offset).row (row + offset)).cell
        buffer.defaultCharacter column
      = (buffer.row row).cell buffer.defaultCharacter column := by
  have apart {first second : Int} (below : first - second < buffer.available)
      (above : second - first < buffer.available) (different : first ≠ second) :
      buffer.index first ≠ buffer.index second :=
    fun same => different (buffer.index_near positive below above same)
  unfold bufferCopyRows
  split
  case isTrue down =>
    rw [abs_of_pos down] at room
    have place : endRow + ((endRow - row).toNat : Int) * -1 = row := by omega
    have moved : ((bufferCopyRowsLoop offset (-1) (endRow - startRow + 1).toNat endRow buffer).row
          (endRow + ((endRow - row).toNat : Int) * -1 + offset)).cell buffer.defaultCharacter column
        = (buffer.row (endRow + ((endRow - row).toNat : Int) * -1)).cell buffer.defaultCharacter
          column :=
      bufferCopyRowsLoop_moved nonneg
        (fun first second before bound => apart (by omega) (by omega) (by omega))
        (fun first second before bound => apart (by omega) (by omega) (by omega)) (by omega)
    rwa [place] at moved
  case isFalse up =>
    rw [abs_of_neg (by omega)] at room
    have place : startRow + ((row - startRow).toNat : Int) * 1 = row := by omega
    have moved : ((bufferCopyRowsLoop offset 1 (endRow - startRow + 1).toNat startRow buffer).row
          (startRow + ((row - startRow).toNat : Int) * 1 + offset)).cell buffer.defaultCharacter
          column
        = (buffer.row (startRow + ((row - startRow).toNat : Int) * 1)).cell buffer.defaultCharacter
          column :=
      bufferCopyRowsLoop_moved nonneg
        (fun first second before bound => apart (by omega) (by omega) (by omega))
        (fun first second before bound => apart (by omega) (by omega) (by omega)) (by omega)
    rwa [place] at moved

end Copied

/-! ## Cleared rows -/

section Cleared

variable {grid : Grid} {row other : Int} {remaining : Nat}

theorem clearRange_rows (grid : Grid) (startRow endRow : Int) :
    clearRange grid startRow 0 endRow (grid.termWidth - 1)
      = clearRows (endRow - startRow + 1).toNat startRow grid := by
  unfold clearRange clearLast clearFirst
  simp only [lt_irrefl, if_false]

theorem Grid.cell_congr {before after : Grid} {first second : Int}
    (defaults : after.buffer.defaultCharacter = before.buffer.defaultCharacter)
    (same : after.row second = before.row first) (column : Int) :
    after.cell second column = before.cell first column := by
  rw [Grid.cell, Grid.cell, defaults, same]

theorem clearColumns_others (width : 0 ≤ grid.termWidth)
    (apart : grid.buffer.index other ≠ grid.buffer.index row) :
    (clearColumns grid row 0 (grid.termWidth - 1)).row other = grid.row other :=
  (clearColumns_effect grid row le_rfl (by omega)).others other apart

theorem clearColumns_index (grid : Grid) (row start stop other : Int) :
    (clearColumns grid row start stop).buffer.index other = grid.buffer.index other := by
  obtain ⟨keeps, top, _⟩ := (setColumns_writes grid row start stop grid.blank).keeps
  exact Buffer.index_congr top keeps.available other

/-- Other rows than those that are cleared stay the same. -/
theorem clearRows_others (width : 0 ≤ grid.termWidth)
    (apart : ∀ visited : Nat, visited < remaining →
      grid.buffer.index other ≠ grid.buffer.index (row + visited)) :
    (clearRows remaining row grid).row other = grid.row other := by
  induction remaining generalizing row grid with
  | zero => rfl
  | succ remaining ih =>
      have first := apart 0 (Nat.succ_pos remaining)
      rw [Int.natCast_zero, Int.add_zero] at first
      refine Eq.trans (ih ?_ fun visited bound => ?_) (clearColumns_others width first)
      · rw [(clearColumns_keeps ..).termWidth]
        exact width
      · have later := apart (visited + 1) (Nat.succ_lt_succ bound)
        rw [Int.natCast_succ, ← Int.add_assoc, Int.add_right_comm] at later
        rwa [clearColumns_index, clearColumns_index]

/-- The row has nothing but blanks of the grid as far as the grid is wide. -/
def Grid.Blanks (grid : Grid) (stored : Row) : Prop :=
  ∀ column, 0 ≤ column → column < grid.termWidth →
    (stored.cell grid.buffer.defaultCharacter column).unmarked = grid.blank.unmarked

theorem Grid.Keeps.rowBlank_iff {after : Grid} (keeps : grid.Keeps after) :
    after.RowBlank row ↔ grid.Blanks (after.row row) := by
  unfold Grid.RowBlank Grid.Blanks Grid.cell Grid.blank
  rw [keeps.termWidth, keeps.defaultCharacter, keeps.currentAttributes]

theorem Grid.RowBlank.congr {before after : Grid} (blank : before.RowBlank row)
    (keeps : before.Keeps after) (same : after.row other = before.row row) :
    after.RowBlank other := by
  rw [keeps.rowBlank_iff, same]
  exact (Grid.Keeps.refl before).rowBlank_iff.mp blank

/-- A row at the place in the ring of one that has been cleared is the one that has been cleared. -/
theorem clearColumns_row (same : grid.buffer.index other = grid.buffer.index row)
    (start stop : Int) :
    (clearColumns grid row start stop).row other = (clearColumns grid row start stop).row row := by
  rw [Grid.row, Grid.row, Buffer.row, Buffer.row, clearColumns_index, clearColumns_index, same]

/-- A row that has been cleared is blank, and so is any row at its place in the ring. -/
theorem clearColumns_rowBlank (width : 0 ≤ grid.termWidth)
    (same : grid.buffer.index other = grid.buffer.index row) :
    (clearColumns grid row 0 (grid.termWidth - 1)).RowBlank other := by
  have keeps := clearColumns_keeps grid row 0 (grid.termWidth - 1)
  intro column low high
  rw [keeps.termWidth] at high
  rw [Grid.cell_congr rfl (clearColumns_row same 0 (grid.termWidth - 1)), clearColumns_blank le_rfl (by omega) low (by omega), Grid.blank,
    Grid.blank, keeps.currentAttributes]

section Rule

variable {property : Row → Prop}

/-- What every row has that has been cleared, a row that has it keeps when rows are cleared. -/
theorem clearRows_stays (width : 0 ≤ grid.termWidth)
    (cleared : ∀ middle row other, grid.Keeps middle →
      middle.buffer.index other = middle.buffer.index row →
      property ((clearColumns middle row 0 (middle.termWidth - 1)).row other))
    (holds : property (grid.row other)) :
    property ((clearRows remaining row grid).row other) := by
  induction remaining generalizing row grid with
  | zero => exact holds
  | succ remaining ih =>
      have keeps := clearColumns_keeps grid row 0 (grid.termWidth - 1)
      refine ih ?_ (fun middle first later kept => cleared middle first later (keeps.trans kept)) ?_
      · rw [keeps.termWidth]
        exact width
      · by_cases same : grid.buffer.index other = grid.buffer.index row
        · exact cleared grid row other (.refl grid) same
        · rw [clearColumns_others width same]
          exact holds

/-- What every row has that has been cleared, all rows have that are cleared. -/
theorem clearRows_rows (width : 0 ≤ grid.termWidth)
    (cleared : ∀ middle row other, grid.Keeps middle →
      middle.buffer.index other = middle.buffer.index row →
      property ((clearColumns middle row 0 (middle.termWidth - 1)).row other))
    {visited : Nat} (visit : visited < remaining) :
    property ((clearRows remaining row grid).row (row + visited)) := by
  induction remaining generalizing row grid visited with
  | zero => exact absurd visit (Nat.not_lt_zero visited)
  | succ remaining ih =>
      have keeps := clearColumns_keeps grid row 0 (grid.termWidth - 1)
      have wide : 0 ≤ (clearColumns grid row 0 (grid.termWidth - 1)).termWidth := by
        rw [keeps.termWidth]
        exact width
      have later (middle : Grid) (first second : Int)
          (kept : (clearColumns grid row 0 (grid.termWidth - 1)).Keeps middle) :=
        cleared middle first second (keeps.trans kept)
      change property ((clearRows remaining (row + 1)
        (clearColumns grid row 0 (grid.termWidth - 1))).row _)
      cases visited with
      | zero =>
          rw [Int.natCast_zero, Int.add_zero]
          exact clearRows_stays wide later (cleared grid row row (.refl grid) rfl)
      | succ visited =>
          rw [Int.natCast_succ, ← Int.add_assoc, Int.add_right_comm]
          exact ih wide later (Nat.lt_of_succ_lt_succ visit)

end Rule

/-- A range of rows that is cleared is blank. -/
theorem clearRange_rowBlank (width : 0 ≤ grid.termWidth) {startRow endRow : Int}
    (low : startRow ≤ row) (high : row ≤ endRow) :
    (clearRange grid startRow 0 endRow (grid.termWidth - 1)).RowBlank row := by
  rw [(clearRange_keeps ..).rowBlank_iff, clearRange_rows]
  have cleared : grid.Blanks ((clearRows (endRow - startRow + 1).toNat startRow grid).row
      (startRow + ((row - startRow).toNat : Int))) := by
    refine clearRows_rows width (fun middle first second kept same => ?_) (by omega)
    have wide : 0 ≤ middle.termWidth := by
      rw [kept.termWidth]
      exact width
    exact (kept.trans (clearColumns_keeps ..)).rowBlank_iff.mp (clearColumns_rowBlank wide same)
  rwa [show startRow + ((row - startRow).toNat : Int) = row by omega] at cleared

/-- The rows beyond a range of rows that is cleared stay the same, if they are at other places in
the ring. -/
theorem clearRange_others (width : 0 ≤ grid.termWidth) (positive : 0 < grid.buffer.available)
    {startRow endRow : Int} (outside : row < startRow ∨ endRow < row)
    (below : row - startRow < grid.buffer.available)
    (above : endRow - row < grid.buffer.available) :
    (clearRange grid startRow 0 endRow (grid.termWidth - 1)).row row = grid.row row := by
  rw [clearRange_rows]
  refine clearRows_others width fun visited bound same => ?_
  have near := grid.buffer.index_near positive (by omega) (by omega) same
  omega

theorem clearRange_index (grid : Grid) (startRow endRow row : Int) :
    (clearRange grid startRow 0 endRow (grid.termWidth - 1)).buffer.index row
      = grid.buffer.index row := by
  obtain ⟨keeps, top, _⟩ :=
    (clearRange_writes grid startRow 0 endRow (grid.termWidth - 1)).keeps
  exact Buffer.index_congr top keeps.available row

end Cleared

/-! ## Rows that fit -/

section Fits

variable {grid : Grid} {startRow endRow offset amount row column : Int}

theorem copyRows_cell (grid : Grid) (startRow endRow offset row column : Int) :
    (copyRows grid startRow endRow offset).cell row column
      = ((bufferCopyRows grid.buffer startRow endRow offset).row row).cell
        grid.buffer.defaultCharacter column := by
  rw [Grid.cell, Grid.row, copyRows_buffer, (bufferCopyRows_same ..).2.1]

theorem copyRows_index (grid : Grid) (startRow endRow offset row : Int) :
    (copyRows grid startRow endRow offset).buffer.index row = grid.buffer.index row := by
  have same := bufferCopyRows_same grid.buffer startRow endRow offset
  rw [copyRows_buffer]
  exact Buffer.index_congr same.2.2 same.1 row

/-- Rows beyond those that rows are copied to show the same, unless they share their place. -/
theorem copyRows_others (positive : 0 < grid.buffer.available)
    (outside : row < startRow + offset ∨ endRow + offset < row)
    (below : row - (startRow + offset) < grid.buffer.available)
    (above : endRow + offset - row < grid.buffer.available) (column : Int) :
    (copyRows grid startRow endRow offset).cell row column = grid.cell row column := by
  rw [copyRows_cell]
  refine bufferCopyRows_cell fun visited low high same => ?_
  have near := grid.buffer.index_near positive (by omega) (by omega) same
  omega

/-- Rows are moved within a region, and the rows that are free then are cleared. -/
def editRows (grid : Grid) (startRow endRow offset first last : Int) : Grid :=
  let grid := copyRows grid startRow endRow offset
  clearRange grid first 0 last (grid.termWidth - 1)

variable {first last : Int}

theorem editRows_index (grid : Grid) (startRow endRow offset first last row : Int) :
    (editRows grid startRow endRow offset first last).buffer.index row = grid.buffer.index row :=
  (clearRange_index ..).trans (copyRows_index ..)

theorem editRows_keeps (grid : Grid) (startRow endRow offset first last : Int) :
    grid.Keeps (editRows grid startRow endRow offset first last) :=
  (copyRows_keeps ..).trans (clearRange_keeps ..)

theorem editRows_top (grid : Grid) (startRow endRow offset first last : Int) :
    (editRows grid startRow endRow offset first last).buffer.top = grid.buffer.top := by
  have cleared := (clearRange_writes (copyRows grid startRow endRow offset) first 0 last
    ((copyRows grid startRow endRow offset).termWidth - 1)).keeps.2.1
  refine cleared.trans ?_
  rw [copyRows_buffer]
  exact (bufferCopyRows_same ..).2.2

theorem editRows_blank (width : 0 ≤ grid.termWidth) (low : first ≤ row) (high : row ≤ last) :
    (editRows grid startRow endRow offset first last).RowBlank row := by
  refine clearRange_rowBlank ?_ low high
  rw [(copyRows_keeps ..).termWidth]
  exact width

/-- A row that is not cleared shows what it shows when the rows have been moved. -/
theorem editRows_copied (width : 0 ≤ grid.termWidth) (positive : 0 < grid.buffer.available)
    (outside : row < first ∨ last < row) (below : row - first < grid.buffer.available)
    (above : last - row < grid.buffer.available) (column : Int) :
    (editRows grid startRow endRow offset first last).cell row column
      = (copyRows grid startRow endRow offset).cell row column := by
  have keeps := copyRows_keeps grid startRow endRow offset
  refine Grid.cell_congr (clearRange_keeps ..).defaultCharacter
    (clearRange_others ?_ ?_ outside ?_ ?_) column
  · rw [keeps.termWidth]
    exact width
  · rw [keeps.available]
    exact positive
  · rw [keeps.available]
    exact below
  · rw [keeps.available]
    exact above

theorem editRows_outside (width : 0 ≤ grid.termWidth) (positive : 0 < grid.buffer.available)
    {low high : Int} (begins : low ≤ first ∧ low ≤ startRow + offset)
    (ends : last ≤ high ∧ endRow + offset ≤ high) (outside : row < low ∨ high < row)
    (below : row - low < grid.buffer.available) (above : high - row < grid.buffer.available)
    (column : Int) :
    (editRows grid startRow endRow offset first last).cell row column = grid.cell row column := by
  rw [editRows_copied width positive (by omega) (by omega) (by omega)]
  exact copyRows_others positive (by omega) (by omega) (by omega) column

theorem editRows_moved (width : 0 ≤ grid.termWidth) (positive : 0 < grid.buffer.available)
    {low high : Int} (cleared : low ≤ first ∧ last ≤ high)
    (source : low ≤ startRow ∧ endRow ≤ high)
    (target : low ≤ startRow + offset ∧ endRow + offset ≤ high)
    (room : high - low < grid.buffer.available) (shifted : offset ≠ 0)
    (outside : row + offset < first ∨ last < row + offset) (after : startRow ≤ row)
    (before : row ≤ endRow) (nonneg : 0 ≤ column) :
    (editRows grid startRow endRow offset first last).cell (row + offset) column
      = grid.cell row column := by
  rw [editRows_copied width positive outside (by omega) (by omega), copyRows_cell]
  refine bufferCopyRows_moved positive ?_ shifted nonneg after before
  rcases lt_or_gt_of_ne shifted with up | down
  · rw [abs_of_neg up]
    omega
  · rw [abs_of_pos down]
    omega

end Fits

end GuacNebula.Terminal
