import GuacNebula.Terminal.CellMarks

/-! # The mark of the cursor

The cursor is drawn when the terminal is flushed: the cell it was last drawn on loses the cursor
attribute, and the cell it is on now gets it. In between, the position it was last drawn at is
carried along when rows and columns move, and its row and column are -1 while the cursor is hidden.

The attribute outlives the position where the one is not carried along with the other: a wide
character written over the cursor marks its second column as well, a cell that is copied keeps its
mark, a row that scrolls to -1 is taken for a hidden cursor, and a row that has scrolled further is
not followed any more.
-/

namespace GuacNebula.Terminal

open CInt Run

/-- The cursor is drawn somewhere. -/
def Grid.Shown (grid : Grid) : Prop := grid.visibleCursorRow ≠ -1 ∧ grid.visibleCursorCol ≠ -1

instance (grid : Grid) : Decidable grid.Shown := inferInstanceAs (Decidable (_ ∧ _))

/-- The place of the buffer that the cursor is drawn at. -/
def Grid.AtCursor (grid : Grid) (index column : Int) : Prop :=
  grid.Shown ∧ index = grid.buffer.index grid.visibleCursorRow ∧ column = grid.visibleCursorCol

/-- The cursor attribute is where the cursor is drawn, or at one of some strays. -/
structure Grid.Drawn (grid : Grid) (strays : Int → Int → Prop) : Prop where
  plain : grid.PlainDefaults
  positive : 0 < grid.buffer.available
  hidden : grid.visibleCursorRow = -1 → grid.visibleCursorCol = -1
  marked : grid.buffer.MarkedIn fun index column =>
    grid.AtCursor index column ∨ strays index column

/-- There are no strays. -/
def noStrays (_index _column : Int) : Prop := False

section Drawing

variable {grid before after : Grid} {strays others : Int → Int → Prop}

theorem Grid.Drawn.mono (drawn : grid.Drawn strays)
    (allowed : ∀ index column, strays index column → others index column) :
    grid.Drawn others where
  plain := drawn.plain
  positive := drawn.positive
  hidden := drawn.hidden
  marked := drawn.marked.mono fun index column _ place => place.imp_right (allowed index column)

theorem Grid.Extends.shown (longer : before.Extends after) : after.Shown ↔ before.Shown := by
  unfold Grid.Shown
  rw [longer.visibleCursorRow, longer.visibleCursorCol]

theorem Grid.Extends.atCursor (longer : before.Extends after) (index column : Int) :
    after.AtCursor index column ↔ before.AtCursor index column := by
  unfold Grid.AtCursor
  rw [longer.shown, longer.visibleCursorRow, longer.visibleCursorCol, longer.index]

/-- Writes to cells leave the cursor where it was drawn, so only the marks are to be followed. -/
theorem CellWrites.drawn (writes : CellWrites before after) (drawn : before.Drawn strays)
    (marked : after.buffer.MarkedIn fun index column =>
      before.AtCursor index column ∨ others index column) : after.Drawn others where
  plain := drawn.plain.keeps writes.keeps.1
  positive := writes.keeps.1.available ▸ drawn.positive
  hidden := by
    rw [writes.extended.visibleCursorRow, writes.extended.visibleCursorCol]
    exact drawn.hidden
  marked := marked.mono fun index column _ place =>
    place.imp_left (writes.extended.atCursor index column).mpr

/-- A column that is not -1 shows that the cursor is drawn. -/
theorem Grid.Drawn.shown_of_nonneg (drawn : grid.Drawn strays)
    (nonneg : 0 ≤ grid.visibleCursorCol) : grid.Shown := by
  have column : grid.visibleCursorCol ≠ -1 := by omega
  exact ⟨fun row => column (drawn.hidden row), column⟩

/-- Setting columns marks no other cell than that of the cursor, if no wide character is written to
it, and takes the mark from strays. -/
theorem Grid.Drawn.setColumns (drawn : grid.Drawn strays) {character : TerminalChar}
    (unmarked : character.Plain) (positive : character.width ≠ 0) {row start stop : Int}
    (nonneg : 0 ≤ start) (single : grid.CursorIn row start stop → character.width = 1)
    (within : start ≤ max 0 (max (grid.row row).length (stop + 1))) :
    (setColumns grid row start stop character).Drawn fun index column =>
      strays index column ∧ ¬(index = grid.buffer.index row ∧ start ≤ column ∧ column ≤ stop) := by
  apply (setColumns_writes grid row start stop character).drawn drawn
  apply (setColumns_markedIn drawn.plain drawn.marked unmarked positive single within).mono
  rintro index column _ (⟨cursor | stray, outside⟩ | ⟨inside, here, there⟩)
  · exact Or.inl cursor
  · exact Or.inr ⟨stray, outside⟩
  · have shown := drawn.shown_of_nonneg (nonneg.trans inside.2.1)
    exact Or.inl ⟨shown, here.trans (congrArg grid.buffer.index inside.1), there⟩

theorem Grid.PlainDefaults.blank (plain : grid.PlainDefaults) : grid.blank.Plain where
  unmarked := plain.currentAttributes
  whole := by
    change (0 : Int) ≠ -1
    decide

theorem Grid.Drawn.clearColumns (drawn : grid.Drawn strays) {row start stop : Int}
    (nonneg : 0 ≤ start) (within : start ≤ max 0 (max (grid.row row).length (stop + 1))) :
    (clearColumns grid row start stop).Drawn fun index column =>
      strays index column ∧ ¬(index = grid.buffer.index row ∧ start ≤ column ∧ column ≤ stop) :=
  drawn.setColumns drawn.plain.blank Nat.one_ne_zero nonneg (fun _ => rfl) within

/-- The place lies in some columns of one of some rows. -/
def Grid.InRows (grid : Grid) (startRow endRow endColumn index column : Int) : Prop :=
  ∃ row, startRow ≤ row ∧ row ≤ endRow ∧ index = grid.buffer.index row
    ∧ 0 ≤ column ∧ column ≤ endColumn

/-- A loop over consecutive rows that sets the first columns of each to a character. -/
structure RowLoop (loop : Nat → Int → Grid → Grid) (stop : Int → Int)
    (character : Grid → TerminalChar) : Prop where
  zero : ∀ row grid, loop 0 row grid = grid
  succ : ∀ remaining row grid, loop (remaining + 1) row grid =
    loop remaining (row + 1) (setColumns grid row 0 (stop grid.termWidth) (character grid))

/-- Such a loop takes the mark from strays that lie in its columns. -/
theorem Grid.Drawn.rowLoop {loop : Nat → Int → Grid → Grid} {stop : Int → Int}
    {character : Grid → TerminalChar} (rows : RowLoop loop stop character) {width : Nat}
    (positive : width ≠ 0)
    (plain : ∀ grid : Grid, grid.PlainDefaults →
      (character grid).Plain ∧ (character grid).width = width)
    (drawn : grid.Drawn strays) (remaining : Nat) (row : Int)
    (single : ∀ other, row ≤ other → other < row + remaining →
      grid.CursorIn other 0 (stop grid.termWidth) → width = 1) :
    (loop remaining row grid).Drawn fun index column =>
      strays index column
        ∧ ¬grid.InRows row (row + remaining - 1) (stop grid.termWidth) index column := by
  induction remaining generalizing row grid strays with
  | zero =>
      rw [rows.zero]
      refine drawn.mono fun index column stray => ⟨stray, ?_⟩
      rintro ⟨other, after, before, -⟩
      omega
  | succ remaining ih =>
      obtain ⟨unmarked, size⟩ := plain grid drawn.plain
      have set : (Terminal.setColumns grid row 0 (stop grid.termWidth) (character grid)).Drawn _ :=
        drawn.setColumns unmarked (size.trans_ne positive) le_rfl
          (fun cursor => size.trans (single row le_rfl (by omega) cursor)) (le_max_left ..)
      have writes := setColumns_writes grid row 0 (stop grid.termWidth) (character grid)
      rw [rows.succ]
      generalize Terminal.setColumns grid row 0 (stop grid.termWidth) (character grid) = first
        at set writes
      have width := writes.keeps.1.termWidth
      have longer := writes.extended
      apply (ih set (row + 1) ?_).mono
      · rintro index column ⟨⟨stray, apart⟩, later⟩
        refine ⟨stray, ?_⟩
        rintro ⟨other, after, before, here, left, right⟩
        by_cases same : other = row
        · exact apart ⟨same ▸ here, left, right⟩
        · refine later ⟨other, by omega, by omega, ?_, left, ?_⟩
          · rw [here]
            exact (longer.index other).symm
          · rw [width]
            exact right
      · intro other after before cursor
        unfold Grid.CursorIn at cursor
        rw [width, longer.visibleCursorRow, longer.visibleCursorCol] at cursor
        exact single other (by omega) (by omega) cursor

theorem clearRows_loop : RowLoop clearRows (· - 1) Grid.blank where
  zero _ _ := rfl
  succ _ _ _ := rfl

theorem Grid.Drawn.clearRows (drawn : grid.Drawn strays) (remaining : Nat) (row : Int) :
    (clearRows remaining row grid).Drawn fun index column =>
      strays index column
        ∧ ¬grid.InRows row (row + remaining - 1) (grid.termWidth - 1) index column :=
  drawn.rowLoop clearRows_loop Nat.one_ne_zero (fun _ plain => ⟨plain.blank, rfl⟩) remaining row
    fun _ _ _ _ => rfl

/-- Clearing whole rows takes the mark from strays that lie on the screen's columns of them. -/
theorem Grid.Drawn.clearWhole (drawn : grid.Drawn strays) (startRow endRow : Int) :
    (clearRange grid startRow 0 endRow (grid.termWidth - 1)).Drawn fun index column =>
      strays index column
        ∧ ¬grid.InRows startRow endRow (grid.termWidth - 1) index column := by
  have rows := drawn.clearRows (endRow - startRow + 1).toNat startRow
  unfold Terminal.clearRange clearFirst clearLast
  dsimp only
  rw [if_neg (lt_irrefl _), if_neg (lt_irrefl _), if_neg (lt_irrefl _), if_neg (lt_irrefl _)]
  apply rows.mono
  rintro index column ⟨stray, apart⟩
  refine ⟨stray, ?_⟩
  rintro ⟨row, after, before, inside⟩
  exact apart ⟨row, after, by omega, inside⟩

/-- Clearing a range of cells marks none. -/
theorem Grid.Drawn.clearRange (drawn : grid.Drawn strays) {startRow startCol endRow endCol : Int}
    (within : startCol ≤ max 0 (max (grid.row startRow).length grid.termWidth)) :
    (clearRange grid startRow startCol endRow endCol).Drawn strays := by
  have first : (clearFirst grid startRow startCol).Drawn strays := by
    unfold clearFirst
    split
    · rename_i cut
      refine Grid.Drawn.mono (drawn.clearColumns cut.le ?_) fun index column stray => stray.1
      rwa [Int.sub_add_cancel]
    · exact drawn
  have last : (clearLast (clearFirst grid startRow startCol) endRow endCol).Drawn strays := by
    unfold clearLast
    split
    · refine Grid.Drawn.mono (first.clearColumns le_rfl ?_) fun index column stray => stray.1
      exact le_max_left ..
    · exact first
  exact (last.clearRows _ _).mono fun index column stray => stray.1

end Drawing

/-! ## Copies of rows -/

section Rows

variable {buffer : Buffer}

/-- Rows less than a ring apart are at different places in it. -/
theorem Buffer.index_near (positive : 0 < buffer.available) {first second : Int}
    (below : first - second < buffer.available) (above : second - first < buffer.available)
    (same : buffer.index first = buffer.index second) : first = second := by
  rw [Buffer.index_eq_emod positive, Buffer.index_eq_emod positive,
    Int.emod_eq_emod_iff_emod_sub_eq_zero] at same
  obtain ⟨turns, apart⟩ := Int.dvd_of_emod_eq_zero same
  have none : turns = 0 := by
    by_contra some
    rcases lt_or_gt_of_ne some with negative | more
    · have far : buffer.available * turns ≤ buffer.available * (-1) :=
        Int.mul_le_mul_of_nonneg_left (by omega) positive.le
      omega
    · have far : buffer.available * 1 ≤ buffer.available * turns :=
        Int.mul_le_mul_of_nonneg_left (by omega) positive.le
      omega
  rw [none, Int.mul_zero] at apart
  omega

/-- A copy of a row is marked where the row is. -/
theorem bufferCopyRow_markedIn {places : Int → Int → Prop} (marked : buffer.MarkedIn places)
    (plain : buffer.defaultCharacter.Plain) (row offset : Int) :
    (bufferCopyRow buffer row offset).MarkedIn fun index column =>
      if index = buffer.index (row + offset) then places (buffer.index row) column
      else places index column := by
  have read := marked.getRow plain row 0
  have source : ((bufferGetRow buffer row 0).row row).MarkedIn (places (buffer.index row)) :=
    read (buffer.index row)
  have extended := read.getRow plain (row + offset) ((bufferGetRow buffer row 0).row row).length
  refine extended.setRow fun column mark => ?_
  obtain ⟨nonneg, within, cursor⟩ := mark
  dsimp only at within cursor
  rw [if_pos ⟨nonneg, within⟩] at cursor
  obtain ⟨place, whole⟩ := source column ⟨nonneg, within, cursor⟩
  refine ⟨place, fun next continued => ?_⟩
  dsimp only at next continued ⊢
  rw [if_pos ⟨by omega, next⟩] at continued
  rw [if_pos ⟨nonneg, within⟩]
  exact whole next continued

/-- The loop visits its rows one after the other. -/
theorem bufferCopyRowsLoop_succ (offset step : Int) (remaining : Nat) (row : Int)
    (buffer : Buffer) :
    bufferCopyRowsLoop offset step (remaining + 1) row buffer =
      bufferCopyRow (bufferCopyRowsLoop offset step remaining row buffer)
        (row + remaining * step) offset := by
  induction remaining generalizing row buffer with
  | zero =>
      rw [Int.natCast_zero, Int.zero_mul, Int.add_zero]
      rfl
  | succ remaining ih =>
      have rest := ih (row + step) (bufferCopyRow buffer row offset)
      have place : row + step + remaining * step = row + (remaining + 1 : Nat) * step := by
        rw [Int.natCast_succ, Int.add_mul]
        omega
      rw [place] at rest
      exact rest

/-- A loop that visits a marked row before the row its mark is copied to, and no other row at the
place of either, marks the copy, and leaves the row itself marked unless another row is copied
there. -/
theorem bufferCopyRowsLoop_markedIn {shown : Prop} {origin column offset step row : Int}
    {remaining : Nat}
    (marked : buffer.MarkedIn fun index other =>
      shown ∧ other = column ∧ index = buffer.index origin)
    (plain : buffer.defaultCharacter.Plain)
    (apart : shown → ∀ visited < remaining,
      buffer.index (row + visited * step) = buffer.index origin → row + visited * step = origin)
    (later : shown → ∀ visited < remaining, ∀ earlier < visited, row + earlier * step = origin →
      buffer.index (row + visited * step) ≠ buffer.index (origin + offset)) :
    (bufferCopyRowsLoop offset step remaining row buffer).MarkedIn fun index other =>
      shown ∧ other = column ∧
        (((∃ visited < remaining, row + visited * step = origin)
            ∧ index = buffer.index (origin + offset))
          ∨ (index = buffer.index origin ∧ ∀ visited < remaining,
            buffer.index (row + visited * step + offset) ≠ buffer.index origin)) := by
  induction remaining with
  | zero =>
      refine Buffer.MarkedIn.mono marked fun index other _ place => ⟨place.1, place.2.1, ?_⟩
      exact Or.inr ⟨place.2.2, fun visited bound => absurd bound (Nat.not_lt_zero visited)⟩
  | succ remaining ih =>
      have before := ih
        (fun drawn visited bound => apart drawn visited (Nat.lt_succ_of_lt bound))
        (fun drawn visited bound => later drawn visited (Nat.lt_succ_of_lt bound))
      have same := bufferCopyRowsLoop_same offset step remaining row buffer
      have place (other : Int) := Buffer.index_congr same.2.2 same.1 other
      rw [bufferCopyRowsLoop_succ]
      generalize bufferCopyRowsLoop offset step remaining row buffer = copied at before same place
      apply (bufferCopyRow_markedIn before (same.2.1 ▸ plain) _ _).mono
      intro index other _ source
      rw [place, place] at source
      split at source
      · rename_i target
        obtain ⟨drawn, there, ⟨⟨visited, bound, here⟩, copy⟩ | ⟨first, kept⟩⟩ := source
        · exact absurd copy (later drawn remaining (Nat.lt_succ_self _) visited bound here)
        · have origin_eq := apart drawn remaining (Nat.lt_succ_self _) first
          refine ⟨drawn, there, Or.inl ⟨⟨remaining, Nat.lt_succ_self _, origin_eq⟩, ?_⟩⟩
          rw [target, origin_eq]
      · rename_i elsewhere
        obtain ⟨drawn, there, ⟨⟨visited, bound, here⟩, copy⟩ | ⟨first, kept⟩⟩ := source
        · exact ⟨drawn, there, Or.inl ⟨⟨visited, Nat.lt_succ_of_lt bound, here⟩, copy⟩⟩
        · refine ⟨drawn, there, Or.inr ⟨first, fun visited bound => ?_⟩⟩
          rcases Nat.lt_succ_iff_lt_or_eq.mp bound with earlier | last
          · exact kept visited earlier
          · rw [last]
            exact fun shared => elsewhere (first.trans shared.symm)

/-- Two rows are less than a ring apart. -/
def Buffer.Near (buffer : Buffer) (first second : Int) : Prop :=
  first - second < buffer.available ∧ second - first < buffer.available

instance (buffer : Buffer) (first second : Int) : Decidable (buffer.Near first second) :=
  inferInstanceAs (Decidable (_ ∧ _))

/-- The rows that are copied are less than a ring away from a row and the row it is copied to. -/
def Buffer.CopiesNear (buffer : Buffer) (startRow endRow offset row : Int) : Prop :=
  startRow ≤ endRow →
    (buffer.Near row startRow ∧ buffer.Near row endRow)
      ∧ buffer.Near (row + offset) startRow ∧ buffer.Near (row + offset) endRow

instance (buffer : Buffer) (startRow endRow offset row : Int) :
    Decidable (buffer.CopiesNear startRow endRow offset row) :=
  inferInstanceAs (Decidable (_ → _))

/-- A copy of rows marks the copy of a marked row, and leaves the row itself marked unless another
one is copied there. -/
theorem bufferCopyRows_markedIn {shown : Prop} {origin column startRow endRow offset : Int}
    (positive : 0 < buffer.available)
    (marked : buffer.MarkedIn fun index other =>
      shown ∧ other = column ∧ index = buffer.index origin)
    (plain : buffer.defaultCharacter.Plain)
    (near : shown → buffer.CopiesNear startRow endRow offset origin) :
    (bufferCopyRows buffer startRow endRow offset).MarkedIn fun index other =>
      shown ∧ other = column ∧
        (((startRow ≤ origin ∧ origin ≤ endRow) ∧ index = buffer.index (origin + offset))
          ∨ (index = buffer.index origin ∧
            ∀ row, startRow ≤ row → row ≤ endRow → row + offset ≠ origin)) := by
  have same (row : Int) (drawn : shown) (after : startRow ≤ row) (before : row ≤ endRow)
      (shared : buffer.index row = buffer.index origin) : row = origin := by
    obtain ⟨⟨start, stop⟩, -⟩ := near drawn (after.trans before)
    unfold Buffer.Near at start stop
    exact Buffer.index_near positive (by omega) (by omega) shared
  have copy (row : Int) (drawn : shown) (after : startRow ≤ row) (before : row ≤ endRow)
      (shared : buffer.index row = buffer.index (origin + offset)) : row = origin + offset := by
    obtain ⟨-, start, stop⟩ := near drawn (after.trans before)
    unfold Buffer.Near at start stop
    exact Buffer.index_near positive (by omega) (by omega) shared
  unfold bufferCopyRows
  split
  · rename_i down
    apply (bufferCopyRowsLoop_markedIn marked plain (fun drawn visited bound => ?_)
      (fun drawn visited bound earlier order here shared => ?_)).mono
    · rintro index other _ ⟨drawn, there, ⟨⟨visited, bound, here⟩, place⟩ | ⟨place, kept⟩⟩
      · exact ⟨drawn, there, Or.inl ⟨⟨by omega, by omega⟩, place⟩⟩
      · refine ⟨drawn, there, Or.inr ⟨place, fun row after before target => ?_⟩⟩
        refine kept (endRow - row).toNat (by omega) (congrArg buffer.index ?_)
        omega
    · exact same _ drawn (by omega) (by omega)
    · have reached := copy _ drawn (by omega) (by omega) shared
      omega
  · rename_i up
    apply (bufferCopyRowsLoop_markedIn marked plain (fun drawn visited bound => ?_)
      (fun drawn visited bound earlier order here shared => ?_)).mono
    · rintro index other _ ⟨drawn, there, ⟨⟨visited, bound, here⟩, place⟩ | ⟨place, kept⟩⟩
      · exact ⟨drawn, there, Or.inl ⟨⟨by omega, by omega⟩, place⟩⟩
      · refine ⟨drawn, there, Or.inr ⟨place, fun row after before target => ?_⟩⟩
        refine kept (row - startRow).toNat (by omega) (congrArg buffer.index ?_)
        omega
    · exact same _ drawn (by omega) (by omega)
    · have reached := copy _ drawn (by omega) (by omega) shared
      omega

end Rows

section CopyRows

variable (grid : Grid) (startRow endRow offset : Int)

theorem copyRows_buffer :
    (copyRows grid startRow endRow offset).buffer
      = bufferCopyRows grid.buffer startRow endRow offset := by
  unfold copyRows moveCursorRow
  dsimp only
  split
  · rfl
  · rfl

theorem copyRows_visibleCursorRow :
    (copyRows grid startRow endRow offset).visibleCursorRow =
      if grid.visibleCursorRow ≥ startRow ∧ grid.visibleCursorRow ≤ endRow then
        grid.visibleCursorRow + offset
      else grid.visibleCursorRow :=
  apply_ite Grid.visibleCursorRow ..

theorem copyRows_visibleCursorCol :
    (copyRows grid startRow endRow offset).visibleCursorCol = grid.visibleCursorCol :=
  (apply_ite Grid.visibleCursorCol ..).trans (ite_self _)

end CopyRows

/-- A copy of rows carries the cursor along, and may leave the mark on the row it was on. -/
theorem Grid.Drawn.copyRows {grid : Grid} (drawn : grid.Drawn noStrays)
    {startRow endRow offset : Int}
    (near : grid.Shown →
      grid.buffer.CopiesNear startRow endRow offset grid.visibleCursorRow)
    (reached : grid.Shown → startRow ≤ grid.visibleCursorRow → grid.visibleCursorRow ≤ endRow →
      grid.visibleCursorRow + offset ≠ -1) :
    (copyRows grid startRow endRow offset).Drawn fun index column =>
      grid.Shown ∧ (startRow ≤ grid.visibleCursorRow ∧ grid.visibleCursorRow ≤ endRow)
        ∧ (∀ row, startRow ≤ row → row ≤ endRow → row + offset ≠ grid.visibleCursorRow)
        ∧ index = grid.buffer.index grid.visibleCursorRow ∧ column = grid.visibleCursorCol := by
  have keeps := copyRows_keeps grid startRow endRow offset
  have same := bufferCopyRows_same grid.buffer startRow endRow offset
  have marked := bufferCopyRows_markedIn drawn.positive
    (drawn.marked.mono fun index column _ place =>
      place.elim (fun cursor => ⟨cursor.1, cursor.2.2, cursor.2.1⟩) False.elim)
    drawn.plain.defaultCharacter near
  have row := copyRows_visibleCursorRow grid startRow endRow offset
  have col := copyRows_visibleCursorCol grid startRow endRow offset
  refine ⟨drawn.plain.keeps keeps, keeps.available.symm ▸ drawn.positive, ?_, ?_⟩
  · rw [row, col]
    intro absent
    by_contra visible
    have shown : grid.Shown := ⟨fun none => visible (drawn.hidden none), visible⟩
    split at absent
    · rename_i moved
      exact reached shown moved.1 moved.2 absent
    · exact shown.1 absent
  · rw [copyRows_buffer]
    apply marked.mono
    rintro index column _ ⟨shown, there, ⟨moved, here⟩ | ⟨here, kept⟩⟩
    · left
      rw [if_pos moved] at row
      refine ⟨⟨row.trans_ne (reached shown moved.1 moved.2), col.trans_ne shown.2⟩, ?_,
        there.trans col.symm⟩
      rw [here, row, copyRows_buffer]
      exact (Buffer.index_congr same.2.2 same.1 _).symm
    · by_cases moved : startRow ≤ grid.visibleCursorRow ∧ grid.visibleCursorRow ≤ endRow
      · exact Or.inr ⟨shown, moved, kept, here, there⟩
      · left
        rw [if_neg moved] at row
        refine ⟨⟨row.trans_ne shown.1, col.trans_ne shown.2⟩, ?_, there.trans col.symm⟩
        rw [here, row, copyRows_buffer]
        exact (Buffer.index_congr same.2.2 same.1 _).symm

/-! ## Scrolling -/

section Scrolling

variable {grid : Grid} {strays : Int → Int → Prop}

/-- Strays that lie in no cell are none. -/
theorem Grid.Drawn.without (drawn : grid.Drawn strays)
    (none : ∀ index column, 0 ≤ column → ¬strays index column) : grid.Drawn noStrays where
  plain := drawn.plain
  positive := drawn.positive
  hidden := drawn.hidden
  marked := drawn.marked.mono fun index column mark place =>
    place.imp_right fun stray => none index column mark.1 stray

/-- A copy of rows, followed by the clearing of others, carries the mark of the cursor along: where
the mark is copied, the row it was on is copied over or cleared. -/
def Grid.CarriesRows (grid : Grid) (startRow endRow offset firstRow lastRow : Int) : Prop :=
  grid.Shown →
    grid.buffer.CopiesNear startRow endRow offset grid.visibleCursorRow
      ∧ (startRow ≤ grid.visibleCursorRow → grid.visibleCursorRow ≤ endRow →
        grid.visibleCursorRow + offset ≠ -1
          ∧ ((startRow ≤ grid.visibleCursorRow - offset
              ∧ grid.visibleCursorRow - offset ≤ endRow)
            ∨ ((firstRow ≤ grid.visibleCursorRow ∧ grid.visibleCursorRow ≤ lastRow)
              ∧ grid.visibleCursorCol < grid.termWidth)))

instance (grid : Grid) (startRow endRow offset firstRow lastRow : Int) :
    Decidable (grid.CarriesRows startRow endRow offset firstRow lastRow) :=
  inferInstanceAs (Decidable (_ → _ ∧ (_ → _ → _)))

theorem Grid.Drawn.carryRows (drawn : grid.Drawn noStrays)
    {startRow endRow offset firstRow lastRow : Int}
    (carries : grid.CarriesRows startRow endRow offset firstRow lastRow) :
    (Terminal.clearRange (Terminal.copyRows grid startRow endRow offset) firstRow 0 lastRow
      ((Terminal.copyRows grid startRow endRow offset).termWidth - 1)).Drawn noStrays := by
  have same := bufferCopyRows_same grid.buffer startRow endRow offset
  have copied := drawn.copyRows (fun shown => (carries shown).1)
    fun shown after before => ((carries shown).2 after before).1
  apply (copied.clearWhole firstRow lastRow).without
  rintro index column nonneg ⟨⟨shown, moved, kept, here, there⟩, uncleared⟩
  rcases ((carries shown).2 moved.1 moved.2).2 with replaced | ⟨cleared, inside⟩
  · exact kept _ replaced.1 replaced.2 (Int.sub_add_cancel ..)
  · refine uncleared ⟨grid.visibleCursorRow, cleared.1, cleared.2, ?_, nonneg, ?_⟩
    · rw [here, copyRows_buffer]
      exact (Buffer.index_congr same.2.2 same.1 _).symm
    · rw [(copyRows_keeps ..).termWidth]
      omega

theorem advance_visibleCursorRow (grid : Grid) (startRow endRow amount : Int) :
    (advance grid startRow endRow amount).visibleCursorRow =
      if grid.visibleCursorRow ≥ startRow ∧ grid.visibleCursorRow ≤ endRow then
        grid.visibleCursorRow + -amount
      else grid.visibleCursorRow :=
  apply_ite Grid.visibleCursorRow ..

theorem advance_visibleCursorCol (grid : Grid) (startRow endRow amount : Int) :
    (advance grid startRow endRow amount).visibleCursorCol = grid.visibleCursorCol :=
  (apply_ite Grid.visibleCursorCol ..).trans (ite_self _)

/-- A move of the screen down the buffer carries the cursor along, if it is drawn on the screen and
its row does not become that of a hidden one. -/
theorem Grid.Drawn.advance (drawn : grid.Drawn noStrays) {startRow endRow amount : Int}
    (carries : grid.Shown → (startRow ≤ grid.visibleCursorRow ∧ grid.visibleCursorRow ≤ endRow)
      ∧ grid.visibleCursorRow - amount ≠ -1) :
    (advance grid startRow endRow amount).Drawn noStrays := by
  have keeps := advance_keeps grid startRow endRow amount
  have buffer := advance_buffer grid startRow endRow amount
  have row := advance_visibleCursorRow grid startRow endRow amount
  have col := advance_visibleCursorCol grid startRow endRow amount
  refine ⟨drawn.plain.keeps keeps, keeps.available.symm ▸ drawn.positive, ?_, ?_⟩
  · rw [row, col]
    intro absent
    by_contra visible
    have shown : grid.Shown := ⟨fun none => visible (drawn.hidden none), visible⟩
    obtain ⟨moved, reached⟩ := carries shown
    rw [if_pos moved] at absent
    exact reached absent
  · rw [buffer]
    apply Buffer.MarkedIn.mono drawn.marked
    rintro index column _ (⟨shown, here, there⟩ | stray)
    · left
      obtain ⟨moved, reached⟩ := carries shown
      rw [if_pos moved] at row
      refine ⟨⟨row.trans_ne reached, col.trans_ne shown.2⟩, ?_, there.trans col.symm⟩
      rw [here, row, buffer]
      exact (Buffer.advance_index drawn.positive amount _).symm
    · exact Or.inr stray

/-- The condition under which `guac_terminal_scroll_up` carries the mark of the cursor along. -/
def Grid.CarriesUp (grid : Grid) (startRow endRow amount : Int) : Prop :=
  (startRow = 0 ∧ endRow = grid.termHeight - 1 → grid.Shown →
    (startRow ≤ grid.visibleCursorRow ∧ grid.visibleCursorRow ≤ endRow)
      ∧ grid.visibleCursorRow - amount ≠ -1)
  ∧ (¬(startRow = 0 ∧ endRow = grid.termHeight - 1) →
    grid.CarriesRows (toInt (startRow + amount)) endRow (toInt (-amount))
      (toInt (endRow - amount + 1)) endRow)

instance (grid : Grid) (startRow endRow amount : Int) :
    Decidable (grid.CarriesUp startRow endRow amount) :=
  inferInstanceAs (Decidable ((_ → _ → _) ∧ (_ → _)))

/-- The condition under which `guac_terminal_scroll_down` carries the mark of the cursor along. -/
def Grid.CarriesDown (grid : Grid) (startRow endRow amount : Int) : Prop :=
  grid.CarriesRows startRow (toInt (endRow - amount)) amount startRow
    (toInt (startRow + amount - 1))

instance (grid : Grid) (startRow endRow amount : Int) :
    Decidable (grid.CarriesDown startRow endRow amount) :=
  inferInstanceAs (Decidable (grid.CarriesRows ..))

theorem Grid.Drawn.scrollUp (drawn : grid.Drawn noStrays) {startRow endRow amount : Int}
    (carries : grid.CarriesUp startRow endRow amount) :
    (scrollUp grid startRow endRow amount).Drawn noStrays := by
  unfold Terminal.scrollUp
  dsimp only
  split
  · rename_i whole
    have advanced := drawn.advance (carries.1 whole)
    exact (advanced.clearWhole _ _).mono fun index column stray => stray.1
  · rename_i part
    exact drawn.carryRows (carries.2 part)

theorem Grid.Drawn.scrollDown (drawn : grid.Drawn noStrays) {startRow endRow amount : Int}
    (carries : grid.CarriesDown startRow endRow amount) :
    (scrollDown grid startRow endRow amount).Drawn noStrays :=
  drawn.carryRows carries

end Scrolling

/-! ## Copies of columns -/

/-- A copy of columns is marked where the one marked column is copied to, and where it is if nothing
is copied over it. -/
theorem Row.copy_markedIn {row : Row} {shown : Prop} {origin start stop offset : Int}
    {places : Int → Prop} (marked : row.MarkedIn fun column => shown ∧ column = origin)
    (within : start ≤ stop → 0 ≤ start ∧ stop < row.length)
    (moved : shown → start ≤ origin → origin ≤ stop →
      places (origin + offset) ∧ (row.copy start stop offset).Whole (origin + offset))
    (stays : shown → ¬(start + offset ≤ origin ∧ origin ≤ stop + offset) →
      places origin ∧ (row.copy start stop offset).Whole origin) :
    (row.copy start stop offset).MarkedIn places := by
  rintro column ⟨nonneg, inside, cursor⟩
  unfold Row.copy at inside cursor
  dsimp only at inside cursor
  split at cursor
  · rename_i target
    have bounds := within (by omega)
    obtain ⟨shown, same⟩ := (marked (column - offset) ⟨by omega, by omega, cursor⟩).1
    have result := moved shown (by omega) (by omega)
    rwa [← same, Int.sub_add_cancel] at result
  · rename_i kept
    obtain ⟨shown, same⟩ := (marked column ⟨nonneg, inside, cursor⟩).1
    rw [← same] at stays
    exact stays shown kept

/-- The row that columns are copied in, once it has been extended. -/
def Grid.grownRow (grid : Grid) (row endColumn offset : Int) : Row :=
  (bufferGetRow grid.buffer row (endColumn + offset + 1)).row row

/-- The columns that a copy reads. -/
def Grid.copiedRange (grid : Grid) (row startColumn endColumn offset : Int) : Int × Int :=
  (grid.grownRow row endColumn offset).copyRange startColumn endColumn offset

/-- The row after its columns have been copied. -/
def Grid.copiedRow (grid : Grid) (row startColumn endColumn offset : Int) : Row :=
  (grid.grownRow row endColumn offset).copy
    (grid.copiedRange row startColumn endColumn offset).1
    (grid.copiedRange row startColumn endColumn offset).2 offset

/-- The column that the drawn cursor is taken to be in after a copy of columns. -/
def Grid.carriedColumn (grid : Grid) (row startColumn endColumn offset : Int) : Int :=
  if grid.CursorIn row startColumn endColumn then grid.visibleCursorCol + offset
  else grid.visibleCursorCol

/-- A copy of columns, after which others are set, carries the mark of the cursor along: the columns
that are read are part of the row, and every column that has the mark afterwards is the one that the
cursor is taken to be in or is set, and not followed by a continuation that is not its own. -/
structure Grid.CarriesColumns (grid : Grid) (row startColumn endColumn offset start stop : Int) :
    Prop where
  nonneg : 0 ≤ startColumn
  edge : startColumn + offset ≤ max 0 (grid.grownRow row endColumn offset).length
  within : (grid.copiedRange row startColumn endColumn offset).1
      ≤ (grid.copiedRange row startColumn endColumn offset).2 →
    0 ≤ (grid.copiedRange row startColumn endColumn offset).1
      ∧ (grid.copiedRange row startColumn endColumn offset).2
        < (grid.grownRow row endColumn offset).length
  moved : grid.Shown ∧ grid.buffer.index row = grid.buffer.index grid.visibleCursorRow →
    (grid.copiedRange row startColumn endColumn offset).1 ≤ grid.visibleCursorCol →
    grid.visibleCursorCol ≤ (grid.copiedRange row startColumn endColumn offset).2 →
      (grid.visibleCursorCol + offset = grid.carriedColumn row startColumn endColumn offset
          ∨ (start ≤ grid.visibleCursorCol + offset ∧ grid.visibleCursorCol + offset ≤ stop))
        ∧ (grid.copiedRow row startColumn endColumn offset).Whole
          (grid.visibleCursorCol + offset)
  stays : grid.Shown ∧ grid.buffer.index row = grid.buffer.index grid.visibleCursorRow →
    ¬((grid.copiedRange row startColumn endColumn offset).1 + offset ≤ grid.visibleCursorCol
      ∧ grid.visibleCursorCol
        ≤ (grid.copiedRange row startColumn endColumn offset).2 + offset) →
      (grid.visibleCursorCol = grid.carriedColumn row startColumn endColumn offset
          ∨ (start ≤ grid.visibleCursorCol ∧ grid.visibleCursorCol ≤ stop))
        ∧ (grid.copiedRow row startColumn endColumn offset).Whole grid.visibleCursorCol

instance (grid : Grid) (row startColumn endColumn offset start stop : Int) :
    Decidable (grid.CarriesColumns row startColumn endColumn offset start stop) :=
  decidable_of_iff (_ ∧ _ ∧ (_ → _) ∧ (_ → _ → _ → _) ∧ (_ → _ → _))
    ⟨fun ⟨nonneg, edge, within, moved, stays⟩ => ⟨nonneg, edge, within, moved, stays⟩,
      fun ⟨nonneg, edge, within, moved, stays⟩ => ⟨nonneg, edge, within, moved, stays⟩⟩

section CopyColumns

variable {grid : Grid}

theorem copyColumnsRaw_markedIn (drawn : grid.Drawn noStrays)
    {row startColumn endColumn offset start stop : Int}
    (carries : grid.CarriesColumns row startColumn endColumn offset start stop) :
    (bufferCopyColumns grid.buffer row startColumn endColumn offset).MarkedIn
      fun index column =>
        (grid.Shown ∧ index = grid.buffer.index grid.visibleCursorRow
            ∧ column = grid.carriedColumn row startColumn endColumn offset)
          ∨ (index = grid.buffer.index row ∧ start ≤ column ∧ column ≤ stop) := by
  have grown := drawn.marked.getRow drawn.plain.defaultCharacter row (endColumn + offset + 1)
  have own : (grid.grownRow row endColumn offset).MarkedIn fun column =>
      (grid.Shown ∧ grid.buffer.index row = grid.buffer.index grid.visibleCursorRow)
        ∧ column = grid.visibleCursorCol :=
    (grown (grid.buffer.index row)).mono fun column _ place =>
      place.elim (fun cursor => ⟨⟨cursor.1, cursor.2.1⟩, cursor.2.2⟩) False.elim
  have copied : (grid.copiedRow row startColumn endColumn offset).MarkedIn fun column =>
      ((grid.Shown ∧ grid.buffer.index row = grid.buffer.index grid.visibleCursorRow)
          ∧ column = grid.carriedColumn row startColumn endColumn offset)
        ∨ (start ≤ column ∧ column ≤ stop) := by
    apply Row.copy_markedIn own carries.within
    · intro shown after before
      obtain ⟨place, whole⟩ := carries.moved shown after before
      exact ⟨place.imp_left fun same => ⟨shown, same⟩, whole⟩
    · intro shown kept
      obtain ⟨place, whole⟩ := carries.stays shown kept
      exact ⟨place.imp_left fun same => ⟨shown, same⟩, whole⟩
  apply (grown.setRow copied).mono
  intro index column _ place
  split at place
  · rename_i here
    change index = grid.buffer.index row at here
    rcases place with ⟨⟨shown, same⟩, there⟩ | inside
    · exact Or.inl ⟨shown, here.trans same, there⟩
    · exact Or.inr ⟨here, inside⟩
  · rename_i elsewhere
    change ¬index = grid.buffer.index row at elsewhere
    rcases place with ⟨shown, here, there⟩ | stray
    · left
      refine ⟨shown, here, there.trans (if_neg fun cursor => ?_).symm⟩
      rw [← cursor.1] at here
      exact elsewhere here
    · exact absurd stray id

/-- The cells of some columns of a row. -/
def Grid.InColumns (grid : Grid) (row start stop index column : Int) : Prop :=
  index = grid.buffer.index row ∧ start ≤ column ∧ column ≤ stop

theorem moveCursorColumn_visibleCursorCol (grid : Grid) (row startColumn endColumn offset : Int) :
    (moveCursorColumn (copyColumnsRaw grid row startColumn endColumn offset) row startColumn
      endColumn offset).visibleCursorCol = grid.carriedColumn row startColumn endColumn offset :=
  apply_ite Grid.visibleCursorCol ..

theorem moveCursorColumn_visibleCursorRow (grid : Grid) (row startColumn endColumn offset : Int) :
    (moveCursorColumn (copyColumnsRaw grid row startColumn endColumn offset) row startColumn
      endColumn offset).visibleCursorRow = grid.visibleCursorRow :=
  (apply_ite Grid.visibleCursorRow ..).trans (ite_self _)

theorem moveCursorColumn_buffer (grid : Grid) (row startColumn endColumn offset : Int) :
    (moveCursorColumn (copyColumnsRaw grid row startColumn endColumn offset) row startColumn
      endColumn offset).buffer = bufferCopyColumns grid.buffer row startColumn endColumn offset :=
  (apply_ite Grid.buffer ..).trans (ite_self _)

/-- The row that columns are copied in reaches as far as the copy. -/
theorem bufferCopyColumns_length (grid : Grid) (row startColumn endColumn offset : Int) :
    ((bufferCopyColumns grid.buffer row startColumn endColumn offset).row row).length
      = (grid.grownRow row endColumn offset).length := by
  unfold bufferCopyColumns
  dsimp only
  rw [Buffer.setRow_row]
  rfl

/-- A copy of columns carries the cursor along, and may leave the mark on the given columns. -/
theorem Grid.Drawn.copyColumns (drawn : grid.Drawn noStrays)
    {row startColumn endColumn offset start stop : Int}
    (carries : grid.CarriesColumns row startColumn endColumn offset start stop) :
    (copyColumns grid row startColumn endColumn offset).Drawn
      (grid.InColumns row start stop) := by
  have marked := copyColumnsRaw_markedIn drawn carries
  have keeps := (copyColumnsRaw_keeps grid row startColumn endColumn offset).trans
    (moveCursorColumn_keeps (copyColumnsRaw grid row startColumn endColumn offset) row startColumn
      endColumn offset)
  have same := bufferCopyColumns_same grid.buffer row startColumn endColumn offset
  have index := Buffer.index_congr same.2.2 same.1
  have length := bufferCopyColumns_length grid row startColumn endColumn offset
  have grown : endColumn + offset + 1 ≤ (grid.grownRow row endColumn offset).length := by
    have extended : (grid.grownRow row endColumn offset).length
        = max (grid.buffer.row row).length (endColumn + offset + 1) :=
      (congrArg Row.length (Buffer.setRow_row ..)).trans (Row.grow_length ..)
    omega
  have buffer := moveCursorColumn_buffer grid row startColumn endColumn offset
  have cursorRow := moveCursorColumn_visibleCursorRow grid row startColumn endColumn offset
  have cursorCol := moveCursorColumn_visibleCursorCol grid row startColumn endColumn offset
  have hidden : grid.visibleCursorRow = -1 →
      grid.carriedColumn row startColumn endColumn offset = -1 := by
    intro none
    have absent := drawn.hidden none
    refine (if_neg fun cursor => ?_).trans absent
    have nonneg := carries.nonneg.trans cursor.2.1
    omega
  unfold Terminal.copyColumns
  generalize moveCursorColumn (copyColumnsRaw grid row startColumn endColumn offset) row
    startColumn endColumn offset = moved at keeps buffer cursorRow cursorCol
  have copied : moved.Drawn (grid.InColumns row start stop) := by
    refine ⟨drawn.plain.keeps keeps, keeps.available.symm ▸ drawn.positive, ?_, ?_⟩
    · rw [cursorRow, cursorCol]
      exact hidden
    · rw [buffer]
      apply marked.mono
      rintro other column mark (⟨shown, here, there⟩ | stray)
      · have nonneg : 0 ≤ column := mark.1
        have visible : moved.visibleCursorCol ≠ -1 := by omega
        refine Or.inl ⟨⟨cursorRow.trans_ne shown.1, visible⟩, ?_, there.trans cursorCol.symm⟩
        rw [here, cursorRow, buffer, index]
      · exact Or.inr stray
  have rowLength : (moved.row row).length = (grid.grownRow row endColumn offset).length := by
    unfold Grid.row
    rw [buffer, length]
  have first : (moved.row row).EdgeWithin (startColumn + offset) := by
    have edge := carries.edge
    unfold Row.EdgeWithin
    omega
  have last : (moved.row row).EdgeWithin (endColumn + offset + 1) := by
    unfold Row.EdgeWithin
    omega
  have broken := forceBreaks_markedIn copied.plain copied.marked first last
  exact (forceBreaks_writes ..).drawn copied broken

end CopyColumns

end GuacNebula.Terminal
