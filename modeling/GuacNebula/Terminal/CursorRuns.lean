import GuacNebula.Terminal.CursorMarks
import GuacNebula.Terminal.Operations

/-! # The mark of the cursor over runs

Whether the mark stays with the drawn cursor depends on what the bytes between two flushes do. Each
operation has a condition on the state it is carried out in, under which the mark is carried along,
and a run whose steps all meet theirs leaves one marked cell at most after every flush.
-/

namespace GuacNebula.Terminal

open CInt Run

/-! ## Drawing -/

section Redraw

variable {grid before after : Grid} {strays : Int → Int → Prop}

/-- The mark concerns the cells of the buffer, the drawn cursor and the characters to come. -/
theorem Grid.Drawn.congr (drawn : before.Drawn strays) (buffer : after.buffer = before.buffer)
    (row : after.visibleCursorRow = before.visibleCursorRow)
    (col : after.visibleCursorCol = before.visibleCursorCol)
    (defaultChar : after.defaultChar = before.defaultChar)
    (attributes : after.currentAttributes.cursor = false) : after.Drawn strays where
  plain :=
    { defaultCharacter := buffer ▸ drawn.plain.defaultCharacter
      defaultChar := defaultChar ▸ drawn.plain.defaultChar
      defaultWidth := defaultChar ▸ drawn.plain.defaultWidth
      currentAttributes := attributes }
  positive := buffer ▸ drawn.positive
  hidden := by
    rw [row, col]
    exact drawn.hidden
  marked := by
    unfold Grid.AtCursor Grid.Shown
    rw [buffer, row, col]
    exact drawn.marked

/-- Cells are drawn again: rows may be extended for it, and the mark stays where it is. -/
structure Grid.Redraws (before after : Grid) : Prop where
  longer : before.Extends after
  drawn : ∀ strays, before.Drawn strays → after.Drawn strays

namespace Grid.Redraws

variable {first second third : Grid}

theorem refl (grid : Grid) : grid.Redraws grid :=
  ⟨.refl grid, fun _ drawn => drawn⟩

theorem trans (left : first.Redraws second) (right : second.Redraws third) :
    first.Redraws third where
  longer := left.longer.trans right.longer
  drawn strays drawn := right.drawn strays (left.drawn strays drawn)

/-- Drawing one side of a branch or the other. -/
theorem ite {condition : Prop} [Decidable condition] (left : first.Redraws second)
    (right : first.Redraws third) : first.Redraws (if condition then second else third) := by
  split
  · exact left
  · exact right

/-- What changes neither the buffer nor the drawn cursor moves no mark. -/
theorem of_eq (buffer : second.buffer = first.buffer)
    (row : second.visibleCursorRow = first.visibleCursorRow)
    (col : second.visibleCursorCol = first.visibleCursorCol)
    (defaultChar : second.defaultChar = first.defaultChar)
    (attributes : second.currentAttributes = first.currentAttributes) :
    first.Redraws second where
  longer :=
    { length := fun _ => buffer ▸ le_rfl
      index := fun _ => buffer ▸ rfl
      visibleCursorRow := row
      visibleCursorCol := col }
  drawn _ drawn :=
    drawn.congr buffer row col defaultChar (attributes ▸ drawn.plain.currentAttributes)

theorem displayCall (grid : Grid) (call : DisplayCall) : grid.Redraws (grid.displayCall call) :=
  of_eq rfl rfl rfl rfl rfl

theorem getRow (grid : Grid) (row width : Int) : grid.Redraws (grid.getRow row width) where
  longer := (CellWrites.refl.getRow row width).extended
  drawn _ drawn :=
    (CellWrites.refl.getRow row width).drawn drawn
      (drawn.marked.getRow drawn.plain.defaultCharacter row width)

end Grid.Redraws

theorem drawColumns_redraws (characters : Int → TerminalChar) (destRow : Int) (remaining : Nat)
    (column : Int) (grid : Grid) :
    grid.Redraws (drawColumns characters destRow remaining column grid) := by
  induction remaining generalizing column grid with
  | zero => exact .refl grid
  | succ remaining ih =>
      apply Grid.Redraws.trans _ (ih _ _)
      exact Grid.Redraws.ite (.displayCall ..) (.refl grid)

theorem drawRow_redraws (grid : Grid) (row destRow startColumn endColumn stop : Int) :
    grid.Redraws (drawRow grid row destRow startColumn endColumn stop) := by
  have read := Grid.Redraws.getRow grid row 0
  exact (read.trans (.displayCall ..)).trans (drawColumns_redraws ..)

theorem drawRows_redraws (remaining : Nat) (row destRow : Int) (grid : Grid) :
    grid.Redraws (drawRows remaining row destRow grid) := by
  induction remaining generalizing row destRow grid with
  | zero => exact .refl grid
  | succ remaining ih => exact (drawRow_redraws ..).trans (ih ..)

theorem redrawRect_redraws (startCol endCol : Int) (remaining : Nat) (row : Int) (grid : Grid) :
    grid.Redraws (redrawRect startCol endCol remaining row grid) := by
  induction remaining generalizing row grid with
  | zero => exact .refl grid
  | succ remaining ih => exact (drawRow_redraws ..).trans (ih ..)

theorem redraw_redraws (grid : Grid) (startRow startCol endRow endCol : Int) :
    grid.Redraws (redraw grid startRow startCol endRow endCol) :=
  redrawRect_redraws ..

theorem scrollDisplayDown_redraws (grid : Grid) (amount : Int) :
    grid.Redraws (scrollDisplayDown grid amount) := by
  unfold scrollDisplayDown
  generalize (if amount > grid.scrollOffset then grid.scrollOffset else amount) = limited
  dsimp only
  split
  · exact .refl grid
  · have copied : grid.Redraws (if grid.termHeight > limited then
        grid.displayCall (.copyRows limited (grid.termHeight - 1) (-limited)) else grid) :=
      Grid.Redraws.ite (.displayCall ..) (.refl grid)
    apply Grid.Redraws.trans _ (drawRows_redraws ..)
    exact copied.trans (.of_eq rfl rfl rfl rfl rfl)

theorem scrollDisplayUp_redraws (grid : Grid) (available amount : Int) :
    grid.Redraws (scrollDisplayUp grid available amount) := by
  unfold scrollDisplayUp
  generalize (if toInt (grid.scrollOffset + amount) > available then
    available - grid.scrollOffset else amount) = limited
  dsimp only
  split
  · exact .refl grid
  · have copied : grid.Redraws (if grid.termHeight > limited then
        grid.displayCall (.copyRows 0 (grid.termHeight - limited - 1) limited) else grid) :=
      Grid.Redraws.ite (.displayCall ..) (.refl grid)
    apply Grid.Redraws.trans _ (drawRows_redraws ..)
    exact copied.trans (.of_eq rfl rfl rfl rfl rfl)

end Redraw

/-! ## Drawing the cursor -/

section Commit

variable {grid : Grid} {row : Row} {places : Int → Prop}

/-- The mark of a cell does not change what characters stand where. -/
theorem Row.whole_mark (row : Row) (column : Int) (cursor : Bool) (other : Int) :
    (row.mark column cursor).Whole other ↔ row.Whole other := by
  have same (place : Int) : ((row.mark column cursor).characters place).value
        = (row.characters place).value
      ∧ ((row.mark column cursor).characters place).width = (row.characters place).width := by
    unfold Row.mark
    dsimp only
    by_cases here : place = column
    · rw [here, Function.update_self]
      exact ⟨rfl, rfl⟩
    · rw [Function.update_of_ne here]
      exact ⟨rfl, rfl⟩
  unfold Row.Whole
  rw [(same (other + 1)).1, (same other).1, (same other).2]
  rfl

theorem Row.marked_mark {column : Int} {cursor : Bool} {other : Int}
    (mark : (row.mark column cursor).Marked other) :
    (cursor = true ∧ other = column) ∨ (row.Marked other ∧ other ≠ column) := by
  obtain ⟨nonneg, within, marked⟩ := mark
  unfold Row.mark at marked
  dsimp only at marked
  by_cases here : other = column
  · rw [here, Function.update_self] at marked
    exact Or.inl ⟨marked, here⟩
  · rw [Function.update_of_ne here] at marked
    exact Or.inr ⟨⟨nonneg, within, marked⟩, here⟩

/-- A cell that is whole is still whole once its row has been extended. -/
theorem Row.Whole.grow {column : Int} (whole : row.Whole column)
    {defaultCharacter : TerminalChar} (plain : defaultCharacter.Plain) (width : Int) :
    (row.grow defaultCharacter width).Whole column := by
  unfold Row.grow
  split
  · rename_i extended
    intro next continued
    dsimp only at next continued ⊢
    split at continued
    · exact absurd continued plain.whole
    · rename_i kept
      rw [if_neg (by omega)]
      exact whole (by omega) continued
  · exact whole

/-- The marks after the cell of a row has been marked or unmarked. -/
theorem markCursor_markedIn {places : Int → Int → Prop} (plain : grid.PlainDefaults)
    (marked : grid.buffer.MarkedIn places) {row column : Int} {cursor : Bool}
    (whole : cursor = true → (grid.row row).Whole column) :
    (markCursor grid row column cursor).buffer.MarkedIn fun index other =>
      (cursor = true ∧ index = grid.buffer.index row ∧ other = column)
        ∨ (places index other ∧ ¬(index = grid.buffer.index row ∧ other = column)) := by
  have grown := marked.getRow plain.defaultCharacter row (column + 1)
  have read : (bufferGetRow grid.buffer row (column + 1)).row row
      = (grid.row row).grow grid.buffer.defaultCharacter (column + 1) :=
    Buffer.setRow_row ..
  have own : (((bufferGetRow grid.buffer row (column + 1)).row row).mark column cursor).MarkedIn
      fun other => (cursor = true ∧ other = column)
        ∨ (places (grid.buffer.index row) other ∧ other ≠ column) := by
    intro other mark
    rw [Row.whole_mark]
    rcases Row.marked_mark mark with ⟨set, here⟩ | ⟨kept, elsewhere⟩
    · refine ⟨Or.inl ⟨set, here⟩, ?_⟩
      rw [here, read]
      exact (whole set).grow plain.defaultCharacter _
    · obtain ⟨place, whole⟩ := grown (grid.buffer.index row) other kept
      exact ⟨Or.inr ⟨place, elsewhere⟩, whole⟩
  apply (grown.setRow own).mono
  intro index other _ place
  split at place
  · rename_i here
    change index = grid.buffer.index row at here
    rcases place with ⟨set, there⟩ | ⟨kept, elsewhere⟩
    · exact Or.inl ⟨set, here, there⟩
    · exact Or.inr ⟨here ▸ kept, fun same => elsewhere same.2⟩
  · rename_i elsewhere
    exact Or.inr ⟨place, fun same => elsewhere same.1⟩

theorem markCursor_keeps (grid : Grid) (row column : Int) (cursor : Bool) :
    grid.Keeps (markCursor grid row column cursor) :=
  ⟨rfl, rfl, rfl, rfl, rfl, rfl, rfl, rfl, rfl, rfl⟩

theorem Grid.Keeps.showAt (grid : Grid) (row col : Int) :
    grid.Keeps { grid with visibleCursorRow := row, visibleCursorCol := col } :=
  ⟨rfl, rfl, rfl, rfl, rfl, rfl, rfl, rfl, rfl, rfl⟩

/-- A row of the buffer is whole in a column after a change of one row if it was before, and so is
that one if it is the same. -/
theorem Buffer.setRow_whole {buffer : Buffer} {row other column : Int} {value : Row}
    (whole : (buffer.row other).Whole column)
    (own : (buffer.row row).Whole column → value.Whole column) :
    ((buffer.setRow row value).row other).Whole column := by
  unfold Buffer.row at whole own
  change Row.Whole (Function.update buffer.rows (buffer.index row) value (buffer.index other)) column
  by_cases here : buffer.index other = buffer.index row
  · rw [here] at whole ⊢
    rw [Function.update_self]
    exact own whole
  · rw [Function.update_of_ne here]
    exact whole

/-- Marking a cell leaves every cell whole that was. -/
theorem markCursor_whole (plain : grid.PlainDefaults) (row column : Int) (cursor : Bool)
    {other place : Int} (whole : (grid.row other).Whole place) :
    ((markCursor grid row column cursor).row other).Whole place := by
  have grown : ((bufferGetRow grid.buffer row (column + 1)).row other).Whole place :=
    Buffer.setRow_whole whole fun own => own.grow plain.defaultCharacter _
  exact Buffer.setRow_whole grown fun own => (Row.whole_mark ..).mpr own

/-- The condition under which a flush draws the cursor on a cell that is whole, and not in the row
that stands for a hidden cursor. -/
def CommitGuard (console : Console) : Prop :=
  console.cursorVisible = true →
    (console.cursorRow = -1 → console.cursorCol = -1)
      ∧ (console.grid.row console.cursorRow).Whole console.cursorCol

instance (console : Console) : Decidable (CommitGuard console) :=
  inferInstanceAs (Decidable (_ → _ ∧ _))

/-- At most one cell has the cursor attribute: the one at the cursor if it is visible, and none
otherwise. -/
structure CursorUnique (console : Console) : Prop where
  unique : ∀ first second firstColumn secondColumn,
    (console.grid.buffer.rows first).Marked firstColumn →
    (console.grid.buffer.rows second).Marked secondColumn →
      first = second ∧ firstColumn = secondColumn
  visible : console.cursorVisible = true → ∀ index column,
    (console.grid.buffer.rows index).Marked column →
      index = console.grid.buffer.index console.cursorRow ∧ column = console.cursorCol
  hidden : console.cursorVisible = false → ∀ index column,
    ¬(console.grid.buffer.rows index).Marked column

/-- The cursor is where it was last drawn, or hidden on both sides. -/
def Console.CursorDrawn (console : Console) : Prop :=
  console.grid.Shown → console.cursorVisible = true
    ∧ console.grid.visibleCursorRow = console.cursorRow
    ∧ console.grid.visibleCursorCol = console.cursorCol

/-- If the cursor is drawn where it is, its mark is unique. -/
theorem Grid.Drawn.cursorUnique {console : Console} (drawn : console.grid.Drawn noStrays)
    (here : console.CursorDrawn) : CursorUnique console := by
  have placed (index column : Int) (mark : (console.grid.buffer.rows index).Marked column) :
      console.cursorVisible = true ∧ index = console.grid.buffer.index console.cursorRow
        ∧ column = console.cursorCol := by
    rcases (drawn.marked index column mark).1 with ⟨shown, row, col⟩ | stray
    · obtain ⟨visible, sameRow, sameCol⟩ := here shown
      exact ⟨visible, sameRow ▸ row, sameCol ▸ col⟩
    · exact absurd stray id
  constructor
  · intro first second firstColumn secondColumn left right
    obtain ⟨-, leftRow, leftCol⟩ := placed first firstColumn left
    obtain ⟨-, rightRow, rightCol⟩ := placed second secondColumn right
    exact ⟨leftRow.trans rightRow.symm, leftCol.trans rightCol.symm⟩
  · exact fun _ index column mark => (placed index column mark).2
  · intro hidden index column mark
    have visible := (placed index column mark).1
    rw [hidden] at visible
    cases visible

/-- The first part of `guac_terminal_commit_cursor` leaves no cell marked. -/
theorem Grid.Drawn.erased (drawn : grid.Drawn noStrays) :
    (if grid.visibleCursorRow ≠ -1 ∧ grid.visibleCursorCol ≠ -1 then
        markCursor grid grid.visibleCursorRow grid.visibleCursorCol false
      else grid).buffer.MarkedIn noStrays := by
  split
  · rename_i shown
    apply (markCursor_markedIn drawn.plain drawn.marked (fun set => by cases set)).mono
    rintro index column _ (⟨set, -⟩ | ⟨⟨-, here⟩ | stray, apart⟩)
    · cases set
    · exact absurd here apart
    · exact stray
  · rename_i absent
    apply Buffer.MarkedIn.mono drawn.marked
    rintro index column _ (⟨shown, -⟩ | stray)
    · exact absurd shown absent
    · exact stray

/-- A flush draws the cursor where it is, and nowhere else. -/
theorem commitCursor_drawn {console : Console} (drawn : console.grid.Drawn noStrays)
    (guard : CommitGuard console) :
    (commitCursor console).grid.Drawn noStrays ∧ (commitCursor console).CursorDrawn := by
  have erased := drawn.erased
  have keeps : console.grid.Keeps
      (if console.grid.visibleCursorRow ≠ -1 ∧ console.grid.visibleCursorCol ≠ -1 then
        markCursor console.grid console.grid.visibleCursorRow console.grid.visibleCursorCol false
      else console.grid) :=
    Grid.Keeps.ite (markCursor_keeps ..) (.refl _)
  have whole (visible : console.cursorVisible = true) :
      ((if console.grid.visibleCursorRow ≠ -1 ∧ console.grid.visibleCursorCol ≠ -1 then
        markCursor console.grid console.grid.visibleCursorRow console.grid.visibleCursorCol false
      else console.grid).row console.cursorRow).Whole console.cursorCol := by
    split
    · exact markCursor_whole drawn.plain _ _ _ (guard visible).2
    · exact (guard visible).2
  unfold commitCursor
  dsimp only
  split
  · rename_i same
    exact ⟨drawn, fun _ => same⟩
  · generalize (if console.grid.visibleCursorRow ≠ -1 ∧ console.grid.visibleCursorCol ≠ -1 then
      markCursor console.grid console.grid.visibleCursorRow console.grid.visibleCursorCol false
      else console.grid) = blank at erased keeps whole ⊢
    have plain := drawn.plain.keeps keeps
    have positive := keeps.available.symm ▸ drawn.positive
    split
    · rename_i visible
      have marked : (markCursor blank console.cursorRow console.cursorCol true).buffer.MarkedIn _ :=
        markCursor_markedIn plain erased fun _ => whole visible
      have shown := (markCursor_keeps blank console.cursorRow console.cursorCol true).trans
        (.showAt _ console.cursorRow console.cursorCol)
      refine ⟨⟨plain.keeps shown, positive, (guard visible).1, ?_⟩,
        fun _ => ⟨visible, rfl, rfl⟩⟩
      apply marked.mono
      rintro index column mark (⟨-, here, there⟩ | ⟨stray, -⟩)
      · have col : console.cursorCol ≠ -1 := by
          have nonneg : 0 ≤ column := mark.1
          omega
        exact Or.inl ⟨⟨fun row => col ((guard visible).1 row), col⟩, here, there⟩
      · exact absurd stray id
    · have none := plain.keeps (.showAt blank (-1) (-1))
      refine ⟨⟨none, positive, fun _ => rfl, ?_⟩, fun shown => absurd rfl shown.1⟩
      exact Buffer.MarkedIn.mono erased fun index column _ stray => absurd stray id

end Commit


/-! ## Operations -/

section Operations

variable {grid : Grid} {console : Console}

/-- The cells that are cleared of a row start in it. -/
def Grid.ClearGuard (grid : Grid) (row start stop : Int) : Prop :=
  0 ≤ start ∧ start ≤ max 0 (max (grid.row row).length (stop + 1))

instance (grid : Grid) (row start stop : Int) : Decidable (grid.ClearGuard row start stop) :=
  inferInstanceAs (Decidable (_ ∧ _))

theorem Grid.Drawn.clear (drawn : grid.Drawn noStrays) {row start stop : Int}
    (guard : grid.ClearGuard row start stop) :
    (Terminal.clearColumns grid row start stop).Drawn noStrays :=
  Grid.Drawn.mono (drawn.clearColumns guard.1 guard.2) fun _ _ stray => stray.1

theorem copyColumns_index (grid : Grid) (row startColumn endColumn offset other : Int) :
    (copyColumns grid row startColumn endColumn offset).buffer.index other
      = grid.buffer.index other := by
  have same := bufferCopyColumns_same grid.buffer row startColumn endColumn offset
  have broken := (forceBreaks_writes
    (moveCursorColumn (copyColumnsRaw grid row startColumn endColumn offset) row startColumn
      endColumn offset) row (startColumn + offset) (endColumn + offset + 1)).extended.index other
  rw [moveCursorColumn_buffer] at broken
  exact broken.trans (Buffer.index_congr same.2.2 same.1 other)

/-- The condition under which a copy of columns, if it is made, and the clearing of others carry the
mark along. -/
def Grid.ShiftGuard (grid : Grid) (shifts : Prop) [Decidable shifts]
    (row startColumn endColumn offset start stop : Int) : Prop :=
  if shifts then
    grid.CarriesColumns row startColumn endColumn offset start stop
      ∧ (copyColumns grid row startColumn endColumn offset).ClearGuard row start stop
  else grid.ClearGuard row start stop

instance (grid : Grid) (shifts : Prop) [Decidable shifts]
    (row startColumn endColumn offset start stop : Int) :
    Decidable (grid.ShiftGuard shifts row startColumn endColumn offset start stop) :=
  inferInstanceAs (Decidable (ite ..))

theorem Grid.Drawn.shift (drawn : grid.Drawn noStrays) {shifts : Prop} [Decidable shifts]
    {row startColumn endColumn offset start stop : Int}
    (guard : grid.ShiftGuard shifts row startColumn endColumn offset start stop) :
    (Terminal.clearColumns
      (if shifts then Terminal.copyColumns grid row startColumn endColumn offset else grid) row
      start stop).Drawn noStrays := by
  unfold Grid.ShiftGuard at guard
  split at guard
  · rename_i shift
    obtain ⟨carries, nonneg, within⟩ := guard
    rw [if_pos shift]
    have copied := drawn.copyColumns carries
    have index := copyColumns_index grid row startColumn endColumn offset row
    generalize Terminal.copyColumns grid row startColumn endColumn offset = after
      at nonneg within copied index ⊢
    apply (copied.clearColumns nonneg within).without
    rintro other column _ ⟨⟨here, inside⟩, apart⟩
    exact apart ⟨here.trans index.symm, inside⟩
  · rename_i kept
    rw [if_neg kept]
    exact drawn.clear guard

/-- The condition under which a character of the given width takes the place of the drawn cursor. -/
def Grid.SetGuard (grid : Grid) (row col codepoint : Int) (width : Nat) : Prop :=
  width ≠ 0 → (0 ≤ col ∧ codepoint ≠ charContinuation)
    ∧ (grid.CursorIn row col (col + width - 1) → width = 1)

instance (grid : Grid) (row col codepoint : Int) (width : Nat) :
    Decidable (grid.SetGuard row col codepoint width) :=
  inferInstanceAs (Decidable (_ → _ ∧ (_ → _)))

/-- A character takes the mark from what it is written over. -/
theorem terminalSet_drawn {platform : Platform} {row col codepoint : Int}
    (drawn : grid.Drawn (grid.InColumns row col (col + platform.wc.columns codepoint - 1)))
    (guard : grid.SetGuard row col codepoint (platform.wc.columns codepoint)) :
    (terminalSet platform grid row col codepoint).Drawn noStrays := by
  unfold terminalSet
  dsimp only
  split
  · rename_i empty
    apply drawn.without
    rintro index column _ ⟨-, after, before⟩
    omega
  · rename_i positive
    obtain ⟨⟨nonneg, solid⟩, single⟩ := guard positive
    apply Grid.Drawn.without (drawn.setColumns
      ⟨drawn.plain.currentAttributes, solid⟩ positive nonneg single ?_)
    · rintro index column _ ⟨stray, apart⟩
      exact apart stray
    · omega

/-- The condition for `guac_terminal_linefeed`. -/
def LinefeedGuard (console : Console) : Prop :=
  console.cursorRow = console.scrollEnd →
    console.grid.CarriesUp console.scrollStart console.scrollEnd 1

instance (console : Console) : Decidable (LinefeedGuard console) :=
  inferInstanceAs (Decidable (_ → _))

theorem linefeed_drawn (drawn : console.grid.Drawn noStrays) (guard : LinefeedGuard console) :
    (linefeed console).grid.Drawn noStrays := by
  unfold linefeed
  split
  · rename_i last
    exact drawn.scrollUp (guard last)
  · split
    · exact drawn
    · exact drawn

/-- The condition for `guac_terminal_reverse_linefeed`. -/
def ReverseGuard (console : Console) : Prop :=
  console.cursorRow = console.scrollStart →
    console.grid.CarriesDown console.scrollStart console.scrollEnd 1

instance (console : Console) : Decidable (ReverseGuard console) :=
  inferInstanceAs (Decidable (_ → _))

theorem reverseLinefeed_drawn (drawn : console.grid.Drawn noStrays)
    (guard : ReverseGuard console) : (reverseLinefeed console).grid.Drawn noStrays := by
  unfold reverseLinefeed
  split
  · rename_i first
    exact drawn.scrollDown (guard first)
  · split
    · exact drawn
    · exact drawn

/-- The condition for the line that may be begun before a character. -/
def WrapGuard (console : Console) : Prop :=
  console.cursorCol ≥ console.grid.termWidth → LinefeedGuard console

instance (console : Console) : Decidable (WrapGuard console) :=
  inferInstanceAs (Decidable (_ → _))

theorem wrapCursor_drawn (drawn : console.grid.Drawn noStrays) (guard : WrapGuard console) :
    (wrapCursor console).grid.Drawn noStrays := by
  unfold wrapCursor
  split
  · rename_i past
    exact linefeed_drawn drawn (guard past)
  · exact drawn

/-- The condition for a character, once a line has been begun for it. -/
def PrintGuard (platform : Platform) (console : Console) (codepoint : Int) : Prop :=
  (console.insertMode = true →
    console.grid.CarriesColumns console.cursorRow console.cursorCol (console.grid.termWidth - 2) 1
      console.cursorCol (console.cursorCol + platform.wc.columns codepoint - 1))
  ∧ (insertShift console).grid.SetGuard console.cursorRow console.cursorCol codepoint
      (platform.wc.columns codepoint)

instance (platform : Platform) (console : Console) (codepoint : Int) :
    Decidable (PrintGuard platform console codepoint) :=
  inferInstanceAs (Decidable ((_ → _) ∧ _))

theorem insertShift_cursor (console : Console) :
    (insertShift console).cursorRow = console.cursorRow
      ∧ (insertShift console).cursorCol = console.cursorCol := by
  unfold insertShift
  split
  · exact ⟨rfl, rfl⟩
  · exact ⟨rfl, rfl⟩

theorem insertShift_drawn (drawn : console.grid.Drawn noStrays) {stop : Int}
    (guard : console.insertMode = true →
      console.grid.CarriesColumns console.cursorRow console.cursorCol
        (console.grid.termWidth - 2) 1 console.cursorCol stop) :
    (insertShift console).grid.Drawn
      ((insertShift console).grid.InColumns console.cursorRow console.cursorCol stop) := by
  unfold insertShift
  split
  · rename_i inserts
    have copied := drawn.copyColumns (guard inserts)
    apply copied.mono
    rintro index column ⟨here, inside⟩
    exact ⟨here.trans (copyColumns_index ..).symm, inside⟩
  · exact drawn.mono fun index column stray => absurd stray id

theorem printCodepoint_drawn (platform : Platform) (drawn : console.grid.Drawn noStrays)
    {codepoint : Int} (wraps : WrapGuard console)
    (guard : PrintGuard platform (wrapCursor console) codepoint) :
    (printCodepoint platform console codepoint).grid.Drawn noStrays := by
  have wrapped := wrapCursor_drawn drawn wraps
  unfold printCodepoint
  generalize wrapCursor console = begun at wrapped guard
  have shifted := insertShift_drawn wrapped guard.1
  have cursor := insertShift_cursor begun
  unfold printAtCursor
  dsimp only
  rw [cursor.1, cursor.2]
  exact terminalSet_drawn shifted guard.2

end Operations


/-! ## The screen as a whole -/

section Screen

variable {console : Console}

theorem fillRows_loop (character : TerminalChar) :
    RowLoop (fillRows character) (· - 1) fun _ => character where
  zero _ _ := rfl
  succ _ _ _ := rfl

theorem resetRows_loop : RowLoop resetRows id Grid.defaultChar where
  zero _ _ := rfl
  succ _ _ _ := rfl

/-- The condition for the alignment test: its character takes one column where the cursor is
drawn. -/
def FillGuard (platform : Platform) (console : Console) : Prop :=
  platform.indeterminateWidth ≠ 0
    ∧ ((0 ≤ console.grid.visibleCursorRow
        ∧ console.grid.visibleCursorRow < console.grid.termHeight) →
      (0 ≤ console.grid.visibleCursorCol
        ∧ console.grid.visibleCursorCol ≤ console.grid.termWidth - 1) →
      platform.indeterminateWidth = 1)

instance (platform : Platform) (console : Console) : Decidable (FillGuard platform console) :=
  inferInstanceAs (Decidable (_ ∧ (_ → _ → _)))

theorem fillScreen_drawn {platform : Platform} (drawn : console.grid.Drawn noStrays)
    (guard : FillGuard platform console) :
    (fillScreen platform console).grid.Drawn noStrays := by
  have solid : (0x45 : Int) ≠ charContinuation := by decide
  apply Grid.Drawn.mono (Grid.Drawn.rowLoop (fillRows_loop _) guard.1
    (fun _ _ => ⟨⟨drawn.plain.currentAttributes, solid⟩, rfl⟩) drawn _ _ ?_)
  · exact fun _ _ stray => stray.1
  · intro row after before cursor
    obtain ⟨here, inside⟩ := cursor
    exact guard.2 (by omega) inside

/-- The condition for a reset: the cell the cursor is drawn on is among those that become the
screen. -/
def ResetGuard (console : Console) : Prop :=
  console.grid.Shown →
    console.grid.buffer.index console.grid.visibleCursorRow < console.grid.termHeight
      ∧ console.grid.visibleCursorCol ≤ console.grid.termWidth

instance (console : Console) : Decidable (ResetGuard console) :=
  inferInstanceAs (Decidable (_ → _ ∧ _))

/-- The rows of a screen that starts at the first row of the ring stand at their own numbers. -/
theorem Buffer.index_of_top {buffer : Buffer} (positive : 0 < buffer.available)
    (top : buffer.top = 0) {index : Int} (nonneg : 0 ≤ index)
    (bound : index < buffer.available) : buffer.index index = index := by
  rw [Buffer.index_eq_emod positive, top, Int.zero_add]
  exact Int.emod_eq_of_lt nonneg bound

/-- A reset takes every mark in the rows and columns that become the screen. -/
theorem resetConsole_markedIn {places : Int → Int → Prop} (plain : console.grid.PlainDefaults)
    (positive : 0 < console.grid.buffer.available)
    (marked : console.grid.buffer.MarkedIn places)
    (covered : ∀ index column, places index column →
      (0 ≤ index ∧ index < console.grid.buffer.available)
        ∧ index < console.grid.termHeight ∧ column ≤ console.grid.termWidth) :
    (resetConsole console).grid.Drawn noStrays := by
  have first : (0 : Int) ≠ -1 := by decide
  have emptied : Grid.Drawn
      { console.grid with
        visibleCursorRow := 0
        visibleCursorCol := 0
        buffer := { console.grid.buffer with top := 0, length := 0 }
        scrollOffset := 0
        selection :=
          { console.grid.selection with textSelected := false, selectionCommitted := false }
        currentAttributes := console.grid.defaultChar.attributes
        display := { console.grid.display with palette := console.grid.display.defaultPalette } }
      places := by
    refine ⟨⟨plain.defaultCharacter, plain.defaultChar, plain.defaultWidth,
      plain.defaultChar.unmarked⟩, positive, fun absent => absurd absent first, ?_⟩
    exact Buffer.MarkedIn.mono marked fun index column _ place => Or.inr place
  have rows := Grid.Drawn.rowLoop resetRows_loop Nat.one_ne_zero
    (fun _ plain => ⟨plain.defaultChar, plain.defaultWidth⟩) emptied
    console.grid.termHeight.toNat 0 fun _ _ _ _ => rfl
  apply rows.without
  rintro index column nonneg ⟨place, apart⟩
  obtain ⟨⟨start, bound⟩, row, col⟩ := covered index column place
  refine apart ⟨index, start, by omega, (Buffer.index_of_top emptied.positive rfl start bound).symm,
    nonneg, ?_⟩
  exact col

theorem resetConsole_drawn (drawn : console.grid.Drawn noStrays) (guard : ResetGuard console) :
    (resetConsole console).grid.Drawn noStrays := by
  apply resetConsole_markedIn drawn.plain drawn.positive drawn.marked
  rintro index column (⟨shown, here, there⟩ | stray)
  · obtain ⟨row, col⟩ := guard shown
    rw [← here] at row
    rw [← there] at col
    rw [Buffer.index_eq_emod drawn.positive] at here
    refine ⟨⟨?_, ?_⟩, row, col⟩
    · rw [here]
      exact Int.emod_nonneg _ drawn.positive.ne'
    · rw [here]
      exact Int.emod_lt_of_pos _ drawn.positive
  · exact absurd stray id

end Screen


/-! ## What a byte means -/

section Bytes

variable {console : Console}

/-- A branch sets the cursor attribute only if one of its sides does. -/
theorem ite_unmarked {condition : Prop} [Decidable condition] {left right : Attributes × Nat}
    (first : left.1.cursor = false) (second : right.1.cursor = false) :
    (if condition then left else right).1.cursor = false := by
  split
  · exact first
  · exact second

/-- No argument of `m` sets the cursor attribute. -/
theorem graphicsArgument_cursor {colors : Colors} {defaults attributes : Attributes} {value : Int}
    {rest : List Int} (plain : defaults.cursor = false) (unmarked : attributes.cursor = false) :
    (graphicsArgument colors defaults attributes value rest).1.cursor = false := by
  unfold graphicsArgument
  repeat' apply ite_unmarked
  all_goals first | exact plain | exact unmarked

theorem graphicsLoop_cursor {colors : Colors} {defaults : Attributes}
    (plain : defaults.cursor = false) (skip : Nat) (arguments : List Int)
    {attributes : Attributes} (unmarked : attributes.cursor = false) :
    (graphicsLoop colors defaults skip arguments attributes).cursor = false := by
  induction arguments generalizing skip attributes with
  | nil =>
      cases skip with
      | zero => exact unmarked
      | succ skip => exact unmarked
  | cons value rest ih =>
      cases skip with
      | zero => exact ih _ (graphicsArgument_cursor plain unmarked)
      | succ skip => exact ih skip unmarked

/-- The condition for a control sequence. -/
def ControlMarkGuard (console : Console) (argv : Nat → Int) : CsiFunction → Prop
  | .insertCharacters =>
      console.grid.ShiftGuard
        (toInt (console.cursorCol + csiAmount (argv 0)) < console.grid.termWidth)
        console.cursorRow console.cursorCol
        (toInt (console.grid.termWidth - csiAmount (argv 0) - 1)) (csiAmount (argv 0))
        console.cursorCol (toInt (console.cursorCol + csiAmount (argv 0) - 1))
  | .deleteCharacters =>
      console.grid.ShiftGuard
        (toInt (console.cursorCol + csiAmount (argv 0)) < console.grid.termWidth)
        console.cursorRow (toInt (console.cursorCol + csiAmount (argv 0)))
        (console.grid.termWidth - 1) (toInt (-csiAmount (argv 0)))
        (toInt (console.grid.termWidth - csiAmount (argv 0))) (console.grid.termWidth - 1)
  | .eraseCharacters =>
      console.grid.ClearGuard console.cursorRow console.cursorCol
        (toInt (console.cursorCol + csiAmount (argv 0) - 1))
  | .eraseDisplay =>
      argv 0 = 0 → console.cursorCol ≤
        max 0 (max (console.grid.row console.cursorRow).length console.grid.termWidth)
  | .eraseLine =>
      argv 0 = 0 → console.grid.ClearGuard console.cursorRow console.cursorCol
        (console.grid.termWidth - 1)
  | .insertLines =>
      console.grid.CarriesDown console.cursorRow console.scrollEnd (csiAmount (argv 0))
  | .deleteLines =>
      console.grid.CarriesUp console.cursorRow console.scrollEnd (csiAmount (argv 0))
  | _ => True

instance (console : Console) (argv : Nat → Int) :
    ∀ function, Decidable (ControlMarkGuard console argv function) := by
  intro function
  cases function
  all_goals unfold ControlMarkGuard
  all_goals infer_instance

/-- The condition under which an operation carries the mark along. -/
def MarkGuard (platform : Platform) (console : Console) : ConsoleOp → Prop
  | .print codepoint =>
      WrapGuard console ∧ PrintGuard platform (wrapCursor console) codepoint
  | .newline => LinefeedGuard console
  | .linefeed => LinefeedGuard console
  | .nextLine => LinefeedGuard (moveCursor console console.cursorRow 0)
  | .reverseLinefeed => ReverseGuard console
  | .reset => ResetGuard console
  | .fillScreen => FillGuard platform console
  | .control _ argv _ function => ControlMarkGuard console argv function
  | _ => True

instance (platform : Platform) (console : Console) :
    ∀ op, Decidable (MarkGuard platform console op) := by
  intro op
  cases op
  all_goals unfold MarkGuard
  all_goals infer_instance

theorem csiEraseDisplay_drawn (drawn : console.grid.Drawn noStrays) {mode : Int}
    (guard : mode = 0 → console.cursorCol ≤
      max 0 (max (console.grid.row console.cursorRow).length console.grid.termWidth)) :
    (csiEraseDisplay console mode).grid.Drawn noStrays := by
  unfold csiEraseDisplay
  dsimp only
  split_ifs with below above whole
  · exact drawn.clearRange (guard below)
  · exact drawn.clearRange (le_max_left ..)
  · exact drawn.clearRange (le_max_left ..)
  · exact drawn

theorem csiEraseLine_drawn (drawn : console.grid.Drawn noStrays) {mode : Int}
    (guard : mode = 0 → console.grid.ClearGuard console.cursorRow console.cursorCol
      (console.grid.termWidth - 1)) :
    (csiEraseLine console mode).grid.Drawn noStrays := by
  unfold csiEraseLine
  dsimp only
  split_ifs with right left whole
  · exact drawn.clear (guard right)
  · exact drawn.clear ⟨le_rfl, le_max_left ..⟩
  · exact drawn.clear ⟨le_rfl, le_max_left ..⟩
  · exact drawn

theorem setFlag_grid (console : Console) (privateMode : UInt8) (number : Int) (value : Bool) :
    (setFlag console privateMode number value).grid = console.grid := by
  unfold setFlag
  split_ifs
  all_goals rfl

theorem csiConsole_drawn (drawn : console.grid.Drawn noStrays) (argc : Nat) {argv : Nat → Int}
    (privateMode : UInt8) {function : CsiFunction}
    (guard : ControlMarkGuard console argv function) :
    (csiConsole console argc argv privateMode function).grid.Drawn noStrays := by
  cases function with
  | insertCharacters => exact drawn.shift guard
  | deleteCharacters => exact drawn.shift guard
  | eraseCharacters => exact drawn.clear guard
  | eraseDisplay => exact csiEraseDisplay_drawn drawn guard
  | eraseLine => exact csiEraseLine_drawn drawn guard
  | insertLines => exact drawn.scrollDown guard
  | deleteLines => exact drawn.scrollUp guard
  | graphics =>
      exact drawn.congr rfl rfl rfl rfl (graphicsLoop_cursor drawn.plain.defaultChar.unmarked _ _
        drawn.plain.currentAttributes)
  | setMode => exact (setFlag_grid console privateMode (argv 0) true).symm ▸ drawn
  | resetMode => exact (setFlag_grid console privateMode (argv 0) false).symm ▸ drawn
  | clearTab =>
      have same : (csiClearTab console (argv 0)).grid = console.grid := by
        unfold csiClearTab
        split_ifs
        all_goals rfl
      exact same.symm ▸ drawn
  | scrollRegion =>
      have same : (csiScrollRegion console argc argv).grid = console.grid := by
        unfold csiScrollRegion
        split_ifs
        all_goals rfl
      exact same.symm ▸ drawn
  | _ => exact drawn

theorem newline_drawn (drawn : console.grid.Drawn noStrays) (guard : LinefeedGuard console) :
    (Terminal.newline console).grid.Drawn noStrays := by
  have fed := linefeed_drawn drawn guard
  unfold Terminal.newline
  dsimp only
  split
  · exact fed
  · exact fed

/-- A guarded operation carries the mark along. -/
theorem perform_drawn (platform : Platform) (drawn : console.grid.Drawn noStrays)
    {op : ConsoleOp} (guard : MarkGuard platform console op) :
    (perform platform console op).grid.Drawn noStrays := by
  cases op with
  | print codepoint => exact printCodepoint_drawn platform drawn guard.1 guard.2
  | newline => exact newline_drawn drawn guard
  | linefeed => exact linefeed_drawn drawn guard
  | nextLine =>
      have moved : (moveCursor console console.cursorRow 0).grid.Drawn noStrays := drawn
      exact linefeed_drawn moved guard
  | reverseLinefeed => exact reverseLinefeed_drawn drawn guard
  | reset => exact resetConsole_drawn drawn guard
  | fillScreen => exact fillScreen_drawn drawn guard
  | control argc argv privateMode function =>
      exact csiConsole_drawn drawn argc privateMode guard
  | assignColor index color =>
      cases color with
      | none => exact drawn
      | some color => exact drawn.congr rfl rfl rfl rfl drawn.plain.currentAttributes
  | _ => exact drawn

end Bytes


/-! ## Resizing -/

section Resizing

variable {console : Console}

/-- A shift of the rows carries the cursor along, unless its row becomes that of a hidden one. -/
theorem shiftRows_drawn (drawn : console.grid.Drawn noStrays) {amount : Int}
    (reached : console.grid.Shown → console.grid.visibleCursorRow + amount ≠ -1) :
    (shiftRows console amount).grid.Drawn noStrays := by
  have index (row : Int) :
      (shiftRows console amount).grid.buffer.index (row + amount)
        = console.grid.buffer.index row := by
    have place : console.grid.buffer.top - amount + (row + amount)
        = console.grid.buffer.top + row := by
      omega
    unfold Buffer.index shiftRows
    dsimp only
    rw [place]
  refine ⟨⟨drawn.plain.defaultCharacter, drawn.plain.defaultChar, drawn.plain.defaultWidth,
    drawn.plain.currentAttributes⟩, drawn.positive, fun absent => ?_, ?_⟩
  · change ite _ _ _ = (-1 : Int) at absent
    change console.grid.visibleCursorCol = -1
    by_contra col
    split at absent
    · rename_i row
      exact reached ⟨row, col⟩ absent
    · rename_i none
      exact col (drawn.hidden (not_not.mp none))
  · apply Buffer.MarkedIn.mono drawn.marked
    rintro other column _ (⟨shown, here, there⟩ | stray)
    · have row : (shiftRows console amount).grid.visibleCursorRow
          = console.grid.visibleCursorRow + amount := if_pos shown.1
      refine Or.inl ⟨⟨row.trans_ne (reached shown), shown.2⟩, ?_, there⟩
      rw [here, row, index]
    · exact Or.inr stray

/-- The condition for a resize to a height: no shift takes the drawn cursor to the row that stands
for a hidden one. -/
def ResizeMarkGuard (console : Console) (height : Int) : Prop :=
  console.grid.Shown →
    console.grid.visibleCursorRow - shrinkShift console height ≠ -1
      ∧ console.grid.visibleCursorRow + growShift console height ≠ -1

instance (console : Console) (height : Int) : Decidable (ResizeMarkGuard console height) :=
  inferInstanceAs (Decidable (_ → _ ∧ _))

theorem resizeShrink_drawn (drawn : console.grid.Drawn noStrays) (width : Int) {height : Int}
    (reached : console.grid.Shown →
      console.grid.visibleCursorRow - shrinkShift console height ≠ -1) :
    (resizeShrink console width height).grid.Drawn noStrays := by
  unfold shrinkShift at reached
  unfold resizeShrink
  split at reached
  · rename_i lower
    rw [if_pos lower]
    dsimp only at reached ⊢
    generalize min (effectiveBufferLength console) console.grid.termHeight - height = amount
      at reached ⊢
    split
    · rename_i covered
      rw [max_eq_left covered.le] at reached
      have copied : Grid.Drawn (Console.grid
          { console with
            grid := console.grid.displayCall
              (.copyRows amount (console.grid.display.height - 1) (-amount)) }) noStrays :=
        (Grid.Redraws.displayCall ..).drawn _ drawn
      exact (redraw_redraws ..).drawn _ (shiftRows_drawn copied reached)
    · exact drawn
  · rename_i higher
    rw [if_neg higher]
    exact drawn

theorem resizeGrow_drawn (drawn : console.grid.Drawn noStrays) (width : Int) {height : Int}
    (reached : console.grid.Shown →
      console.grid.visibleCursorRow + growShift console height ≠ -1) :
    (resizeGrow console width height).grid.Drawn noStrays := by
  unfold growShift at reached
  unfold resizeGrow
  split at reached
  · rename_i higher
    rw [if_pos higher]
    have shifted := shiftRows_drawn drawn reached
    dsimp only
    generalize shiftRows console
      (min (height - console.grid.termHeight) (getAvailableScroll console)) = after at shifted ⊢
    split
    · apply (redraw_redraws ..).drawn
      exact shifted.congr rfl rfl rfl rfl shifted.plain.currentAttributes
    · have below := (redraw_redraws after.grid after.grid.termHeight 0
        (after.grid.termHeight + after.grid.scrollOffset - 1) (width - 1)).drawn _ shifted
      split
      · apply (redraw_redraws ..).drawn
        exact below.congr rfl rfl rfl rfl below.plain.currentAttributes
      · exact below.congr rfl rfl rfl rfl below.plain.currentAttributes
  · rename_i lower
    rw [if_neg lower]
    exact drawn

/-- A resize carries the cursor along. -/
theorem resizeCells_drawn (drawn : console.grid.Drawn noStrays) (width : Int) {height : Int}
    (guard : ResizeMarkGuard console height) :
    (resizeCells console width height).grid.Drawn noStrays := by
  have shrunk := resizeShrink_drawn drawn width fun shown => (guard shown).1
  have shifts := resizeShrink_shifts console width height
  have higher (grows : height > console.grid.termHeight) :
      resizeShrink console width height = console := if_neg (not_lt.mpr grows.le)
  unfold resizeCells
  generalize resizeShrink console width height = first at shrunk shifts higher
  have displayed : first.grid.Redraws (resizeDisplay first.grid width height) :=
    .of_eq rfl rfl rfl rfl rfl
  have draws : first.grid.Draws (resizeDisplay first.grid width height) := ⟨rfl, rfl, rfl, rfl, rfl⟩
  dsimp only
  generalize resizeDisplay first.grid width height = grid at displayed draws
  have widened : ∃ wide, (if width > grid.termWidth then
        { first with grid := redraw grid 0 (grid.termWidth - 1) (height - 1) (width - 1) }
      else { first with grid := grid }) = { first with grid := wide }
        ∧ first.grid.Redraws wide ∧ first.grid.Draws wide := by
    split
    · exact ⟨_, rfl, displayed.trans (redraw_redraws ..), draws.redraw ..⟩
    · exact ⟨_, rfl, displayed, draws⟩
  obtain ⟨wide, widened, redraws, draws⟩ := widened
  rw [widened]
  have second : Grid.Drawn (Console.grid { first with grid := wide }) noStrays :=
    redraws.drawn _ shrunk
  have same : growShift { first with grid := wide } height = growShift console height :=
    (shifts.draw draws).growShift height
  have grown : (resizeGrow { first with grid := wide } width height).grid.Drawn noStrays := by
    apply resizeGrow_drawn second
    intro shown
    rw [same]
    by_cases grows : height > console.grid.termHeight
    · have row : wide.visibleCursorRow = console.grid.visibleCursorRow :=
        higher grows ▸ redraws.longer.visibleCursorRow
      have shown' : console.grid.Shown :=
        higher grows ▸ redraws.longer.shown.mp shown
      change wide.visibleCursorRow + _ ≠ _
      rw [row]
      exact (guard shown').2
    · have none : growShift console height = 0 := if_neg fun both => grows both.1
      rw [none, Int.add_zero]
      exact shown.1
  exact grown.congr rfl rfl rfl rfl grown.plain.currentAttributes

end Resizing


/-! ## Runs -/

/-- Something that moves cells of the terminal, or draws its cursor. -/
inductive CursorAction where
  | write (c : UInt8)
  | commit
  | resize (width height : Int)
  | displayUp (amount : Int)
  | displayDown (amount : Int)
  deriving DecidableEq, Repr

/-- The terminal after an action. -/
def cursorStep (platform : Platform) (metrics : FontMetrics) (term : Term) : CursorAction → Term
  | .write c => writeByte platform term c
  | .commit => term.onConsole commitCursor
  | .resize width height => resize metrics term width height
  | .displayUp amount => term.onConsole (terminalScrollDisplayUp · amount)
  | .displayDown amount => term.onConsole (terminalScrollDisplayDown · amount)

/-- The condition under which an action leaves no mark behind. -/
def CursorStepGuard (platform : Platform) (metrics : FontMetrics) (term : Term) :
    CursorAction → Prop
  | .write c => MarkGuard platform term.toConsole (operation platform term c)
  | .commit => CommitGuard term.toConsole
  | .resize width height =>
      ResizeMarkGuard term.toConsole (calculateRowsAndColumns metrics height width).1
  | .displayUp _ => True
  | .displayDown _ => True

instance (platform : Platform) (metrics : FontMetrics) (term : Term) :
    ∀ action, Decidable (CursorStepGuard platform metrics term action) := by
  intro action
  cases action
  all_goals unfold CursorStepGuard
  all_goals infer_instance

section Runs

variable {platform : Platform} {metrics : FontMetrics}

theorem resizeRowsColumns_drawn {console : Console} (drawn : console.grid.Drawn noStrays)
    {rows : Int} (columns : Int) (guard : ResizeMarkGuard console rows) :
    (resizeRowsColumns console rows columns).grid.Drawn noStrays := by
  unfold resizeRowsColumns
  split
  · exact resizeCells_drawn drawn columns guard
  · exact drawn

/-- A guarded action carries the mark along. -/
theorem cursorStep_drawn {term : Term} (drawn : term.grid.Drawn noStrays)
    {action : CursorAction} (guard : CursorStepGuard platform metrics term action) :
    (cursorStep platform metrics term action).grid.Drawn noStrays := by
  cases action with
  | write c =>
      have performed := perform_drawn platform drawn guard
      rw [← writeByte_toConsole] at performed
      exact performed
  | commit => exact (commitCursor_drawn drawn guard).1
  | resize width height => exact resizeRowsColumns_drawn drawn _ guard
  | displayUp amount => exact (scrollDisplayUp_redraws ..).drawn _ drawn
  | displayDown amount => exact (scrollDisplayDown_redraws ..).drawn _ drawn

/-- The rows of a new terminal hold no cells, so none is marked before it is reset. -/
theorem create_drawn (metrics : FontMetrics) (options : TerminalOptions) :
    (create metrics options).grid.Drawn noStrays := by
  have space : (0 : Int) ≠ charContinuation := by decide
  have plain : options.defaultChar.Plain := ⟨rfl, space⟩
  have room : (0 : Int) < max options.maxScrollback 1024 := by omega
  have empty (rows columns : Int) :
      (options.grid rows columns).buffer.MarkedIn noStrays := by
    rintro index column ⟨nonneg, within, -⟩
    change column < 0 at within
    omega
  exact resetConsole_markedIn ⟨plain, plain, rfl, rfl⟩ room (empty _ _)
    fun index column stray => absurd stray id

end Runs

end GuacNebula.Terminal
