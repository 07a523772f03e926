import GuacNebula.Terminal.CharacterEdits

/-! # When an edit fits

A row in which every cell counts shows where an edit does not splice it: letters, of which one
differs from the others, before an end behind which there are blanks that differ from those that
are written. Memory beyond the end of such a row holds letters, too.

The main result is `csi_edit_iff`: for a given width, cursor column, length of the row and
parameter, an edit splices every row if and only if it fits.
-/

namespace GuacNebula.Terminal

open CInt

/-! ## What is written -/

/-- Wherever the range starts, a column of it that is cleared is blank, or a space if a break was
forced there. -/
theorem clearColumns_cells (grid : Grid) (row : Int) {start stop column : Int}
    (low : start ≤ column) (high : column ≤ stop) :
    stop + 1 ≤ ((clearColumns grid row start stop).row row).length
      ∧ ((((clearColumns grid row start stop).row row).characters column).unmarked
          = grid.blank.unmarked
        ∨ (((clearColumns grid row start stop).row row).characters column).value = 32) := by
  have positive : grid.blank.width ≠ 0 := Nat.one_ne_zero
  have raw := Grid.Rewritten.setColumnsRaw grid row start stop positive
  -- The cursor is drawn on a blank.
  have cursor : stop + 1 ≤ ((setColumnsCursor grid row start stop grid.blank).row row).length
      ∧ (((setColumnsCursor grid row start stop grid.blank).row row).characters column).unmarked
        = grid.blank.unmarked := by
    have blank : (((setColumnsRaw grid row start stop grid.blank).row row).characters column)
        = grid.blank := by
      rw [raw.characters, Row.set_characters _ _ _ _ rfl, if_pos ⟨low, high⟩]
    unfold setColumnsCursor
    dsimp only
    split
    case isFalse =>
      rw [raw.length, blank]
      exact ⟨le_max_right .., rfl⟩
    case isTrue shown =>
      have again := Grid.Rewritten.setColumnsRaw (setColumnsRaw grid row start stop grid.blank) row
        grid.visibleCursorCol grid.visibleCursorCol
        (show grid.blank.withCursor.width ≠ 0 from Nat.one_ne_zero)
      obtain ⟨_, _, before⟩ := shown
      change grid.visibleCursorCol ≤ stop at before
      have room : grid.visibleCursorCol + 1
          ≤ ((setColumnsRaw grid row start stop grid.blank).row row).length := by
        rw [raw.length]
        omega
      change stop + 1 ≤ ((setColumnsRaw (setColumnsRaw grid row start stop grid.blank) row
          grid.visibleCursorCol grid.visibleCursorCol grid.blank.withCursor).row row).length
        ∧ (((setColumnsRaw (setColumnsRaw grid row start stop grid.blank) row
          grid.visibleCursorCol grid.visibleCursorCol grid.blank.withCursor).row row).characters
            column).unmarked = grid.blank.unmarked
      rw [again.length, again.characters, Row.set_characters _ _ _ _ rfl,
        Row.grow_characters _ room, blank, raw.length]
      refine ⟨by omega, ?_⟩
      split <;> rfl
  have spaced := forceBreaks_spaced (setColumnsCursor grid row start stop grid.blank) row start
    (stop + 1)
  refine ⟨cursor.1.trans spaced.length, ?_⟩
  rcases spaced.cells column (by omega) with same | space
  · left
    refine Eq.trans (congrArg TerminalChar.unmarked ?_) cursor.2
    exact same
  · exact .inr space

/-- The length of a row in which as many columns as are asked for are cleared. -/
theorem clearColumns_amount_length (grid : Grid) (row : Int) {column amount : Int}
    (nonneg : 0 ≤ column) (positive : 1 ≤ amount) (sum : FitsInt (column + amount)) :
    ((clearColumns grid row column (toInt (column + amount - 1))).row row).length
      = max (grid.row row).length (column + amount) := by
  have stop : toInt (column + amount - 1) = column + amount - 1 :=
    toInt_of_fits (by unfold FitsInt at *; omega)
  rw [stop, clearColumns_rowLength _ _ nonneg (by omega), Int.sub_add_cancel]

/-- An edit that is to be of effect writes no more than the row has room for. -/
theorem insert_fits {console : Console} (editable : console.Editable) {amount : Int}
    (effect : EditEffect .insert console amount (csiInsertCharacters console (csiAmount amount)))
    (positive : 1 ≤ csiAmount amount) : Edit.insert.Fits (console.editShape amount) := by
  have sum := effect.summed
  have length := effect.length
  change console.cursorCol + csiAmount amount
    ≤ max (console.grid.row console.cursorRow).length console.grid.termWidth
  by_contra beyond
  unfold csiInsertCharacters at length
  dsimp only at length
  rw [toInt_of_fits sum, if_neg (by omega),
    clearColumns_amount_length _ _ editable.column.1 positive sum] at length
  omega

theorem erase_fits {console : Console} (editable : console.Editable) {amount : Int}
    (effect : EditEffect .erase console amount (csiEraseCharacters console (csiAmount amount)))
    (positive : 1 ≤ csiAmount amount) : Edit.erase.Fits (console.editShape amount) := by
  have length := effect.length
  change console.cursorCol + csiAmount amount
    ≤ max (console.grid.row console.cursorRow).length console.grid.termWidth
  by_contra beyond
  unfold csiEraseCharacters at length
  dsimp only at length
  rw [clearColumns_amount_length _ _ editable.column.1 positive effect.summed] at length
  omega

/-! ## Rows in which every cell counts -/

/-- The values that an edit can have. -/
structure EditShape.Valid (shape : EditShape) : Prop where
  column : 0 ≤ shape.column ∧ shape.column ≤ shape.width
  width : FitsInt shape.width
  length : 0 ≤ shape.length ∧ FitsInt shape.length
  amount : 1 ≤ shape.amount ∧ FitsInt shape.amount

/-- A letter in one column. -/
def letter (value : Int) : TerminalChar := { (sampleOptions 1 1).defaultChar with value }

/-- A console whose rows consist of letters that are all the same but for one, and whose blanks are
not the characters that stand behind the end of a row. -/
def letterConsole (shape : EditShape) (mark : Int) : Console :=
  { (create sampleMetrics (sampleOptions 1 1)).toConsole with
    cursorRow := 0
    cursorCol := shape.column
    grid :=
      { (sampleOptions 1 1).grid 1 1 with
        termWidth := shape.width
        currentAttributes := { (sampleOptions 1 1).defaultChar.attributes with bold := true }
        buffer :=
          { ((sampleOptions 1 1).grid 1 1).buffer with
            rows := fun _ =>
              { characters := fun column => letter (if column = mark then 0x62 else 0x61)
                length := shape.length
                available := shape.length } } } }

section Necessary

variable {shape : EditShape} {mark : Int}

theorem letterConsole_editable (valid : shape.Valid) (mark : Int) :
    (letterConsole shape mark).Editable := by
  have narrow : (sampleOptions 1 1).defaultChar.value ≠ charContinuation
      ∧ (sampleOptions 1 1).defaultChar.width = 1 := by
    decide
  exact ⟨valid.column, valid.width, valid.length, narrow.1, narrow.2⟩

theorem letterConsole_cell (shape : EditShape) (mark column : Int) :
    (letterConsole shape mark).grid.cell 0 column =
      if column < shape.length then letter (if column = mark then 0x62 else 0x61)
      else (sampleOptions 1 1).defaultChar :=
  rfl

/-- No cell belongs to a character of several columns, so that nothing may be blanked in its
place. -/
theorem letterConsole_exact (shape : EditShape) (mark offset : Int)
    {after : Int → TerminalChar} {first last column : Int}
    (kept : Kept (fun column => (letterConsole shape mark).grid.cell 0 (column - offset)) after
      first last) (low : first ≤ column) (high : column < last) :
    after column = (letterConsole shape mark).grid.cell 0 (column - offset) := by
  refine (kept column low high).resolve_right fun blanked => blanked.2 (.of_narrow ?_ ?_ low high)
  · rw [Continued, letterConsole_cell]
    split_ifs <;> decide
  · rw [letterConsole_cell]
    split_ifs <;> rfl

theorem letterConsole_left {amount : Int} {edit : Edit} {after : Console}
    (effect : EditEffect edit (letterConsole shape mark) amount after) {column : Int}
    (low : 0 ≤ column) (high : column < shape.column) :
    after.grid.cell 0 column = (letterConsole shape mark).grid.cell 0 column := by
  have unmoved : (fun column => (letterConsole shape mark).grid.cell 0 (column - 0))
      = (letterConsole shape mark).grid.cell 0 := by
    funext place
    rw [Int.sub_zero]
  have stays := letterConsole_exact shape mark 0 (by rw [unmoved]; exact effect.left) low high
  rwa [Int.sub_zero] at stays

theorem letterConsole_shape (valid : shape.Valid) (mark : Int) :
    csiAmount shape.amount = shape.amount
      ∧ (letterConsole shape mark).editShape shape.amount = shape := by
  have same : csiAmount shape.amount = shape.amount := by
    have positive := valid.amount.1
    exact if_neg (by omega)
  refine ⟨same, ?_⟩
  unfold Console.editShape
  rw [same]
  rfl

/-- A cell of the console, or of what is stored for it, is not one that is cleared. -/
theorem letterConsole_solid (shape : EditShape) (mark : Int) {character : TerminalChar}
    (cleared : character.unmarked = (letterConsole shape mark).grid.blank.unmarked
      ∨ character.value = 32) :
    character ≠ (sampleOptions 1 1).defaultChar
      ∧ ∀ value ∈ [0x61, 0x62], character ≠ letter value := by
  have bold (other : TerminalChar) (light : other.attributes.bold = false)
      (value : other.value ≠ 32) : character ≠ other := by
    rintro rfl
    rcases cleared with blank | space
    · have attributes := congrArg (fun cell => cell.attributes.bold) blank
      change character.attributes.bold = true at attributes
      rw [light] at attributes
      cases attributes
    · exact value space
  refine ⟨bold _ rfl (by decide), fun value member => bold _ rfl ?_⟩
  rcases List.mem_pair.mp member with rfl | rfl <;> decide

/-- Cells to the left of the cursor must not be cleared. -/
theorem delete_inside (valid : shape.Valid)
    (effect : EditEffect .delete (letterConsole shape 0) shape.amount
      (csiDeleteCharacters (letterConsole shape 0) shape.amount)) :
    shape.column + shape.amount ≤ shape.width := by
  obtain ⟨same, eq⟩ := letterConsole_shape valid 0
  have sum := effect.summed
  rw [same] at sum
  change FitsInt (shape.column + shape.amount) at sum
  obtain ⟨onScreen, width, _, positive, small⟩ := valid
  by_contra beyond
  have first : toInt (shape.width - shape.amount) = shape.width - shape.amount :=
    toInt_of_fits (by unfold FitsInt at *; omega)
  have grid : (csiDeleteCharacters (letterConsole shape 0) shape.amount).grid
      = clearColumns (letterConsole shape 0).grid 0 (shape.width - shape.amount)
          (shape.width - 1) := by
    unfold csiDeleteCharacters
    change clearColumns (if toInt (shape.column + shape.amount) < shape.width then _ else _) 0
      (toInt (shape.width - shape.amount)) (shape.width - 1) = _
    rw [toInt_of_fits sum, first, if_neg (by omega)]
  have cells := clearColumns_cells (letterConsole shape 0).grid 0
    (show shape.width - shape.amount ≤ shape.column - 1 by omega)
    (show shape.column - 1 ≤ shape.width - 1 by omega)
  rw [← grid] at cells
  have solid := letterConsole_solid shape 0 cells.2
  rcases Int.lt_or_le (shape.column - 1) 0 with before | after
  · have kept := effect.outside (shape.column - 1) before
    refine solid.2 (if shape.column - 1 = 0 then 0x62 else 0x61) ?_ kept
    split <;> simp
  · have kept := letterConsole_left effect after (by omega)
    have stored : shape.column - 1 < ((csiDeleteCharacters (letterConsole shape 0)
        shape.amount).grid.row 0).length := by
      omega
    rw [Grid.cell_of_lt _ _ stored, letterConsole_cell] at kept
    split at kept
    · refine solid.2 _ ?_ kept
      split <;> simp
    · exact solid.1 kept

theorem letterConsole_not_blank (shape : EditShape) (mark column : Int) :
    ¬ ((letterConsole shape mark).grid.cell 0 column).IsBlank := by
  rw [letterConsole_cell]
  rintro ⟨value, _⟩
  revert value
  split_ifs <;> decide

/-- If the row is spliced, then by the cells that are moved. -/
theorem delete_copied (valid : shape.Valid) (room : shape.column + shape.amount < shape.width)
    (effect : EditEffect .delete (letterConsole shape mark) shape.amount
      (csiDeleteCharacters (letterConsole shape mark) shape.amount)) {column : Int}
    (low : 0 ≤ column) (high : column < shape.width - shape.amount) :
    (letterConsole shape mark).grid.copied 0 (shape.column + shape.amount) (shape.width - 1)
        (-shape.amount) column =
      (letterConsole shape mark).grid.cell 0
        (if shape.column ≤ column then column + shape.amount else column) := by
  obtain ⟨same, eq⟩ := letterConsole_shape valid mark
  have narrow := (letterConsole_editable valid mark).narrow
  obtain ⟨onScreen, width, _, positive, small⟩ := valid
  have sum : FitsInt (shape.column + shape.amount) := by
    unfold FitsInt at *
    omega
  have first : toInt (shape.width - shape.amount) = shape.width - shape.amount :=
    toInt_of_fits (by unfold FitsInt at *; omega)
  have offset : toInt (-shape.amount) = -shape.amount :=
    toInt_of_fits (by unfold FitsInt at *; omega)
  have grid : (csiDeleteCharacters (letterConsole shape mark) shape.amount).grid
      = clearColumns (copyColumns (letterConsole shape mark).grid 0 (shape.column + shape.amount)
          (shape.width - 1) (-shape.amount)) 0 (shape.width - shape.amount) (shape.width - 1) := by
    unfold csiDeleteCharacters
    change clearColumns (if toInt (shape.column + shape.amount) < shape.width then
      copyColumns (letterConsole shape mark).grid 0 (toInt (shape.column + shape.amount))
        (shape.width - 1) (toInt (-shape.amount)) else _) 0
      (toInt (shape.width - shape.amount)) (shape.width - 1) = _
    rw [toInt_of_fits sum, first, offset, if_pos room]
  have keeps := copyColumns_keeps (letterConsole shape mark).grid 0
    (shape.column + shape.amount) (shape.width - 1) (-shape.amount)
  have kept {start stop : Int} (nonneg : 0 ≤ start) (within : stop ≤ shape.width - shape.amount)
      (apart : shape.column ≤ start ∨ stop ≤ shape.column) :
      Kept ((letterConsole shape mark).grid.copied 0 (shape.column + shape.amount)
        (shape.width - 1) (-shape.amount))
        ((csiDeleteCharacters (letterConsole shape mark) shape.amount).grid.cell 0) start stop := by
    rw [grid]
    refine Kept.trans
      (copyColumns_kept (by omega) (by omega) nonneg (by omega) (by omega) (by omega))
      (clearColumns_kept (narrow.keeps keeps) (by omega) (by omega) nonneg (.inl within))
  have stored (shown : (csiDeleteCharacters (letterConsole shape mark) shape.amount).grid.cell 0
        column = (letterConsole shape mark).grid.cell 0
          (if shape.column ≤ column then column + shape.amount else column))
      (moved : (csiDeleteCharacters (letterConsole shape mark) shape.amount).grid.cell 0 column
          = (letterConsole shape mark).grid.copied 0 (shape.column + shape.amount)
            (shape.width - 1) (-shape.amount) column
        ∨ ((csiDeleteCharacters (letterConsole shape mark) shape.amount).grid.cell 0
            column).IsBlank) :
      (letterConsole shape mark).grid.copied 0 (shape.column + shape.amount) (shape.width - 1)
          (-shape.amount) column =
        (letterConsole shape mark).grid.cell 0
          (if shape.column ≤ column then column + shape.amount else column) := by
    rcases moved with moved | blank
    · exact moved.symm.trans shown
    · rw [shown] at blank
      exact (letterConsole_not_blank _ _ _ blank).elim
  rcases Int.lt_or_le column shape.column with left | right
  · refine stored ?_ ((kept le_rfl (by omega) (.inr le_rfl) column low left).imp_right And.left)
    rw [if_neg (by omega)]
    exact letterConsole_left effect low left
  · refine stored ?_
      ((kept onScreen.1 le_rfl (.inl le_rfl) column right high).imp_right And.left)
    rw [if_pos right]
    have spliced := effect.right
    rw [eq] at spliced
    have stays := letterConsole_exact shape mark (-shape.amount) spliced right high
    rwa [Int.sub_neg] at stays

/-- What is moved to the left of a row that has fewer cells than are asked for. -/
theorem delete_whole (valid : shape.Valid) (room : shape.column + shape.amount < shape.width)
    (effect : ∀ mark, EditEffect .delete (letterConsole shape mark) shape.amount
      (csiDeleteCharacters (letterConsole shape mark) shape.amount)) :
    shape.width ≤ shape.length ∨ shape.length < shape.width - 2 * shape.amount
      ∨ shape.length = shape.width - 2 * shape.amount
        ∧ shape.column < shape.width - 2 * shape.amount := by
  by_contra unfit
  have onScreen := valid.column
  have positive := valid.amount.1
  have nonneg := valid.length.1
  -- The row is extended to the end of the destination, and the last cell that it has then is moved
  -- to the place that is marked, if the cells that are asked for begin behind it.
  obtain ⟨length, long⟩ : ∃ length, length = max shape.length (shape.width - shape.amount) :=
    ⟨_, rfl⟩
  obtain ⟨place, placed⟩ : ∃ place, place = max (length - 1 - shape.amount) 0 := ⟨_, rfl⟩
  have moved {column : Int} := @delete_copied shape place valid room (effect place) column
  have range := copyRange_left (letterConsole shape place).grid 0 positive
    (show 0 ≤ shape.column + shape.amount by omega) (show shape.amount ≤ shape.width - 1 by omega)
  have size : max ((letterConsole shape place).grid.row 0).length
      (shape.width - 1 - shape.amount + 1) = length := by
    change max shape.length _ = _
    omega
  have sourceSize : max ((letterConsole shape place).grid.row 0).length
      (shape.width - 1 + -shape.amount + 1) = length := by
    change max shape.length _ = _
    omega
  dsimp only at range
  rw [size] at range
  have source {column : Int} (inside : column < length) :=
    copySource_characters (letterConsole shape place).grid 0 (shape.width - 1) (-shape.amount)
      (by rw [sourceSize]; exact inside)
  have cell {column : Int} (inside : column < shape.length) (other : column ≠ place) :
      (letterConsole shape place).grid.cell 0 column = letter 0x61 := by
    rw [letterConsole_cell, if_pos inside, if_neg other]
  have empty {column : Int} (behind : shape.length ≤ column) :
      (letterConsole shape place).grid.cell 0 column = (sampleOptions 1 1).defaultChar := by
    rw [letterConsole_cell, if_neg (by omega)]
  unfold Grid.copied Row.copy at moved
  rw [range] at moved
  dsimp only at moved
  rcases Int.lt_or_le (shape.column + shape.amount) length with inside | behind
  · have stays := @moved (length - shape.amount) (by omega) (by omega)
    rw [if_neg (by omega), if_pos (by omega), source (by omega),
      cell (by omega) (show length - shape.amount ≠ place by omega),
      empty (show shape.length ≤ length - shape.amount + shape.amount by omega)] at stays
    exact absurd stays (by decide)
  · have last := @moved place (by omega) (by omega)
    rw [if_pos (by omega), Int.sub_neg] at last
    have stale (outside : length ≤ place + shape.amount) :
        ((letterConsole shape place).grid.copySource 0 (shape.width - 1) (-shape.amount)).characters
          (place + shape.amount) = letter 0x61 := by
      refine Eq.trans (Grid.getRow_outside (letterConsole shape place).grid 0
        (shape.width - 1 + -shape.amount + 1) (.inr (by omega))) ?_
      change letter (if place + shape.amount = place then 0x62 else 0x61) = _
      rw [if_neg (by omega)]
    rcases Int.lt_or_le place shape.column with before | cursor
    · rw [if_neg (by omega)] at last
      rcases Int.lt_or_le place shape.length with filled | bare
      · have marked : (letterConsole shape place).grid.cell 0 place = letter 0x62 := by
          rw [letterConsole_cell, if_pos filled, if_pos rfl]
        rw [marked] at last
        rcases Int.lt_or_le (place + shape.amount) length with known | outside
        · rw [source known] at last
          rcases Int.lt_or_le (place + shape.amount) shape.length with letters | blanks
          · rw [cell letters (by omega)] at last
            exact absurd last (by decide)
          · rw [empty blanks] at last
            exact absurd last (by decide)
        · rw [stale outside] at last
          exact absurd last (by decide)
      · rw [stale (by omega), empty bare] at last
        exact absurd last (by decide)
    · rw [if_pos cursor, stale (by omega), empty (by omega)] at last
      exact absurd last (by decide)

/-- A deletion that splices every row fits. -/
theorem delete_fits (valid : shape.Valid)
    (effect : ∀ mark, EditEffect .delete (letterConsole shape mark) shape.amount
      (csiDeleteCharacters (letterConsole shape mark) shape.amount)) :
    Edit.delete.Fits shape := by
  have inside := delete_inside valid (effect 0)
  refine ⟨inside, ?_⟩
  rcases Int.lt_or_eq_of_le inside with room | whole
  · exact .inr (delete_whole valid room effect)
  · exact .inl whole

end Necessary

/-! ## The three functions -/

/-- An edit splices every row of the given length if and only if it fits. -/
theorem csi_edit_iff (edit : Edit) {shape : EditShape} (valid : shape.Valid) :
    (∀ (console : Console) (argc : Nat) (argv : Nat → Int) (privateMode : UInt8),
      console.Editable → EditAmount (argv 0) → console.editShape (argv 0) = shape →
      EditEffect edit console (argv 0)
        (csiConsole console argc argv privateMode edit.function)) ↔
      edit.Fits shape := by
  constructor
  · intro effects
    have amount : EditAmount shape.amount := ⟨by have := valid.amount.1; omega, valid.amount.2⟩
    have letters (mark : Int) :=
      effects (letterConsole shape mark) 1 (fun _ => shape.amount) 0
        (letterConsole_editable valid mark) amount (letterConsole_shape valid mark).2
    obtain ⟨same, eq⟩ := letterConsole_shape valid 0
    cases edit with
    | insert =>
        rw [← eq]
        exact insert_fits (letterConsole_editable valid 0) (letters 0) amount.bounds.1
    | delete =>
        refine delete_fits valid fun mark => ?_
        have deleted := letters mark
        change EditEffect .delete _ _ (csiDeleteCharacters _ (csiAmount shape.amount)) at deleted
        rwa [same] at deleted
    | erase =>
        rw [← eq]
        exact erase_fits (letterConsole_editable valid 0) (letters 0) amount.bounds.1
  · intro fits console argc argv privateMode editable amount eq
    subst eq
    cases edit with
    | insert => exact csiInsertCharacters_effect editable amount fits
    | delete => exact csiDeleteCharacters_effect editable amount fits
    | erase => exact csiEraseCharacters_effect editable amount fits

/-- One character of three is deleted at the second one. -/
theorem csi_deletes_second :
    EditEffect .delete (letterConsole ⟨3, 1, 3, 1⟩ 0) 1
      (csiConsole (letterConsole ⟨3, 1, 3, 1⟩ 0) 1 (fun _ => 1) 0 .deleteCharacters) := by
  have valid : EditShape.Valid ⟨3, 1, 3, 1⟩ :=
    ⟨by decide, by decide, by decide, by decide⟩
  have fits : Edit.delete.Fits ⟨3, 1, 3, 1⟩ := ⟨by decide, .inr (.inl (by decide))⟩
  exact (csi_edit_iff .delete valid).mpr fits _ 1 (fun _ => 1) 0
    (letterConsole_editable valid 0) ⟨by decide, by decide⟩ rfl

/-- Three characters of three are deleted at the last one: all three are cleared. -/
theorem csi_deletes_backwards :
    ¬ EditEffect .delete (letterConsole ⟨3, 2, 3, 3⟩ 0) 3
      (csiConsole (letterConsole ⟨3, 2, 3, 3⟩ 0) 1 (fun _ => 3) 0 .deleteCharacters) := by
  intro effect
  have kept := letterConsole_left effect (show (0 : Int) ≤ 1 by decide) (by decide)
  have cleared : ((csiConsole (letterConsole ⟨3, 2, 3, 3⟩ 0) 1 (fun _ => 3) 0
      .deleteCharacters).grid.cell 0 1).value = 0 := by
    decide +kernel
  rw [kept] at cleared
  exact absurd cleared (by decide)

end GuacNebula.Terminal
