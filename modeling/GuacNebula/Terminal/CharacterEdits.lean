import GuacNebula.Terminal.CopyBounds
import GuacNebula.Terminal.Handlers
import GuacNebula.Terminal.SelectionTouch
import GuacNebula.Terminal.WriteEffect

/-! # Inserting, deleting and erasing characters

`CSI @`, `CSI P` and `CSI X` edit the row of the cursor: they insert blanks at the cursor, delete
cells there, or put blanks in their place. The row should be spliced, but for the blanks that stand
in for characters of several columns that do not stay whole.

The handlers move a range of columns and clear another, and clamp neither of them. So the clearing
may go beyond the end of the row on the right, and over the cursor on the left. The move, besides,
is fitted to the row by the buffer: cells that the row does not have are not moved.
-/

namespace GuacNebula.Terminal

open CInt

/-! ## The edits -/

/-- The functions that edit characters: `@`, `P` and `X`. -/
inductive Edit
  | insert | delete | erase
  deriving DecidableEq, Repr

def Edit.function : Edit → CsiFunction
  | .insert => .insertCharacters
  | .delete => .deleteCharacters
  | .erase => .eraseCharacters

/-- What an edit starts from: the width of the terminal, the column of the cursor, the length of the
row, and the number of characters to edit. -/
structure EditShape where
  width : Int
  column : Int
  length : Int
  amount : Int

/-- The cells left of the cursor stay where they are. The columns from `first` to before `last` take
the cells `moved` columns left of them. -/
structure Moved where
  first : Int
  last : Int
  moved : Int

/-- The part of the row right of the cursor that is kept. -/
def Edit.part (shape : EditShape) : Edit → Moved
  | .insert => ⟨shape.column + shape.amount, shape.width, shape.amount⟩
  | .delete => ⟨shape.column, shape.width - shape.amount, -shape.amount⟩
  | .erase => ⟨shape.column + shape.amount, max shape.length shape.width, 0⟩

/-- The columns that are blank afterwards, from the first to before the second. -/
def Edit.blanks (shape : EditShape) : Edit → Int × Int
  | .insert => (shape.column, min (shape.column + shape.amount) shape.width)
  | .delete => (max shape.column (shape.width - shape.amount), shape.width)
  | .erase => (shape.column, min (shape.column + shape.amount) (max shape.length shape.width))

/-- A part of a row is as it was, but for blanks in place of characters that do not lie in it as a
whole. -/
def Kept (before after : Int → TerminalChar) (first last : Int) : Prop :=
  ∀ column, first ≤ column → column < last →
    after column = before column ∨ (after column).IsBlank ∧ ¬ Held before first last column

/-- A character without regard to whether the cursor is on it. -/
def TerminalChar.unmarked (character : TerminalChar) : TerminalChar :=
  { character with attributes := { character.attributes with cursor := false } }

/-- The shape of an edit in the given state. -/
def Console.editShape (console : Console) (amount : Int) : EditShape where
  width := console.grid.termWidth
  column := console.cursorCol
  length := (console.grid.row console.cursorRow).length
  amount := csiAmount amount

/-- The edit splices the row of the cursor. -/
structure EditEffect (edit : Edit) (before : Console) (amount : Int) (after : Console) : Prop where
  summed : FitsInt (before.cursorCol + csiAmount amount)
  left : Kept (before.grid.cell before.cursorRow) (after.grid.cell before.cursorRow) 0
    before.cursorCol
  right : Kept
    (fun column => before.grid.cell before.cursorRow
      (column - (edit.part (before.editShape amount)).moved))
    (after.grid.cell before.cursorRow) (edit.part (before.editShape amount)).first
    (edit.part (before.editShape amount)).last
  blank : ∀ column, (edit.blanks (before.editShape amount)).1 ≤ column →
    column < (edit.blanks (before.editShape amount)).2 →
    (after.grid.cell before.cursorRow column).unmarked = before.grid.blank.unmarked
  outside : ∀ column < 0, (after.grid.row before.cursorRow).characters column =
    (before.grid.row before.cursorRow).characters column
  length : (after.grid.row before.cursorRow).length
    ≤ max (before.grid.row before.cursorRow).length before.grid.termWidth

/-- When an edit splices the row, whatever the row has in it. -/
def Edit.Fits (shape : EditShape) : Edit → Prop
  | .insert => shape.column + shape.amount ≤ max shape.length shape.width
  | .delete =>
      shape.column + shape.amount ≤ shape.width
        ∧ (shape.column + shape.amount = shape.width ∨ shape.width ≤ shape.length
          ∨ shape.length < shape.width - 2 * shape.amount
          ∨ shape.length = shape.width - 2 * shape.amount
            ∧ shape.column < shape.width - 2 * shape.amount)
  | .erase => shape.column + shape.amount ≤ max shape.length shape.width

/-! ## Parts that are kept -/

namespace Kept

variable {first second third : Int → TerminalChar} {low high : Int}

theorem of_eq (same : ∀ column, low ≤ column → column < high → second column = first column) :
    Kept first second low high :=
  fun column after before => .inl (same column after before)

/-- A character that lies in the part as a whole is there afterwards. -/
theorem held (kept : Kept first second low high) {column : Int}
    (held : Held first low high column) : Held second low high column := by
  obtain ⟨start, after, before, covers, whole⟩ := held
  have same (other : Int) (right : start ≤ other) (left : other < start + (first start).width) :
      second other = first other := by
    have inside : other < high := by
      have := whole.2.1
      omega
    refine (kept other (after.trans right) inside).resolve_right fun blanked => blanked.2 ?_
    exact ⟨start, after, right, left, whole⟩
  have here : second start = first start := same start le_rfl (by omega)
  exact ⟨start, after, before, by rw [here]; exact covers, whole.congr same here⟩

theorem trans (left : Kept first second low high) (right : Kept second third low high) :
    Kept first third low high := by
  intro column after before
  rcases right column after before with same | ⟨blank, loose⟩
  · rw [same]
    exact left column after before
  · exact .inr ⟨blank, fun held => loose (left.held held)⟩

end Kept

/-- A break at an edge that is not within a part blanks nothing of what lies there as a whole. -/
theorem Blanked.part {before after : Int → TerminalChar} {length edge first last : Int}
    (blanked : Blanked before (Remains before length edge) after) (nonneg : 0 ≤ first)
    (within : last ≤ length) (apart : edge ≤ first ∨ last ≤ edge) :
    Kept before after first last := by
  intro column low high
  by_cases cut : Remains before length edge column
  · refine .inr ⟨blanked.blank column cut, fun held => ?_⟩
    rcases cut with ⟨bounds, _, loose⟩ | ⟨bounds, _, loose⟩
    · rcases apart with left | right
      · omega
      · exact loose (held.mono nonneg right)
    · rcases apart with left | right
      · exact loose (held.mono left within)
      · omega
  · exact .inl (blanked.kept column cut)

/-! ## What a row shows -/

/-- The characters behind the end of a row are narrow. -/
structure Grid.NarrowDefault (grid : Grid) : Prop where
  solid : grid.buffer.defaultCharacter.value ≠ charContinuation
  single : grid.buffer.defaultCharacter.width = 1

section Shown

variable {grid after : Grid} {row column : Int}

theorem Grid.cell_of_lt (grid : Grid) (row : Int) (inside : column < (grid.row row).length) :
    grid.cell row column = (grid.row row).characters column :=
  if_pos inside

theorem Grid.cell_of_ge (grid : Grid) (row : Int) (outside : (grid.row row).length ≤ column) :
    grid.cell row column = grid.buffer.defaultCharacter :=
  if_neg (Int.not_lt.mpr outside)

/-- A row shows the same when it has been extended. -/
theorem Grid.getRow_cell (grid : Grid) (row width column : Int) :
    (grid.getRow row width).cell row column = grid.cell row column :=
  bufferGetRow_cell ..

theorem Grid.getRow_characters (grid : Grid) (row width : Int)
    (inside : column < max (grid.row row).length width) :
    ((grid.getRow row width).row row).characters column = grid.cell row column := by
  rw [← Grid.getRow_cell grid row width column, Grid.cell_of_lt]
  rw [Grid.getRow_length]
  exact inside

/-- What is stored where a row is not extended stays. -/
theorem Grid.getRow_outside (grid : Grid) (row width : Int)
    (outside : column < (grid.row row).length ∨ width ≤ column) :
    ((grid.getRow row width).row row).characters column = (grid.row row).characters column := by
  have grown : (grid.getRow row width).row row
      = (grid.row row).grow grid.buffer.defaultCharacter width := Buffer.setRow_row ..
  rw [grown]
  unfold Row.grow
  split
  case isTrue =>
    dsimp only
    rw [if_neg (by omega)]
  case isFalse => rfl

/-- No character reaches behind the end of the row. -/
theorem Held.within (narrow : grid.NarrowDefault) {first last length : Int}
    (long : (grid.row row).length ≤ length) (inside : column < length)
    (held : Held (grid.cell row) first last column) :
    Held (grid.cell row) first length column := by
  obtain ⟨start, after, before, covers, solid, ends, inner⟩ := held
  refine ⟨start, after, before, covers, solid, ?_, inner⟩
  by_contra across
  have continued := inner length (by omega) (by omega)
  rw [Continued, Grid.cell_of_ge grid row long] at continued
  exact narrow.solid continued

end Shown

/-! ## Clearing -/

section Clear

variable {grid : Grid} {row start stop : Int}

theorem clearColumns_effect (grid : Grid) (row : Int) (nonneg : 0 ≤ start)
    (ordered : start ≤ stop + 1) :
    WriteEffect grid row start stop grid.blank (clearColumns grid row start stop) := by
  have solid : (0 : Int) ≠ charContinuation := by decide
  exact setColumns_effect grid nonneg ordered le_rfl solid (one_dvd _) fun _ => Int.emod_one _

theorem clearColumns_rowLength (grid : Grid) (row : Int) (nonneg : 0 ≤ start)
    (ordered : start ≤ stop + 1) :
    ((clearColumns grid row start stop).row row).length
      = max (grid.row row).length (stop + 1) := by
  rw [(clearColumns_effect grid row nonneg ordered).length, Grid.getRow_length]

/-- The columns on one side of those that are cleared are kept. -/
theorem clearColumns_kept (narrow : grid.NarrowDefault) (nonneg : 0 ≤ start)
    (ordered : start ≤ stop + 1) {first last : Int} (begins : 0 ≤ first)
    (apart : last ≤ start ∨ stop + 1 ≤ first) :
    Kept (grid.cell row) ((clearColumns grid row start stop).cell row) first last := by
  intro column low high
  have effect := clearColumns_effect grid row nonneg ordered
  have long := clearColumns_rowLength grid row nonneg ordered
  have defaults : (clearColumns grid row start stop).buffer.defaultCharacter
      = grid.buffer.defaultCharacter := (clearColumns_keeps ..).defaultCharacter
  rcases Int.lt_or_le column (max (grid.row row).length (stop + 1)) with inside | outside
  case inr =>
    left
    rw [Grid.cell_of_ge _ _ (by rw [long]; exact outside), Grid.cell_of_ge _ _ (by omega), defaults]
  have shown (other : Int) (inside : other < max (grid.row row).length (stop + 1)) :
      grid.cell row other = ((grid.getRow row (stop + 1)).row row).characters other :=
    (Grid.getRow_characters grid row (stop + 1) inside).symm
  rw [Grid.cell_of_lt (clearColumns grid row start stop) row (by rw [long]; exact inside)]
  by_cases cut : ((grid.getRow row (stop + 1)).row row).CutAround start stop column
  · refine .inr ⟨effect.cut column cut, fun held => ?_⟩
    rcases cut with ⟨bounds, _, loose⟩ | ⟨bounds, _, loose⟩
    · have left : last ≤ start := by omega
      refine loose ((held.mono begins left).congr fun other _ before => ?_)
      exact (shown other (by omega)).symm
    · have right : stop + 1 ≤ first := by omega
      refine loose ?_
      rw [Grid.getRow_length] at bounds ⊢
      have within := held.within narrow (le_max_left _ (stop + 1)) inside
      exact (within.mono right le_rfl).congr fun other _ before => (shown other before).symm
  · left
    rw [effect.kept column (by omega) cut, shown column inside]

/-- The columns that are cleared are blank. -/
theorem clearColumns_blank (nonneg : 0 ≤ start) (ordered : start ≤ stop + 1) {column : Int}
    (low : start ≤ column) (high : column ≤ stop) :
    ((clearColumns grid row start stop).cell row column).unmarked = grid.blank.unmarked := by
  have effect := clearColumns_effect grid row nonneg ordered
  have long := clearColumns_rowLength grid row nonneg ordered
  rw [Grid.cell_of_lt _ _ (by rw [long]; omega), effect.written column low high]
  have whole : (column - start) % (grid.blank.width : Int) = 0 := Int.emod_one _
  simp only [Grid.written, whole, if_pos]
  split <;> rfl

theorem clearColumns_outside (nonneg : 0 ≤ start) (ordered : start ≤ stop + 1)
    (long : 0 ≤ (grid.row row).length) {column : Int} (outside : column < 0) :
    ((clearColumns grid row start stop).row row).characters column
      = (grid.row row).characters column := by
  have effect := clearColumns_effect grid row nonneg ordered
  rw [effect.kept column (by omega), Grid.getRow_outside grid row (stop + 1) (.inl (by omega))]
  rintro (left | right)
  · have := left.1.1
    omega
  · have := right.1.1
    omega

end Clear

/-! ## Moving -/

section Move

variable {grid : Grid} {row start stop offset : Int}

/-- The row that a copy of columns works on, which it has extended first. -/
def Grid.copySource (grid : Grid) (row stop offset : Int) : Row :=
  (grid.getRow row (stop + offset + 1)).row row

/-- The characters of a row after columns have been copied, before the breaks. -/
def Grid.copied (grid : Grid) (row start stop offset : Int) : Int → TerminalChar :=
  let range := (grid.copySource row stop offset).copyRange start stop offset
  ((grid.copySource row stop offset).copy range.1 range.2 offset).characters

theorem copyColumnsRaw_rewritten (grid : Grid) (row start stop offset : Int) :
    grid.Rewritten row (grid.copied row start stop offset)
      (max (grid.row row).length (stop + offset + 1))
      (copyColumnsRaw grid row start stop offset) := by
  have written := (Grid.Rewritten.getRow grid row (stop + offset + 1)).trans
    (.setRow (grid.getRow row (stop + offset + 1)) row
      ((grid.copySource row stop offset).copy
        ((grid.copySource row stop offset).copyRange start stop offset).1
        ((grid.copySource row stop offset).copyRange start stop offset).2 offset))
  have copied : grid.Rewritten row _ _ (copyColumnsRaw grid row start stop offset) :=
    written.of_rows rfl (bufferCopyColumns_same ..)
  exact copied.congr rfl (Grid.getRow_length ..)

theorem copyColumns_rewritten (grid : Grid) (row : Int) (left : 0 ≤ start + offset)
    (ordered : start ≤ stop + 1) :
    ∃ broken after,
      Blanked (grid.copied row start stop offset)
        (Remains (grid.copied row start stop offset)
          (max (grid.row row).length (stop + offset + 1)) (start + offset)) broken
      ∧ Blanked broken
        (Remains broken (max (grid.row row).length (stop + offset + 1)) (stop + offset + 1)) after
      ∧ grid.Rewritten row after (max (grid.row row).length (stop + offset + 1))
        (copyColumns grid row start stop offset) := by
  have moved : grid.Rewritten row (grid.copied row start stop offset)
      (max (grid.row row).length (stop + offset + 1))
      (moveCursorColumn (copyColumnsRaw grid row start stop offset) row start stop offset) := by
    refine (copyColumnsRaw_rewritten grid row start stop offset).of_rows ?_ ?_
    · unfold moveCursorColumn
      split <;> rfl
    · unfold moveCursorColumn
      split <;> exact bufferCopyColumns_same ..
  exact forceBreaks_rewritten moved left (by omega) (le_max_right ..)

/-- What a row shows after columns have been copied, in a part that has no edge of the destination
within it. -/
theorem copyColumns_kept (left : 0 ≤ start + offset) (ordered : start ≤ stop + 1)
    {first last : Int} (nonneg : 0 ≤ first)
    (within : last ≤ max (grid.row row).length (stop + offset + 1))
    (apartLeft : start + offset ≤ first ∨ last ≤ start + offset)
    (apartRight : stop + offset + 1 ≤ first ∨ last ≤ stop + offset + 1) :
    Kept (grid.copied row start stop offset)
      ((copyColumns grid row start stop offset).cell row) first last := by
  obtain ⟨broken, after, cutLeft, cutRight, written⟩ :=
    copyColumns_rewritten grid row left ordered
  have kept := (cutLeft.part nonneg within apartLeft).trans
    (cutRight.part nonneg within apartRight)
  refine kept.trans (Kept.of_eq fun column low high => ?_)
  have inside : column < ((copyColumns grid row start stop offset).row row).length :=
    high.trans_le (within.trans (written.length.symm.le))
  rw [Grid.cell_of_lt _ _ inside]
  exact congrFun written.characters column

theorem copyColumns_rowLength (grid : Grid) (row : Int) (left : 0 ≤ start + offset)
    (ordered : start ≤ stop + 1) :
    ((copyColumns grid row start stop offset).row row).length
      = max (grid.row row).length (stop + offset + 1) := by
  obtain ⟨broken, after, cutLeft, cutRight, written⟩ :=
    copyColumns_rewritten grid row left ordered
  exact written.length

/-- Breaks are not forced before the row. -/
theorem copyColumns_outside (grid : Grid) (row : Int) (left : 0 ≤ start + offset)
    (ordered : start ≤ stop + 1) {column : Int} (outside : column < 0) :
    ((copyColumns grid row start stop offset).row row).characters column
      = grid.copied row start stop offset column := by
  obtain ⟨broken, after, cutLeft, cutRight, written⟩ :=
    copyColumns_rewritten grid row left ordered
  have spared (characters : Int → TerminalChar) (length edge : Int) (inside : 0 ≤ edge) :
      ¬ Remains characters length edge column := by
    rintro (early | late)
    · have := early.1.1
      omega
    · have := late.1.1
      omega
  rw [written.characters, cutRight.kept column (spared _ _ _ (by omega)),
    cutLeft.kept column (spared _ _ _ left)]

theorem copySource_length (grid : Grid) (row stop offset : Int) :
    (grid.copySource row stop offset).length = max (grid.row row).length (stop + offset + 1) :=
  Grid.getRow_length ..

theorem copySource_characters (grid : Grid) (row stop offset : Int) {column : Int}
    (inside : column < max (grid.row row).length (stop + offset + 1)) :
    (grid.copySource row stop offset).characters column = grid.cell row column :=
  Grid.getRow_characters grid row (stop + offset + 1) inside

theorem copied_outside (grid : Grid) (row : Int) (long : 0 ≤ (grid.row row).length) {column : Int}
    (outside : column < 0)
    (range : column < ((grid.copySource row stop offset).copyRange start stop offset).1 + offset) :
    grid.copied row start stop offset column = (grid.row row).characters column := by
  unfold Grid.copied Row.copy
  dsimp only
  rw [if_neg (by omega)]
  exact Grid.getRow_outside grid row (stop + offset + 1) (.inl (by omega))

/-- The range that is moved to the right is the one that was asked for: the row has been extended
to have room for it. -/
theorem copyRange_right (grid : Grid) (row : Int) {amount : Int} (positive : 0 < amount)
    (nonneg : 0 ≤ start)
    (ordered : start ≤ stop) :
    (grid.copySource row stop amount).copyRange start stop amount = (start, stop) := by
  have long := copySource_length grid row stop amount
  have fits (place : Int) (low : 0 ≤ place) (high : place ≤ stop + amount) :
      fitToRange place 0 (max (grid.row row).length (stop + amount + 1) - 1) = place :=
    fitToRange_of_mem low (by omega)
  unfold Row.copyRange
  dsimp only
  rw [long, fits start nonneg (by omega), fits stop (by omega) (by omega),
    fits (start + amount) (by omega) (by omega), fits (stop + amount) (by omega) le_rfl,
    Int.add_sub_cancel, Int.add_sub_cancel]

/-- A range that is moved to the left is fitted to the row, which is extended to the end of the
destination only. -/
theorem copyRange_left (grid : Grid) (row : Int) {amount : Int} (positive : 0 < amount)
    (nonneg : 0 ≤ start)
    (room : amount ≤ stop) :
    (grid.copySource row stop (-amount)).copyRange start stop (-amount) =
      let length := max (grid.row row).length (stop - amount + 1)
      (max (min start (length - 1) - amount) 0 + amount,
        max (min stop (length - 1) - amount) 0 + amount) := by
  have long := copySource_length grid row stop (-amount)
  unfold Row.copyRange fitToRange
  rw [long]
  dsimp only
  refine Prod.ext ?_ ?_
  · dsimp only
    split_ifs <;> omega
  · dsimp only
    split_ifs <;> omega

/-- The cells from the cursor on are moved to the right, as far as there is room for them. -/
theorem copied_insert (grid : Grid) (row : Int) {width column amount other : Int}
    (positive : 0 < amount) (nonneg : 0 ≤ column) (room : column + amount < width)
    (inside : other < width) :
    grid.copied row column (width - amount - 1) amount other =
      if column + amount ≤ other then grid.cell row (other - amount) else grid.cell row other := by
  have range := copyRange_right grid row positive nonneg
    (show column ≤ width - amount - 1 by omega)
  unfold Grid.copied Row.copy
  dsimp only
  rw [range]
  dsimp only
  split
  case isTrue moved =>
    rw [if_pos moved.1, copySource_characters _ _ _ _ (by omega)]
  case isFalse kept =>
    rw [if_neg (by omega), copySource_characters _ _ _ _ (by omega)]

/-- The cells behind those that are deleted are moved to the left if the row has all of them, or
none that would have to be replaced. -/
theorem copied_delete {width column amount other : Int} (positive : 0 < amount)
    (nonneg : 0 ≤ column) (room : column + amount < width) (long : 0 ≤ (grid.row row).length)
    (fits : width ≤ (grid.row row).length ∨ (grid.row row).length < width - 2 * amount
      ∨ (grid.row row).length = width - 2 * amount ∧ column < width - 2 * amount)
    (after : 0 ≤ other) (before : other < width - amount) :
    grid.copied row (column + amount) (width - 1) (-amount) other =
      if column ≤ other then grid.cell row (other + amount) else grid.cell row other := by
  have range := copyRange_left grid row positive
    (show 0 ≤ column + amount by omega) (show amount ≤ width - 1 by omega)
  unfold Grid.copied Row.copy
  dsimp only at range ⊢
  rw [range]
  dsimp only
  rw [Int.sub_neg]
  have behind (place : Int) (outside : (grid.row row).length ≤ place) :
      grid.cell row place = grid.buffer.defaultCharacter := Grid.cell_of_ge grid row outside
  split
  case isTrue moved =>
    rw [copySource_characters _ _ _ _ (by omega)]
    split
    case isTrue => rfl
    case isFalse left => rw [behind other (by omega), behind (other + amount) (by omega)]
  case isFalse kept =>
    rw [copySource_characters _ _ _ _ (by omega)]
    split
    case isTrue right => rw [behind other (by omega), behind (other + amount) (by omega)]
    case isFalse => rfl

end Move

/-! ## Edits that fit -/

/-- The cursor is on the screen or just behind the last column of its row, and sizes are those of an
`int`. -/
structure Console.Editable (console : Console) : Prop where
  column : 0 ≤ console.cursorCol ∧ console.cursorCol ≤ console.grid.termWidth
  width : FitsInt console.grid.termWidth
  length : 0 ≤ (console.grid.row console.cursorRow).length
    ∧ FitsInt (console.grid.row console.cursorRow).length
  narrow : console.grid.NarrowDefault

/-- A number of characters that is a parameter of a control function. -/
def EditAmount (amount : Int) : Prop := 0 ≤ amount ∧ FitsInt amount

theorem EditAmount.bounds {amount : Int} (valid : EditAmount amount) :
    1 ≤ csiAmount amount ∧ csiAmount amount < 2147483648 := by
  obtain ⟨nonneg, fits⟩ := valid
  unfold FitsInt at fits
  unfold csiAmount
  split <;> omega

theorem Grid.NarrowDefault.keeps {before after : Grid} (narrow : before.NarrowDefault)
    (keeps : before.Keeps after) : after.NarrowDefault where
  solid := keeps.defaultCharacter ▸ narrow.solid
  single := keeps.defaultCharacter ▸ narrow.single

theorem Grid.blank_keeps {before after : Grid} (keeps : before.Keeps after) :
    after.blank = before.blank := by
  rw [Grid.blank, Grid.blank, keeps.currentAttributes]

section Sufficient

variable {console : Console} {amount : Int}

/-- An edit that only clears columns, those that become blank among them. -/
theorem cleared_effect {edit : Edit} (editable : console.Editable)
    (sum : FitsInt (console.cursorCol + csiAmount amount)) {start stop : Int}
    (behind : console.cursorCol ≤ start) (ordered : start ≤ stop + 1)
    (within : stop + 1 ≤ max (console.grid.row console.cursorRow).length console.grid.termWidth)
    (blanks : start ≤ (edit.blanks (console.editShape amount)).1 ∧
      (edit.blanks (console.editShape amount)).2 ≤ stop + 1)
    (right : Kept (fun column => console.grid.cell console.cursorRow
        (column - (edit.part (console.editShape amount)).moved))
      ((clearColumns console.grid console.cursorRow start stop).cell console.cursorRow)
      (edit.part (console.editShape amount)).first (edit.part (console.editShape amount)).last) :
    EditEffect edit console amount
      { console with grid := clearColumns console.grid console.cursorRow start stop } := by
  obtain ⟨⟨nonneg, _⟩, _, ⟨long, _⟩, narrow⟩ := editable
  have begins : 0 ≤ start := by omega
  refine ⟨sum, ?_, right, fun column low high => ?_, fun column outside => ?_, ?_⟩
  · exact clearColumns_kept narrow begins ordered le_rfl (.inl behind)
  · exact clearColumns_blank begins ordered (by omega) (by omega)
  · exact clearColumns_outside begins ordered long outside
  · dsimp only
    rw [clearColumns_rowLength _ _ begins ordered]
    omega

theorem csiEraseCharacters_effect (editable : console.Editable) (valid : EditAmount amount)
    (fits : Edit.erase.Fits (console.editShape amount)) :
    EditEffect .erase console amount (csiEraseCharacters console (csiAmount amount)) := by
  have ⟨⟨nonneg, onScreen⟩, width, ⟨long, lengthFits⟩, narrow⟩ := editable
  obtain ⟨positive, small⟩ := valid.bounds
  unfold FitsInt at width lengthFits
  change console.cursorCol + csiAmount amount
    ≤ max (console.grid.row console.cursorRow).length console.grid.termWidth at fits
  have sum : FitsInt (console.cursorCol + csiAmount amount) := by
    unfold FitsInt
    omega
  have stop : toInt (console.cursorCol + csiAmount amount - 1)
      = console.cursorCol + csiAmount amount - 1 := toInt_of_fits (by unfold FitsInt at *; omega)
  have ordered : console.cursorCol ≤ console.cursorCol + csiAmount amount - 1 + 1 := by omega
  unfold csiEraseCharacters
  rw [stop]
  refine cleared_effect editable sum le_rfl ordered (by omega) ?_ ?_
  · simp only [Edit.blanks, Console.editShape]
    omega
  · simp only [Edit.part, Int.sub_zero]
    refine clearColumns_kept narrow nonneg ordered ?_ (.inr ?_)
    all_goals
      simp only [Console.editShape]
      omega

theorem csiInsertCharacters_effect (editable : console.Editable) (valid : EditAmount amount)
    (fits : Edit.insert.Fits (console.editShape amount)) :
    EditEffect .insert console amount (csiInsertCharacters console (csiAmount amount)) := by
  have ⟨⟨nonneg, onScreen⟩, width, ⟨long, lengthFits⟩, narrow⟩ := editable
  obtain ⟨positive, small⟩ := valid.bounds
  unfold FitsInt at width lengthFits
  change console.cursorCol + csiAmount amount
    ≤ max (console.grid.row console.cursorRow).length console.grid.termWidth at fits
  have sum : FitsInt (console.cursorCol + csiAmount amount) := by
    unfold FitsInt
    omega
  have stop : toInt (console.cursorCol + csiAmount amount - 1)
      = console.cursorCol + csiAmount amount - 1 := toInt_of_fits (by unfold FitsInt at *; omega)
  have last : toInt (console.grid.termWidth - csiAmount amount - 1)
      = console.grid.termWidth - csiAmount amount - 1 :=
    toInt_of_fits (by unfold FitsInt at *; omega)
  have ordered : console.cursorCol ≤ console.cursorCol + csiAmount amount - 1 + 1 := by omega
  unfold csiInsertCharacters
  dsimp only
  rw [stop, last, toInt_of_fits sum]
  split
  case isFalse beyond =>
    refine cleared_effect editable sum le_rfl ordered (by omega) ?_ fun column low high => ?_
    · simp only [Edit.blanks, Console.editShape]
      omega
    · simp only [Edit.part, Console.editShape] at low high
      omega
  case isTrue room =>
    have target : 0 ≤ console.cursorCol + csiAmount amount := by omega
    have source : console.cursorCol ≤ console.grid.termWidth - csiAmount amount - 1 + 1 := by omega
    have keeps := copyColumns_keeps console.grid console.cursorRow console.cursorCol
      (console.grid.termWidth - csiAmount amount - 1) (csiAmount amount)
    have moved (other : Int) (inside : other < console.grid.termWidth) :=
      copied_insert console.grid console.cursorRow positive nonneg room inside
    have grown := copyColumns_rowLength console.grid console.cursorRow target source
    refine ⟨sum, ?_, ?_, fun column low high => ?_, fun column outside => ?_, ?_⟩
    · refine Kept.trans (Kept.of_eq fun other low high => ?_) (Kept.trans
        (copyColumns_kept target source le_rfl (by omega) (.inr (by omega)) (.inr (by omega)))
        (clearColumns_kept (narrow.keeps keeps) nonneg ordered le_rfl (.inl le_rfl)))
      rw [moved other (by omega), if_neg (by omega)]
    · simp only [Edit.part, Console.editShape]
      refine Kept.trans (Kept.of_eq fun other low high => ?_) (Kept.trans
        (copyColumns_kept target source target (by omega) (.inl le_rfl) (.inr (by omega)))
        (clearColumns_kept (narrow.keeps keeps) nonneg ordered target (.inr (by omega))))
      rw [moved other high, if_pos low]
    · simp only [Edit.blanks, Console.editShape] at low high
      rw [← Grid.blank_keeps keeps]
      exact clearColumns_blank nonneg ordered low (by omega)
    · dsimp only
      rw [clearColumns_outside nonneg ordered (by rw [grown]; omega) outside,
        copyColumns_outside _ _ target source outside]
      refine copied_outside _ _ long outside ?_
      rw [copyRange_right _ _ positive nonneg (by omega)]
      dsimp only
      omega
    · dsimp only
      rw [clearColumns_rowLength _ _ nonneg ordered, grown]
      omega

theorem csiDeleteCharacters_effect (editable : console.Editable) (valid : EditAmount amount)
    (fits : Edit.delete.Fits (console.editShape amount)) :
    EditEffect .delete console amount (csiDeleteCharacters console (csiAmount amount)) := by
  have ⟨⟨nonneg, onScreen⟩, width, ⟨long, lengthFits⟩, narrow⟩ := editable
  obtain ⟨positive, small⟩ := valid.bounds
  unfold FitsInt at width lengthFits
  obtain ⟨inside, fits⟩ : console.cursorCol + csiAmount amount ≤ console.grid.termWidth ∧ _ := fits
  simp only [Console.editShape] at fits
  have sum : FitsInt (console.cursorCol + csiAmount amount) := by
    unfold FitsInt
    omega
  have first : toInt (console.grid.termWidth - csiAmount amount)
      = console.grid.termWidth - csiAmount amount := toInt_of_fits (by unfold FitsInt at *; omega)
  have offset : toInt (-csiAmount amount) = -csiAmount amount :=
    toInt_of_fits (by unfold FitsInt at *; omega)
  have start : 0 ≤ console.grid.termWidth - csiAmount amount := by omega
  have ordered : console.grid.termWidth - csiAmount amount ≤ console.grid.termWidth - 1 + 1 := by
    omega
  unfold csiDeleteCharacters
  dsimp only
  rw [first, offset, toInt_of_fits sum]
  split
  case isFalse whole =>
    have cursor : console.cursorCol = console.grid.termWidth - csiAmount amount := by omega
    refine cleared_effect editable sum cursor.le ordered (by omega) ?_ fun column low high => ?_
    · simp only [Edit.blanks, Console.editShape]
      omega
    · simp only [Edit.part, Console.editShape] at low high
      omega
  case isTrue room =>
    have target : 0 ≤ console.cursorCol + csiAmount amount + -csiAmount amount := by omega
    have source : console.cursorCol + csiAmount amount ≤ console.grid.termWidth - 1 + 1 := by omega
    have keeps := copyColumns_keeps console.grid console.cursorRow
      (console.cursorCol + csiAmount amount) (console.grid.termWidth - 1) (-csiAmount amount)
    have whole : console.grid.termWidth ≤ (console.grid.row console.cursorRow).length
        ∨ (console.grid.row console.cursorRow).length
            < console.grid.termWidth - 2 * csiAmount amount
        ∨ (console.grid.row console.cursorRow).length
            = console.grid.termWidth - 2 * csiAmount amount
          ∧ console.cursorCol < console.grid.termWidth - 2 * csiAmount amount :=
      fits.resolve_left (by omega)
    have moved (other : Int) (after : 0 ≤ other)
        (before : other < console.grid.termWidth - csiAmount amount) :=
      copied_delete positive nonneg room long whole after before
    have grown := copyColumns_rowLength console.grid console.cursorRow target source
    refine ⟨sum, ?_, ?_, fun column low high => ?_, fun column outside => ?_, ?_⟩
    · refine Kept.trans (Kept.of_eq fun other low high => ?_) (Kept.trans
        (copyColumns_kept target source le_rfl (by omega) (.inr (by omega)) (.inr (by omega)))
        (clearColumns_kept (narrow.keeps keeps) start ordered le_rfl (.inl (by omega))))
      rw [moved other low (by omega), if_neg (by omega)]
    · simp only [Edit.part, Console.editShape]
      refine Kept.trans (Kept.of_eq fun other low high => ?_) (Kept.trans
        (copyColumns_kept target source nonneg (by omega) (.inl (by omega)) (.inr (by omega)))
        (clearColumns_kept (narrow.keeps keeps) start ordered nonneg (.inl le_rfl)))
      rw [moved other (by omega) high, if_pos low, Int.sub_neg]
    · simp only [Edit.blanks, Console.editShape] at low high
      rw [← Grid.blank_keeps keeps]
      exact clearColumns_blank start ordered (by omega) (by omega)
    · dsimp only
      rw [clearColumns_outside start ordered (by rw [grown]; omega) outside,
        copyColumns_outside _ _ target source outside]
      refine copied_outside _ _ long outside ?_
      rw [copyRange_left _ _ positive (by omega) (by omega)]
      dsimp only
      omega
    · dsimp only
      rw [clearColumns_rowLength _ _ start ordered, grown]
      omega

end Sufficient

end GuacNebula.Terminal
