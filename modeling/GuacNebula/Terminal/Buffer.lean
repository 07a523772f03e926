import Mathlib.Logic.Function.Basic
import GuacNebula.Terminal.Types

/-! # The scrollback buffer

The buffer is a ring of rows. A row is an array of characters of which the first `length` are
initialized and `available` are allocated; what is stored beyond is whatever the memory held.
Rows only ever grow, and a failed allocation ends the program. `accesses` is not a field of the
source: it records which cells the column operations have addressed, latest first.
-/

namespace GuacNebula.Terminal

/-- A row of the buffer. -/
structure Row where
  characters : Int → TerminalChar
  length : Int
  available : Int

/-- An access to a range of cells of a row, with the number of cells allocated for it. An access
that ends before it starts addresses no cell. -/
structure Access where
  first : Int
  last : Int
  capacity : Int
  deriving DecidableEq, Repr

/-- The buffer. -/
structure Buffer where
  defaultCharacter : TerminalChar
  rows : Int → Row
  top : Int
  length : Int
  available : Int
  accesses : List Access

/-- The index within the ring of a row of the screen or, for negative rows, of the scrollback. -/
def Buffer.index (buffer : Buffer) (row : Int) : Int :=
  let index := (buffer.top + row).tmod buffer.available
  if index < 0 then index + buffer.available else index

/-- The row that is read for a row of the screen or the scrollback. -/
def Buffer.row (buffer : Buffer) (row : Int) : Row := buffer.rows (buffer.index row)

/-- The buffer with one of its rows replaced. -/
def Buffer.setRow (buffer : Buffer) (row : Int) (value : Row) : Buffer :=
  { buffer with rows := Function.update buffer.rows (buffer.index row) value }

/-- What `guac_terminal_buffer_get_row` does to a row: it is extended with default characters to
at least the given width. -/
def Row.grow (defaultCharacter : TerminalChar) (row : Row) (width : Int) : Row :=
  if width ≥ row.length then
    { characters := fun column =>
        if row.length ≤ column ∧ column < width then defaultCharacter else row.characters column
      length := width
      available := if width > row.available then width * 2 else row.available }
  else row

/-- `guac_terminal_buffer_get_row`. The row itself is then `Buffer.row`. -/
def bufferGetRow (buffer : Buffer) (row width : Int) : Buffer :=
  buffer.setRow row ((buffer.row row).grow buffer.defaultCharacter width)

/-- The buffer after a range of cells of a row has been addressed. -/
def Buffer.access (buffer : Buffer) (row first last : Int) : Buffer :=
  { buffer with
    accesses := { first, last, capacity := (buffer.row row).available } :: buffer.accesses }

/-- The range of columns that `guac_terminal_buffer_copy_columns` copies, fitted so that it and
the range it is copied to lie within the row. -/
def Row.copyRange (row : Row) (startColumn endColumn offset : Int) : Int × Int :=
  let start := fitToRange startColumn 0 (row.length - 1)
  let stop := fitToRange endColumn 0 (row.length - 1)
  (fitToRange (start + offset) 0 (row.length - 1) - offset,
    fitToRange (stop + offset) 0 (row.length - 1) - offset)

/-- The row after its columns `start` to `stop` have been copied by `offset`. -/
def Row.copy (row : Row) (start stop offset : Int) : Row :=
  { row with
    characters := fun column =>
      if start + offset ≤ column ∧ column ≤ stop + offset then row.characters (column - offset)
      else row.characters column }

/-- `guac_terminal_buffer_copy_columns`. -/
def bufferCopyColumns (buffer : Buffer) (row startColumn endColumn offset : Int) : Buffer :=
  let buffer := bufferGetRow buffer row (endColumn + offset + 1)
  let range := (buffer.row row).copyRange startColumn endColumn offset
  let buffer := buffer.access row range.1 range.2
  let buffer := buffer.access row (range.1 + offset) (range.2 + offset)
  buffer.setRow row ((buffer.row row).copy range.1 range.2 offset)

/-- The visit of one row by `guac_terminal_buffer_copy_rows`. -/
def bufferCopyRow (buffer : Buffer) (row offset : Int) : Buffer :=
  let buffer := bufferGetRow buffer row 0
  let source := buffer.row row
  let buffer := bufferGetRow buffer (row + offset) source.length
  let target := buffer.row (row + offset)
  buffer.setRow (row + offset)
    { target with
      characters := fun column =>
        if 0 ≤ column ∧ column < source.length then source.characters column
        else target.characters column
      length := source.length }

/-- The loop of `guac_terminal_buffer_copy_rows` over its remaining rows. -/
def bufferCopyRowsLoop (offset step : Int) : Nat → Int → Buffer → Buffer
  | 0, _, buffer => buffer
  | remaining + 1, row, buffer =>
      bufferCopyRowsLoop offset step remaining (row + step) (bufferCopyRow buffer row offset)

/-- `guac_terminal_buffer_copy_rows`: rows are copied in reverse if they are shifted down. -/
def bufferCopyRows (buffer : Buffer) (startRow endRow offset : Int) : Buffer :=
  if offset > 0 then
    bufferCopyRowsLoop offset (-1) (endRow - startRow + 1).toNat endRow buffer
  else bufferCopyRowsLoop offset 1 (endRow - startRow + 1).toNat startRow buffer

/-- The continuation character of a character that takes several columns. -/
def TerminalChar.continuation (character : TerminalChar) : TerminalChar :=
  { value := charContinuation, attributes := character.attributes, width := 0 }

/-- The row after a character has been written to columns `start` to `stop`, every `width`-th
column taking the character and those in between its continuation. -/
def Row.set (row : Row) (start stop : Int) (character : TerminalChar) : Row :=
  { row with
    characters := fun column =>
      let part := (column - start) % character.width
      if start ≤ column ∧ column - part ≤ stop then
        if part = 0 then character else character.continuation
      else row.characters column }

/-- The last cell that is written when a range is set: the last column of the last character. -/
def lastWritten (start stop : Int) (width : Nat) : Int :=
  if start ≤ stop then stop - (stop - start) % width + width - 1 else stop

@[simp] theorem lastWritten_one (start stop : Int) : lastWritten start stop 1 = stop := by
  unfold lastWritten
  split
  all_goals omega

/-- `guac_terminal_buffer_set_columns`. The last cell written may stand beyond `endColumn`. -/
def bufferSetColumns (buffer : Buffer) (row startColumn endColumn : Int)
    (character : TerminalChar) : Buffer :=
  if character.width = 0 then buffer
  else
    let buffer := bufferGetRow buffer row (endColumn + 1)
    let buffer := buffer.access row startColumn
      (lastWritten startColumn endColumn character.width)
    let buffer := buffer.setRow row ((buffer.row row).set startColumn endColumn character)
    if character.value ≠ 0 ∧ row ≥ buffer.length then { buffer with length := row + 1 }
    else buffer

end GuacNebula.Terminal
