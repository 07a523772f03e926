import GuacNebula.Lib.CInt
import GuacNebula.Terminal.Buffer
import GuacNebula.Terminal.Display

/-! # Buffer and display kept in step

Every function of the terminal that changes cells changes the display and the buffer, and both
in terms of the rows of the screen. `Grid` is the part of `guac_terminal` these functions work
on. The display stands in it by its size, its colours and the calls made on it, latest first:
nothing in the terminal reads the operations the calls queue (`Display.call`).
-/

namespace GuacNebula.Terminal

open CInt

/-- Something done to the display. -/
inductive DisplayEvent where
  | call (call : DisplayCall)
  | resize (width height : Int)
  | flush
  deriving DecidableEq, Repr

/-- The display as the terminal sees it. -/
structure TerminalDisplay extends Colors where
  width : Int
  height : Int
  defaultPalette : Int → Color
  events : List DisplayEvent

/-- The selection of text: its ends, and the widths of the characters at its ends. -/
structure Selection where
  textSelected : Bool
  selectionCommitted : Bool
  startRow : Int
  startColumn : Int
  startWidth : Int
  endRow : Int
  endColumn : Int
  endWidth : Int
  deriving DecidableEq, Repr

/-- The part of the terminal its drawing functions work on. -/
structure Grid where
  termWidth : Int
  termHeight : Int
  scrollOffset : Int
  visibleCursorRow : Int
  visibleCursorCol : Int
  defaultChar : TerminalChar
  currentAttributes : Attributes
  buffer : Buffer
  display : TerminalDisplay
  selection : Selection

/-- The grid after a call has been made on its display. -/
def Grid.displayCall (grid : Grid) (call : DisplayCall) : Grid :=
  { grid with display := { grid.display with events := .call call :: grid.display.events } }

/-- The grid after its buffer has been changed. -/
def Grid.onBuffer (grid : Grid) (change : Buffer → Buffer) : Grid :=
  { grid with buffer := change grid.buffer }

/-- The grid after a range of cells of a row has been addressed. -/
def Grid.access (grid : Grid) (row first last : Int) : Grid :=
  grid.onBuffer fun buffer => buffer.access row first last

/-- The grid after a row has been extended to at least the given width. -/
def Grid.getRow (grid : Grid) (row width : Int) : Grid :=
  grid.onBuffer fun buffer => bufferGetRow buffer row width

/-- A row of the screen or the scrollback. -/
def Grid.row (grid : Grid) (row : Int) : Row := grid.buffer.row row

/-! ## Selection -/

/-- `guac_terminal_select_normalized_range`, as the pairs of the first and the last cell. -/
def Selection.normalizedRange (selection : Selection) : (Int × Int) × (Int × Int) :=
  if selection.startRow < selection.endRow
      ∨ (selection.startRow = selection.endRow ∧ selection.startColumn < selection.endColumn) then
    ((selection.startRow, selection.startColumn),
      (selection.endRow, selection.endColumn + selection.endWidth - 1))
  else
    ((selection.endRow, selection.endColumn),
      (selection.startRow, selection.startColumn + selection.startWidth - 1))

/-- `guac_terminal_select_contains`. -/
def Selection.contains (selection : Selection) (startRow startColumn endRow endColumn : Int) :
    Bool :=
  if !selection.textSelected then false
  else
    let (first, last) := selection.normalizedRange
    if startRow > last.1 then false
    else if startRow = last.1 ∧ startColumn > last.2 then false
    else if endRow < first.1 then false
    else if endRow = first.1 ∧ endColumn < first.2 then false
    else true

/-- `guac_terminal_select_touch`: a committed selection is dropped if the region meets it. -/
def Selection.touch (selection : Selection) (startRow startColumn endRow endColumn : Int) :
    Selection :=
  if !selection.selectionCommitted then selection
  else if selection.contains startRow startColumn endRow endColumn then
    { selection with textSelected := false, selectionCommitted := false }
  else selection

/-- `guac_terminal_select_touch` on the selection of the terminal. -/
def selectTouch (grid : Grid) (startRow startColumn endRow endColumn : Int) : Grid :=
  { grid with selection := grid.selection.touch startRow startColumn endRow endColumn }

/-! ## Columns -/

/-- `__guac_terminal_set_columns`: the range is set in the display and in the buffer, without
regard to characters it cuts. -/
def setColumnsRaw (grid : Grid) (row startColumn endColumn : Int) (character : TerminalChar) :
    Grid :=
  let grid := grid.displayCall
    (.setColumns (row + grid.scrollOffset) startColumn endColumn character)
  let grid := grid.onBuffer fun buffer =>
    bufferSetColumns buffer row startColumn endColumn character
  selectTouch grid row startColumn row endColumn

/-- The first column of the character that stands in a column: the loop that steps left while
there are continuations. -/
def scanStart (characters : Int → TerminalChar) : Nat → Nat
  | 0 => 0
  | column + 1 =>
      if (characters ((column : Int) + 1)).value = charContinuation then
        scanStart characters column
      else column + 1

/-- The last column of the character that stands in a column: the loop that steps right while
continuations follow, with the number of columns left in the row. -/
def scanEnd (characters : Int → TerminalChar) : Nat → Int → Int
  | 0, column => column
  | remaining + 1, column =>
      if (characters (column + 1)).value = charContinuation then
        scanEnd characters remaining (column + 1)
      else column

/-- Where the part to clear starts, among the columns `start` to `stop` that follow an edge or
lead to one: a character that is complete in the first of them is kept. -/
def brokenStart (characters : Int → TerminalChar) (start stop : Int) : Int :=
  if (characters start).value ≠ charContinuation
      ∧ ((characters start).width : Int) < stop - start + 1 then
    start + (characters start).width
  else start

/-- Whether what stands in the columns `start` to `stop` is not one complete character. -/
def Broken (characters : Int → TerminalChar) (start stop : Int) : Prop :=
  (characters start).value = charContinuation
    ∨ ((characters start).width : Int) ≠ stop - start + 1

instance (characters : Int → TerminalChar) (start stop : Int) :
    Decidable (Broken characters start stop) :=
  inferInstanceAs (Decidable (_ ∨ _))

/-- The space that replaces a broken character. -/
def TerminalChar.cleared (character : TerminalChar) : TerminalChar :=
  { value := 32, attributes := character.attributes, width := 1 }

/-- The clearing of one side of an edge: if the columns `start` to `stop`, less a complete
character in the first of them, are broken, they are set to spaces. The second of the two
accesses is that of the cell the clearing starts at. -/
def clearBroken (grid : Grid) (row start stop : Int) : Grid :=
  let characters := (grid.row row).characters
  let first := brokenStart characters start stop
  let grid := (grid.access row start stop).access row first first
  if Broken characters first stop then
    setColumnsRaw grid row first stop (characters first).cleared
  else grid

/-- The part of `__guac_terminal_force_break` that looks to the left of the edge. -/
def forceBreakLeft (grid : Grid) (row edge : Int) : Grid :=
  if edge > 0 then
    clearBroken grid row (scanStart (grid.row row).characters (edge - 1).toNat) (edge - 1)
  else grid

/-- The part of `__guac_terminal_force_break` that looks to the right of the edge. The loop also
reads the cell behind the last continuation, if the row has one. -/
def forceBreakRight (grid : Grid) (row edge : Int) : Grid :=
  let length := (grid.row row).length
  if edge ≥ 0 ∧ edge < length then
    let stop := scanEnd (grid.row row).characters (length - 1 - edge).toNat edge
    clearBroken (grid.access row edge (min (stop + 1) (length - 1))) row edge stop
  else grid

/-- `__guac_terminal_force_break`: what is left of a character that the edge cuts is cleared on
both of its sides. -/
def forceBreak (grid : Grid) (row edge : Int) : Grid :=
  forceBreakRight (forceBreakLeft (grid.getRow row 0) row edge) row edge

/-- The character with the cursor on it. -/
def TerminalChar.withCursor (character : TerminalChar) : TerminalChar :=
  { character with attributes := { character.attributes with cursor := true } }

/-- The visible cursor stands in a range of columns of a row. -/
def Grid.CursorIn (grid : Grid) (row startColumn endColumn : Int) : Prop :=
  row = grid.visibleCursorRow ∧ grid.visibleCursorCol ≥ startColumn
    ∧ grid.visibleCursorCol ≤ endColumn

instance (grid : Grid) (row startColumn endColumn : Int) :
    Decidable (grid.CursorIn row startColumn endColumn) :=
  inferInstanceAs (Decidable (_ ∧ _ ∧ _))

/-- The first part of `guac_terminal_set_columns`: the range is set, and the visible cursor kept
if it stands in it. -/
def setColumnsCursor (grid : Grid) (row startColumn endColumn : Int)
    (character : TerminalChar) : Grid :=
  let grid := setColumnsRaw grid row startColumn endColumn character
  if grid.CursorIn row startColumn endColumn then
    setColumnsRaw grid row grid.visibleCursorCol grid.visibleCursorCol character.withCursor
  else grid

/-- The breaks around a region of columns, forced at its left edge first. -/
def forceBreaks (grid : Grid) (row left right : Int) : Grid :=
  forceBreak (forceBreak grid row left) row right

/-- `guac_terminal_set_columns`. -/
def setColumns (grid : Grid) (row startColumn endColumn : Int) (character : TerminalChar) :
    Grid :=
  forceBreaks (setColumnsCursor grid row startColumn endColumn character) row startColumn
    (endColumn + 1)

/-- The first part of `guac_terminal_copy_columns`, without regard to characters it cuts. -/
def copyColumnsRaw (grid : Grid) (row startColumn endColumn offset : Int) : Grid :=
  let grid := grid.displayCall
    (.copyColumns (row + grid.scrollOffset) startColumn endColumn offset)
  let grid := grid.onBuffer fun buffer =>
    bufferCopyColumns buffer row startColumn endColumn offset
  selectTouch grid row startColumn row endColumn

/-- The visible cursor moves with the columns it stands in. -/
def moveCursorColumn (grid : Grid) (row startColumn endColumn offset : Int) : Grid :=
  if grid.CursorIn row startColumn endColumn then
    { grid with visibleCursorCol := grid.visibleCursorCol + offset }
  else grid

/-- `guac_terminal_copy_columns`. -/
def copyColumns (grid : Grid) (row startColumn endColumn offset : Int) : Grid :=
  forceBreaks
    (moveCursorColumn (copyColumnsRaw grid row startColumn endColumn offset) row startColumn
      endColumn offset)
    row (startColumn + offset) (endColumn + offset + 1)

/-- The blank that cleared cells are set to. -/
def Grid.blank (grid : Grid) : TerminalChar :=
  { value := 0, attributes := grid.currentAttributes, width := 1 }

/-- `guac_terminal_clear_columns`. -/
def clearColumns (grid : Grid) (row startColumn endColumn : Int) : Grid :=
  setColumns grid row startColumn endColumn grid.blank

/-! ## Rows -/

/-- The visible cursor moves with the rows it stands in. -/
def moveCursorRow (grid : Grid) (startRow endRow offset : Int) : Grid :=
  if grid.visibleCursorRow ≥ startRow ∧ grid.visibleCursorRow ≤ endRow then
    { grid with visibleCursorRow := grid.visibleCursorRow + offset }
  else grid

/-- `guac_terminal_copy_rows`. -/
def copyRows (grid : Grid) (startRow endRow offset : Int) : Grid :=
  let grid := grid.displayCall
    (.copyRows (startRow + grid.scrollOffset) (endRow + grid.scrollOffset) offset)
  let grid := grid.onBuffer fun buffer => bufferCopyRows buffer startRow endRow offset
  moveCursorRow (selectTouch grid startRow 0 endRow grid.termWidth) startRow endRow offset

/-- The loop of `guac_terminal_clear_range` over the rows it clears as a whole. -/
def clearRows : Nat → Int → Grid → Grid
  | 0, _, grid => grid
  | remaining + 1, row, grid =>
      clearRows remaining (row + 1) (clearColumns grid row 0 (grid.termWidth - 1))

/-- The part of the first row of a range that does not start at the far left. -/
def clearFirst (grid : Grid) (startRow startCol : Int) : Grid :=
  if startCol > 0 then clearColumns grid startRow startCol (grid.termWidth - 1) else grid

/-- The part of the last row of a range that does not end at the far right. -/
def clearLast (grid : Grid) (endRow endCol : Int) : Grid :=
  if endCol < grid.termWidth - 1 then clearColumns grid endRow 0 endCol else grid

/-- `guac_terminal_clear_range`: the first and the last row if they are to be cleared in part,
then the rows that remain. -/
def clearRange (grid : Grid) (startRow startCol endRow endCol : Int) : Grid :=
  let startWhole := if startCol > 0 then startRow + 1 else startRow
  let endWhole := if endCol < grid.termWidth - 1 then endRow - 1 else endRow
  clearRows (endWhole - startWhole + 1).toNat startWhole
    (clearLast (clearFirst grid startRow startCol) endRow endCol)

/-- The ring of the buffer after the screen has moved down by some rows. -/
def Buffer.advance (buffer : Buffer) (amount : Int) : Buffer :=
  let top := buffer.top + amount
  let length := buffer.length + amount
  { buffer with
    top := if top ≥ buffer.available then top - buffer.available else top
    length := if length > buffer.available then buffer.available else length }

/-- A selection after the screen has moved down by some rows. -/
def Selection.advance (selection : Selection) (amount : Int) : Selection :=
  if selection.textSelected then
    { selection with
      startRow := selection.startRow - amount
      endRow := selection.endRow - amount }
  else selection

/-- The part of `guac_terminal_scroll_up` that moves the whole screen into the scrollback. -/
def advance (grid : Grid) (startRow endRow amount : Int) : Grid :=
  let grid := grid.displayCall (.copyRows (startRow + amount) endRow (-amount))
  let grid := moveCursorRow (grid.onBuffer (Buffer.advance · amount)) startRow endRow (-amount)
  { grid with selection := grid.selection.advance amount }

/-- `guac_terminal_scroll_up`. The sums with the amount, which comes from outside, may wrap. -/
def scrollUp (grid : Grid) (startRow endRow amount : Int) : Grid :=
  let grid :=
    if startRow = 0 ∧ endRow = grid.termHeight - 1 then advance grid startRow endRow amount
    else copyRows grid (toInt (startRow + amount)) endRow (toInt (-amount))
  clearRange grid (toInt (endRow - amount + 1)) 0 endRow (grid.termWidth - 1)

/-- `guac_terminal_scroll_down`. -/
def scrollDown (grid : Grid) (startRow endRow amount : Int) : Grid :=
  let grid := copyRows grid startRow (toInt (endRow - amount)) amount
  clearRange grid startRow 0 (toInt (startRow + amount - 1)) (grid.termWidth - 1)

/-! ## Drawing rows of the scrollback -/

/-- `guac_terminal_is_visible`. -/
def isVisible (grid : Grid) (character : TerminalChar) : Bool :=
  if character.value = charContinuation then false
  else if hasGlyph character.value then true
  else colorcmp character.attributes.ground grid.defaultChar.attributes.background ≠ 0

/-- The loop that draws the visible characters of a row, over its remaining columns. -/
def drawColumns (characters : Int → TerminalChar) (destRow : Int) : Nat → Int → Grid → Grid
  | 0, _, grid => grid
  | remaining + 1, column, grid =>
      let grid :=
        if isVisible grid (characters column) then
          grid.displayCall (.setColumns destRow column column (characters column))
        else grid
      drawColumns characters destRow remaining (column + 1) grid

/-- The drawing of one row: the row of the display is cleared, then its visible characters are
set. -/
def drawRow (grid : Grid) (row destRow startColumn endColumn stop : Int) : Grid :=
  let grid := grid.getRow row 0
  let bufferRow := grid.row row
  drawColumns bufferRow.characters destRow (min stop bufferRow.length - startColumn).toNat
    startColumn (grid.displayCall (.setColumns destRow startColumn endColumn grid.defaultChar))

/-- The loop that draws consecutive rows as a whole. -/
def drawRows : Nat → Int → Int → Grid → Grid
  | 0, _, _, grid => grid
  | remaining + 1, row, destRow, grid =>
      let length := (grid.row row).length
      drawRows remaining (row + 1) (destRow + 1)
        (drawRow grid row destRow 0 grid.display.width length)

/-- `guac_terminal_scroll_display_down`. -/
def scrollDisplayDown (grid : Grid) (scrollAmount : Int) : Grid :=
  let scrollAmount := if scrollAmount > grid.scrollOffset then grid.scrollOffset else scrollAmount
  if scrollAmount ≤ 0 then grid
  else
    let grid :=
      if grid.termHeight > scrollAmount then
        grid.displayCall (.copyRows scrollAmount (grid.termHeight - 1) (-scrollAmount))
      else grid
    let grid := { grid with scrollOffset := grid.scrollOffset - scrollAmount }
    let endRow := grid.termHeight - grid.scrollOffset - 1
    let startRow := endRow - scrollAmount + 1
    drawRows (endRow - startRow + 1).toNat startRow (grid.termHeight - scrollAmount) grid

/-- `guac_terminal_scroll_display_up`, given what `guac_terminal_get_available_scroll` tells. -/
def scrollDisplayUp (grid : Grid) (availableScroll scrollAmount : Int) : Grid :=
  let scrollAmount :=
    if toInt (grid.scrollOffset + scrollAmount) > availableScroll then
      availableScroll - grid.scrollOffset
    else scrollAmount
  if scrollAmount ≤ 0 then grid
  else
    let grid :=
      if grid.termHeight > scrollAmount then
        grid.displayCall (.copyRows 0 (grid.termHeight - scrollAmount - 1) scrollAmount)
      else grid
    let grid := { grid with scrollOffset := grid.scrollOffset + scrollAmount }
    let startRow := -grid.scrollOffset
    let endRow := startRow + scrollAmount - 1
    drawRows (endRow - startRow + 1).toNat startRow 0 grid

/-- The loop of `__guac_terminal_redraw_rect` over its remaining rows. -/
def redrawRect (startCol endCol : Int) : Nat → Int → Grid → Grid
  | 0, _, grid => grid
  | remaining + 1, row, grid =>
      redrawRect startCol endCol remaining (row + 1)
        (drawRow grid (row - grid.scrollOffset) row startCol endCol (endCol + 1))

end GuacNebula.Terminal
