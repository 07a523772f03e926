import GuacNebula.Terminal.State

/-! # Resizing

A resize is requested in pixels. If the number of rows or columns changes, the rows of the buffer
are shifted against the screen so that the bottom of the text stays visible, what comes into
view is redrawn, and the cursor is kept on the screen.
-/

namespace GuacNebula.Terminal

/-- `__guac_terminal_redraw_rect`. -/
def redraw (grid : Grid) (startRow startCol endRow endCol : Int) : Grid :=
  redrawRect startCol endCol (endRow - startRow + 1).toNat startRow grid

/-- The console with the rows of its buffer shifted against those of its screen. -/
def shiftRows (console : Console) (amount : Int) : Console :=
  { console with
    cursorRow := console.cursorRow + amount
    grid := { console.grid with
      buffer := { console.grid.buffer with top := console.grid.buffer.top - amount }
      visibleCursorRow :=
        if console.grid.visibleCursorRow ≠ -1 then console.grid.visibleCursorRow + amount
        else -1 } }

/-- The first part of `__guac_terminal_resize`: if the height decreases, the display is shifted
up by the rows that the new bottom would cover. -/
def resizeShrink (console : Console) (width height : Int) : Console :=
  if height < console.grid.termHeight then
    let usedHeight := min (effectiveBufferLength console) console.grid.termHeight
    let shiftAmount := usedHeight - height
    if shiftAmount > 0 then
      let grid := console.grid.displayCall
        (.copyRows shiftAmount (console.grid.display.height - 1) (-shiftAmount))
      let console := shiftRows { console with grid := grid } (-shiftAmount)
      { console with grid := redraw console.grid (height - shiftAmount) 0 (height - 1) (width - 1) }
    else console
  else console

/-- The display is flushed and takes its new size. -/
def resizeDisplay (grid : Grid) (width height : Int) : Grid :=
  { grid with
    display := { grid.display with
      width := width
      height := height
      events := .resize width height :: .flush :: grid.display.events } }

/-- The last part of `__guac_terminal_resize` but the cursor: if the height increases, rows of
the buffer that are not displayed are shifted into view, first from below the view and then
from above it. -/
def resizeGrow (console : Console) (width height : Int) : Console :=
  if height > console.grid.termHeight ∧ getAvailableScroll console > 0 then
    let shiftAmount := min (height - console.grid.termHeight) (getAvailableScroll console)
    let console := shiftRows console shiftAmount
    let termHeight := console.grid.termHeight
    let scrollOffset := console.grid.scrollOffset
    if scrollOffset ≥ shiftAmount then
      let grid := { console.grid with scrollOffset := scrollOffset - shiftAmount }
      { console with grid := redraw grid termHeight 0 (termHeight + shiftAmount - 1) (width - 1) }
    else
      let grid := redraw console.grid termHeight 0 (termHeight + scrollOffset - 1) (width - 1)
      let shiftAmount := shiftAmount - scrollOffset
      let grid := { grid with scrollOffset := 0 }
      if shiftAmount > 0 then
        let grid := grid.displayCall
          (.copyRows 0 (grid.display.height - shiftAmount - 1) shiftAmount)
        { console with grid := redraw grid 0 0 (shiftAmount - 1) (width - 1) }
      else { console with grid := grid }
  else console

/-- A position kept within a number of rows or columns: the checks are made one after the
other. -/
def keepWithin (position size : Int) : Int :=
  let position := if position < 0 then 0 else position
  if position ≥ size then size - 1 else position

/-- `__guac_terminal_resize`. -/
def resizeCells (console : Console) (width height : Int) : Console :=
  let console := resizeShrink console width height
  let console := { console with grid := resizeDisplay console.grid width height }
  let console :=
    if width > console.grid.termWidth then
      { console with
        grid := redraw console.grid 0 (console.grid.termWidth - 1) (height - 1) (width - 1) }
    else console
  let console := resizeGrow console width height
  { console with
    cursorRow := keepWithin console.cursorRow height
    cursorCol := keepWithin console.cursorCol width
    grid := { console.grid with termWidth := width, termHeight := height } }

/-- `guac_terminal_resize`, for a number of rows and columns: only the end of the scroll region is
reset. -/
def resizeRowsColumns (console : Console) (rows columns : Int) : Console :=
  if columns ≠ console.grid.termWidth ∨ rows ≠ console.grid.termHeight then
    { resizeCells console columns rows with scrollEnd := rows - 1 }
  else console

/-- `guac_terminal_resize`. -/
def resize (metrics : FontMetrics) (term : Term) (width height : Int) : Term :=
  let cells := calculateRowsAndColumns metrics height width
  term.onConsole fun console => resizeRowsColumns console cells.1 cells.2

end GuacNebula.Terminal
