import GuacNebula.Terminal.CharMappings
import GuacNebula.Terminal.Grid

/-! # The terminal

The state of `guac_terminal`, with the static variables of its character handlers, and the
functions the handlers are made of. Fields that no modelled function reads (locks, timing, key
modifiers, fonts, the typescript) are left out.
-/

namespace GuacNebula.Terminal

open CInt

/-- The function that handles the next byte. -/
inductive CharHandler where
  | echo | escape | g0Charset | g1Charset | osc | csi | ctrlFunc | apc
  | download | setDirectory | openPipeStream | closePipeStream | setScrollback | windowTitle
  | xtermPalette
  deriving DecidableEq, Repr

/-- The static variables of the character handlers. A buffer with its length is the list of the
bytes stored in it. -/
structure HandlerStatics where
  /-- `guac_terminal_echo` -/
  bytesRemaining : Int
  codepoint : Int
  /-- `guac_terminal_csi` -/
  argc : Nat
  argv : Nat → Int
  privateModeCharacter : UInt8
  argvBuffer : List UInt8
  /-- `guac_terminal_set_directory` -/
  directory : List UInt8
  /-- `guac_terminal_download` -/
  filename : List UInt8
  /-- `guac_terminal_open_pipe_stream` -/
  pipeParam : List UInt8
  pipeFlags : BitVec 32
  /-- `guac_terminal_set_scrollback` -/
  scrollbackParam : List UInt8
  /-- `guac_terminal_window_title` -/
  title : List UInt8
  /-- `guac_terminal_xterm_palette` -/
  readColorSpec : Bool
  paletteIndex : Int
  colorSpec : List UInt8
  /-- `guac_terminal_osc` -/
  operation : Int
  /-- `guac_terminal_apc` -/
  escaping : Bool

/-- What the terminal sends to the other parties, latest first. -/
inductive Output where
  /-- bytes written to the program's standard input -/
  | stdin (bytes : List UInt8)
  | download (name : List UInt8)
  | uploadPath (path : List UInt8)
  | title (name : List UInt8)
  | pipe (name : List UInt8)
  | blob (bytes : List UInt8)
  | endPipe
  deriving DecidableEq, Repr

/-- `pipe_stream`, with the buffer of bytes not yet sent on it. -/
structure PipeStream where
  opened : Bool
  flags : BitVec 32
  buffer : List UInt8
  deriving DecidableEq, Repr

/-- The part of the terminal that complete sequences work on: the grid, the cursor, the modes, the
scroll region, the tab stops and the size of the scrollback. -/
structure Console where
  grid : Grid
  cursorRow : Int
  cursorCol : Int
  savedCursorRow : Int
  savedCursorCol : Int
  cursorVisible : Bool
  insertMode : Bool
  automaticCarriageReturn : Bool
  applicationCursorKeys : Bool
  scrollStart : Int
  scrollEnd : Int
  maxScrollback : Int
  requestedScrollback : Int
  tabInterval : Int
  customTabs : List Int

/-- The terminal. `char_mapping` is `none` where the source has a null pointer. -/
structure Term extends Console where
  activeCharSet : Nat
  charMapping : Nat → Option (List Int)
  charHandler : CharHandler
  statics : HandlerStatics
  pipeStream : PipeStream
  inputStream : Bool
  uploadPathHandler : Bool
  fileDownloadHandler : Bool
  output : List Output

/-- The terminal after its console has been changed. -/
def Term.onConsole (term : Term) (change : Console → Console) : Term :=
  { term with toConsole := change term.toConsole }

/-- What the terminal relies on beyond its own state: the widths of codepoints, the parser of
colour specifications, and the value that the uninitialized width of the alignment test's
character happens to have. -/
structure Platform where
  wc : Wcwidth
  xparsecolor : List UInt8 → Option Color
  indeterminateWidth : Nat

/-! ## Integers from text -/

/-- `isspace` in the C locale. -/
def isSpace (byte : UInt8) : Bool := byte = 0x20 || (0x09 ≤ byte && byte ≤ 0x0D)

/-- Whether a byte is a decimal digit. -/
def isDigit (byte : UInt8) : Bool := 0x30 ≤ byte && byte ≤ 0x39

/-- The number a list of decimal digits stands for. -/
def digitsValue (digits : List UInt8) : Nat :=
  digits.foldl (fun value digit => value * 10 + (digit.toNat - 0x30)) 0

/-- `atoi`: the value `strtol` reads, which is limited to 64 bits, converted to `int`. -/
def atoi (text : List UInt8) : Int :=
  match text.dropWhile isSpace with
  | 0x2D :: rest => toInt (max (-9223372036854775808) (-(digitsValue (rest.takeWhile isDigit) : Int)))
  | 0x2B :: rest => toInt (min 9223372036854775807 (digitsValue (rest.takeWhile isDigit) : Int))
  | rest => toInt (min 9223372036854775807 (digitsValue (rest.takeWhile isDigit) : Int))

/-! ## Output -/

/-- The bytes of a text of ASCII characters. -/
def bytesOf (text : String) : List UInt8 :=
  text.toList.map fun character => UInt8.ofNat character.toNat

/-- `guac_terminal_send_string`: nothing is sent while a stream provides the input. -/
def sendString (term : Term) (text : String) : Term :=
  if term.inputStream then term
  else { term with output := .stdin (bytesOf text) :: term.output }

/-- `guac_terminal_pipe_stream_flush`. -/
def pipeStreamFlush (term : Term) : Term :=
  if term.pipeStream.opened && !term.pipeStream.buffer.isEmpty then
    { term with
      output := .blob term.pipeStream.buffer :: term.output
      pipeStream := { term.pipeStream with buffer := [] } }
  else term

/-- `guac_terminal_pipe_stream_write`: a full buffer of 6048 bytes is flushed first. -/
def pipeStreamWrite (term : Term) (byte : UInt8) : Term :=
  if term.pipeStream.opened then
    let term := if term.pipeStream.buffer.length = 6048 then pipeStreamFlush term else term
    { term with pipeStream := { term.pipeStream with buffer := term.pipeStream.buffer ++ [byte] } }
  else term

/-- `guac_terminal_pipe_stream_close`. -/
def pipeStreamClose (term : Term) : Term :=
  if term.pipeStream.opened then
    let term := pipeStreamFlush term
    { term with
      output := .endPipe :: term.output
      pipeStream := { term.pipeStream with opened := false } }
  else term

/-- `guac_terminal_pipe_stream_open`. -/
def pipeStreamOpen (term : Term) (name : List UInt8) (flags : BitVec 32) : Term :=
  let term := pipeStreamClose term
  { term with
    output := .pipe name :: term.output
    pipeStream := { opened := true, flags := flags, buffer := [] } }

/-! ## Tab stops -/

/-- `GUAC_TERMINAL_MAX_TABS`. -/
def maxTabs : Nat := 16

/-- The list with its first element equal to `old` replaced. -/
def replaceFirst (old new : Int) : List Int → List Int
  | [] => []
  | tab :: tabs => if tab = old then new :: tabs else tab :: replaceFirst old new tabs

/-- `guac_terminal_set_tab`: the stop is stored in the first free place, if there is one. -/
def setTab (console : Console) (column : Int) : Console :=
  { console with customTabs := replaceFirst 0 (column + 1) console.customTabs }

/-- `guac_terminal_unset_tab`. -/
def unsetTab (console : Console) (column : Int) : Console :=
  { console with customTabs := replaceFirst (column + 1) 0 console.customTabs }

/-- `guac_terminal_clear_tabs`. -/
def clearTabs (console : Console) : Console :=
  { console with tabInterval := 0, customTabs := List.replicate maxTabs 0 }

/-- `guac_terminal_next_tab`. -/
def nextTab (console : Console) (column : Int) : Int :=
  let tabstop :=
    if console.tabInterval ≠ 0 then (column.tdiv console.tabInterval + 1) * console.tabInterval
    else console.grid.termWidth - 1
  console.customTabs.foldl
    (fun tabstop tab =>
      if tab - 1 ≠ -1 ∧ tab - 1 > column ∧ tab - 1 < tabstop then tab - 1 else tabstop)
    tabstop

/-! ## Scrollback -/

/-- `guac_terminal_effective_buffer_length`. -/
def effectiveBufferLength (console : Console) : Int :=
  let scrollback :=
    if console.requestedScrollback > console.maxScrollback then console.maxScrollback
    else if console.requestedScrollback < console.grid.termHeight then console.grid.termHeight
    else console.requestedScrollback
  if console.grid.buffer.length > scrollback then scrollback else console.grid.buffer.length

/-- `guac_terminal_get_available_scroll`. -/
def getAvailableScroll (console : Console) : Int :=
  effectiveBufferLength console - console.grid.termHeight

/-! ## Cursor -/

/-- `guac_terminal_move_cursor`: positions out of bounds are shifted to the nearest one within. -/
def moveCursor (console : Console) (row col : Int) : Console :=
  { console with
    cursorRow :=
      if row ≥ console.grid.termHeight then console.grid.termHeight - 1
      else if row < 0 then 0
      else row
    cursorCol :=
      if col ≥ console.grid.termWidth then console.grid.termWidth - 1
      else if col < 0 then 0
      else col }

/-- `guac_terminal_linefeed`. -/
def linefeed (console : Console) : Console :=
  if console.cursorRow = console.scrollEnd then
    { console with grid := scrollUp console.grid console.scrollStart console.scrollEnd 1 }
  else if console.cursorRow < console.grid.termHeight - 1 then
    { console with cursorRow := console.cursorRow + 1 }
  else console

/-- `guac_terminal_reverse_linefeed`. -/
def reverseLinefeed (console : Console) : Console :=
  if console.cursorRow = console.scrollStart then
    { console with grid := scrollDown console.grid console.scrollStart console.scrollEnd 1 }
  else if console.cursorRow > 0 then { console with cursorRow := console.cursorRow - 1 }
  else console

/-- The character with its cursor attribute changed. -/
def TerminalChar.mark (character : TerminalChar) (cursor : Bool) : TerminalChar :=
  { character with attributes := { character.attributes with cursor := cursor } }

/-- The row with the cursor attribute of one of its cells changed. -/
def Row.mark (row : Row) (column : Int) (cursor : Bool) : Row :=
  { row with
    characters := Function.update row.characters column ((row.characters column).mark cursor) }

/-- A cell with its cursor attribute changed, in the buffer and in the display. The row is
extended to hold it first. -/
def markCursor (grid : Grid) (row column : Int) (cursor : Bool) : Grid :=
  let grid := grid.getRow row (column + 1)
  let grid := grid.onBuffer fun buffer =>
    buffer.setRow row ((buffer.row row).mark column cursor)
  grid.displayCall
    (.setColumns (row + grid.scrollOffset) column column ((grid.row row).characters column))

/-- `guac_terminal_commit_cursor`. -/
def commitCursor (console : Console) : Console :=
  let grid := console.grid
  if console.cursorVisible ∧ grid.visibleCursorRow = console.cursorRow
      ∧ grid.visibleCursorCol = console.cursorCol then console
  else
    let grid :=
      if grid.visibleCursorRow ≠ -1 ∧ grid.visibleCursorCol ≠ -1 then
        markCursor grid grid.visibleCursorRow grid.visibleCursorCol false
      else grid
    let grid :=
      if console.cursorVisible then
        { markCursor grid console.cursorRow console.cursorCol true with
          visibleCursorRow := console.cursorRow
          visibleCursorCol := console.cursorCol }
      else { grid with visibleCursorRow := -1, visibleCursorCol := -1 }
    { console with grid := grid }

/-! ## Reset -/

/-- The loop of `guac_terminal_reset` that clears the rows of the screen. -/
def resetRows : Nat → Int → Grid → Grid
  | 0, _, grid => grid
  | remaining + 1, row, grid =>
      resetRows remaining (row + 1) (setColumns grid row 0 grid.termWidth grid.defaultChar)

/-- The part of `guac_terminal_reset` that concerns the console. -/
def resetConsole (console : Console) : Console :=
  let grid := console.grid
  let grid :=
    { grid with
      visibleCursorRow := 0
      visibleCursorCol := 0
      buffer := { grid.buffer with top := 0, length := 0 }
      scrollOffset := 0
      selection := { grid.selection with textSelected := false, selectionCommitted := false }
      currentAttributes := grid.defaultChar.attributes
      display := { grid.display with palette := grid.display.defaultPalette } }
  { console with
    cursorRow := 0
    savedCursorRow := 0
    cursorCol := 0
    savedCursorCol := 0
    cursorVisible := true
    scrollStart := 0
    scrollEnd := console.grid.termHeight - 1
    applicationCursorKeys := false
    automaticCarriageReturn := false
    insertMode := false
    tabInterval := 8
    customTabs := List.replicate maxTabs 0
    grid := resetRows grid.termHeight.toNat 0 grid }

/-- `guac_terminal_reset`. The saved cursor is reset with the cursor, the static variables of the
handlers are not. -/
def reset (term : Term) : Term :=
  { term.onConsole resetConsole with
    charHandler := .echo
    activeCharSet := 0
    charMapping := fun _ => none }

/-! ## Flushing and scrolling the display -/

/-- The part of `guac_terminal_flush` that concerns the console: the cursor is drawn, and the
display flushed. -/
def flushConsole (console : Console) : Console :=
  let console := commitCursor console
  { console with
    grid := { console.grid with
      display := { console.grid.display with
        events := .flush :: console.grid.display.events } } }

/-- `guac_terminal_flush`. -/
def flush (term : Term) : Term :=
  let term := if term.pipeStream.flags &&& 2 ≠ 0 then pipeStreamFlush term else term
  term.onConsole flushConsole

/-- `guac_terminal_scroll_display_up`. -/
def terminalScrollDisplayUp (console : Console) (scrollAmount : Int) : Console :=
  { console with
    grid := scrollDisplayUp console.grid (getAvailableScroll console) scrollAmount }

/-- `guac_terminal_scroll_display_down`. -/
def terminalScrollDisplayDown (console : Console) (scrollAmount : Int) : Console :=
  { console with grid := scrollDisplayDown console.grid scrollAmount }

/-! ## Creation -/

/-- The measures of the display that turn pixels into cells. -/
structure FontMetrics where
  margin : Int
  charWidth : Int
  charHeight : Int

/-- `GUAC_TERMINAL_SCROLLBAR_WIDTH`. -/
def scrollbarWidth : Int := 16

/-- `calculate_rows_and_columns`: at most `GUAC_TERMINAL_MAX_ROWS` and
`GUAC_TERMINAL_MAX_COLUMNS`. -/
def calculateRowsAndColumns (metrics : FontMetrics) (height width : Int) : Int × Int :=
  let availableWidth := max (width - scrollbarWidth - 2 * metrics.margin) 0
  let availableHeight := max (height - 2 * metrics.margin) 0
  (min (availableHeight.tdiv metrics.charHeight) 1024,
    min (availableWidth.tdiv metrics.charWidth) 1024)

/-- The static variables before any byte has been handled. -/
def HandlerStatics.zero : HandlerStatics where
  bytesRemaining := 0
  codepoint := 0
  argc := 0
  argv _ := 0
  privateModeCharacter := 0
  argvBuffer := []
  directory := []
  filename := []
  pipeParam := []
  pipeFlags := 0
  scrollbackParam := []
  title := []
  readColorSpec := false
  paletteIndex := 0
  colorSpec := []
  operation := 0
  escaping := false

/-- What a terminal is created with: its size in pixels, its scrollback, the colours of its
colour scheme, and whatever the memory of its rows holds. -/
structure TerminalOptions where
  width : Int
  height : Int
  maxScrollback : Int
  foreground : Color
  background : Color
  palette : Int → Color
  memory : Int → Int → TerminalChar

/-- The default character. -/
def TerminalOptions.defaultChar (options : TerminalOptions) : TerminalChar where
  value := 0
  width := 1
  attributes :=
    { bold := false
      halfBright := false
      reverse := false
      cursor := false
      underscore := false
      foreground := options.foreground
      background := options.background }

/-- `guac_terminal_buffer_alloc`. -/
def bufferAlloc (rows : Int) (defaultCharacter : TerminalChar)
    (memory : Int → Int → TerminalChar) : Buffer where
  defaultCharacter := defaultCharacter
  rows row := { characters := memory row, length := 0, available := 256 }
  top := 0
  length := 0
  available := rows
  accesses := []

/-- The grid of a new terminal before it is reset: there is room for the scrollback and, whatever
its size, for `GUAC_TERMINAL_MAX_ROWS`. -/
def TerminalOptions.grid (options : TerminalOptions) (rows columns : Int) : Grid where
  termWidth := columns
  termHeight := rows
  scrollOffset := 0
  visibleCursorRow := 0
  visibleCursorCol := 0
  defaultChar := options.defaultChar
  currentAttributes := options.defaultChar.attributes
  buffer := bufferAlloc (max options.maxScrollback 1024) options.defaultChar options.memory
  display :=
    { palette := options.palette
      defaultForeground := options.foreground
      defaultBackground := options.background
      width := columns
      height := rows
      defaultPalette := options.palette
      events := [.resize columns rows] }
  selection :=
    { textSelected := false
      selectionCommitted := false
      startRow := 0
      startColumn := 0
      startWidth := 0
      endRow := 0
      endColumn := 0
      endWidth := 0 }

/-- `guac_terminal_create`. What the reset assigns has no value before. -/
def create (metrics : FontMetrics) (options : TerminalOptions) : Term :=
  let cells := calculateRowsAndColumns metrics options.height options.width
  reset
    { grid := options.grid cells.1 cells.2
      cursorRow := 0
      cursorCol := 0
      savedCursorRow := 0
      savedCursorCol := 0
      cursorVisible := true
      insertMode := false
      automaticCarriageReturn := false
      applicationCursorKeys := false
      scrollStart := 0
      scrollEnd := 0
      maxScrollback := options.maxScrollback
      requestedScrollback := options.maxScrollback
      tabInterval := 0
      customTabs := []
      activeCharSet := 0
      charMapping := fun _ => none
      charHandler := .echo
      statics := HandlerStatics.zero
      pipeStream := { opened := false, flags := 0, buffer := [] }
      inputStream := false
      uploadPathHandler := false
      fileDownloadHandler := false
      output := [] }

/-! ## Sample terminals -/

/-- A font of 8 by 16 pixels without a margin. -/
def sampleMetrics : FontMetrics where
  margin := 0
  charWidth := 8
  charHeight := 16

/-- Options under which a terminal with that font has the given numbers of rows and columns. -/
def sampleOptions (rows columns : Int) : TerminalOptions where
  width := columns * 8 + 16
  height := rows * 16
  maxScrollback := 1000
  foreground := { paletteIndex := 7, red := 0x99, green := 0x99, blue := 0x99 }
  background := { paletteIndex := 0, red := 0, green := 0, blue := 0 }
  palette index := { paletteIndex := index, red := 0, green := 0, blue := 0 }
  memory _ _ := default

/-- A platform that parses no colour specification and that clears its memory. -/
def samplePlatform : Platform where
  wc := sampleWcwidth
  xparsecolor _ := none
  indeterminateWidth := 0

end GuacNebula.Terminal
