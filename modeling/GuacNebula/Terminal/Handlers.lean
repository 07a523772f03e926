import Mathlib.Data.UInt
import GuacNebula.Terminal.State

/-! # Character handlers

Every byte written to the terminal goes to the current character handler, which keeps the state
of an unfinished sequence in its static variables and decides which handler comes next.
-/

namespace GuacNebula.Terminal

open CInt

/-- The term with another character handler. -/
def Term.handler (term : Term) (charHandler : CharHandler) : Term :=
  { term with charHandler := charHandler }

/-- Whether a byte ends a string: ST in its 8-bit form, the second byte of its 7-bit form, or
BEL. -/
def isStringTerminator (c : UInt8) : Bool := c = 0x9C || c = 0x5C || c = 0x07

/-! ## Echo -/

/-- `guac_terminal_set`: a codepoint is written with the current attributes. -/
def terminalSet (platform : Platform) (grid : Grid) (row col codepoint : Int) : Grid :=
  let width := platform.wc.columns codepoint
  if width = 0 then grid
  else
    setColumns grid row col (col + width - 1)
      { value := codepoint, attributes := grid.currentAttributes, width := width }

/-- The mapping that `guac_terminal_echo` translates bytes with. -/
def Term.mapping (term : Term) : Option (List Int) := term.charMapping term.activeCharSet

/-- The decoder of `guac_terminal_echo`: the codepoint and the number of bytes it still lacks. -/
def decodeByte (mapped : Bool) (codepoint bytesRemaining : Int) (c : UInt8) : Int × Int :=
  if mapped then (c.toNat, 0)
  else if c &&& 0x80 = 0x00 then ((c &&& 0x7F).toNat, 0)
  else if c &&& 0xE0 = 0xC0 then ((c &&& 0x1F).toNat, 1)
  else if c &&& 0xF0 = 0xE0 then ((c &&& 0x0F).toNat, 2)
  else if c &&& 0xF8 = 0xF0 then ((c &&& 0x07).toNat, 3)
  else if c &&& 0xC0 = 0x80 then
    (toInt (codepoint * 64 + (c &&& 0x3F).toNat), toInt (bytesRemaining - 1))
  else (0x3F, 0)

/-- The first lines of the default case of `guac_terminal_echo`: bytes of a mapped character set
are translated. -/
def Term.translate (term : Term) (codepoint : Int) : Int :=
  match term.mapping with
  | some mapping =>
      if codepoint ≥ 0x20 ∧ codepoint ≤ 0xFF then mapCodepoint mapping codepoint else codepoint
  | none => codepoint

/-- A line is begun if the cursor is past the last column. -/
def wrapCursor (console : Console) : Console :=
  if console.cursorCol ≥ console.grid.termWidth then linefeed { console with cursorCol := 0 }
  else console

/-- In insert mode the characters from the cursor on are shifted right by one. -/
def insertShift (console : Console) : Console :=
  if console.insertMode then
    { console with
      grid := copyColumns console.grid console.cursorRow console.cursorCol
        (console.grid.termWidth - 2) 1 }
  else console

/-- The character is written at the cursor, which then moves behind it. -/
def printAtCursor (platform : Platform) (console : Console) (codepoint : Int) : Console :=
  { console with
    grid := terminalSet platform console.grid console.cursorRow console.cursorCol codepoint
    cursorCol := console.cursorCol + platform.wc.columns codepoint }

/-- The default case of `guac_terminal_echo` for a codepoint that has been translated. -/
def printCodepoint (platform : Platform) (console : Console) (codepoint : Int) : Console :=
  printAtCursor platform (insertShift (wrapCursor console)) codepoint

/-- `LF`, `VT` and `FF`. -/
def newline (console : Console) : Console :=
  let console := linefeed console
  if console.automaticCarriageReturn then moveCursor console console.cursorRow 0 else console

/-- The switch of `guac_terminal_echo` over complete codepoints. The translated codepoint is kept
in the static variable. -/
def echoCodepoint (platform : Platform) (term : Term) (codepoint : Int) : Term :=
  if codepoint = 0x05 then sendString term "GUACAMOLE"
  else if codepoint = 0x07 then term
  else if codepoint = 0x08 then
    term.onConsole fun console => moveCursor console console.cursorRow (console.cursorCol - 1)
  else if codepoint = 0x09 then
    term.onConsole fun console =>
      moveCursor console console.cursorRow (nextTab console console.cursorCol)
  else if codepoint = 0x0A ∨ codepoint = 0x0B ∨ codepoint = 0x0C then term.onConsole newline
  else if codepoint = 0x0D then
    term.onConsole fun console => moveCursor console console.cursorRow 0
  else if codepoint = 0x0E then { term with activeCharSet := 1 }
  else if codepoint = 0x0F then { term with activeCharSet := 0 }
  else if codepoint = 0x1B then term.handler .escape
  else if codepoint = 0x9B then term.handler .csi
  else if codepoint = 0x7F then term
  else if codepoint < 0x20 then term
  else
    let codepoint := term.translate codepoint
    { term.onConsole (printCodepoint platform · codepoint) with
      statics := { term.statics with codepoint := codepoint } }

/-- The part of `guac_terminal_echo` behind the redirection of output. -/
def echoByte (platform : Platform) (term : Term) (c : UInt8) : Term :=
  let (codepoint, bytesRemaining) := decodeByte term.mapping.isSome term.statics.codepoint
    term.statics.bytesRemaining c
  let term :=
    { term with
      statics := { term.statics with codepoint := codepoint, bytesRemaining := bytesRemaining } }
  if bytesRemaining ≠ 0 then term else echoCodepoint platform term codepoint

/-- `guac_terminal_echo`: while a pipe stream is open, bytes are written to it, and only
interpreted if its flags say so. -/
def echo (platform : Platform) (term : Term) (c : UInt8) : Term :=
  let piped := term.pipeStream.opened ∧ c ≠ 0x1B
  let term := if piped then pipeStreamWrite term c else term
  if piped ∧ term.pipeStream.flags &&& 1 = 0 then term else echoByte platform term c

/-! ## Escape sequences -/

/-- The mapping that a specifier of a character set selects. -/
def getCharMapping (c : UInt8) : Option (List Int) :=
  if c = 0x30 then some vt100Map
  else if c = 0x55 then some nullMap
  else if c = 0x4B then some userMap
  else none

/-- The position of the cursor is saved. -/
def saveCursor (console : Console) : Console :=
  { console with savedCursorRow := console.cursorRow, savedCursorCol := console.cursorCol }

/-- The cursor moves to the saved position. -/
def restoreCursor (console : Console) : Console :=
  moveCursor console console.savedCursorRow console.savedCursorCol

/-- `NEL`. -/
def nextLine (console : Console) : Console := linefeed (moveCursor console console.cursorRow 0)

/-- `guac_terminal_escape`. -/
def escape (term : Term) (c : UInt8) : Term :=
  match Char.ofNat c.toNat with
  | '(' => term.handler .g0Charset
  | ')' => term.handler .g1Charset
  | ']' => term.handler .osc
  | '[' => term.handler .csi
  | '#' => term.handler .ctrlFunc
  | '7' => (term.onConsole saveCursor).handler .echo
  | '8' => (term.onConsole restoreCursor).handler .echo
  | 'D' => (term.onConsole linefeed).handler .echo
  | 'E' => (term.onConsole nextLine).handler .echo
  | 'H' => (term.onConsole fun console => setTab console console.cursorCol).handler .echo
  | 'M' => (term.onConsole reverseLinefeed).handler .echo
  | 'Z' => (sendString term "\x1b[?6c").handler .echo
  | 'c' => reset term
  | '_' => term.handler .apc
  | _ => term.handler .echo

/-- `guac_terminal_g0_charset`. -/
def g0Charset (term : Term) (c : UInt8) : Term :=
  { term with charMapping := Function.update term.charMapping 0 (getCharMapping c) }.handler .echo

/-- `guac_terminal_g1_charset`. -/
def g1Charset (term : Term) (c : UInt8) : Term :=
  { term with charMapping := Function.update term.charMapping 1 (getCharMapping c) }.handler .echo

/-- The loop of `guac_terminal_ctrl_func` that fills the remaining rows of the screen. -/
def fillRows (character : TerminalChar) : Nat → Int → Grid → Grid
  | 0, _, grid => grid
  | remaining + 1, row, grid =>
      fillRows character remaining (row + 1)
        (setColumns grid row 0 (grid.termWidth - 1) character)

/-- `DECALN`: the screen is filled with `E`. The width of this character is never set. -/
def fillScreen (platform : Platform) (console : Console) : Console :=
  { console with
    grid := fillRows
      { value := 0x45
        attributes := console.grid.currentAttributes
        width := platform.indeterminateWidth }
      console.grid.termHeight.toNat 0 console.grid }

/-- `guac_terminal_ctrl_func`. -/
def ctrlFunc (platform : Platform) (term : Term) (c : UInt8) : Term :=
  (if c = 0x38 then term.onConsole (fillScreen platform) else term).handler .echo

/-! ## Control sequences -/

/-- The switch cases of `guac_terminal_csi`. -/
inductive CsiFunction where
  | insertCharacters | moveUp | moveDown | moveRight | moveLeft | nextLine | previousLine
  | moveColumn | moveTo | eraseDisplay | eraseLine | insertLines | deleteLines | deleteCharacters
  | eraseCharacters | identify | moveRow | clearTab | setMode | resetMode | graphics | report
  | scrollRegion | saveCursor | restoreCursor | ignored
  deriving DecidableEq, Repr

/-- The case that a final byte selects. -/
def csiFunction (c : UInt8) : CsiFunction :=
  match Char.ofNat c.toNat with
  | '@' => .insertCharacters
  | 'A' => .moveUp
  | 'e' => .moveDown
  | 'B' => .moveDown
  | 'a' => .moveRight
  | 'C' => .moveRight
  | 'D' => .moveLeft
  | 'E' => .nextLine
  | 'F' => .previousLine
  | '`' => .moveColumn
  | 'G' => .moveColumn
  | 'f' => .moveTo
  | 'H' => .moveTo
  | 'J' => .eraseDisplay
  | 'K' => .eraseLine
  | 'L' => .insertLines
  | 'M' => .deleteLines
  | 'P' => .deleteCharacters
  | 'X' => .eraseCharacters
  | 'c' => .identify
  | 'd' => .moveRow
  | 'g' => .clearTab
  | 'h' => .setMode
  | 'l' => .resetMode
  | 'm' => .graphics
  | 'n' => .report
  | 'r' => .scrollRegion
  | 's' => .saveCursor
  | 'u' => .restoreCursor
  | _ => .ignored

/-- A count parameter: zero stands for one. -/
def csiAmount (argument : Int) : Int := if argument = 0 then 1 else argument

/-- A position parameter: positions count from one, and zero stands for the first one. -/
def csiPosition (argument : Int) : Int :=
  if argument ≠ 0 then toInt (argument - 1) else argument

/-- `@`: characters are inserted at the cursor. -/
def csiInsertCharacters (console : Console) (amount : Int) : Console :=
  let width := console.grid.termWidth
  let grid :=
    if toInt (console.cursorCol + amount) < width then
      copyColumns console.grid console.cursorRow console.cursorCol (toInt (width - amount - 1)) amount
    else console.grid
  { console with
    grid := clearColumns grid console.cursorRow console.cursorCol (toInt (console.cursorCol + amount - 1)) }

/-- `P`: characters are deleted at the cursor. -/
def csiDeleteCharacters (console : Console) (amount : Int) : Console :=
  let width := console.grid.termWidth
  let grid :=
    if toInt (console.cursorCol + amount) < width then
      copyColumns console.grid console.cursorRow (toInt (console.cursorCol + amount)) (width - 1)
        (toInt (-amount))
    else console.grid
  { console with grid := clearColumns grid console.cursorRow (toInt (width - amount)) (width - 1) }

/-- `X`: characters are erased from the cursor on. -/
def csiEraseCharacters (console : Console) (amount : Int) : Console :=
  { console with
    grid := clearColumns console.grid console.cursorRow console.cursorCol
      (toInt (console.cursorCol + amount - 1)) }

/-- `J`: the display is erased in part or as a whole. -/
def csiEraseDisplay (console : Console) (mode : Int) : Console :=
  let grid := console.grid
  if mode = 0 then
    { console with
      grid := clearRange grid console.cursorRow console.cursorCol (grid.termHeight - 1)
        (grid.termWidth - 1) }
  else if mode = 1 then
    { console with grid := clearRange grid 0 0 console.cursorRow console.cursorCol }
  else if mode = 2 ∨ mode = 3 then
    { console with grid := clearRange grid 0 0 (grid.termHeight - 1) (grid.termWidth - 1) }
  else console

/-- `K`: the line is erased in part or as a whole. -/
def csiEraseLine (console : Console) (mode : Int) : Console :=
  let grid := console.grid
  if mode = 0 then
    { console with grid := clearColumns grid console.cursorRow console.cursorCol (grid.termWidth - 1) }
  else if mode = 1 then
    { console with grid := clearColumns grid console.cursorRow 0 console.cursorCol }
  else if mode = 2 then
    { console with grid := clearColumns grid console.cursorRow 0 (grid.termWidth - 1) }
  else console

/-- `h` and `l`: the flag that the number and the private mode character select is assigned. -/
def setFlag (console : Console) (privateMode : UInt8) (number : Int) (value : Bool) : Console :=
  if privateMode = 0x3F then
    if number = 1 then { console with applicationCursorKeys := value }
    else if number = 25 then { console with cursorVisible := value }
    else console
  else if privateMode = 0 then
    if number = 4 then { console with insertMode := value }
    else if number = 20 then { console with automaticCarriageReturn := value }
    else console
  else console

/-- `guac_terminal_parse_xterm256_rgb`, with the colour it leaves and the number of arguments it
has read. -/
def parseXterm256Rgb (arguments : List Int) (color : Color) : Color × Nat :=
  match arguments with
  | red :: green :: blue :: _ =>
      if red < 0 ∨ red > 255 ∨ green < 0 ∨ green > 255 ∨ blue < 0 ∨ blue > 255 then (color, 3)
      else
        ({ paletteIndex := -1
           red := UInt8.ofNat red.toNat
           green := UInt8.ofNat green.toNat
           blue := UInt8.ofNat blue.toNat }, 3)
  | _ => (color, 0)

/-- `guac_terminal_parse_xterm256_index`. -/
def parseXterm256Index (colors : Colors) (arguments : List Int) (color : Color) : Color × Nat :=
  match arguments with
  | index :: _ => ((displayLookupColor colors index).getD color, 1)
  | [] => (color, 0)

/-- `guac_terminal_parse_xterm256`. -/
def parseXterm256 (colors : Colors) (arguments : List Int) (color : Color) : Color × Nat :=
  match arguments with
  | 2 :: rest =>
      let (color, read) := parseXterm256Rgb rest color
      (color, read + 1)
  | 5 :: rest =>
      let (color, read) := parseXterm256Index colors rest color
      (color, read + 1)
  | _ => (color, 0)

/-- One round of the loop of `m`: the attributes after an argument, and the number of further
arguments it has read. -/
def graphicsArgument (colors : Colors) (defaults attributes : Attributes) (value : Int)
    (rest : List Int) : Attributes × Nat :=
  let lookup (index : Int) (color : Color) := (displayLookupColor colors index).getD color
  if value = 0 then (defaults, 0)
  else if value = 1 then ({ attributes with bold := true }, 0)
  else if value = 2 then ({ attributes with halfBright := true }, 0)
  else if value = 4 then ({ attributes with underscore := true }, 0)
  else if value = 7 then ({ attributes with reverse := true }, 0)
  else if value = 21 ∨ value = 22 then ({ attributes with bold := false, halfBright := false }, 0)
  else if value = 24 then ({ attributes with underscore := false }, 0)
  else if value = 27 then ({ attributes with reverse := false }, 0)
  else if 30 ≤ value ∧ value ≤ 37 then
    ({ attributes with foreground := lookup (value - 30) attributes.foreground }, 0)
  else if value = 38 then
    let (color, read) := parseXterm256 colors rest attributes.foreground
    if read > 0 then ({ attributes with foreground := color }, read)
    else ({ attributes with underscore := true, foreground := defaults.foreground }, 0)
  else if value = 39 then
    ({ attributes with underscore := false, foreground := defaults.foreground }, 0)
  else if 40 ≤ value ∧ value ≤ 47 then
    ({ attributes with background := lookup (value - 40) attributes.background }, 0)
  else if value = 48 then
    let (color, read) := parseXterm256 colors rest attributes.background
    ({ attributes with background := color }, read)
  else if value = 49 then ({ attributes with background := defaults.background }, 0)
  else if 90 ≤ value ∧ value ≤ 97 then
    ({ attributes with foreground := lookup (value - 90 + 8) attributes.foreground }, 0)
  else if 100 ≤ value ∧ value ≤ 107 then
    ({ attributes with background := lookup (value - 100 + 8) attributes.background }, 0)
  else (attributes, 0)

/-- The loop of `m` over its remaining arguments, of which `skip` have been read already. -/
def graphicsLoop (colors : Colors) (defaults : Attributes) :
    Nat → List Int → Attributes → Attributes
  | _, [], attributes => attributes
  | skip + 1, _ :: rest, attributes => graphicsLoop colors defaults skip rest attributes
  | 0, value :: rest, attributes =>
      let (attributes, read) := graphicsArgument colors defaults attributes value rest
      graphicsLoop colors defaults read rest attributes

/-- `m`: the attributes of the characters to come are set. -/
def csiGraphics (console : Console) (arguments : List Int) : Console :=
  let grid := console.grid
  { console with
    grid := { grid with
      currentAttributes := graphicsLoop grid.display.toColors grid.defaultChar.attributes 0
        arguments grid.currentAttributes } }

/-- `r`: the scroll region is set if there are two parameters, and reset otherwise. -/
def csiScrollRegion (console : Console) (argc : Nat) (argv : Nat → Int) : Console :=
  if argc = 2 then
    { console with scrollStart := toInt (argv 0 - 1), scrollEnd := toInt (argv 1 - 1) }
  else { console with scrollStart := 0, scrollEnd := console.grid.termHeight - 1 }

/-- `g`: a tab stop or all of them are cleared. -/
def csiClearTab (console : Console) (mode : Int) : Console :=
  if mode = 0 then unsetTab console console.cursorCol
  else if mode = 3 then clearTabs console
  else console

/-- The cases of the switch of `guac_terminal_csi` that work on the console, given its parameters
and the private mode character. -/
def csiConsole (console : Console) (argc : Nat) (argv : Nat → Int) (privateMode : UInt8)
    (function : CsiFunction) : Console :=
  let amount := csiAmount (argv 0)
  let row := console.cursorRow
  let col := console.cursorCol
  let grid := console.grid
  match function with
  | .insertCharacters => csiInsertCharacters console amount
  | .moveUp => moveCursor console (toInt (row - amount)) col
  | .moveDown => moveCursor console (toInt (row + amount)) col
  | .moveRight => moveCursor console row (toInt (col + amount))
  | .moveLeft => moveCursor console row (toInt (col - amount))
  | .nextLine => moveCursor console (toInt (row + amount)) 0
  | .previousLine => moveCursor console (toInt (row - amount)) 0
  | .moveColumn => moveCursor console row (csiPosition (argv 0))
  | .moveTo => moveCursor console (csiPosition (argv 0)) (csiPosition (argv 1))
  | .eraseDisplay => csiEraseDisplay console (argv 0)
  | .eraseLine => csiEraseLine console (argv 0)
  | .insertLines => { console with grid := scrollDown grid row console.scrollEnd amount }
  | .deleteLines => { console with grid := scrollUp grid row console.scrollEnd amount }
  | .deleteCharacters => csiDeleteCharacters console amount
  | .eraseCharacters => csiEraseCharacters console amount
  | .identify => console
  | .moveRow => moveCursor console (csiPosition (argv 0)) col
  | .clearTab => csiClearTab console (argv 0)
  | .setMode => setFlag console privateMode (argv 0) true
  | .resetMode => setFlag console privateMode (argv 0) false
  | .graphics => csiGraphics console ((List.range argc).map argv)
  | .report => console
  | .scrollRegion => csiScrollRegion console argc argv
  | .saveCursor => saveCursor console
  | .restoreCursor => restoreCursor console
  | .ignored => console

/-- `c`: the terminal identifies itself. -/
def csiIdentify (term : Term) (number : Int) : Term :=
  if number = 0 ∧ term.statics.privateModeCharacter = 0 then sendString term "\x1b[?6c" else term

/-- `n`: reports of the device status and of the position of the cursor. -/
def csiReport (term : Term) (number : Int) : Term :=
  if term.statics.privateModeCharacter ≠ 0 then term
  else if number = 5 then sendString term "\x1b[0n"
  else if number = 6 then
    sendString term ("\x1b[" ++ toString (term.cursorRow + 1) ++ ";"
      ++ toString (term.cursorCol + 1) ++ "R")
  else term

/-- The switch of `guac_terminal_csi`. -/
def csiExecute (term : Term) (argc : Nat) (argv : Nat → Int) (function : CsiFunction) : Term :=
  match function with
  | .identify => csiIdentify term (argv 0)
  | .report => csiReport term (argv 0)
  | _ =>
      term.onConsole fun console =>
        csiConsole console argc argv term.statics.privateModeCharacter function

/-- The parameter that the digits read so far are finished to, if there is room for it. -/
def csiFinishParameter (statics : HandlerStatics) : HandlerStatics :=
  if statics.argc < 16 then
    { statics with
      argv := Function.update statics.argv statics.argc (atoi statics.argvBuffer)
      argc := statics.argc + 1
      argvBuffer := [] }
  else statics

/-- The parameters after the end of a sequence. -/
def csiResetParameters (statics : HandlerStatics) : HandlerStatics :=
  { statics with
    argv := fun i => if i < statics.argc then 0 else statics.argv i
    privateModeCharacter := 0
    argc := 0
    argvBuffer := [] }

/-- `guac_terminal_csi`. -/
def csi (term : Term) (c : UInt8) : Term :=
  if 0x30 ≤ c ∧ c ≤ 0x39 then
    if term.statics.argvBuffer.length < 255 then
      { term with statics := { term.statics with argvBuffer := term.statics.argvBuffer ++ [c] } }
    else term
  else if (0x40 ≤ c ∧ c ≤ 0x7E) ∨ c = 0x3B then
    let term := { term with statics := csiFinishParameter term.statics }
    if c = 0x3B then term
    else
      let term := csiExecute term term.statics.argc term.statics.argv (csiFunction c)
      { term with statics := csiResetParameters term.statics }.handler .echo
  else if 0x3A ≤ c ∧ c ≤ 0x3F ∧ term.statics.privateModeCharacter = 0 then
    { term with statics := { term.statics with privateModeCharacter := c } }
  else term

/-! ## Operating system commands -/

/-- A byte appended to a buffer that can hold `capacity` of them. -/
def store (buffer : List UInt8) (capacity : Nat) (c : UInt8) : List UInt8 :=
  if buffer.length < capacity then buffer ++ [c] else buffer

/-- The string in a buffer that is terminated now. -/
def terminated (buffer : List UInt8) : List UInt8 := buffer.takeWhile (· ≠ 0)

/-- `guac_terminal_set_directory`. -/
def setDirectory (term : Term) (c : UInt8) : Term :=
  if isStringTerminator c then
    let term := term.handler .echo
    let term :=
      if term.uploadPathHandler then
        { term with output := .uploadPath (terminated term.statics.directory) :: term.output }
      else term
    { term with statics := { term.statics with directory := [] } }
  else
    { term with
      statics := { term.statics with directory := store term.statics.directory 2047 c } }

/-- `guac_terminal_download`. -/
def download (term : Term) (c : UInt8) : Term :=
  if isStringTerminator c then
    let term := term.handler .echo
    let term :=
      if term.fileDownloadHandler then
        { term with output := .download (terminated term.statics.filename) :: term.output }
      else term
    { term with statics := { term.statics with filename := [] } }
  else
    { term with statics := { term.statics with filename := store term.statics.filename 2047 c } }

/-- `guac_terminal_open_pipe_stream`: all parameters before the last one are flags. -/
def openPipeStream (term : Term) (c : UInt8) : Term :=
  if isStringTerminator c then
    let term := pipeStreamOpen term (terminated term.statics.pipeParam) term.statics.pipeFlags
    { term with statics := { term.statics with pipeParam := [], pipeFlags := 0 } }.handler .echo
  else if c = 0x3B then
    { term with
      statics := { term.statics with
        pipeParam := []
        pipeFlags := term.statics.pipeFlags ||| BitVec.ofInt 32 (atoi term.statics.pipeParam) } }
  else
    { term with
      statics := { term.statics with pipeParam := store term.statics.pipeParam 2047 c } }

/-- `guac_terminal_close_pipe_stream`. -/
def closePipeStream (term : Term) (c : UInt8) : Term :=
  if isStringTerminator c then (pipeStreamClose term).handler .echo else term

/-- The scrollback that the program requests. -/
def requestScrollback (console : Console) (rows : Int) : Console :=
  { console with requestedScrollback := rows }

/-- `guac_terminal_set_scrollback`. -/
def setScrollback (term : Term) (c : UInt8) : Term :=
  if isStringTerminator c then
    { term.onConsole (requestScrollback · (atoi term.statics.scrollbackParam)) with
      statics := { term.statics with scrollbackParam := [] } }.handler .echo
  else
    { term with
      statics := { term.statics with
        scrollbackParam := store term.statics.scrollbackParam 15 c } }

/-- `guac_terminal_window_title`. -/
def windowTitle (term : Term) (c : UInt8) : Term :=
  if isStringTerminator c then
    { term with
      output := .title (terminated term.statics.title) :: term.output
      statics := { term.statics with title := [] } }.handler .echo
  else { term with statics := { term.statics with title := store term.statics.title 4095 c } }

/-- `guac_terminal_display_assign_color`. -/
def displayAssignColor (display : TerminalDisplay) (index : Int) (color : Color) :
    TerminalDisplay :=
  if index < 0 ∨ index > 255 then display
  else
    { display with
      palette := Function.update display.palette index
        { display.palette index with
          red := color.red
          green := color.green
          blue := color.blue } }

/-- A colour of the palette is assigned what a specification stands for, if it is valid. -/
def assignColor (console : Console) (index : Int) (color : Option Color) : Console :=
  match color with
  | some color =>
      { console with
        grid := { console.grid with
          display := displayAssignColor console.grid.display index color } }
  | none => console

/-- The part of `guac_terminal_xterm_palette` that reads pairs of an index and a colour
specification. -/
def paletteByte (platform : Platform) (term : Term) (c : UInt8) : Term :=
  let statics := term.statics
  if statics.readColorSpec then
    if c = 0x3B ∨ isStringTerminator c then
      let color := platform.xparsecolor (terminated statics.colorSpec)
      { term.onConsole (assignColor · statics.paletteIndex color) with
        statics := { statics with readColorSpec := false, paletteIndex := 0 } }
    else { term with statics := { statics with colorSpec := store statics.colorSpec 255 c } }
  else if isDigit c then
    { term with
      statics := { statics with
        paletteIndex := toInt (statics.paletteIndex * 10 + (c.toNat - 0x30 : Nat)) } }
  else if c = 0x3B then
    { term with statics := { statics with readColorSpec := true, colorSpec := [] } }
  else term

/-- `guac_terminal_xterm_palette`. -/
def xtermPalette (platform : Platform) (term : Term) (c : UInt8) : Term :=
  let term := paletteByte platform term c
  if isStringTerminator c then term.handler .echo else term

/-- The handler that an operation of an operating system command selects. -/
def oscHandler (operation : Int) : Option CharHandler :=
  if operation = 482200 then some .download
  else if operation = 482201 then some .setDirectory
  else if operation = 482202 then some .openPipeStream
  else if operation = 482203 then some .closePipeStream
  else if operation = 482204 then some .setScrollback
  else if operation = 0 ∨ operation = 2 then some .windowTitle
  else if operation = 4 then some .xtermPalette
  else none

/-- `guac_terminal_osc`. -/
def osc (term : Term) (c : UInt8) : Term :=
  if isDigit c then
    { term with
      statics := { term.statics with
        operation := toInt (term.statics.operation * 10 + (c.toNat - 0x30 : Nat)) } }
  else if c = 0x3B then
    let term :=
      match oscHandler term.statics.operation with
      | some handler => term.handler handler
      | none => term
    { term with statics := { term.statics with operation := 0 } }
  else term.handler .echo

/-- `guac_terminal_apc`. -/
def apc (term : Term) (c : UInt8) : Term :=
  let term :=
    if term.statics.escaping then
      let term := if c = 0x5C then term.handler .echo else term
      { term with statics := { term.statics with escaping := false } }
    else term
  if c = 0x1B then { term with statics := { term.statics with escaping := true } } else term

/-! ## Writing -/

/-- One round of the loop of `guac_terminal_write`. -/
def writeByte (platform : Platform) (term : Term) (c : UInt8) : Term :=
  match term.charHandler with
  | .echo => echo platform term c
  | .escape => escape term c
  | .g0Charset => g0Charset term c
  | .g1Charset => g1Charset term c
  | .osc => osc term c
  | .csi => csi term c
  | .ctrlFunc => ctrlFunc platform term c
  | .apc => apc term c
  | .download => download term c
  | .setDirectory => setDirectory term c
  | .openPipeStream => openPipeStream term c
  | .closePipeStream => closePipeStream term c
  | .setScrollback => setScrollback term c
  | .windowTitle => windowTitle term c
  | .xtermPalette => xtermPalette platform term c

end GuacNebula.Terminal
