import GuacNebula.Common.Cursor
import GuacNebula.Lib.Sink
import GuacNebula.Terminal.EchoDecoding
import GuacNebula.Terminal.ScrollbarHandle
import GuacNebula.Terminal.SelectionCopy
import GuacNebula.Terminal.StdinAnswers

/-! # Input of the terminal

Keys and the mouse, pasted text and the answers to what the program writes all go to the standard
input of the program. A stream can take that over: until it ends, its blobs are what the program
reads, and nothing else is.
-/

namespace GuacNebula.Terminal

open Common CInt

/-- `guac_terminal_cursor_type`. -/
inductive CursorType where
  | blank | ibar | pointer
  deriving DecidableEq, Repr

/-- The statuses that acknowledgements have. -/
inductive AckStatus where
  | success | resourceConflict | resourceNotFound
  deriving DecidableEq, Repr

/-- An acknowledgement of a stream. -/
structure Ack where
  message : String
  status : AckStatus
  deriving DecidableEq, Repr

/-- The part of `guac_terminal` that input is sent with. The calls that change the shared cursor and
the acknowledgements are listed with the latest first, and `attached` are the streams that have been
given handlers. -/
structure InputTerm (User Stream Pipe : Type) where
  term : Term
  scrollbar : DrawnScrollbar
  started : Bool
  modAlt : Bool
  modCtrl : Bool
  modMeta : Bool
  modShift : Bool
  mouseMask : BitVec 32
  currentCursor : CursorType
  cursor : List (Common.CursorAction User)
  clipboard : Clipboard
  backspace : UInt8
  attached : Stream → Bool
  acks : List (Stream × Ack)
  stdin : Pipe

/-! ## Keys -/

/-- The control code of a key that is pressed while Ctrl is held. -/
def ctrlCode (keysym : Int) : Option UInt8 :=
  if 0x40 ≤ keysym ∧ keysym ≤ 0x5F then some (UInt8.ofNat (keysym - 0x40).toNat)
  else if 0x61 ≤ keysym ∧ keysym ≤ 0x7A then some (UInt8.ofNat (keysym - 0x61 + 1).toNat)
  else if keysym = 0x3F then some 0x7F
  else if keysym = 0x32 then some 0x00
  else if 0x33 ≤ keysym ∧ keysym ≤ 0x37 then some (UInt8.ofNat (keysym - 0x33 + 0x1B).toNat)
  else none

/-- Keys that stand for a Unicode character: those of Latin-1, and those in whose upper half the
characters beyond it are marked. -/
def IsUnicodeKey (keysym : Int) : Prop :=
  (0 ≤ keysym ∧ keysym ≤ 0xFF) ∨ keysym / 0x10000 = 0x100

instance (keysym : Int) : Decidable (IsUnicodeKey keysym) := inferInstanceAs (Decidable (_ ∨ _))

/-- What is sent for the keys that are not printable, by their keysyms. -/
def keyStrings (applicationCursorKeys : Bool) : List (List Int × String) :=
  [([0xFF09, 0xFF89], "\x09"),
   ([0xFF0D, 0xFF8D], "\x0d"),
   ([0xFF1B], "\x1b"),
   ([0xFF50, 0xFF95], "\x1b[1~"),
   ([0xFF51, 0xFF96], if applicationCursorKeys then "\x1bOD" else "\x1b[D"),
   ([0xFF52, 0xFF97], if applicationCursorKeys then "\x1bOA" else "\x1b[A"),
   ([0xFF53, 0xFF98], if applicationCursorKeys then "\x1bOC" else "\x1b[C"),
   ([0xFF54, 0xFF99], if applicationCursorKeys then "\x1bOB" else "\x1b[B"),
   ([0xFF55, 0xFF9A], "\x1b[5~"),
   ([0xFF56, 0xFF9B], "\x1b[6~"),
   ([0xFF57, 0xFF9C], "\x1b[4~"),
   ([0xFF63, 0xFF9E], "\x1b[2~"),
   ([0xFFBE, 0xFF91], "\x1b[[A"),
   ([0xFFBF, 0xFF92], "\x1b[[B"),
   ([0xFFC0, 0xFF93], "\x1b[[C"),
   ([0xFFC1, 0xFF94], "\x1b[[D"),
   ([0xFFC2], "\x1b[[E"),
   ([0xFFC3], "\x1b[17~"),
   ([0xFFC4], "\x1b[18~"),
   ([0xFFC5], "\x1b[19~"),
   ([0xFFC6], "\x1b[20~"),
   ([0xFFC7], "\x1b[21~"),
   ([0xFFC8], "\x1b[22~"),
   ([0xFFC9], "\x1b[23~"),
   ([0xFFFF, 0xFF9F], "\x1b[3~")]

/-- What is sent for a key that is not printable. -/
def keyString (applicationCursorKeys : Bool) (keysym : Int) : Option String :=
  ((keyStrings applicationCursorKeys).find? fun entry => entry.1.contains keysym).map (·.2)

namespace InputTerm

variable {User Stream Pipe : Type} (sink : Sink Pipe) (state : InputTerm User Stream Pipe)

/-- `guac_terminal_write_all`, to the standard input of the program. -/
def writeAll (data : List UInt8) : Int × InputTerm User Stream Pipe :=
  let (whole, stdin) := sink.writeAll state.stdin data
  (if whole then data.length else -1, { state with stdin := stdin })

/-- `guac_terminal_send_data`. -/
def sendData (data : List UInt8) : Int × InputTerm User Stream Pipe :=
  if state.term.inputStream then (0, state) else state.writeAll sink data

/-- The cursor is given another shape. -/
def setCursor (type : CursorType) : InputTerm User Stream Pipe :=
  if state.currentCursor = type then state
  else
    { state with
      currentCursor := type
      cursor :=
        (match type with
          | .blank => .setBlank
          | .ibar => .setIbar
          | .pointer => .setPointer) :: state.cursor }

/-- The display is scrolled, and the scrollbar with it. -/
def scrolled (scroll : ScrolledTerm → ScrolledTerm) : InputTerm User Stream Pipe :=
  let after := scroll { term := state.term, scrollbar := state.scrollbar.toScrollbar }
  { state with
    term := after.term
    scrollbar := { state.scrollbar with toScrollbar := after.scrollbar } }

/-- What a key sends that is neither a modifier nor a shortcut. -/
def typeKey (keysym : Int) : Int × InputTerm User Stream Pipe :=
  if state.modCtrl then
    match ctrlCode keysym with
    | some code => state.sendData sink [code]
    | none => (0, state)
  else if IsUnicodeKey keysym then state.sendData sink (terminalEncodeUtf8 (keysym % 0x10000))
  else if 0xFFAA ≤ keysym ∧ keysym ≤ 0xFFB9 then
    (0, (state.sendData sink [UInt8.ofNat (keysym - 0xFF80).toNat]).2)
  else if keysym = 0xFF08 then state.sendData sink ([state.backspace].takeWhile (· ≠ 0))
  else
    match keyString state.term.applicationCursorKeys keysym with
    | some text => state.sendData sink (bytesOf text)
    | none => (0, state)

/-- The part of `__guac_terminal_send_key` for a key that is pressed and no modifier. -/
def pressKey (keysym : Int) : Int × InputTerm User Stream Pipe :=
  if (keysym = 0x56 ∧ state.modCtrl) ∨ (keysym = 0x76 ∧ state.modMeta) then
    state.sendData sink state.clipboard.buffer
  else if (keysym = 0x43 ∧ state.modCtrl) ∨ (keysym = 0x63 ∧ state.modMeta) then (0, state)
  else if state.modShift ∧ keysym = 0xFF55 then
    (0, state.scrolled (scrolledUp · state.term.grid.termHeight))
  else if state.modShift ∧ keysym = 0xFF56 then
    (0, state.scrolled (scrolledDown · state.term.grid.termHeight))
  else
    let state :=
      if state.term.grid.scrollOffset ≠ 0 then
        state.scrolled (scrolledDown · state.term.grid.scrollOffset)
      else state
    let state := if state.modAlt then (state.sendData sink [0x1B]).2 else state
    state.typeKey sink keysym

/-- `__guac_terminal_send_key`. -/
def sendKey (keysym : Int) (pressed : Bool) : Int × InputTerm User Stream Pipe :=
  if !state.started then (0, state)
  else
    let state := state.setCursor .blank
    if keysym = 0xFFE3 ∨ keysym = 0xFFE4 then (0, { state with modCtrl := pressed })
    else if keysym = 0xFFE7 ∨ keysym = 0xFFE8 then (0, { state with modMeta := pressed })
    else if keysym = 0xFFE9 ∨ keysym = 0xFFEA then (0, { state with modAlt := pressed })
    else if keysym = 0xFFE1 ∨ keysym = 0xFFE2 then (0, { state with modShift := pressed })
    else if pressed then state.pressKey sink keysym
    else (0, state)

/-! ## The mouse -/

/-- The selection is another one. -/
def select (selection : Selection) : InputTerm User Stream Pipe :=
  { state with
    term := state.term.onConsole fun console =>
      { console with grid := { console.grid with selection := selection } } }

/-- What the left button does to the selection. There is no result if the text that has been
selected is copied for ever. -/
def dragSelection (unicode : Unicode) (turns : Nat) (disableCopy : Bool) (metrics : FontMetrics)
    (x y : Int) (before mask : BitVec 32) : Option (InputTerm User Stream Pipe) :=
  let grid := state.term.grid
  if before &&& ~~~mask &&& 0x01 ≠ 0 then
    (selectEnd unicode turns grid.buffer disableCopy grid.selection state.clipboard).map
      fun ended => { state.select ended.selection with clipboard := ended.clipboard }
  else if mask &&& 0x01 ≠ 0 then
    let row := y.tdiv metrics.charHeight - grid.scrollOffset
    let col := x.tdiv metrics.charWidth
    if ~~~before &&& mask &&& 0x01 ≠ 0 then
      if state.modShift then some (state.select (selectResume grid.buffer grid.selection row col))
      else some (state.select (selectStart grid.buffer row col))
    else some (state.select (selectUpdate grid.buffer grid.selection row col))
  else some state

/-- `GUAC_TERMINAL_WHEEL_SCROLL_AMOUNT`. -/
def wheelScrollAmount : Int := 3

/-- What the wheel does to the display. -/
def turnWheel (released : BitVec 32) : InputTerm User Stream Pipe :=
  let state :=
    if released &&& 0x08 ≠ 0 then state.scrolled (scrolledUp · wheelScrollAmount) else state
  if released &&& 0x10 ≠ 0 then state.scrolled (scrolledDown · wheelScrollAmount) else state

/-- The part of `__guac_terminal_send_mouse` for what the scrollbar does not handle. -/
def mouseOverText (unicode : Unicode) (turns : Nat) (disableCopy : Bool) (metrics : FontMetrics)
    (x y : Int) (mask : BitVec 32) : Option (Int × InputTerm User Stream Pipe) :=
  let before := state.mouseMask
  let released := before &&& ~~~mask
  let state := { state with mouseMask := mask }.setCursor .ibar
  if released &&& 0x04 ≠ 0 ∨ released &&& 0x02 ≠ 0 then
    some (state.sendData sink state.clipboard.buffer)
  else
    (state.dragSelection unicode turns disableCopy metrics x y before mask).map
      fun state => (0, state.turnWheel released)

/-- `__guac_terminal_send_mouse`. -/
def sendMouse (unicode : Unicode) (turns : Nat) (disableCopy : Bool) (metrics : FontMetrics)
    (user : User) (x y : Int) (mask : BitVec 32) (now : Int) :
    Option (Int × InputTerm User Stream Pipe) :=
  let y := if y ≥ metrics.margin then y - metrics.margin else 0
  let x := if x ≥ metrics.margin then x - metrics.margin else 0
  if !state.started then some (0, state)
  else
    let handled := state.scrollbar.handleMouse x y mask.toInt
    let state :=
      { state with
        cursor := .move user x y mask.toInt now :: state.cursor
        scrollbar := handled.1 }
    if handled.2 then some (0, state.setCursor .pointer)
    else state.mouseOverText sink unicode turns disableCopy metrics x y mask

/-! ## Streams -/

section Streams

variable [DecidableEq Stream] (stream : Stream)

/-- An acknowledgement is sent. -/
def ack (message : String) (status : AckStatus) : InputTerm User Stream Pipe :=
  { state with acks := (stream, ⟨message, status⟩) :: state.acks }

/-- `__guac_terminal_send_stream`. -/
def sendStream : Int × InputTerm User Stream Pipe :=
  if !state.started then (1, state.ack stream "Terminal not yet started." .resourceConflict)
  else if state.term.inputStream then
    (1, state.ack stream "STDIN is already being read from a stream." .resourceConflict)
  else
    (0, { state with
          attached := Function.update state.attached stream true
          term := { state.term with inputStream := true }
        }.ack stream "Now reading STDIN from stream." .success)

/-- `guac_ssh_pipe_handler`. -/
def pipeHandler (name : List UInt8) : InputTerm User Stream Pipe :=
  if name = bytesOf "STDIN" then (state.sendStream stream).2
  else state.ack stream "No such input stream." .resourceNotFound

/-- `guac_terminal_input_stream_blob_handler`. -/
def inputStreamBlobHandler (data : List UInt8) : InputTerm User Stream Pipe :=
  let (result, state) := state.writeAll sink data
  if result ≤ 0 then state.ack stream "Attempt to write to STDIN failed." .success
  else state.ack stream "Data written to STDIN." .success

/-- `guac_terminal_input_stream_end_handler`. A stream that has ended receives nothing any more. -/
def inputStreamEndHandler : InputTerm User Stream Pipe :=
  { state with
    attached := Function.update state.attached stream false
    term := { state.term with inputStream := false } }

end Streams

end InputTerm

/-! ## Steps -/

/-- The bytes that the terminal has been made to send to the program. -/
def Output.stdinBytes : Output → Option (List UInt8)
  | .stdin bytes => some bytes
  | _ => none

/-- The program writes a byte, or the display is resized or scrolled. What that makes the terminal
send to the program is written to its standard input. -/
def InputTerm.terminal {User Stream Pipe : Type} (sink : Sink Pipe) (platform : Platform)
    (metrics : FontMetrics) (state : InputTerm User Stream Pipe) (action : ScrollAction) :
    InputTerm User Stream Pipe :=
  let after := scrollStep platform metrics
    { term := state.term, scrollbar := state.scrollbar.toScrollbar } action
  let sent := after.term.output.take (after.term.output.length - state.term.output.length)
  { state with
    term := after.term
    scrollbar := { state.scrollbar with toScrollbar := after.scrollbar }
    stdin := (sent.reverse.filterMap Output.stdinBytes).foldl
      (fun stdin bytes => (sink.writeAll stdin bytes).2) state.stdin }

/-- Something that users or the program do. -/
inductive InputAction (User Stream : Type) where
  | start
  | key (keysym : Int) (pressed : Bool)
  | mouse (user : User) (x y : Int) (mask : BitVec 32) (now : Int)
  | pipe (stream : Stream) (name : List UInt8)
  | blob (stream : Stream) (data : List UInt8)
  | finish (stream : Stream)
  | terminal (action : ScrollAction)

/-- What the terminal relies on beyond its own state. -/
structure InputPlatform (Pipe : Type) extends Platform where
  sink : Sink Pipe
  unicode : Unicode
  turns : Nat
  disableCopy : Bool
  metrics : FontMetrics

/-- The effect of an action. Blobs and the end of a stream reach the terminal if the stream has been
given handlers. -/
def inputStep {User Stream Pipe : Type} [DecidableEq Stream] (platform : InputPlatform Pipe)
    (state : InputTerm User Stream Pipe) :
    InputAction User Stream → Option (InputTerm User Stream Pipe)
  | .start => some { state with started := true }
  | .key keysym pressed => some (state.sendKey platform.sink keysym pressed).2
  | .mouse user x y mask now =>
      (state.sendMouse platform.sink platform.unicode platform.turns platform.disableCopy
        platform.metrics user x y mask now).map Prod.snd
  | .pipe stream name => some (state.pipeHandler stream name)
  | .blob stream data =>
      if state.attached stream then some (state.inputStreamBlobHandler platform.sink stream data)
      else some state
  | .finish stream =>
      if state.attached stream then some (state.inputStreamEndHandler stream) else some state
  | .terminal action =>
      some (state.terminal platform.sink platform.toPlatform platform.metrics action)

/-- A run of actions, if every one of them comes to an end. -/
def inputRun {User Stream Pipe : Type} [DecidableEq Stream] (platform : InputPlatform Pipe) :
    InputTerm User Stream Pipe → List (InputAction User Stream) →
      Option (InputTerm User Stream Pipe) :=
  List.foldlM (inputStep platform)

/-- A terminal that nothing has been sent to. -/
def InputTerm.create {User Stream Pipe : Type} (metrics : FontMetrics) (options : TerminalOptions)
    (scrollbar : DrawnScrollbar) (backspace : UInt8) (stdin : Pipe) : InputTerm User Stream Pipe where
  term := Terminal.create metrics options
  scrollbar := scrollbar
  started := false
  modAlt := false
  modCtrl := false
  modMeta := false
  modShift := false
  mouseMask := 0
  currentCursor := .blank
  cursor := [.setBlank]
  clipboard := .alloc
  backspace := backspace
  attached _ := false
  acks := []
  stdin := stdin

end GuacNebula.Terminal
