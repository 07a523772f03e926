import GuacNebula.Terminal.SelectionRows

/-! # The scroll position

The view is scrolled back by some rows, of which as many are available as the buffer holds beyond
the screen. The scrollbar has a value and bounds of its own, which the terminal assigns when it
scrolls, when the program asks for another scrollback, and at the end of a resize.

The bounds are assigned without regard to the view. If fewer rows are available than the view is
scrolled back by, or the buffer does not even fill the screen, the scrollbar and the view part.
-/

namespace GuacNebula.Terminal

open CInt Run

/-- The value and the bounds of `guac_terminal_scrollbar`. -/
structure Scrollbar where
  min : Int
  max : Int
  value : Int
  deriving DecidableEq, Repr

/-- `guac_terminal_scrollbar_set_bounds`. -/
def Scrollbar.setBounds (scrollbar : Scrollbar) (min max : Int) : Scrollbar where
  min := min
  max := max
  value :=
    if scrollbar.value > max then max
    else if scrollbar.value < min then min
    else scrollbar.value

/-- `guac_terminal_scrollbar_set_value`. -/
def Scrollbar.setValue (scrollbar : Scrollbar) (value : Int) : Scrollbar :=
  { scrollbar with
    value :=
      if value > scrollbar.max then scrollbar.max
      else if value < scrollbar.min then scrollbar.min
      else value }

/-- The calls of `guac_terminal_reset`, which scrolls the view to the end. -/
def Scrollbar.reset (scrollbar : Scrollbar) : Scrollbar :=
  (scrollbar.setBounds 0 0).setValue 0

/-! ## The rows that bounds are assigned from -/

/-- The console of `guac_terminal_scroll_up` when it assigns the bounds. -/
def Console.advanced (console : Console) (amount : Int) : Console :=
  { console with grid := console.grid.onBuffer (Buffer.advance · amount) }

/-- The number of rows that `guac_terminal_scroll_up` finds available if it assigns the bounds, that
is if it scrolls the whole screen. -/
def scrollUpRows (console : Console) (startRow endRow amount : Int) : Option Int :=
  if startRow = 0 ∧ endRow = console.grid.termHeight - 1 then
    some (getAvailableScroll (console.advanced amount))
  else none

/-- The same for `guac_terminal_linefeed`. -/
def linefeedRows (console : Console) : Option Int :=
  if console.cursorRow = console.scrollEnd then
    scrollUpRows console console.scrollStart console.scrollEnd 1
  else none

/-- The number of rows that an operation finds available if it assigns the bounds. A reset assigns
bounds of its own. -/
def operationRows (console : Console) : ConsoleOp → Option Int
  | .print _ =>
      if console.cursorCol ≥ console.grid.termWidth then
        linefeedRows { console with cursorCol := 0 }
      else none
  | .newline => linefeedRows console
  | .linefeed => linefeedRows console
  | .nextLine => linefeedRows (moveCursor console console.cursorRow 0)
  | .control _ argv _ .deleteLines =>
      scrollUpRows console console.cursorRow console.scrollEnd (csiAmount (argv 0))
  | .requestScrollback rows => some (getAvailableScroll (requestScrollback console rows))
  | _ => none

/-- The scrollbar after an operation. -/
def operationScrollbar (console : Console) (scrollbar : Scrollbar) (op : ConsoleOp) : Scrollbar :=
  match op with
  | .reset => scrollbar.reset
  | op =>
      match operationRows console op with
      | some rows => scrollbar.setBounds (-rows) 0
      | none => scrollbar

/-! ## Steps -/

/-- The terminal with its scrollbar. -/
structure ScrolledTerm where
  term : Term
  scrollbar : Scrollbar

/-- Something that may move the view. -/
inductive ScrollAction where
  | write (c : UInt8)
  | resize (width height : Int)
  | displayUp (amount : Int)
  | displayDown (amount : Int)
  | drag (value : Int)
  deriving DecidableEq, Repr

/-- `guac_terminal_scroll_display_up`, which assigns the value if it scrolls. -/
def scrolledUp (scrolled : ScrolledTerm) (amount : Int) : ScrolledTerm :=
  let term := scrolled.term.onConsole fun console => terminalScrollDisplayUp console amount
  { term := term
    scrollbar :=
      if term.grid.scrollOffset = scrolled.term.grid.scrollOffset then scrolled.scrollbar
      else scrolled.scrollbar.setValue (-term.grid.scrollOffset) }

/-- `guac_terminal_scroll_display_down`, which assigns the value if it scrolls. -/
def scrolledDown (scrolled : ScrolledTerm) (amount : Int) : ScrolledTerm :=
  let term := scrolled.term.onConsole fun console => terminalScrollDisplayDown console amount
  { term := term
    scrollbar :=
      if term.grid.scrollOffset = scrolled.term.grid.scrollOffset then scrolled.scrollbar
      else scrolled.scrollbar.setValue (-term.grid.scrollOffset) }

/-- `guac_terminal_scroll_handler`: the handle of the scrollbar is dragged to a value. -/
def scrollHandler (scrolled : ScrolledTerm) (value : Int) : ScrolledTerm :=
  let delta := toInt (-value - scrolled.term.grid.scrollOffset)
  let scrolled :=
    if delta < 0 then scrolledDown scrolled (-delta)
    else if delta > 0 then scrolledUp scrolled delta
    else scrolled
  { scrolled with scrollbar := scrolled.scrollbar.setValue value }

/-- The value that `__guac_terminal_resize` assigns if rows of the scrollback come into view. -/
def resizeValue (console : Console) (scrollbar : Scrollbar) (rows columns : Int) : Scrollbar :=
  if (columns ≠ console.grid.termWidth ∨ rows ≠ console.grid.termHeight) ∧
      rows > console.grid.termHeight ∧ getAvailableScroll console > 0 then
    scrollbar.setValue (-(resizeRowsColumns console rows columns).grid.scrollOffset)
  else scrollbar

/-- `guac_terminal_resize`, with the bounds that it assigns at its end. -/
def scrolledResize (metrics : FontMetrics) (scrolled : ScrolledTerm) (width height : Int) :
    ScrolledTerm :=
  let cells := calculateRowsAndColumns metrics height width
  let term := resize metrics scrolled.term width height
  { term := term
    scrollbar :=
      (resizeValue scrolled.term.toConsole scrolled.scrollbar cells.1 cells.2).setBounds
        (-getAvailableScroll term.toConsole) 0 }

/-- The effect of an action. -/
def scrollStep (platform : Platform) (metrics : FontMetrics) (scrolled : ScrolledTerm) :
    ScrollAction → ScrolledTerm
  | .write c =>
      { term := writeByte platform scrolled.term c
        scrollbar := operationScrollbar scrolled.term.toConsole scrolled.scrollbar
          (operation platform scrolled.term c) }
  | .resize width height => scrolledResize metrics scrolled width height
  | .displayUp amount => scrolledUp scrolled amount
  | .displayDown amount => scrolledDown scrolled amount
  | .drag value => scrollHandler scrolled value

/-- A new terminal, whose scrollbar has been allocated and reset. -/
def ScrolledTerm.create (metrics : FontMetrics) (options : TerminalOptions) : ScrolledTerm where
  term := Terminal.create metrics options
  scrollbar := Scrollbar.reset { min := 0, max := 0, value := 0 }

/-- The view is scrolled back by no more rows than are available, and the scrollbar shows by how
many. -/
def ScrollValid (scrolled : ScrolledTerm) : Prop :=
  (0 ≤ scrolled.term.grid.scrollOffset ∧
    scrolled.term.grid.scrollOffset ≤ max 0 (getAvailableScroll scrolled.term.toConsole)) ∧
  (scrolled.scrollbar.min ≤ scrolled.scrollbar.value ∧
    scrolled.scrollbar.value ≤ scrolled.scrollbar.max) ∧
  scrolled.scrollbar.value = -scrolled.term.grid.scrollOffset

/-- The number of rows that would be available on a screen of some height. -/
def availableAt (console : Console) (height : Int) : Int :=
  getAvailableScroll { console with grid := { console.grid with termHeight := height } }

/-- The condition under which an action keeps the view and the scrollbar in step. Bounds are
assigned only where the buffer holds the rows that the view is scrolled back by, a resize makes the
screen no higher than the rows in use, and the view is scrolled no further back than the lower
bound. -/
def ScrollGuard (platform : Platform) (metrics : FontMetrics) (scrolled : ScrolledTerm) :
    ScrollAction → Prop
  | .write c =>
      ∀ rows ∈ operationRows scrolled.term.toConsole (operation platform scrolled.term c),
        scrolled.term.grid.scrollOffset ≤ rows
  | .resize width height =>
      0 ≤ availableAt scrolled.term.toConsole (calculateRowsAndColumns metrics height width).1
  | .displayUp amount =>
      FitsInt (scrolled.term.grid.scrollOffset + amount) ∧
        min (scrolled.term.grid.scrollOffset + amount)
          (getAvailableScroll scrolled.term.toConsole) ≤ -scrolled.scrollbar.min
  | .displayDown _ => True
  | .drag value =>
      FitsInt (-value - scrolled.term.grid.scrollOffset) ∧ FitsInt (-value) ∧
        (value < -scrolled.term.grid.scrollOffset →
          min (-value) (max 0 (getAvailableScroll scrolled.term.toConsole)) =
            min (-value) (-scrolled.scrollbar.min))

instance (platform : Platform) (metrics : FontMetrics) (scrolled : ScrolledTerm) :
    ∀ action, Decidable (ScrollGuard platform metrics scrolled action)
  | .write _ => inferInstanceAs (Decidable (∀ rows ∈ _, _))
  | .resize _ _ => inferInstanceAs (Decidable (_ ≤ _))
  | .displayUp _ => inferInstanceAs (Decidable (_ ∧ _))
  | .displayDown _ => isTrue trivial
  | .drag _ => inferInstanceAs (Decidable (_ ∧ _ ∧ (_ → _)))

/-! ## The buffer only grows -/

theorem bufferSetColumns_length (buffer : Buffer) (row startColumn endColumn : Int)
    (character : TerminalChar) :
    buffer.length ≤ (bufferSetColumns buffer row startColumn endColumn character).length := by
  unfold bufferSetColumns
  split
  · exact le_rfl
  · dsimp only
    split
    · rename_i beyond
      have written : buffer.length ≤ row := beyond.2
      change buffer.length ≤ row + 1
      omega
    · exact le_rfl

theorem CellWrites.length_le {first last : Grid} (writes : CellWrites first last) :
    first.buffer.length ≤ last.buffer.length := by
  induction writes with
  | refl => exact le_rfl
  | getRow previous row width ih => exact ih
  | access previous row start stop ih => exact ih
  | set previous row start stop character ih =>
      exact ih.trans (bufferSetColumns_length ..)

theorem bufferCopyRowsLoop_length (offset step : Int) (remaining : Nat) (row : Int)
    (buffer : Buffer) :
    (bufferCopyRowsLoop offset step remaining row buffer).length = buffer.length := by
  induction remaining generalizing row buffer with
  | zero => rfl
  | succ remaining ih => exact ih ..

theorem copyRows_length (grid : Grid) (startRow endRow offset : Int) :
    (copyRows grid startRow endRow offset).buffer.length = grid.buffer.length := by
  have copied : (bufferCopyRows grid.buffer startRow endRow offset).length
      = grid.buffer.length := by
    unfold bufferCopyRows
    split
    · exact bufferCopyRowsLoop_length ..
    · exact bufferCopyRowsLoop_length ..
  unfold copyRows moveCursorRow
  dsimp only
  split
  · exact copied
  · exact copied

theorem copyColumns_length (grid : Grid) (row startColumn endColumn offset : Int) :
    grid.buffer.length ≤ (copyColumns grid row startColumn endColumn offset).buffer.length := by
  have broken := (forceBreaks_writes
    (moveCursorColumn (copyColumnsRaw grid row startColumn endColumn offset) row startColumn
      endColumn offset) row (startColumn + offset) (endColumn + offset + 1)).length_le
  refine le_of_eq_of_le ?_ broken
  unfold moveCursorColumn
  split
  · rfl
  · rfl

/-- The view stays where it is, and the buffer holds at least the rows it held. -/
structure Console.Rises (before after : Console) : Prop where
  termHeight : after.grid.termHeight = before.grid.termHeight
  scrollOffset : after.grid.scrollOffset = before.grid.scrollOffset
  requestedScrollback : after.requestedScrollback = before.requestedScrollback
  maxScrollback : after.maxScrollback = before.maxScrollback
  length : before.grid.buffer.length ≤ after.grid.buffer.length

namespace Console.Rises

variable {first second third : Console}

theorem refl (console : Console) : console.Rises console :=
  ⟨rfl, rfl, rfl, rfl, le_rfl⟩

theorem trans (left : first.Rises second) (right : second.Rises third) : first.Rises third where
  termHeight := right.termHeight.trans left.termHeight
  scrollOffset := right.scrollOffset.trans left.scrollOffset
  requestedScrollback := right.requestedScrollback.trans left.requestedScrollback
  maxScrollback := right.maxScrollback.trans left.maxScrollback
  length := left.length.trans right.length

/-- Drawing on the grid of a console leaves the view where it is. -/
theorem onGrid (console : Console) {grid : Grid} (keeps : console.grid.Keeps grid)
    (length : console.grid.buffer.length ≤ grid.buffer.length) :
    console.Rises { console with grid := grid } :=
  ⟨keeps.termHeight, keeps.scrollOffset, rfl, rfl, length⟩

theorem writes (console : Console) {grid : Grid} (writes : CellWrites console.grid grid) :
    console.Rises { console with grid := grid } :=
  onGrid console writes.keeps.1 writes.length_le

/-- A longer buffer has no fewer rows available. -/
theorem availableScroll_le (rises : first.Rises second) :
    getAvailableScroll first ≤ getAvailableScroll second := by
  have length := rises.length
  unfold getAvailableScroll effectiveBufferLength
  rw [rises.termHeight, rises.requestedScrollback, rises.maxScrollback]
  dsimp only
  generalize (if first.requestedScrollback > first.maxScrollback then first.maxScrollback
    else if first.requestedScrollback < first.grid.termHeight then first.grid.termHeight
    else first.requestedScrollback) = scrollback
  split_ifs <;> omega

end Console.Rises

/-- The view stays where it is, and afterwards at least those rows are available that bounds were
assigned from, or that were available before if none were. -/
structure Console.Bounds (before after : Console) (rows : Option Int) : Prop where
  termHeight : after.grid.termHeight = before.grid.termHeight
  scrollOffset : after.grid.scrollOffset = before.grid.scrollOffset
  kept : rows = none → getAvailableScroll before ≤ getAvailableScroll after
  assigned : ∀ bound ∈ rows, bound ≤ getAvailableScroll after

namespace Console.Bounds

variable {first second third : Console} {rows : Option Int}

theorem of_rises (rises : first.Rises second) : first.Bounds second none where
  termHeight := rises.termHeight
  scrollOffset := rises.scrollOffset
  kept _ := rises.availableScroll_le
  assigned := nofun

/-- What comes before the assignment may do no more than leave the view where it is. -/
theorem after (rises : first.Rises second) (bounds : second.Bounds third rows) :
    first.Bounds third rows where
  termHeight := bounds.termHeight.trans rises.termHeight
  scrollOffset := bounds.scrollOffset.trans rises.scrollOffset
  kept unassigned := rises.availableScroll_le.trans (bounds.kept unassigned)
  assigned := bounds.assigned

/-- What comes after the assignment leaves the rows that bounds were assigned from. -/
theorem before (bounds : first.Bounds second rows) (rises : second.Rises third) :
    first.Bounds third rows where
  termHeight := rises.termHeight.trans bounds.termHeight
  scrollOffset := rises.scrollOffset.trans bounds.scrollOffset
  kept unassigned := (bounds.kept unassigned).trans rises.availableScroll_le
  assigned bound member := (bounds.assigned bound member).trans rises.availableScroll_le

theorem ite {condition : Prop} [Decidable condition] {other : Option Int}
    (left : first.Bounds second rows) (right : first.Bounds third other) :
    first.Bounds (if condition then second else third) (if condition then rows else other) := by
  split
  · exact left
  · exact right

end Console.Bounds

/-! ## Operations -/

/-- Bounds are assigned between the move of the screen and the clearing of its new rows. -/
theorem scrollUp_bounds (console : Console) (startRow endRow amount : Int) :
    console.Bounds { console with grid := scrollUp console.grid startRow endRow amount }
      (scrollUpRows console startRow endRow amount) := by
  unfold scrollUpRows
  split
  · rename_i whole
    obtain ⟨rfl, rfl⟩ := whole
    have keeps := advance_keeps console.grid 0 (console.grid.termHeight - 1) amount
    have buffer := advance_buffer console.grid 0 (console.grid.termHeight - 1) amount
    have cleared : (console.advanced amount).Rises
        { console with
          grid := scrollUp console.grid 0 (console.grid.termHeight - 1) amount } := by
      have written := scrollUp_screen console.grid amount
      refine ⟨written.keeps.1.termHeight.trans keeps.termHeight,
        written.keeps.1.scrollOffset.trans keeps.scrollOffset, rfl, rfl, ?_⟩
      exact (le_of_eq (congrArg Buffer.length buffer.symm)).trans written.length_le
    exact
      { termHeight := cleared.termHeight
        scrollOffset := cleared.scrollOffset
        kept := nofun
        assigned := fun bound member => by
          cases member
          exact cleared.availableScroll_le }
  · rename_i part
    apply Console.Bounds.of_rises
    apply Console.Rises.onGrid console (scrollUp_keeps ..)
    unfold scrollUp
    dsimp only
    rw [if_neg part]
    have cleared := (clearRange_writes
      (copyRows console.grid (CInt.toInt (startRow + amount)) endRow (CInt.toInt (-amount)))
      (CInt.toInt (endRow - amount + 1)) 0 endRow
      ((copyRows console.grid (CInt.toInt (startRow + amount)) endRow
        (CInt.toInt (-amount))).termWidth - 1)).length_le
    rw [copyRows_length] at cleared
    exact cleared

theorem scrollDown_rises (console : Console) (startRow endRow amount : Int) :
    console.Rises { console with grid := scrollDown console.grid startRow endRow amount } := by
  apply Console.Rises.onGrid console (scrollDown_keeps ..)
  have cleared := (clearRange_writes
    (copyRows console.grid startRow (CInt.toInt (endRow - amount)) amount) startRow 0
    (CInt.toInt (startRow + amount - 1))
    ((copyRows console.grid startRow (CInt.toInt (endRow - amount)) amount).termWidth
      - 1)).length_le
  rw [copyRows_length] at cleared
  exact cleared

theorem moveCursor_rises (console : Console) (row col : Int) :
    console.Rises (moveCursor console row col) :=
  ⟨rfl, rfl, rfl, rfl, le_rfl⟩

theorem linefeed_bounds (console : Console) :
    console.Bounds (linefeed console) (linefeedRows console) := by
  unfold linefeed linefeedRows
  apply Console.Bounds.ite
  · apply scrollUp_bounds
  · apply Console.Bounds.of_rises
    split
    · exact ⟨rfl, rfl, rfl, rfl, le_rfl⟩
    · exact .refl console

theorem reverseLinefeed_rises (console : Console) : console.Rises (reverseLinefeed console) := by
  unfold reverseLinefeed
  split
  · apply scrollDown_rises
  · split
    · exact ⟨rfl, rfl, rfl, rfl, le_rfl⟩
    · exact .refl console

theorem newline_bounds (console : Console) :
    console.Bounds (newline console) (linefeedRows console) := by
  unfold newline
  apply (linefeed_bounds console).before
  dsimp only
  split
  · apply moveCursor_rises
  · exact .refl _

theorem insertShift_rises (console : Console) : console.Rises (insertShift console) := by
  unfold insertShift
  split
  · exact Console.Rises.onGrid console (copyColumns_keeps ..) (copyColumns_length ..)
  · exact .refl console

theorem printAtCursor_rises (platform : Platform) (console : Console) (codepoint : Int) :
    console.Rises (printAtCursor platform console codepoint) := by
  have drawn : CellWrites console.grid
      (terminalSet platform console.grid console.cursorRow console.cursorCol codepoint) := by
    unfold terminalSet
    exact CellWrites.ite .refl (setColumns_writes ..)
  exact (Console.Rises.writes console drawn).trans ⟨rfl, rfl, rfl, rfl, le_rfl⟩

/-- A character may be printed on a new line, which is fed first. -/
theorem printCodepoint_bounds (platform : Platform) (console : Console) (codepoint : Int) :
    console.Bounds (printCodepoint platform console codepoint)
      (operationRows console (.print codepoint)) := by
  have wrapped : console.Bounds (wrapCursor console)
      (operationRows console (.print codepoint)) := by
    unfold wrapCursor operationRows
    apply Console.Bounds.ite
    · have begun : console.Rises { console with cursorCol := 0 } :=
        ⟨rfl, rfl, rfl, rfl, le_rfl⟩
      exact .after begun (linefeed_bounds _)
    · exact .of_rises (.refl console)
  unfold printCodepoint
  exact (wrapped.before (insertShift_rises _)).before (printAtCursor_rises ..)

theorem fillRows_writes (character : TerminalChar) (remaining : Nat) (row : Int) (grid : Grid) :
    CellWrites grid (fillRows character remaining row grid) := by
  induction remaining generalizing row grid with
  | zero => exact .refl
  | succ remaining ih => exact (setColumns_writes ..).trans (ih _ _)

/-- Inserting and deleting characters first shift the rest of the row, if anything remains of it. -/
theorem shiftColumns_length {condition : Prop} [Decidable condition] (grid : Grid)
    (row startColumn endColumn offset firstColumn lastColumn : Int) :
    grid.buffer.length ≤
      (clearColumns (if condition then copyColumns grid row startColumn endColumn offset else grid)
        row firstColumn lastColumn).buffer.length := by
  refine le_trans ?_ (setColumns_writes ..).length_le
  split
  · apply copyColumns_length
  · exact le_rfl

theorem csiEraseDisplay_rises (console : Console) (mode : Int) :
    console.Rises (csiEraseDisplay console mode) := by
  unfold csiEraseDisplay
  dsimp only
  split_ifs
  · exact Console.Rises.writes console (clearRange_writes ..)
  · exact Console.Rises.writes console (clearRange_writes ..)
  · exact Console.Rises.writes console (clearRange_writes ..)
  · exact Console.Rises.refl console

theorem csiEraseLine_rises (console : Console) (mode : Int) :
    console.Rises (csiEraseLine console mode) := by
  unfold csiEraseLine
  dsimp only
  split_ifs
  · exact Console.Rises.writes console (setColumns_writes ..)
  · exact Console.Rises.writes console (setColumns_writes ..)
  · exact Console.Rises.writes console (setColumns_writes ..)
  · exact Console.Rises.refl console

theorem setFlag_rises (console : Console) (privateMode : UInt8) (number : Int) (value : Bool) :
    console.Rises (setFlag console privateMode number value) := by
  unfold setFlag
  split_ifs
  all_goals exact ⟨rfl, rfl, rfl, rfl, le_rfl⟩

theorem csiClearTab_rises (console : Console) (mode : Int) :
    console.Rises (csiClearTab console mode) := by
  unfold csiClearTab
  split_ifs
  all_goals exact ⟨rfl, rfl, rfl, rfl, le_rfl⟩

theorem csiScrollRegion_rises (console : Console) (argc : Nat) (argv : Nat → Int) :
    console.Rises (csiScrollRegion console argc argv) := by
  unfold csiScrollRegion
  split
  all_goals exact ⟨rfl, rfl, rfl, rfl, le_rfl⟩

/-- Of the control functions, only the one that deletes lines may assign bounds. -/
theorem csiConsole_bounds (console : Console) (argc : Nat) (argv : Nat → Int)
    (privateMode : UInt8) (function : CsiFunction) :
    console.Bounds (csiConsole console argc argv privateMode function)
      (operationRows console (.control argc argv privateMode function)) := by
  cases function with
  | deleteLines => apply scrollUp_bounds
  | insertCharacters =>
      have stays := csiInsertCharacters_stays console (csiAmount (argv 0))
      exact .of_rises
        ⟨stays.termHeight, stays.scrollOffset, rfl, rfl, shiftColumns_length console.grid ..⟩
  | deleteCharacters =>
      have stays := csiDeleteCharacters_stays console (csiAmount (argv 0))
      exact .of_rises
        ⟨stays.termHeight, stays.scrollOffset, rfl, rfl, shiftColumns_length console.grid ..⟩
  | eraseCharacters => exact .of_rises (Console.Rises.writes console (setColumns_writes ..))
  | eraseDisplay => exact .of_rises (csiEraseDisplay_rises ..)
  | eraseLine => exact .of_rises (csiEraseLine_rises ..)
  | insertLines => exact .of_rises (scrollDown_rises ..)
  | clearTab => exact .of_rises (csiClearTab_rises ..)
  | setMode => exact .of_rises (setFlag_rises ..)
  | resetMode => exact .of_rises (setFlag_rises ..)
  | scrollRegion => exact .of_rises (csiScrollRegion_rises ..)
  | _ => exact .of_rises ⟨rfl, rfl, rfl, rfl, le_rfl⟩

theorem assignColor_rises (console : Console) (index : Int) (color : Option Color) :
    console.Rises (assignColor console index color) := by
  cases color with
  | none => exact .refl console
  | some color => exact ⟨rfl, rfl, rfl, rfl, le_rfl⟩

/-- An operation but the reset leaves the view where it is, and available what its bounds say. -/
theorem perform_bounds (platform : Platform) (console : Console) (op : ConsoleOp)
    (other : op ≠ .reset) :
    console.Bounds (perform platform console op) (operationRows console op) := by
  cases op with
  | print codepoint => exact printCodepoint_bounds ..
  | newline => exact newline_bounds console
  | linefeed => exact linefeed_bounds console
  | nextLine => exact .after (moveCursor_rises ..) (linefeed_bounds _)
  | reverseLinefeed => exact .of_rises (reverseLinefeed_rises console)
  | reset => exact absurd rfl other
  | fillScreen => exact .of_rises (Console.Rises.writes console (fillRows_writes ..))
  | control argc argv privateMode function => apply csiConsole_bounds
  | requestScrollback rows =>
      exact
        { termHeight := rfl
          scrollOffset := rfl
          kept := nofun
          assigned := fun bound member => by
            cases member
            exact le_rfl }
  | assignColor index color => exact .of_rises (assignColor_rises ..)
  | _ => exact .of_rises ⟨rfl, rfl, rfl, rfl, le_rfl⟩

/-! ## The view -/

/-- Scrolling the view up ends at the rows that are available, and never takes it down. -/
theorem scrollDisplayUp_offset {console : Console} {amount : Int}
    (fits : FitsInt (console.grid.scrollOffset + amount)) :
    (terminalScrollDisplayUp console amount).grid.scrollOffset =
      max console.grid.scrollOffset
        (min (console.grid.scrollOffset + amount) (getAvailableScroll console)) := by
  have limit : (if toInt (console.grid.scrollOffset + amount) > getAvailableScroll console then
      getAvailableScroll console - console.grid.scrollOffset else amount)
      = min amount (getAvailableScroll console - console.grid.scrollOffset) := by
    rw [toInt_of_fits fits]
    split <;> omega
  unfold terminalScrollDisplayUp scrollDisplayUp
  dsimp only
  rw [limit]
  generalize limited : min amount (getAvailableScroll console - console.grid.scrollOffset) = shift
  split
  · omega
  · rw [(drawRows_keeps ..).scrollOffset]
    split
    all_goals
      change console.grid.scrollOffset + shift = _
      omega

/-- Scrolling the view down ends at the screen, and never takes it up. -/
theorem scrollDisplayDown_offset (console : Console) (amount : Int) :
    (terminalScrollDisplayDown console amount).grid.scrollOffset =
      console.grid.scrollOffset - max 0 (min amount console.grid.scrollOffset) := by
  have limit : (if amount > console.grid.scrollOffset then console.grid.scrollOffset else amount)
      = min amount console.grid.scrollOffset := by
    split <;> omega
  unfold terminalScrollDisplayDown scrollDisplayDown
  dsimp only
  rw [limit]
  generalize limited : min amount console.grid.scrollOffset = shift
  split
  · omega
  · rw [(drawRows_keeps ..).scrollOffset]
    split
    all_goals
      change console.grid.scrollOffset - shift = _
      omega

theorem redraw_scrollOffset (grid : Grid) (startRow startCol endRow endCol : Int) :
    (redraw grid startRow startCol endRow endCol).scrollOffset = grid.scrollOffset :=
  (redrawRect_keeps ..).scrollOffset

theorem resizeShrink_scrollOffset (console : Console) (width height : Int) :
    (resizeShrink console width height).grid.scrollOffset = console.grid.scrollOffset := by
  unfold resizeShrink
  split
  · dsimp only
    split
    · exact redraw_scrollOffset ..
    · rfl
  · rfl

/-- The offset that a resize to a height leaves: rows below the view come into it first. -/
def resizedOffset (console : Console) (height : Int) : Int :=
  if height > console.grid.termHeight ∧ getAvailableScroll console > 0 then
    max 0 (console.grid.scrollOffset - growShift console height)
  else console.grid.scrollOffset

theorem resizeGrow_scrollOffset (console : Console) (width height : Int) :
    (resizeGrow console width height).grid.scrollOffset = resizedOffset console height := by
  unfold resizeGrow resizedOffset growShift
  split
  · dsimp only
    generalize min (height - console.grid.termHeight) (getAvailableScroll console) = amount
    split
    · rename_i enough
      rw [redraw_scrollOffset]
      change console.grid.scrollOffset - amount = _
      change amount ≤ console.grid.scrollOffset at enough
      omega
    · rename_i short
      change ¬ amount ≤ console.grid.scrollOffset at short
      split
      · rw [redraw_scrollOffset]
        change 0 = _
        omega
      · change 0 = _
        omega
  · rfl

theorem resizeCells_scrollOffset (console : Console) (width height : Int) :
    (resizeCells console width height).grid.scrollOffset = resizedOffset console height := by
  have shrunk := resizeShrink_shifts console width height
  have offset := resizeShrink_scrollOffset console width height
  have height' (second : Console) (shifts : console.Shifts (shrinkShift console height) second)
      (same : second.grid.scrollOffset = console.grid.scrollOffset) :
      resizedOffset second height = resizedOffset console height := by
    rw [resizedOffset, growShift, shifts.termHeight, shifts.getAvailableScroll, same]
    rfl
  unfold resizeCells
  generalize resizeShrink console width height = first at shrunk offset
  dsimp only
  rw [resizeGrow_scrollOffset]
  split
  · apply height'
    · refine shrunk.draw (Grid.Draws.redraw ?_ ..)
      exact ⟨rfl, rfl, rfl, rfl, rfl⟩
    · exact (redraw_scrollOffset ..).trans offset
  · apply height'
    · exact shrunk.draw ⟨rfl, rfl, rfl, rfl, rfl⟩
    · exact offset

/-! ## Steps -/

/-- The invariant of runs: the upper bound of the scrollbar is the end of the screen. -/
structure ScrollInvariant (scrolled : ScrolledTerm) : Prop where
  valid : ScrollValid scrolled
  max_eq : scrolled.scrollbar.max = 0

theorem setBounds_value {scrollbar : Scrollbar} {lower : Int}
    (within : lower ≤ scrollbar.value ∧ scrollbar.value ≤ 0) :
    (scrollbar.setBounds lower 0).value = scrollbar.value := by
  unfold Scrollbar.setBounds
  dsimp only
  rw [if_neg (by omega), if_neg (by omega)]

theorem setValue_value {scrollbar : Scrollbar} (ordered : scrollbar.min ≤ scrollbar.max)
    (value : Int) :
    (scrollbar.setValue value).value = max scrollbar.min (min value scrollbar.max) := by
  unfold Scrollbar.setValue
  dsimp only
  split_ifs <;> omega

theorem getAvailableScroll_congr {before after : Console} (height : Int)
    (termHeight : after.grid.termHeight = height)
    (requested : after.requestedScrollback = before.requestedScrollback)
    (maximum : after.maxScrollback = before.maxScrollback)
    (length : after.grid.buffer.length = before.grid.buffer.length) :
    getAvailableScroll after = availableAt before height := by
  rw [getAvailableScroll, effectiveBufferLength, termHeight, requested, maximum, length]
  rfl

/-- The rows that are available once the size has been set. -/
theorem resizeCells_availableScroll (console : Console) (width height : Int) :
    getAvailableScroll (resizeCells console width height) = availableAt console height := by
  obtain ⟨shifted, shifts, buffer, -, requested, maximum⟩ :=
    resizeCells_shifts console width height
  apply getAvailableScroll_congr height rfl
  · exact requested.trans shifts.requestedScrollback
  · exact maximum.trans shifts.maxScrollback
  · exact (congrArg Buffer.length buffer).trans shifts.length

/-- A higher screen leaves available at least the rows that it does not pull into view. -/
theorem availableAt_sub_le (console : Console) (height : Int) :
    getAvailableScroll console - max 0 (height - console.grid.termHeight)
      ≤ availableAt console height := by
  unfold availableAt getAvailableScroll effectiveBufferLength
  dsimp only
  split_ifs <;> omega

theorem resizeRowsColumns_availableScroll (console : Console) (rows columns : Int) :
    getAvailableScroll (resizeRowsColumns console rows columns) = availableAt console rows := by
  unfold resizeRowsColumns
  split
  · exact resizeCells_availableScroll console columns rows
  · rename_i same
    rw [show rows = console.grid.termHeight by omega]
    rfl

theorem resizeRowsColumns_scrollOffset (console : Console) (rows columns : Int) :
    (resizeRowsColumns console rows columns).grid.scrollOffset = resizedOffset console rows := by
  unfold resizeRowsColumns
  split
  · exact resizeCells_scrollOffset console columns rows
  · unfold resizedOffset
    rw [if_neg (by omega)]

/-- Onto a screen that is no higher than the rows in use, a resize scrolls the view only down, and
at least as far as fewer rows become available. -/
theorem resizedOffset_within {console : Console} {height : Int}
    (view : 0 ≤ console.grid.scrollOffset
      ∧ console.grid.scrollOffset ≤ max 0 (getAvailableScroll console))
    (filled : 0 ≤ availableAt console height) :
    0 ≤ resizedOffset console height ∧ resizedOffset console height ≤ availableAt console height
      ∧ resizedOffset console height ≤ console.grid.scrollOffset := by
  have left := availableAt_sub_le console height
  unfold resizedOffset growShift
  split <;> omega

/-- The value that a resize assigns is the one of the offset it leaves. -/
theorem resizeValue_value {scrolled : ScrolledTerm} (invariant : ScrollInvariant scrolled)
    (rows columns : Int)
    (within : 0 ≤ resizedOffset scrolled.term.toConsole rows
      ∧ resizedOffset scrolled.term.toConsole rows ≤ scrolled.term.grid.scrollOffset) :
    (resizeValue scrolled.term.toConsole scrolled.scrollbar rows columns).value
      = -resizedOffset scrolled.term.toConsole rows := by
  obtain ⟨⟨-, ⟨lower, upper⟩, shown⟩, maximum⟩ := invariant
  unfold resizeValue
  split
  · rw [setValue_value (lower.trans upper), resizeRowsColumns_scrollOffset]
    omega
  · rename_i unassigned
    rw [shown]
    have kept : resizedOffset scrolled.term.toConsole rows
        = scrolled.term.grid.scrollOffset := by
      unfold resizedOffset
      rw [if_neg fun grows => unassigned ⟨Or.inr (by omega), grows.1, grows.2⟩]
    rw [kept]

/-- Bounds that are assigned from enough rows leave the value where it is. -/
theorem ScrollInvariant.assigned {term : Term} {scrollbar : Scrollbar} {bound : Int}
    (start : 0 ≤ term.grid.scrollOffset) (within : term.grid.scrollOffset ≤ bound)
    (available : bound ≤ getAvailableScroll term.toConsole)
    (shown : scrollbar.value = -term.grid.scrollOffset) :
    ScrollInvariant { term := term, scrollbar := scrollbar.setBounds (-bound) 0 } := by
  have value : (scrollbar.setBounds (-bound) 0).value = -term.grid.scrollOffset :=
    (setBounds_value ⟨by omega, by omega⟩).trans shown
  refine ⟨⟨⟨start, ?_⟩, ⟨?_, ?_⟩, value⟩, rfl⟩
  · exact (within.trans available).trans (le_max_right ..)
  · rw [value]
    change -bound ≤ _
    omega
  · rw [value]
    change _ ≤ 0
    omega

theorem scrolledResize_invariant {metrics : FontMetrics} {scrolled : ScrolledTerm}
    (invariant : ScrollInvariant scrolled) {width height : Int}
    (filled : 0 ≤ availableAt scrolled.term.toConsole
      (calculateRowsAndColumns metrics height width).1) :
    ScrollInvariant (scrolledResize metrics scrolled width height) := by
  obtain ⟨start, stop, down⟩ := resizedOffset_within invariant.valid.1 filled
  have value := resizeValue_value invariant (calculateRowsAndColumns metrics height width).1
    (calculateRowsAndColumns metrics height width).2 ⟨start, down⟩
  have offset : (resize metrics scrolled.term width height).grid.scrollOffset
      = resizedOffset scrolled.term.toConsole (calculateRowsAndColumns metrics height width).1 :=
    resizeRowsColumns_scrollOffset ..
  have available : getAvailableScroll (resize metrics scrolled.term width height).toConsole
      = availableAt scrolled.term.toConsole (calculateRowsAndColumns metrics height width).1 :=
    resizeRowsColumns_availableScroll ..
  rw [← offset] at start stop value
  rw [← available] at stop
  exact ScrollInvariant.assigned start stop le_rfl value

/-- After a reset the view is at the end, and so is the scrollbar. -/
theorem Scrollbar.reset_eq (scrollbar : Scrollbar) :
    scrollbar.reset = { min := 0, max := 0, value := 0 } := by
  unfold reset setValue setBounds
  simp

theorem reset_invariant {term : Term} (scrollbar : Scrollbar)
    (offset : term.grid.scrollOffset = 0) :
    ScrollInvariant { term := term, scrollbar := scrollbar.reset } := by
  rw [Scrollbar.reset_eq]
  refine ⟨⟨⟨?_, ?_⟩, ⟨le_rfl, le_rfl⟩, ?_⟩, rfl⟩
  · exact offset.ge
  · exact offset.le.trans (le_max_left ..)
  · change 0 = -term.grid.scrollOffset
    rw [offset]
    rfl

theorem resetConsole_scrollOffset (console : Console) :
    (resetConsole console).grid.scrollOffset = 0 :=
  (resetRows_keeps ..).scrollOffset

theorem operationScrollbar_eq {console : Console} {op : ConsoleOp} (scrollbar : Scrollbar)
    (other : op ≠ .reset) :
    operationScrollbar console scrollbar op =
      (operationRows console op).elim scrollbar fun rows => scrollbar.setBounds (-rows) 0 := by
  cases op with
  | reset => exact absurd rfl other
  | _ =>
      unfold operationScrollbar
      dsimp only
      split
      all_goals
        rename_i found
        rw [found]
        rfl

/-- An operation keeps the view and the scrollbar in step if the rows it assigns bounds from are
enough. -/
theorem operation_invariant {platform : Platform} {scrolled : ScrolledTerm}
    (invariant : ScrollInvariant scrolled) {term : Term} {op : ConsoleOp}
    (written : term.toConsole = perform platform scrolled.term.toConsole op)
    (enough : ∀ rows ∈ operationRows scrolled.term.toConsole op,
      scrolled.term.grid.scrollOffset ≤ rows) :
    ScrollInvariant
      { term := term
        scrollbar := operationScrollbar scrolled.term.toConsole scrolled.scrollbar op } := by
  by_cases other : op = .reset
  · subst other
    apply reset_invariant
    rw [written]
    exact resetConsole_scrollOffset _
  · have bounds := perform_bounds platform scrolled.term.toConsole op other
    rw [← written] at bounds
    have offset := bounds.scrollOffset
    obtain ⟨⟨view, ordered, shown⟩, maximum⟩ := invariant
    cases assigned : operationRows scrolled.term.toConsole op with
    | none =>
        rw [operationScrollbar_eq _ other, assigned]
        have available := bounds.kept assigned
        refine ⟨⟨⟨?_, ?_⟩, ordered, ?_⟩, maximum⟩
        · exact offset ▸ view.1
        · change term.grid.scrollOffset ≤ max 0 (getAvailableScroll term.toConsole)
          omega
        · exact offset ▸ shown
    | some rows =>
        rw [operationScrollbar_eq _ other, assigned]
        apply ScrollInvariant.assigned
        · exact offset ▸ view.1
        · exact offset.le.trans (enough rows assigned)
        · exact bounds.assigned rows assigned
        · exact offset ▸ shown

theorem drawRows_draws (remaining : Nat) (row destRow : Int) (grid : Grid) :
    grid.Draws (drawRows remaining row destRow grid) := by
  induction remaining generalizing row destRow grid with
  | zero => exact .refl grid
  | succ remaining ih => exact (drawRow_draws ..).trans (ih ..)

theorem Grid.Draws.availableScroll {console : Console} {grid : Grid}
    (draws : console.grid.Draws grid) :
    getAvailableScroll { console with grid := grid } = getAvailableScroll console :=
  ((Console.Shifts.refl console).draw draws).getAvailableScroll

theorem scrollDisplayUp_draws (grid : Grid) (available amount : Int) :
    grid.Draws (scrollDisplayUp grid available amount) := by
  unfold scrollDisplayUp
  dsimp only
  generalize (if toInt (grid.scrollOffset + amount) > available then
    available - grid.scrollOffset else amount) = shift
  split
  · exact .refl grid
  · split
    all_goals
      refine Grid.Draws.trans ?_ (drawRows_draws ..)
      exact ⟨rfl, rfl, rfl, rfl, rfl⟩

theorem scrollDisplayDown_draws (grid : Grid) (amount : Int) :
    grid.Draws (scrollDisplayDown grid amount) := by
  unfold scrollDisplayDown
  dsimp only
  generalize (if amount > grid.scrollOffset then grid.scrollOffset else amount) = shift
  split
  · exact .refl grid
  · split
    all_goals
      refine Grid.Draws.trans ?_ (drawRows_draws ..)
      exact ⟨rfl, rfl, rfl, rfl, rfl⟩

/-- The view is moved to an offset that its rows and the scrollbar have room for. -/
theorem ScrollInvariant.moved {scrolled : ScrolledTerm} (invariant : ScrollInvariant scrolled)
    {term : Term}
    (available : getAvailableScroll term.toConsole = getAvailableScroll scrolled.term.toConsole)
    (view : 0 ≤ term.grid.scrollOffset
      ∧ term.grid.scrollOffset ≤ max 0 (getAvailableScroll scrolled.term.toConsole))
    (room : term.grid.scrollOffset ≤ -scrolled.scrollbar.min) :
    ScrollInvariant
      { term := term
        scrollbar :=
          if term.grid.scrollOffset = scrolled.term.grid.scrollOffset then scrolled.scrollbar
          else scrolled.scrollbar.setValue (-term.grid.scrollOffset) } := by
  obtain ⟨⟨-, ordered, shown⟩, maximum⟩ := invariant
  rw [← available] at view
  split
  · rename_i same
    exact ⟨⟨view, ordered, same ▸ shown⟩, maximum⟩
  · have value := setValue_value (ordered.1.trans ordered.2) (-term.grid.scrollOffset)
    rw [maximum] at value
    have shown' : (scrolled.scrollbar.setValue (-term.grid.scrollOffset)).value
        = -term.grid.scrollOffset := by
      rw [value]
      omega
    refine ⟨⟨view, ⟨?_, ?_⟩, shown'⟩, maximum⟩
    · rw [shown']
      change scrolled.scrollbar.min ≤ _
      omega
    · rw [shown']
      change _ ≤ scrolled.scrollbar.max
      omega

section View

variable {scrolled : ScrolledTerm}

theorem scrolledUp_offset {amount : Int}
    (fits : FitsInt (scrolled.term.grid.scrollOffset + amount)) :
    (scrolledUp scrolled amount).term.grid.scrollOffset =
      max scrolled.term.grid.scrollOffset
        (min (scrolled.term.grid.scrollOffset + amount)
          (getAvailableScroll scrolled.term.toConsole)) :=
  scrollDisplayUp_offset fits

theorem scrolledDown_offset (scrolled : ScrolledTerm) (amount : Int) :
    (scrolledDown scrolled amount).term.grid.scrollOffset =
      scrolled.term.grid.scrollOffset - max 0 (min amount scrolled.term.grid.scrollOffset) :=
  scrollDisplayDown_offset ..

theorem scrolledUp_min (amount : Int) :
    (scrolledUp scrolled amount).scrollbar.min = scrolled.scrollbar.min := by
  unfold scrolledUp
  dsimp only
  split
  · rfl
  · rfl

theorem scrolledDown_min (amount : Int) :
    (scrolledDown scrolled amount).scrollbar.min = scrolled.scrollbar.min := by
  unfold scrolledDown
  dsimp only
  split
  · rfl
  · rfl

theorem scrolledUp_invariant (invariant : ScrollInvariant scrolled) {amount : Int}
    (fits : FitsInt (scrolled.term.grid.scrollOffset + amount))
    (reached : min (scrolled.term.grid.scrollOffset + amount)
      (getAvailableScroll scrolled.term.toConsole) ≤ -scrolled.scrollbar.min) :
    ScrollInvariant (scrolledUp scrolled amount) := by
  have offset := scrolledUp_offset fits
  obtain ⟨view, ordered, shown⟩ := invariant.valid
  apply invariant.moved
  · exact Grid.Draws.availableScroll (scrollDisplayUp_draws ..)
  · change 0 ≤ (scrolledUp scrolled amount).term.grid.scrollOffset
      ∧ (scrolledUp scrolled amount).term.grid.scrollOffset ≤ _
    omega
  · change (scrolledUp scrolled amount).term.grid.scrollOffset ≤ _
    omega

theorem scrolledDown_invariant (invariant : ScrollInvariant scrolled) (amount : Int) :
    ScrollInvariant (scrolledDown scrolled amount) := by
  have offset := scrolledDown_offset scrolled amount
  obtain ⟨view, ordered, shown⟩ := invariant.valid
  apply invariant.moved
  · exact Grid.Draws.availableScroll (scrollDisplayDown_draws ..)
  · change 0 ≤ (scrolledDown scrolled amount).term.grid.scrollOffset
      ∧ (scrolledDown scrolled amount).term.grid.scrollOffset ≤ _
    omega
  · change (scrolledDown scrolled amount).term.grid.scrollOffset ≤ _
    omega

/-- Assigning the value that is shown already changes nothing that the invariant depends on. -/
theorem ScrollInvariant.set (invariant : ScrollInvariant scrolled) {value : Int}
    (same : max scrolled.scrollbar.min (min value 0) = -scrolled.term.grid.scrollOffset) :
    ScrollInvariant { scrolled with scrollbar := scrolled.scrollbar.setValue value } := by
  obtain ⟨⟨view, ordered, shown⟩, maximum⟩ := invariant
  have assigned := setValue_value (ordered.1.trans ordered.2) value
  rw [maximum, same, ← shown] at assigned
  refine ⟨⟨view, ?_, assigned.trans shown⟩, maximum⟩
  rw [assigned]
  exact ordered

/-- A drag of the handle scrolls the view to the value, unless the bounds keep the one further than
the other. -/
theorem scrollHandler_invariant (invariant : ScrollInvariant scrolled) {value : Int}
    (fits : FitsInt (-value - scrolled.term.grid.scrollOffset)) (fits' : FitsInt (-value))
    (alike : value < -scrolled.term.grid.scrollOffset →
      min (-value) (max 0 (getAvailableScroll scrolled.term.toConsole)) =
        min (-value) (-scrolled.scrollbar.min)) :
    ScrollInvariant (scrollHandler scrolled value) := by
  obtain ⟨view, ordered, shown⟩ := invariant.valid
  have maximum := invariant.max_eq
  unfold scrollHandler
  rw [toInt_of_fits fits]
  dsimp only
  split
  · apply (scrolledDown_invariant invariant _).set
    rw [scrolledDown_offset, scrolledDown_min]
    omega
  · split
    · rename_i up
      have alike := alike (by omega)
      have target : scrolled.term.grid.scrollOffset
          + (-value - scrolled.term.grid.scrollOffset) = -value := by
        omega
      have fits'' : FitsInt (scrolled.term.grid.scrollOffset
          + (-value - scrolled.term.grid.scrollOffset)) := target.symm ▸ fits'
      apply (scrolledUp_invariant invariant fits'' _).set
      · rw [scrolledUp_offset fits'', scrolledUp_min]
        omega
      · omega
    · apply invariant.set
      omega

end View

/-- A guarded step keeps the view and the scrollbar in step. -/
theorem scrollStep_invariant {platform : Platform} {metrics : FontMetrics}
    {scrolled : ScrolledTerm} (invariant : ScrollInvariant scrolled) (action : ScrollAction)
    (guard : ScrollGuard platform metrics scrolled action) :
    ScrollInvariant (scrollStep platform metrics scrolled action) := by
  cases action with
  | write c => exact operation_invariant invariant (writeByte_toConsole ..) guard
  | resize width height => exact scrolledResize_invariant invariant guard
  | displayUp amount => exact scrolledUp_invariant invariant guard.1 guard.2
  | displayDown amount => exact scrolledDown_invariant invariant amount
  | drag value => exact scrollHandler_invariant invariant guard.1 guard.2.1 guard.2.2

/-- **The view is scrolled back by no more rows than are available, and the scrollbar shows by how
many, throughout every run that assigns bounds only while the buffer holds the rows the view needs,
and scrolls no further back than the bounds.** -/
theorem scrollValid_always (platform : Platform) (metrics : FontMetrics)
    (options : TerminalOptions) (actions : List ScrollAction)
    (guarded : Guarded (scrollStep platform metrics) (ScrollGuard platform metrics)
      (ScrolledTerm.create metrics options) actions) :
    Always (scrollStep platform metrics) ScrollValid (ScrolledTerm.create metrics options)
      actions := by
  have initial : ScrollInvariant (ScrolledTerm.create metrics options) :=
    reset_invariant _ (resetConsole_scrollOffset _)
  have always := guarded.always initial
    fun scrolled action invariant guard => scrollStep_invariant invariant action guard
  exact always.mono fun scrolled invariant => invariant.valid

/-- A terminal of one row scrolls twice, is scrolled back, and its scrollbar is dragged to the
end. -/
theorem scrollValid_dragged :
    Always (scrollStep samplePlatform sampleMetrics) ScrollValid
      (ScrolledTerm.create sampleMetrics (sampleOptions 1 1))
      [.write 0x0A, .write 0x0A, .displayUp 1, .drag 0] :=
  scrollValid_always samplePlatform sampleMetrics (sampleOptions 1 1) _ (by decide +kernel)

/-- A resize of a terminal that has printed nothing puts the lower bound of the scrollbar above the
upper one. -/
theorem scrollValid_unfilled :
    ¬ Always (scrollStep samplePlatform sampleMetrics) ScrollValid
      (ScrolledTerm.create sampleMetrics (sampleOptions 2 1)) [.resize 24 32] := by
  intro always
  obtain ⟨-, ⟨lower, upper⟩, -⟩ := always.last
  have bounds : ((scrollStep samplePlatform sampleMetrics
      (ScrolledTerm.create sampleMetrics (sampleOptions 2 1)) (.resize 24 32)).scrollbar.min,
      (scrollStep samplePlatform sampleMetrics
        (ScrolledTerm.create sampleMetrics (sampleOptions 2 1)) (.resize 24 32)).scrollbar.max)
      = (2, 0) := by
    decide +kernel
  obtain ⟨minimum, maximum⟩ := Prod.mk.inj bounds
  have ordered := lower.trans upper
  rw [exec_cons, exec_nil, minimum, maximum] at ordered
  exact absurd ordered (by decide)

end GuacNebula.Terminal
