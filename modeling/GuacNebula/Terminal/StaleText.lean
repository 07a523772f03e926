import GuacNebula.Terminal.LineEdits
import GuacNebula.Terminal.ScrollRegion

/-! # Text beyond the edge of the screen

A row that comes into view at the bottom when the screen scrolls, and every row of a screen that is
erased, should be left without text in all of the columns that are stored for it: widening the
terminal shows them, and a selection copies them.

Rows are cleared as far as the terminal is wide. They keep the length that they have had when the
terminal was wider, and the ring hands such rows out again. What is stored beyond the edge is left,
except for what remains there of a character that the edge cuts.
-/

namespace GuacNebula.Terminal

open CInt Run

/-- No text is stored in any column of the row. -/
def Row.TextFree (row : Row) : Prop :=
  ∀ column, 0 ≤ column → column < row.length → hasGlyph (row.characters column).value = false

/-- A character is stored at the edge of a screen of the given width or beyond it. At the edge it
does not count if it lacks some of its continuations. -/
def Row.Beyond (row : Row) (width column : Int) : Prop :=
  (width ≤ column ∧ column < row.length) ∧ hasGlyph (row.characters column).value = true
    ∧ (column = width → Held row.characters width row.length width)

/-! ## Rows that are cleared -/

/-- A call of `guac_terminal_clear_range` for whole rows: what it is made on, and its rows. -/
structure RowsClear where
  grid : Grid
  first : Int
  last : Int

namespace RowsClear

variable (call : RowsClear)

def after : Grid := clearRange call.grid call.first 0 call.last (call.grid.termWidth - 1)

def Covers (row : Int) : Prop := call.first ≤ row ∧ row ≤ call.last

/-- The rows have no text after the call. -/
def Sound : Prop := ∀ row, call.Covers row → (call.after.row row).TextFree

/-- The rows store nothing beyond the edge of the screen before the call. -/
def Within : Prop :=
  ∀ row, call.Covers row → ∀ column, ¬ (call.grid.row row).Beyond call.grid.termWidth column

end RowsClear

/-- The call that clears the rows that `guac_terminal_scroll_up` exposes. -/
def scrollUpClear (grid : Grid) (startRow endRow amount : Int) : RowsClear where
  grid :=
    if startRow = 0 ∧ endRow = grid.termHeight - 1 then advance grid startRow endRow amount
    else copyRows grid (toInt (startRow + amount)) endRow (toInt (-amount))
  first := toInt (endRow - amount + 1)
  last := endRow

/-- The call in a line feed, if it scrolls. -/
def Console.linefeedClear (console : Console) : Option RowsClear :=
  if console.cursorRow = console.scrollEnd then
    some (scrollUpClear console.grid console.scrollStart console.scrollEnd 1)
  else none

/-- The call in an operation, if it scrolls up or is the one of `CSI 2 J`. -/
def Console.clears (console : Console) : ConsoleOp → Option RowsClear
  | .print _ =>
      if console.cursorCol ≥ console.grid.termWidth then
        { console with cursorCol := 0 }.linefeedClear
      else none
  | .newline => console.linefeedClear
  | .linefeed => console.linefeedClear
  | .nextLine => (moveCursor console console.cursorRow 0).linefeedClear
  | .control _ argv _ .deleteLines =>
      some (scrollUpClear console.grid console.cursorRow console.scrollEnd (csiAmount (argv 0)))
  | .control _ argv _ .eraseDisplay =>
      if argv 0 = 2 then
        some { grid := console.grid, first := 0, last := console.grid.termHeight - 1 }
      else none
  | _ => none

/-- The grid after an operation. A character is printed after the line feed that makes room for
it, and what is told here is the grid in between. -/
def Console.cleared (platform : Platform) (console : Console) : ConsoleOp → Grid
  | .print _ => (wrapCursor console).grid
  | op => (perform platform console op).grid

section Calls

variable {platform : Platform} {console : Console} {op : ConsoleOp} {call : RowsClear}

theorem scrollUpClear_width (grid : Grid) (startRow endRow amount : Int) :
    (scrollUpClear grid startRow endRow amount).grid.termWidth = grid.termWidth := by
  unfold scrollUpClear
  dsimp only
  split
  case isTrue => exact (advance_keeps ..).termWidth
  case isFalse => exact (copyRows_keeps ..).termWidth

theorem linefeedClear_spec (made : console.linefeedClear = some call) :
    (linefeed console).grid = call.after ∧ call.grid.termWidth = console.grid.termWidth := by
  unfold Console.linefeedClear at made
  split at made
  case isTrue last =>
    cases made
    unfold linefeed
    rw [if_pos last]
    exact ⟨rfl, scrollUpClear_width ..⟩
  case isFalse => cases made

/-- The operation leaves what its call does, and the call is made at the width of the terminal. -/
theorem Console.clears_spec (made : console.clears op = some call) :
    console.cleared platform op = call.after
      ∧ call.grid.termWidth = console.grid.termWidth := by
  cases op with
  | print codepoint =>
      change (if _ then _ else _) = some call at made
      change (wrapCursor console).grid = _ ∧ _
      unfold wrapCursor
      split at made
      case isTrue full =>
        rw [if_pos full]
        exact linefeedClear_spec made
      case isFalse => cases made
  | newline =>
      have fed := linefeedClear_spec made
      change (Terminal.newline console).grid = _ ∧ _
      rw [← fed.1]
      refine ⟨?_, fed.2⟩
      unfold Terminal.newline
      dsimp only
      split <;> rfl
  | linefeed => exact linefeedClear_spec made
  | nextLine =>
      exact @linefeedClear_spec (moveCursor console console.cursorRow 0) call made
  | control argc argv privateMode function =>
      cases function with
      | deleteLines =>
          cases made
          exact ⟨rfl, scrollUpClear_width ..⟩
      | eraseDisplay =>
          change (if _ then _ else _) = some call at made
          split at made
          case isTrue whole =>
            cases made
            change (csiEraseDisplay console (argv 0)).grid = _ ∧ _
            rw [whole]
            exact ⟨rfl, rfl⟩
          case isFalse => cases made
      | _ => cases made
  | _ => cases made

end Calls

/-! ## What is left of a row -/

section Left

variable {grid : Grid} {row other column : Int} {remaining : Nat}

/-- What an edge cuts off of text is the character at the edge, unless that is whole. -/
theorem RightRemains.glyph_iff {characters : Int → TerminalChar} {length edge : Int}
    (inside : edge ≤ column ∧ column < length)
    (glyph : hasGlyph (characters column).value = true) :
    RightRemains characters length edge column
      ↔ column = edge ∧ ¬ Held characters edge length edge := by
  have solid : ¬ Continued characters column := by
    intro continued
    rw [continued] at glyph
    exact absurd glyph (by decide)
  constructor
  · rintro ⟨_, reaches, loose⟩
    have here : column = edge := by
      by_contra apart
      exact solid (reaches column (by omega) le_rfl)
    subst here
    exact ⟨rfl, loose⟩
  · rintro ⟨rfl, loose⟩
    exact ⟨inside, fun other after before => absurd after (Int.not_lt.mpr before), loose⟩

theorem TerminalChar.IsBlank.no_glyph {character : TerminalChar} (blank : character.IsBlank) :
    hasGlyph character.value = false := by
  rw [blank.1]
  decide

/-- A row that is longer than the screen is wide is cleared as it is. -/
theorem Grid.getRow_of_lt {width : Int} (long : width < (grid.row row).length) :
    (grid.getRow row width).row row = grid.row row := by
  have grown : (grid.getRow row width).row row
      = (grid.row row).grow grid.buffer.defaultCharacter width := Buffer.setRow_row ..
  rw [grown]
  exact if_neg (Int.not_le.mpr long)

section Cleared

variable (width : 0 ≤ grid.termWidth)

include width

theorem clearColumns_length :
    ((clearColumns grid row 0 (grid.termWidth - 1)).row row).length
      = max (grid.row row).length grid.termWidth := by
  rw [clearColumns_rowLength grid row le_rfl (by omega), Int.sub_add_cancel]

/-- On the screen no text is left. -/
theorem clearColumns_no_glyph (nonneg : 0 ≤ column) (inside : column < grid.termWidth) :
    hasGlyph (((clearColumns grid row 0 (grid.termWidth - 1)).row row).characters column).value
      = false := by
  have shown := @clearColumns_blank grid row 0 (grid.termWidth - 1) le_rfl (by omega) column nonneg
    (by omega)
  rw [Grid.cell_of_lt _ _ (by rw [clearColumns_length width]; omega)] at shown
  have value := congrArg TerminalChar.value shown
  change _ = (0 : Int) at value
  change hasGlyph (TerminalChar.unmarked _).value = false
  rw [value]
  decide

/-- Beyond the edge a column stays as it is, if it does not hold what is left of a character. -/
theorem clearColumns_beyond (after : grid.termWidth ≤ column)
    (inside : column < (grid.row row).length) :
    (RightRemains (grid.row row).characters (grid.row row).length grid.termWidth column
        → (((clearColumns grid row 0 (grid.termWidth - 1)).row row).characters column).IsBlank)
      ∧ (¬ RightRemains (grid.row row).characters (grid.row row).length grid.termWidth column
        → ((clearColumns grid row 0 (grid.termWidth - 1)).row row).characters column
          = (grid.row row).characters column) := by
  have effect := clearColumns_effect grid row le_rfl (by omega : 0 ≤ grid.termWidth - 1 + 1)
  have cut := effect.cut column
  have kept := effect.kept column (by omega)
  unfold Row.CutAround at cut kept
  rw [Int.sub_add_cancel, Grid.getRow_of_lt (by omega)] at cut kept
  refine ⟨fun remains => cut (.inr remains), fun whole => kept ?_⟩
  rintro (left | right)
  · have := left.1
    omega
  · exact whole right

/-- Clearing leaves the text beyond the edge, and no other. -/
theorem clearColumns_glyph_iff (nonneg : 0 ≤ column)
    (inside : column < ((clearColumns grid row 0 (grid.termWidth - 1)).row row).length) :
    hasGlyph (((clearColumns grid row 0 (grid.termWidth - 1)).row row).characters column).value
        = true
      ↔ (grid.row row).Beyond grid.termWidth column := by
  rw [clearColumns_length width] at inside
  rcases Int.lt_or_le column grid.termWidth with low | high
  · rw [clearColumns_no_glyph width nonneg low]
    refine ⟨fun glyph => absurd glyph Bool.false_ne_true, fun beyond => ?_⟩
    exact absurd low (Int.not_lt.mpr beyond.1.1)
  · have stored : column < (grid.row row).length := by omega
    obtain ⟨cut, kept⟩ := clearColumns_beyond width high stored
    by_cases remains : RightRemains (grid.row row).characters (grid.row row).length
        grid.termWidth column
    · rw [(cut remains).no_glyph]
      refine ⟨fun glyph => absurd glyph Bool.false_ne_true, fun beyond => ?_⟩
      have broken := (RightRemains.glyph_iff beyond.1 beyond.2.1).mp remains
      exact absurd (beyond.2.2 broken.1) broken.2
    · rw [kept remains]
      refine ⟨fun glyph => ⟨⟨high, stored⟩, glyph, fun edge => ?_⟩, fun beyond => beyond.2.1⟩
      by_contra loose
      exact remains ((RightRemains.glyph_iff ⟨high, stored⟩ glyph).mpr ⟨edge, loose⟩)

/-- A whole character at the edge stays whole. -/
theorem clearColumns_held (held : Held (grid.row row).characters grid.termWidth
      (grid.row row).length grid.termWidth) :
    Held ((clearColumns grid row 0 (grid.termWidth - 1)).row row).characters grid.termWidth
      ((clearColumns grid row 0 (grid.termWidth - 1)).row row).length grid.termWidth := by
  obtain ⟨start, after, before, covers, whole⟩ := held
  have edge : start = grid.termWidth := le_antisymm before after
  rw [edge] at covers whole
  have ends := whole.2.1
  have same (other : Int) (low : grid.termWidth ≤ other)
      (high : other < grid.termWidth + ((grid.row row).characters grid.termWidth).width) :
      ((clearColumns grid row 0 (grid.termWidth - 1)).row row).characters other
        = (grid.row row).characters other := by
    refine (clearColumns_beyond width low (by omega)).2 fun remains => remains.2.2 ?_
    exact ⟨grid.termWidth, le_rfl, low, high, whole⟩
  have here := same grid.termWidth le_rfl covers
  rw [clearColumns_length width, max_eq_left (by omega)]
  exact ⟨grid.termWidth, le_rfl, le_rfl, by rw [here]; exact covers, whole.congr same here⟩

theorem clearColumns_beyond_iff :
    ((clearColumns grid row 0 (grid.termWidth - 1)).row other).Beyond grid.termWidth column
      ↔ (grid.row other).Beyond grid.termWidth column := by
  by_cases same : grid.buffer.index other = grid.buffer.index row
  · rw [clearColumns_row same, show grid.row other = grid.row row from congrArg grid.buffer.rows same]
    constructor
    · rintro ⟨⟨after, inside⟩, glyph, _⟩
      exact (clearColumns_glyph_iff width (width.trans after) inside).mp glyph
    · intro beyond
      have after := beyond.1.1
      have longer : column < ((clearColumns grid row 0 (grid.termWidth - 1)).row row).length := by
        rw [clearColumns_length width]
        exact lt_max_of_lt_left beyond.1.2
      exact ⟨⟨after, longer⟩, (clearColumns_glyph_iff width (width.trans after) longer).mpr beyond,
        fun edge => clearColumns_held width (beyond.2.2 edge)⟩
  · rw [clearColumns_others width same]

end Cleared

/-- All text of the row is beyond the edge of the screen. -/
def Row.Swept (row : Row) (width : Int) : Prop :=
  ∀ column, 0 ≤ column → column < row.length → hasGlyph (row.characters column).value = true →
    row.Beyond width column

theorem Row.Swept.textFree_iff {row : Row} {width : Int} (nonneg : 0 ≤ width)
    (swept : row.Swept width) : row.TextFree ↔ ∀ column, ¬ row.Beyond width column := by
  constructor
  · intro free column beyond
    have hidden := free column (nonneg.trans beyond.1.1) beyond.1.2
    exact Bool.false_ne_true (hidden.symm.trans beyond.2.1)
  · intro within column low high
    by_contra shown
    exact within column (swept column low high (Bool.eq_true_of_not_eq_false shown))

theorem clearColumns_swept (width : 0 ≤ grid.termWidth)
    (same : grid.buffer.index other = grid.buffer.index row) :
    ((clearColumns grid row 0 (grid.termWidth - 1)).row other).Swept grid.termWidth := by
  rw [clearColumns_row same]
  intro column nonneg inside glyph
  exact (clearColumns_beyond_iff width).mpr ((clearColumns_glyph_iff width nonneg inside).mp glyph)

/-- Clearing rows does not change what is beyond the edge of the screen. -/
theorem clearRows_beyond_iff (width : 0 ≤ grid.termWidth) :
    ((clearRows remaining row grid).row other).Beyond grid.termWidth column
      ↔ (grid.row other).Beyond grid.termWidth column := by
  induction remaining generalizing row grid with
  | zero => exact Iff.rfl
  | succ remaining ih =>
      have same := (clearColumns_keeps grid row 0 (grid.termWidth - 1)).termWidth
      have rest := @ih (clearColumns grid row 0 (grid.termWidth - 1)) (row + 1)
        (by rw [same]; exact width)
      rw [same] at rest
      exact rest.trans (clearColumns_beyond_iff width)

theorem clearRows_swept (width : 0 ≤ grid.termWidth) {visited : Nat}
    (visit : visited < remaining) :
    ((clearRows remaining row grid).row (row + visited)).Swept grid.termWidth := by
  refine @clearRows_rows grid row remaining (Row.Swept · grid.termWidth) width ?_ visited visit
  intro middle first second kept same
  have wide : 0 ≤ middle.termWidth := by
    rw [kept.termWidth]
    exact width
  have swept := clearColumns_swept wide same
  rwa [kept.termWidth] at swept ⊢

/-- Rows are without text after a call exactly if they store nothing beyond the edge before it. -/
theorem RowsClear.sound_iff {call : RowsClear} (width : 0 ≤ call.grid.termWidth) :
    call.Sound ↔ call.Within := by
  unfold Sound Within after
  rw [clearRange_rows]
  refine forall_congr' fun row => forall_congr' fun covered => ?_
  obtain ⟨low, high⟩ := covered
  have swept : ((clearRows (call.last - call.first + 1).toNat call.first call.grid).row
      (call.first + ((row - call.first).toNat : Int))).Swept call.grid.termWidth :=
    clearRows_swept width (by omega)
  rw [show call.first + ((row - call.first).toNat : Int) = row by omega] at swept
  rw [swept.textFree_iff width]
  exact forall_congr' fun column => not_congr (clearRows_beyond_iff width)

end Left

/-! ## Rows that come into view -/

section Exposed

variable {buffer : Buffer} {row other offset width column : Int}

/-- A row other than the one that is copied to keeps what it stores beyond the edge. -/
theorem bufferCopyRow_beyond (nonneg : 0 ≤ width)
    (apart : buffer.index other ≠ buffer.index (row + offset)) :
    ((bufferCopyRow buffer row offset).row other).Beyond width column
      ↔ (buffer.row other).Beyond width column := by
  have others : (bufferCopyRow buffer row offset).row other
      = (bufferGetRow buffer row 0).row other :=
    (Function.update_of_ne apart ..).trans (Function.update_of_ne apart ..)
  rw [others]
  by_cases same : buffer.index other = buffer.index row
  · have grown : (bufferGetRow buffer row 0).row other
        = (buffer.row other).grow buffer.defaultCharacter 0 := by
      change Function.update buffer.rows (buffer.index row) _ (buffer.index other) = _
      rw [Buffer.row, Buffer.row, same, Function.update_self]
    rw [grown]
    unfold Row.grow
    split
    case isTrue empty =>
      -- Neither row has a column that is not negative.
      constructor
      · rintro ⟨⟨after, inside⟩, _⟩
        exact absurd (nonneg.trans after) (Int.not_le.mpr inside)
      · rintro ⟨⟨after, inside⟩, _⟩
        omega
    case isFalse => exact Iff.rfl
  · rw [show (bufferGetRow buffer row 0).row other = buffer.row other from
      Function.update_of_ne same ..]

theorem bufferCopyRowsLoop_beyond (nonneg : 0 ≤ width) {step : Int} {remaining : Nat}
    (apart : ∀ visited : Nat, visited < remaining →
      buffer.index other ≠ buffer.index (row + visited * step + offset)) :
    ((bufferCopyRowsLoop offset step remaining row buffer).row other).Beyond width column
      ↔ (buffer.row other).Beyond width column := by
  induction remaining generalizing row buffer with
  | zero => exact Iff.rfl
  | succ remaining ih =>
      have first := apart 0 (Nat.succ_pos remaining)
      rw [Int.natCast_zero, Int.zero_mul, Int.add_zero] at first
      refine Iff.trans (ih fun visited bound => ?_) (bufferCopyRow_beyond nonneg first)
      have later := apart (visited + 1) (Nat.succ_lt_succ bound)
      rwa [show row + ((visited + 1 : Nat) : Int) * step = row + step + visited * step by
        rw [Int.natCast_succ, Int.add_mul]; omega] at later

theorem bufferCopyRows_beyond (nonneg : 0 ≤ width) {startRow endRow : Int}
    (apart : ∀ row, startRow ≤ row → row ≤ endRow →
      buffer.index other ≠ buffer.index (row + offset)) :
    ((bufferCopyRows buffer startRow endRow offset).row other).Beyond width column
      ↔ (buffer.row other).Beyond width column := by
  unfold bufferCopyRows
  split
  · exact bufferCopyRowsLoop_beyond nonneg fun visited bound => apart _ (by omega) (by omega)
  · exact bufferCopyRowsLoop_beyond nonneg fun visited bound => apart _ (by omega) (by omega)

/-- What a row that is exposed stores beyond the edge, in terms of the rows before the scroll: the
ring hands out the row that has been farthest in the past when the whole screen scrolls, and in a
region that the ring holds the row itself is left. -/
theorem scrollUpClear_exposed {grid : Grid} {startRow endRow amount : Int} (nonneg : 0 ≤ width)
    (positive : 0 < grid.buffer.available) (room : endRow - startRow < grid.buffer.available)
    (summed : FitsInt (startRow + amount)) (negated : FitsInt (-amount))
    (low : endRow - amount < row) (high : row ≤ endRow) :
    ((scrollUpClear grid startRow endRow amount).grid.row row).Beyond width column
      ↔ (grid.row (if startRow = 0 ∧ endRow = grid.termHeight - 1 then row + amount
          else row)).Beyond width column := by
  unfold scrollUpClear
  dsimp only
  split
  case isTrue =>
    have moved := Buffer.advance_index positive amount (row + amount)
    rw [Int.add_sub_cancel] at moved
    rw [Grid.row, advance_buffer, Buffer.row, moved]
    rfl
  case isFalse =>
    rw [toInt_of_fits summed, toInt_of_fits negated, Grid.row, copyRows_buffer]
    refine bufferCopyRows_beyond nonneg fun source first last same => ?_
    have near := Buffer.index_near positive (by omega) (by omega) same
    omega

end Exposed

/-! ## Runs -/

/-- What the action clears by scrolling or erasing has no text afterwards. -/
def StaleFree (platform : Platform) (term : Term) : RegionAction → Prop
  | .write c =>
      let op := operation platform term c
      ∀ call ∈ term.clears op, ∀ row, call.Covers row →
        ((term.cleared platform op).row row).TextFree
  | .resize _ _ => True

/-- The rows that the action is about to clear store nothing beyond the edge of the screen. -/
def StoredWithin (platform : Platform) (term : Term) : RegionAction → Prop
  | .write c => ∀ call ∈ term.clears (operation platform term c), call.Within
  | .resize _ _ => True

section Runs

variable (platform : Platform) {metrics : FontMetrics}

theorem staleFree_iff {term : Term} (width : 0 ≤ term.grid.termWidth) (action : RegionAction) :
    StaleFree platform term action ↔ StoredWithin platform term action := by
  cases action with
  | write c =>
      refine forall_congr' fun call => forall_congr' fun made => ?_
      have spec := @Console.clears_spec platform _ _ _ made
      rw [spec.1]
      refine RowsClear.sound_iff ?_
      rw [spec.2]
      exact width
  | resize width height => exact Iff.rfl

theorem calculateRowsAndColumns_nonneg (glyphs : 0 ≤ metrics.charWidth) (height width : Int) :
    0 ≤ (calculateRowsAndColumns metrics height width).2 :=
  le_min (Int.tdiv_nonneg (le_max_right _ _) glyphs) (by decide)

theorem regionStep_width_nonneg (glyphs : 0 ≤ metrics.charWidth) {term : Term}
    (width : 0 ≤ term.grid.termWidth) (action : RegionAction) :
    0 ≤ (regionStep platform metrics term action).grid.termWidth := by
  cases action with
  | write c =>
      change 0 ≤ (writeByte platform term c).toConsole.grid.termWidth
      rw [writeByte_toConsole, (perform_sameSize ..).termWidth]
      exact width
  | resize columns rows =>
      change 0 ≤ (resizeRowsColumns term.toConsole _ _).grid.termWidth
      unfold resizeRowsColumns
      split
      · exact calculateRowsAndColumns_nonneg glyphs rows columns
      · exact width

/-- **No text is left in rows that scrolling exposes or `CSI 2 J` erases exactly if they store
nothing beyond the edge of the screen.** -/
theorem stale_text_free_iff (glyphs : 0 ≤ metrics.charWidth) (options : TerminalOptions)
    (actions : List RegionAction) :
    Guarded (regionStep platform metrics) (StaleFree platform) (create metrics options) actions
      ↔ Guarded (regionStep platform metrics) (StoredWithin platform) (create metrics options)
        actions := by
  have initial : 0 ≤ (create metrics options).grid.termWidth := by
    rw [(create_sameSize metrics options).2]
    exact calculateRowsAndColumns_nonneg glyphs ..
  exact guarded_iff_of_invariant initial
    (fun term action width => regionStep_width_nonneg platform glyphs width action)
    (fun term action width => staleFree_iff platform width action)

end Runs

/-- A row that is no longer than the screen is wide stores nothing beyond the edge. -/
theorem Row.not_beyond_of_le {row : Row} {width column : Int} (short : row.length ≤ width) :
    ¬ row.Beyond width column := by
  rintro ⟨⟨after, inside⟩, _⟩
  omega

/-- The cursor is moved to the second column and the only row scrolls. -/
theorem stale_text_free_scrolled :
    Guarded (regionStep samplePlatform sampleMetrics) (StaleFree samplePlatform)
      (create sampleMetrics (sampleOptions 1 2)) [.write 0x09, .write 0x0A] := by
  have glyphs : 0 ≤ sampleMetrics.charWidth := by decide
  have moved : StoredWithin samplePlatform (create sampleMetrics (sampleOptions 1 2))
      (.write 0x09) := by
    intro call made
    cases made
  have scrolled : StoredWithin samplePlatform (regionStep samplePlatform sampleMetrics
      (create sampleMetrics (sampleOptions 1 2)) (.write 0x09)) (.write 0x0A) := by
    have single : ((regionStep samplePlatform sampleMetrics
        (create sampleMetrics (sampleOptions 1 2)) (.write 0x09)).clears (operation samplePlatform
        (regionStep samplePlatform sampleMetrics (create sampleMetrics (sampleOptions 1 2))
          (.write 0x09)) 0x0A)).all (fun call => decide (call.first = 0 ∧ call.last = 0
        ∧ (call.grid.row 0).length ≤ call.grid.termWidth)) = true := by decide +kernel
    intro call made row covered column
    rw [made] at single
    obtain ⟨first, last, short⟩ := of_decide_eq_true single
    have only : row = 0 := le_antisymm (last ▸ covered.2) (first ▸ covered.1)
    rw [only]
    exact Row.not_beyond_of_le short
  exact (stale_text_free_iff samplePlatform glyphs (sampleOptions 1 2) _).mpr
    ⟨moved, scrolled, trivial⟩

/-! ## A letter that is left -/

section Letter

variable {platform : Platform} {term : Term} {c : UInt8}

theorem regionStep_nothing {metrics : FontMetrics} (quiet : operation platform term c = .nothing) :
    (regionStep platform metrics term (.write c)).grid = term.grid := by
  change (writeByte platform term c).toConsole.grid = _
  rw [writeByte_toConsole, quiet]
  rfl

/-- A character is printed at the cursor if the cursor is not past the last column. -/
theorem writeByte_print {codepoint : Int} (printed : operation platform term c = .print codepoint)
    (room : term.cursorCol < term.grid.termWidth) (plain : term.insertMode = false) :
    (writeByte platform term c).grid
      = terminalSet platform term.grid term.cursorRow term.cursorCol codepoint := by
  rw [writeByte_toConsole, printed]
  have stays : wrapCursor term.toConsole = term.toConsole := if_neg (Int.not_le.mpr room)
  have unshifted : insertShift term.toConsole = term.toConsole :=
    if_neg (by rw [plain]; exact Bool.false_ne_true)
  change (printAtCursor platform (insertShift (wrapCursor term.toConsole)) codepoint).grid = _
  rw [stays, unshifted]
  rfl

/-- Making the terminal narrower keeps what is stored. -/
theorem resizeRowsColumns_narrower {console : Console} {rows columns : Int}
    (same : rows = console.grid.termHeight) (narrower : columns < console.grid.termWidth) :
    (resizeRowsColumns console rows columns).grid.buffer = console.grid.buffer
      ∧ (resizeRowsColumns console rows columns).grid.termWidth = columns
      ∧ (resizeRowsColumns console rows columns).grid.termHeight = rows := by
  have changed : columns ≠ console.grid.termWidth ∨ rows ≠ console.grid.termHeight :=
    .inl narrower.ne
  have shrunk : resizeShrink console columns rows = console := if_neg (by omega)
  have grown (before : Console) (height : before.grid.termHeight = rows) :
      resizeGrow before columns rows = before :=
    if_neg fun taller => absurd taller.1 (by omega)
  unfold resizeRowsColumns
  rw [if_pos changed]
  refine ⟨?_, rfl, rfl⟩
  unfold resizeCells
  dsimp only
  have unwidened : ¬ columns > (resizeDisplay console.grid columns rows).termWidth :=
    Int.not_lt.mpr narrower.le
  rw [shrunk, if_neg unwidened, grown]
  · rfl
  · exact same.symm

/-- A character of one column is stored in the column that it is written to. -/
theorem setColumns_stored (grid : Grid) (row : Int) {column : Int} {character : TerminalChar}
    (nonneg : 0 ≤ column) (solid : character.value ≠ charContinuation)
    (narrow : character.width = 1) :
    column < ((setColumns grid row column column character).row row).length
      ∧ (((setColumns grid row column column character).row row).characters column).value
        = character.value
      ∧ (((setColumns grid row column column character).row row).characters column).width = 1 := by
  have effect := @setColumns_effect row column column character grid nonneg (by omega)
    (by omega) solid (by rw [narrow]; exact one_dvd _)
    (fun _ => by rw [narrow]; exact Int.emod_one _)
  have long := effect.length
  rw [Grid.getRow_length] at long
  refine ⟨by omega, ?_⟩
  rw [effect.written column le_rfl le_rfl]
  unfold Grid.written
  dsimp only
  rw [sub_self, Int.zero_emod, if_pos rfl]
  split
  · exact ⟨rfl, narrow⟩
  · exact ⟨rfl, narrow⟩

/-- A character that is printed where the edge of the screen is afterwards, when the terminal has
become narrower, is stored beyond it. -/
theorem narrowed_beyond {metrics : FontMetrics} {codepoint width height : Int}
    (printed : operation platform term c = .print codepoint)
    (narrow : platform.wc.columns codepoint = 1) (glyph : hasGlyph codepoint = true)
    (nonneg : 0 ≤ term.cursorCol) (room : term.cursorCol < term.grid.termWidth)
    (plain : term.insertMode = false)
    (cells : calculateRowsAndColumns metrics height width
      = (term.grid.termHeight, term.cursorCol)) :
    ((resize metrics (writeByte platform term c) width height).grid.row term.cursorRow).Beyond
        (resize metrics (writeByte platform term c) width height).grid.termWidth term.cursorCol
      ∧ (resize metrics (writeByte platform term c) width height).grid.termWidth = term.cursorCol
      ∧ (resize metrics (writeByte platform term c) width height).grid.termHeight
        = term.grid.termHeight := by
  have solid : codepoint ≠ charContinuation := by
    rintro rfl
    exact absurd glyph (by decide)
  have stored : (writeByte platform term c).grid
      = setColumns term.grid term.cursorRow term.cursorCol term.cursorCol
        { value := codepoint, attributes := term.grid.currentAttributes, width := 1 } := by
    rw [writeByte_print printed room plain]
    unfold terminalSet
    rw [narrow, if_neg one_ne_zero, Int.natCast_one, Int.add_sub_cancel]
  have keeps := setColumns_keeps term.grid term.cursorRow term.cursorCol term.cursorCol
    { value := codepoint, attributes := term.grid.currentAttributes, width := 1 }
  rw [← stored] at keeps
  obtain ⟨same, columns, rows⟩ := @resizeRowsColumns_narrower (writeByte platform term c).toConsole
    term.grid.termHeight term.cursorCol keeps.termHeight.symm (keeps.termWidth.symm ▸ room)
  unfold resize
  rw [cells]
  refine ⟨?_, columns, rows⟩
  obtain ⟨long, value, single⟩ := @setColumns_stored term.grid term.cursorRow term.cursorCol
    { value := codepoint, attributes := term.grid.currentAttributes, width := 1 } nonneg solid rfl
  rw [← stored] at long value single
  change ((resizeRowsColumns (writeByte platform term c).toConsole term.grid.termHeight
    term.cursorCol).grid.buffer.row term.cursorRow).Beyond (resizeRowsColumns
      (writeByte platform term c).toConsole term.grid.termHeight term.cursorCol).grid.termWidth _
  rw [same, columns]
  refine ⟨⟨le_rfl, long⟩, value.symm ▸ glyph, fun _ => ?_⟩
  exact Held.of_narrow (by rw [Continued]; exact value.symm ▸ solid) single le_rfl long

/-- Erasing the screen leaves the character then. -/
theorem narrowed_not_staleFree {metrics : FontMetrics} {codepoint width height : Int} {after : Term}
    {final : UInt8} (printed : operation platform term c = .print codepoint)
    (narrow : platform.wc.columns codepoint = 1) (glyph : hasGlyph codepoint = true)
    (nonneg : 0 ≤ term.cursorCol) (room : term.cursorCol < term.grid.termWidth)
    (plain : term.insertMode = false)
    (low : 0 ≤ term.cursorRow) (high : term.cursorRow < term.grid.termHeight)
    (cells : calculateRowsAndColumns metrics height width
      = (term.grid.termHeight, term.cursorCol))
    (same : after.grid = (regionStep platform metrics
      (regionStep platform metrics term (.write c)) (.resize width height)).grid)
    (made : after.clears (operation platform after final)
      = some { grid := after.grid, first := 0, last := after.grid.termHeight - 1 }) :
    ¬ StaleFree platform after (.write final) := by
  obtain ⟨beyond, columns, rows⟩ := narrowed_beyond printed narrow glyph nonneg room plain cells
  change after.grid = (resize metrics (writeByte platform term c) width height).grid at same
  rw [← same] at beyond columns rows
  intro free
  have within := (staleFree_iff platform (columns.symm ▸ nonneg) _).mp free _ made
  refine within term.cursorRow ⟨low, ?_⟩ term.cursorCol beyond
  change term.cursorRow ≤ after.grid.termHeight - 1
  omega

end Letter

/-- The letter in the second column is left when the terminal has become narrower by one column and
the bytes of `CSI 2 J` are written. -/
theorem erased_row_keeps_text :
    ¬ Guarded (regionStep samplePlatform sampleMetrics) (StaleFree samplePlatform)
      (create sampleMetrics (sampleOptions 1 2))
      [.write 0x09, .write 0x62, .resize 24 16, .write 0x1B, .write 0x5B, .write 0x32,
        .write 0x4A] := by
  intro free
  refine @narrowed_not_staleFree samplePlatform (regionStep samplePlatform sampleMetrics
    (create sampleMetrics (sampleOptions 1 2)) (.write 0x09)) 0x62 sampleMetrics 0x62 24 16 _ _ rfl
    (by decide) (by decide) (by decide +kernel) (by decide +kernel) (by decide +kernel)
    (by decide +kernel) (by decide +kernel) (by decide +kernel) ?_ ?_ free.2.2.2.2.2.2.1
  · rw [regionStep_nothing rfl, regionStep_nothing rfl, regionStep_nothing rfl]
  · rfl

end GuacNebula.Terminal
