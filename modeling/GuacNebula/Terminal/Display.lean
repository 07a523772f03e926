import Mathlib.Data.Int.Interval
import Mathlib.Data.List.Range
import GuacNebula.Terminal.Types

/-! # The terminal display

The display keeps one pending operation for each of its cells. Calls change the pending
operations only, and a flush turns them into surface commands: rectangles to copy, rectangles
to fill, and glyphs to draw, in this order. A place is a row and a column, and the surface is
a function from places to what is painted there, its pixels being taken together cell by cell.
All rectangles lie within the surface, so that the surface's clipping matters to glyphs alone.
-/

namespace GuacNebula.Terminal

/-- A cell of the display: its row and its column. -/
abbrev Place := Int × Int

/-- What the surface holds in its cells. -/
abbrev Screen (Paint : Type*) := Place → Paint

/-- An operation pending for a cell. -/
inductive Operation where
  | nop
  | copy (row column : Int)
  | set (character : TerminalChar)
  deriving DecidableEq, Repr

/-- The display: its size, its pending operations, and the colours it renders with. -/
structure Display extends Colors where
  width : Int
  height : Int
  operations : Place → Operation

/-- A call that queues operations. -/
inductive DisplayCall where
  | setColumns (row startColumn endColumn : Int) (character : TerminalChar)
  | copyRows (startRow endRow offset : Int)
  | copyColumns (row startColumn endColumn offset : Int)
  deriving DecidableEq, Repr

/-- The operation to store where `operation` has been moved to: what was not pending is copied
from the place it was at. -/
def Operation.orCopy (operation : Operation) (row column : Int) : Operation :=
  match operation with
  | .nop => .copy row column
  | _ => operation

/-- The position of a range of rows or columns after both of its ends, and the ends it is moved
to, have been fitted within the display. -/
def fitRange (start stop offset limit : Int) : Int × Int :=
  let start := fitToRange start 0 (limit - 1)
  let stop := fitToRange stop 0 (limit - 1)
  (fitToRange (start + offset) 0 (limit - 1) - offset,
    fitToRange (stop + offset) 0 (limit - 1) - offset)

/-- `guac_terminal_display_copy_columns`: the pending operations of a range of columns are moved
by `offset`, and cells without one become copies. -/
def displayCopyColumns (display : Display) (row startColumn endColumn offset : Int) : Display :=
  if row < 0 ∨ row ≥ display.height then display
  else
    let range := fitRange startColumn endColumn offset display.width
    { display with
      operations := fun place =>
        if place.1 = row ∧ range.1 + offset ≤ place.2 ∧ place.2 ≤ range.2 + offset then
          (display.operations (row, place.2 - offset)).orCopy row (place.2 - offset)
        else display.operations place }

/-- `guac_terminal_display_copy_rows`: the pending operations of a range of rows are moved by
`offset`, and cells without one become copies. -/
def displayCopyRows (display : Display) (startRow endRow offset : Int) : Display :=
  let range := fitRange startRow endRow offset display.height
  { display with
    operations := fun place =>
      if range.1 + offset ≤ place.1 ∧ place.1 ≤ range.2 + offset
          ∧ 0 ≤ place.2 ∧ place.2 < display.width then
        (display.operations (place.1 - offset, place.2)).orCopy (place.1 - offset) place.2
      else display.operations place }

/-- `guac_terminal_display_set_columns`: the character is set at every `width`-th column of the
range. The cells in between keep the operation they had. -/
def displaySetColumns (display : Display) (row startColumn endColumn : Int)
    (character : TerminalChar) : Display :=
  if character.width = 0 then display
  else if row < 0 ∨ row ≥ display.height then display
  else
    let start := fitToRange startColumn 0 (display.width - 1)
    let stop := fitToRange endColumn 0 (display.width - 1)
    { display with
      operations := fun place =>
        if place.1 = row ∧ start ≤ place.2 ∧ place.2 ≤ stop
            ∧ (place.2 - start) % character.width = 0 then
          .set character
        else display.operations place }

/-- One queueing call. -/
def Display.call (display : Display) : DisplayCall → Display
  | .setColumns row startColumn endColumn character =>
      displaySetColumns display row startColumn endColumn character
  | .copyRows startRow endRow offset => displayCopyRows display startRow endRow offset
  | .copyColumns row startColumn endColumn offset =>
      displayCopyColumns display row startColumn endColumn offset

/-! ## Colours -/

/-- The colour behind a character before it is looked up: reversed characters, and characters
under the cursor, are drawn on their foreground. -/
def Attributes.ground (attributes : Attributes) : Color :=
  if attributes.reverse ≠ attributes.cursor then attributes.foreground else attributes.background

/-- A colour as the palette of the display has it. -/
def Display.resolve (display : Display) (color : Color) : Color :=
  (displayLookupColor display.toColors color.paletteIndex).getD color

/-- `__guac_terminal_set_colors`: the foreground and the background that glyphs with the given
attributes are rendered in. -/
def setColors (display : Display) (attributes : Attributes) : Color × Color :=
  let background := attributes.ground
  let foreground :=
    if attributes.reverse ≠ attributes.cursor then attributes.background else attributes.foreground
  let foreground :=
    if attributes.bold && !attributes.halfBright && 0 ≤ foreground.paletteIndex
        && foreground.paletteIndex ≤ 7 then
      display.palette (foreground.paletteIndex + 8)
    else foreground
  let foreground := display.resolve foreground
  let foreground :=
    if attributes.halfBright && !attributes.bold then
      { foreground with
        red := foreground.red / 2
        green := foreground.green / 2
        blue := foreground.blue / 2 }
    else foreground
  (foreground, display.resolve background)

/-- What is painted in a cell: the components of its background and, where it shows a part of a
glyph, the codepoint, the components of its colour, and which of its columns is shown. -/
structure Look where
  background : UInt8 × UInt8 × UInt8
  ink : Option (Int × (UInt8 × UInt8 × UInt8) × Nat)
  deriving DecidableEq, Repr, Inhabited

/-- The components of a colour. -/
def Color.components (color : Color) : UInt8 × UInt8 × UInt8 :=
  (color.red, color.green, color.blue)

/-! ## The surface -/

/-- The places of a rectangle with a corner at the origin, row after row. -/
def scan (height width : Int) : List Place :=
  (List.range height.toNat).flatMap fun (row : Nat) =>
    (List.range width.toNat).map fun (column : Nat) => ((row : Int), (column : Int))

/-- A rectangle to be copied within the surface. -/
structure CopyRect where
  source : Place
  target : Place
  width : Int
  height : Int
  deriving DecidableEq, Repr

/-- A rectangle to be filled with one colour. -/
structure FillRect where
  target : Place
  width : Int
  height : Int
  color : Color
  deriving DecidableEq, Repr

/-- A glyph to be drawn. -/
structure Draw where
  row : Int
  column : Int
  codepoint : Int
  foreground : Color
  background : Color
  deriving DecidableEq, Repr

/-- The part of `guac_common_surface_copy` that moves cells within one surface
(`__guac_common_surface_transfer`): forwards only if the destination is before the source,
backwards otherwise. The pixels that stand at the same position in their cells are visited in
this order, and no other pixel reads or writes them. -/
def surfaceCopy {Paint : Type*} (screen : Screen Paint) (rect : CopyRect) : Screen Paint :=
  let forwards := rect.target.1 < rect.source.1
    ∨ (rect.target.1 = rect.source.1 ∧ rect.target.2 < rect.source.2)
  let order := scan rect.height rect.width
  (if forwards then order else order.reverse).foldl
    (fun current at_ => Function.update current (rect.target + at_) (current (rect.source + at_)))
    screen

/-- The places a rectangle covers. -/
def FillRect.Covers (rect : FillRect) (place : Place) : Prop :=
  rect.target.1 ≤ place.1 ∧ place.1 < rect.target.1 + rect.height
    ∧ rect.target.2 ≤ place.2 ∧ place.2 < rect.target.2 + rect.width

instance (rect : FillRect) (place : Place) : Decidable (rect.Covers place) :=
  inferInstanceAs (Decidable (_ ∧ _ ∧ _ ∧ _))

/-- `guac_common_surface_set` over the cells of a rectangle. -/
def surfaceSet (screen : Screen Look) (rect : FillRect) : Screen Look := fun place =>
  if rect.Covers place then { background := rect.color.components, ink := none } else screen place

/-- The surface command of `__guac_terminal_set`: the glyph on its background, clipped at the
right edge of the surface. A space has no ink. -/
def surfaceDraw (wc : Wcwidth) (width : Int) (screen : Screen Look) (draw : Draw) :
    Screen Look := fun place =>
  if place.1 = draw.row ∧ draw.column ≤ place.2
      ∧ place.2 < draw.column + wc.columns draw.codepoint ∧ place.2 < width then
    { background := draw.background.components
      ink :=
        if draw.codepoint = 32 then none
        else some (draw.codepoint, draw.foreground.components, (place.2 - draw.column).toNat) }
  else screen place

/-! ## Rectangles of equal operations

`__guac_terminal_display_flush_copy` and `__guac_terminal_display_flush_clear` grow rectangles
in the same way: to the right as far as the operations fit together, and then downwards as long
as a row fits as far to the right as the first one did. -/

/-- `rect_col` where the loop over the columns of a row stops. -/
def rectColumn (fits : Place → Bool) (row : Int) : Nat → Int → Int
  | 0, column => column
  | remaining + 1, column =>
      if fits (row, column) then rectColumn fits row remaining (column + 1) else column

/-- `detected_right` and `detected_bottom` where the loop over the rows stops. -/
def rectBounds (fits : Place → Bool) (width column : Int) :
    Nat → Int → Int → Int → Int × Int
  | 0, _, right, bottom => (right, bottom)
  | remaining + 1, row, right, bottom =>
      let stop := rectColumn fits row (width - column).toNat column
      if stop - 1 < right then (right, bottom)
      else rectBounds fits width column remaining (row + 1)
        (if right = -1 then stop - 1 else right) row

/-- The last column and the last row of the rectangle that starts at a place. -/
def Display.detect (display : Display) (fits : Place → Bool) (start : Place) : Int × Int :=
  rectBounds fits display.width start.2 (display.height - start.1).toNat start.1 (-1) start.1

/-- The operations once those of a rectangle that fit have been marked as handled. -/
def markHandled (operations : Place → Operation) (fits : Place → Bool) (start stop : Place) :
    Place → Operation := fun place =>
  if start.1 ≤ place.1 ∧ place.1 ≤ stop.1 ∧ start.2 ≤ place.2 ∧ place.2 ≤ stop.2
      ∧ fits place then
    .nop
  else operations place

/-! ## Flushing -/

/-- Whether the operation of a place continues the copy from `source` that starts at `start`. -/
def Display.continuesCopy (display : Display) (start source place : Place) : Bool :=
  display.operations place
    = .copy (source.1 + (place.1 - start.1)) (source.2 + (place.2 - start.2))

/-- The visit of one cell by `__guac_terminal_display_flush_copy`, with the rectangles copied
so far. -/
def flushCopyAt (state : Display × List CopyRect) (place : Place) : Display × List CopyRect :=
  match state.1.operations place with
  | .copy row column =>
      let fits := state.1.continuesCopy place (row, column)
      let corner := state.1.detect fits place
      ({ state.1 with
          operations := markHandled state.1.operations fits place (corner.2, corner.1) },
        state.2 ++ [{
          source := (row, column)
          target := place
          width := corner.1 - place.2 + 1
          height := corner.2 - place.1 + 1 }])
  | _ => state

/-- `__guac_terminal_display_flush_copy`. -/
def flushCopy (display : Display) : Display × List CopyRect :=
  (scan display.height display.width).foldl flushCopyAt (display, [])

/-- Whether a place is to be cleared to a colour that compares equal to `color`. -/
def Display.clearsTo (display : Display) (color : Color) (place : Place) : Bool :=
  match display.operations place with
  | .set character =>
      !hasGlyph character.value && colorcmp character.attributes.ground color = 0
  | _ => false

/-- The visit of one cell by `__guac_terminal_display_flush_clear`, with the rectangles filled
so far. -/
def flushClearAt (state : Display × List FillRect) (place : Place) : Display × List FillRect :=
  match state.1.operations place with
  | .set character =>
      if hasGlyph character.value then state
      else
        let color := state.1.resolve character.attributes.ground
        let fits := state.1.clearsTo color
        let corner := state.1.detect fits place
        ({ state.1 with
            operations := markHandled state.1.operations fits place (corner.2, corner.1) },
          state.2 ++ [{
            target := place
            width := corner.1 - place.2 + 1
            height := corner.2 - place.1 + 1
            color := color }])
  | _ => state

/-- `__guac_terminal_display_flush_clear`. -/
def flushClear (display : Display) : Display × List FillRect :=
  (scan display.height display.width).foldl flushClearAt (display, [])

/-- The codepoint that is drawn for a character: a space where there is no glyph. -/
def TerminalChar.drawn (character : TerminalChar) : Int :=
  if hasGlyph character.value then character.value else 32

/-- The visit of one cell by `__guac_terminal_display_flush_set`, with the glyphs drawn so far. -/
def flushSetAt (state : Display × List Draw) (place : Place) : Display × List Draw :=
  match state.1.operations place with
  | .set character =>
      let colors := setColors state.1 character.attributes
      ({ state.1 with operations := Function.update state.1.operations place .nop },
        state.2 ++ [{
          row := place.1
          column := place.2
          codepoint := character.drawn
          foreground := colors.1
          background := colors.2 }])
  | _ => state

/-- `__guac_terminal_display_flush_set`. -/
def flushSet (display : Display) : Display × List Draw :=
  (scan display.height display.width).foldl flushSetAt (display, [])

/-- `guac_terminal_display_flush`: copies first, then clears, then sets, each command being
executed by the surface at once. -/
def displayFlush (wc : Wcwidth) (display : Display) (screen : Screen Look) :
    Display × Screen Look :=
  let (copied, copies) := flushCopy display
  let (cleared, fills) := flushClear copied
  let (settled, draws) := flushSet cleared
  (settled,
    draws.foldl (surfaceDraw wc display.width)
      (fills.foldl surfaceSet (copies.foldl surfaceCopy screen)))

/-! ## The screen the calls describe -/

/-- What a call does when it is applied directly to the cells of a screen. `paint` is what a
column of a character looks like. -/
def DisplayCall.apply {Paint : Type*} (paint : TerminalChar → Nat → Paint) (height width : Int)
    (screen : Screen Paint) : DisplayCall → Screen Paint
  | .setColumns row startColumn endColumn character => fun place =>
      let start := fitToRange startColumn 0 (width - 1)
      let stop := fitToRange endColumn 0 (width - 1)
      let part := (place.2 - start) % character.width
      if character.width ≠ 0 ∧ 0 ≤ row ∧ row < height ∧ place.1 = row ∧ place.2 < width
          ∧ start ≤ place.2 ∧ place.2 - part ≤ stop then
        paint character part.toNat
      else screen place
  | .copyRows startRow endRow offset => fun place =>
      let range := fitRange startRow endRow offset height
      if range.1 + offset ≤ place.1 ∧ place.1 ≤ range.2 + offset
          ∧ 0 ≤ place.2 ∧ place.2 < width then
        screen (place.1 - offset, place.2)
      else screen place
  | .copyColumns row startColumn endColumn offset => fun place =>
      let range := fitRange startColumn endColumn offset width
      if 0 ≤ row ∧ row < height ∧ place.1 = row
          ∧ range.1 + offset ≤ place.2 ∧ place.2 ≤ range.2 + offset then
        screen (row, place.2 - offset)
      else screen place

/-- What a column of a character looks like on a display. -/
def Display.paint (display : Display) (character : TerminalChar) (part : Nat) : Look :=
  let colors := setColors display character.attributes
  { background := colors.2.components
    ink :=
      if hasGlyph character.value then some (character.value, colors.1.components, part) else none }

end GuacNebula.Terminal
