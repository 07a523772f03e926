import Mathlib.Data.Int.Order.Basic

/-! # Characters, attributes and colours of the terminal

The data types shared by the terminal, its scrollback buffer and its display, with the small
functions on them. Fixed-width colour components are `UInt8`, as in the source; widths and
codepoints are integers.
-/

namespace GuacNebula.Terminal

/-- A colour of the terminal: its index within the palette, or -1, and its components. -/
structure Color where
  paletteIndex : Int
  red : UInt8
  green : UInt8
  blue : UInt8
  deriving DecidableEq, Repr, Inhabited

/-- `GUAC_TERMINAL_COLOR_FOREGROUND`: the pseudo-index of the default foreground. -/
def colorForeground : Int := -2

/-- `GUAC_TERMINAL_COLOR_BACKGROUND`: the pseudo-index of the default background. -/
def colorBackground : Int := -3

/-- The colours of a display: its palette and its defaults. -/
structure Colors where
  palette : Int → Color
  defaultForeground : Color
  defaultBackground : Color

/-- `guac_terminal_display_lookup_color`. -/
def displayLookupColor (display : Colors) (index : Int) : Option Color :=
  if index = colorForeground then some display.defaultForeground
  else if index = colorBackground then some display.defaultBackground
  else if index < 0 ∨ index > 255 then none
  else some (display.palette index)

/-- The attributes a character is rendered with. -/
structure Attributes where
  bold : Bool
  halfBright : Bool
  reverse : Bool
  cursor : Bool
  underscore : Bool
  foreground : Color
  background : Color
  deriving DecidableEq, Repr, Inhabited

/-- A character as it stands in the buffer and in display operations. A width is a number of
columns and never negative. -/
structure TerminalChar where
  value : Int
  attributes : Attributes
  width : Nat
  deriving DecidableEq, Repr, Inhabited

/-- `GUAC_CHAR_CONTINUATION`: the value of a cell that belongs to the character to its left. -/
def charContinuation : Int := -1

/-- Whether a codepoint has anything to draw besides its background. -/
def hasGlyph (codepoint : Int) : Bool :=
  codepoint ≠ 0 && codepoint ≠ 32 && codepoint ≠ charContinuation

/-- The value nearest to `value` within the given bounds. -/
def fitToRange (value min max : Int) : Int :=
  if value < min then min else if value > max then max else value

theorem fitToRange_of_mem {value min max : Int} (lower : min ≤ value) (upper : value ≤ max) :
    fitToRange value min max = value := by
  rw [fitToRange, if_neg (not_lt.mpr lower), if_neg (not_lt.mpr upper)]

theorem fitToRange_bounds {min max : Int} (value : Int) (bounds : min ≤ max) :
    min ≤ fitToRange value min max ∧ fitToRange value min max ≤ max := by
  unfold fitToRange
  split
  · exact ⟨le_refl _, bounds⟩
  · split
    · exact ⟨bounds, le_refl _⟩
    · omega

/-- The order of colours: by palette index alone where both have one, by components otherwise. -/
def colorcmp (a b : Color) : Int :=
  if a.paletteIndex ≠ -1 ∧ b.paletteIndex ≠ -1 then a.paletteIndex - b.paletteIndex
  else if a.red ≠ b.red then a.red.toNat - b.red.toNat
  else if a.green ≠ b.green then a.green.toNat - b.green.toNat
  else if a.blue ≠ b.blue then a.blue.toNat - b.blue.toNat
  else 0

/-- The width in columns of a codepoint, as the C library tells it. The library is not part of
this repository: a codepoint that is not printable has width -1, a space takes one column,
and no character takes more than `GUAC_TERMINAL_MAX_CHAR_WIDTH` columns. -/
structure Wcwidth where
  wcwidth : Int → Int
  space : wcwidth 32 = 1
  atMostTwo : ∀ codepoint, wcwidth codepoint ≤ 2
  atLeastMinusOne : ∀ codepoint, -1 ≤ wcwidth codepoint

/-- The columns drawn for a codepoint: what is not printable is drawn in one. -/
def Wcwidth.columns (wc : Wcwidth) (codepoint : Int) : Nat :=
  if wc.wcwidth codepoint < 0 then 1 else (wc.wcwidth codepoint).toNat

theorem Wcwidth.columns_le_two (wc : Wcwidth) (codepoint : Int) : wc.columns codepoint ≤ 2 := by
  have bound := wc.atMostTwo codepoint
  unfold Wcwidth.columns
  split <;> omega

@[simp] theorem Wcwidth.columns_space (wc : Wcwidth) : wc.columns 32 = 1 := by
  rw [Wcwidth.columns, wc.space]
  rfl

/-- The widths of the codepoints used in examples: control characters are not printable,
combining marks take no column, and the blocks of East Asian characters take two. -/
def sampleWcwidth : Wcwidth where
  wcwidth codepoint :=
    if codepoint = 0 then 0
    else if codepoint < 32 ∨ codepoint = 127 then -1
    else if 0x300 ≤ codepoint ∧ codepoint ≤ 0x36F then 0
    else if 0x1100 ≤ codepoint ∧ codepoint ≤ 0xFFFF then 2
    else 1
  space := rfl
  atMostTwo := by
    intro codepoint
    repeat' split
    all_goals decide
  atLeastMinusOne := by
    intro codepoint
    repeat' split
    all_goals decide

end GuacNebula.Terminal
