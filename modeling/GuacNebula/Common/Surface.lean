import GuacNebula.Common.Rect
import GuacNebula.Lib.CInt
import Mathlib.Data.UInt
import Mathlib.Logic.Function.Basic

/-! # Surfaces

A surface is the local copy of a layer. The functions of this module draw into its buffer and
narrow the rectangle that was drawn to the pixels that got another colour: no pixel outside of the
narrowed rectangle has changed (`Narrowed`).

The properties of layers, their location, opacity and support of touch, are left out. A buffer is
the colour of every point, of which the points within the bounds of the surface are stored.
-/

namespace GuacNebula.Common

open CInt

/-- The colours of a buffer, as ARGB with 8 bits each. -/
abbrev Pixels := Point → UInt32

/-- An image given by the caller. It is opaque if its format is not `CAIRO_FORMAT_ARGB32`. -/
structure Image where
  width : Int
  height : Int
  pixels : Pixels
  isOpaque : Bool

/-- `guac_common_surface_heat_cell`. -/
structure HeatCell where
  history : Vector Int 5 := Vector.replicate 5 0
  oldestEntry : Fin 5 := 0

/-- `guac_common_surface_bitmap_rect`. -/
structure BitmapRect where
  rect : Rect
  flushed : Bool := false
  deriving DecidableEq, Repr

/-- `guac_common_surface`. The program has no `overflow`: it is set when a rectangle is stored
behind the end of the queue. -/
structure Surface where
  width : Int
  height : Int
  lossless : Bool := false
  pixels : Pixels := fun _ => 0
  dirty : Bool := false
  dirtyRect : Rect := ⟨0, 0, 0, 0⟩
  realized : Bool
  clipped : Bool := false
  clipRect : Rect := ⟨0, 0, 0, 0⟩
  bitmapQueue : List BitmapRect := []
  heatMap : Int → HeatCell
  overflow : Bool := false

/-- `guac_transfer_function`. -/
inductive TransferFunction
  | black | white | src | dest | nsrc | ndest | and | nand | or | nor | xor | xnor
  | nsrcAnd | nsrcNand | nsrcOr | nsrcNor
  deriving DecidableEq, Repr

/-! ## Colours -/

/-- A colour by its components. -/
def argb (alpha red green blue : UInt8) : UInt32 :=
  alpha.toUInt32 <<< 24 ||| red.toUInt32 <<< 16 ||| green.toUInt32 <<< 8 ||| blue.toUInt32

/-- The value that `__guac_common_surface_transfer_int` stores. -/
def transferInt (op : TransferFunction) (src dst : UInt32) : UInt32 :=
  match op with
  | .black => 0xFF000000
  | .white => 0xFFFFFFFF
  | .src => src
  | .dest => dst
  | .nsrc => src ^^^ 0x00FFFFFF
  | .ndest => dst ^^^ 0x00FFFFFF
  | .and => dst &&& (0xFF000000 ||| src)
  | .nand => (dst &&& (0xFF000000 ||| src)) ^^^ 0x00FFFFFF
  | .or => dst ||| (0x00FFFFFF &&& src)
  | .nor => (dst ||| (0x00FFFFFF &&& src)) ^^^ 0x00FFFFFF
  | .xor => dst ^^^ (0x00FFFFFF &&& src)
  | .xnor => (dst ^^^ (0x00FFFFFF &&& src)) ^^^ 0x00FFFFFF
  | .nsrcAnd => dst &&& (0xFF000000 ||| (src ^^^ 0x00FFFFFF))
  | .nsrcNand => (dst &&& (0xFF000000 ||| (src ^^^ 0x00FFFFFF))) ^^^ 0x00FFFFFF
  | .nsrcOr => dst ||| (0x00FFFFFF &&& (src ^^^ 0x00FFFFFF))
  | .nsrcNor => (dst ||| (0x00FFFFFF &&& (src ^^^ 0x00FFFFFF))) ^^^ 0x00FFFFFF

/-- `guac_common_surface_blend_component`. -/
def blendComponent (dst src alpha : UInt32) : UInt32 :=
  let blended := src + dst * (0xFF - alpha)
  if blended > 0xFF then 0xFF else blended

/-- `guac_common_surface_argb_blend`. -/
def argbBlend (dst src : UInt32) : UInt32 :=
  let dstA := (dst >>> 24) &&& 0xFF
  let srcA := (src >>> 24) &&& 0xFF
  if srcA = 0xFF ∨ dstA = 0x00 then src
  else if srcA = 0x00 then dst
  else
    let red := blendComponent ((dst >>> 16) &&& 0xFF) ((src >>> 16) &&& 0xFF) srcA
    let green := blendComponent ((dst >>> 8) &&& 0xFF) ((src >>> 8) &&& 0xFF) srcA
    let blue := blendComponent (dst &&& 0xFF) (src &&& 0xFF) srcA
    let alpha := blendComponent dstA srcA srcA
    alpha <<< 24 ||| red <<< 16 ||| green <<< 8 ||| blue

/-! ## Loops over a rectangle -/

/-- The offsets of the pixels of a rectangle, in the order of the loops. -/
def Rect.offsets (rect : Rect) : List Point :=
  (List.range rect.height.toNat).flatMap fun (y : Nat) =>
    (List.range rect.width.toNat).map fun (x : Nat) => ((x : Int), (y : Int))

/-- The state of a loop that draws: the buffer, and the bounds of the offsets where the colour has
changed. -/
structure Sweep where
  pixels : Pixels
  minX : Int
  minY : Int
  maxX : Int
  maxY : Int

namespace Sweep

/-- One pixel is drawn. -/
def visit (place : Point → Point) (color : Pixels → Point → UInt32) (sweep : Sweep)
    (offset : Point) : Sweep :=
  let old := sweep.pixels (place offset)
  let new := color sweep.pixels offset
  if old ≠ new then
    { pixels := Function.update sweep.pixels (place offset) new
      minX := if offset.1 < sweep.minX then offset.1 else sweep.minX
      minY := if offset.2 < sweep.minY then offset.2 else sweep.minY
      maxX := if offset.1 > sweep.maxX then offset.1 else sweep.maxX
      maxY := if offset.2 > sweep.maxY then offset.2 else sweep.maxY }
  else sweep

/-- A whole rectangle is drawn. -/
def run (rect : Rect) (place : Point → Point) (color : Pixels → Point → UInt32)
    (sweep : Sweep) : Sweep :=
  rect.offsets.foldl (visit place color) sweep

/-- The rectangle restricted to the pixels that were updated. -/
def restrict (sweep : Sweep) (rect : Rect) : Rect :=
  if sweep.maxX ≥ sweep.minX ∧ sweep.maxY ≥ sweep.minY then
    { x := rect.x + sweep.minX
      y := rect.y + sweep.minY
      width := sweep.maxX - sweep.minX + 1
      height := sweep.maxY - sweep.minY + 1 }
  else { rect with width := 0, height := 0 }

/-- The bounds translated from the coordinates of a loop that moves backwards. -/
def translate (sweep : Sweep) (rect : Rect) : Sweep :=
  { sweep with
    minX := rect.width - 1 - sweep.maxX
    minY := rect.height - 1 - sweep.maxY
    maxX := rect.width - 1 - sweep.minX
    maxY := rect.height - 1 - sweep.minY }

end Sweep

/-- The point at an offset in a rectangle. -/
def Rect.forward (rect : Rect) (offset : Point) : Point := (rect.x + offset.1, rect.y + offset.2)

/-- The point at an offset that is counted back from the last pixel. -/
def Rect.backward (rect : Rect) (offset : Point) : Point :=
  (rect.x + rect.width - 1 - offset.1, rect.y + rect.height - 1 - offset.2)

/-- Where the source of the narrowed rectangle starts. -/
def Rect.narrowedSource (rect updated : Rect) (source : Point) : Point :=
  (source.1 + (updated.x - rect.x), source.2 + (updated.y - rect.y))

/-- `__guac_common_surface_set`. -/
def setPixels (dst : Pixels) (rect : Rect) (color : UInt32) : Pixels × Rect :=
  let sweep := Sweep.run rect rect.forward (fun _ _ => color)
    ⟨dst, rect.width - 1, rect.height - 1, 0, 0⟩
  (sweep.pixels, sweep.restrict rect)

/-- The colour that `__guac_common_surface_put` gives to a pixel. -/
def putColor (src : Pixels) (source : Point) (rect : Rect) (isOpaque : Bool) (dst : Pixels)
    (offset : Point) : UInt32 :=
  let srcColor := src (source.1 + offset.1, source.2 + offset.2)
  if isOpaque then srcColor ||| 0xFF000000 else argbBlend (dst (rect.forward offset)) srcColor

/-- `__guac_common_surface_put`. -/
def putPixels (src : Pixels) (source : Point) (dst : Pixels) (rect : Rect) (isOpaque : Bool) :
    Pixels × Rect × Point :=
  let sweep := Sweep.run rect rect.forward (putColor src source rect isOpaque)
    ⟨dst, rect.width, rect.height, 0, 0⟩
  let updated := sweep.restrict rect
  (sweep.pixels, updated, rect.narrowedSource updated source)

/-- The colour that `__guac_common_surface_fill_mask` gives to a pixel. -/
def maskColor (src : Pixels) (source : Point) (rect : Rect) (color : UInt32) (dst : Pixels)
    (offset : Point) : UInt32 :=
  if src (source.1 + offset.1, source.2 + offset.2) &&& 0xFF000000 ≠ 0 then color
  else dst (rect.forward offset)

/-- `__guac_common_surface_fill_mask`, which has no use for the bounds. -/
def fillMask (src : Pixels) (source : Point) (dst : Pixels) (rect : Rect) (color : UInt32) :
    Pixels :=
  (Sweep.run rect rect.forward (maskColor src source rect color) ⟨dst, 0, 0, 0, 0⟩).pixels

/-- The colour that `__guac_common_surface_transfer` gives to a pixel. -/
def transferColor (src : Option Pixels) (op : TransferFunction) (read place : Point → Point)
    (dst : Pixels) (offset : Point) : UInt32 :=
  transferInt op (src.getD dst (read offset)) (dst (place offset))

/-- `__guac_common_surface_transfer`. The buffer of the source is given only if it is not the one
that is drawn to. -/
def transferPixels (src : Option Pixels) (source : Point) (op : TransferFunction) (dst : Pixels)
    (rect : Rect) : Pixels × Rect × Point :=
  let srect : Rect := ⟨source.1, source.2, rect.width, rect.height⟩
  let start : Sweep := ⟨dst, rect.width - 1, rect.height - 1, 0, 0⟩
  let sweep :=
    if src.isSome ∨ rect.y < source.2 ∨ rect.y = source.2 ∧ rect.x < source.1 then
      Sweep.run rect rect.forward (transferColor src op srect.forward rect.forward) start
    else
      (Sweep.run rect rect.backward (transferColor src op srect.backward rect.backward)
        start).translate rect
  let updated := sweep.restrict rect
  (sweep.pixels, updated, rect.narrowedSource updated source)

/-! ## The narrowed rectangle -/

/-- Only pixels of a rectangle have changed, and they all belong to the narrowed one. -/
def Narrowed (initial : Pixels) (rect : Rect) (pixels : Pixels) (updated : Rect) : Prop :=
  ∀ point, pixels point ≠ initial point → rect.Contains point ∧ updated.Contains point

theorem Narrowed.eq_of_isEmpty {initial pixels : Pixels} {rect updated : Rect}
    (narrowed : Narrowed initial rect pixels updated) (empty : updated.isEmpty = true) :
    pixels = initial := by
  funext point
  by_contra changed
  have filled := (narrowed point changed).2.not_isEmpty
  exact Bool.false_ne_true (filled.symm.trans empty)

variable {rect : Rect} {place : Point → Point} {color : Pixels → Point → UInt32}
  {initial : Pixels} {sweep : Sweep} {offset : Point}

theorem Rect.mem_offsets (visited : offset ∈ rect.offsets) :
    0 ≤ offset.1 ∧ offset.1 < rect.width ∧ 0 ≤ offset.2 ∧ offset.2 < rect.height := by
  obtain ⟨y, row, visited⟩ := List.mem_flatMap.mp visited
  obtain ⟨x, column, rfl⟩ := List.mem_map.mp visited
  rw [List.mem_range] at row column
  dsimp only
  omega

namespace Sweep

/-- The pixels that have changed were drawn at offsets within the bounds. -/
def Tracks (rect : Rect) (place : Point → Point) (initial : Pixels) (sweep : Sweep) : Prop :=
  ∀ point, sweep.pixels point ≠ initial point → ∃ offset ∈ rect.offsets, place offset = point ∧
    sweep.minX ≤ offset.1 ∧ offset.1 ≤ sweep.maxX ∧ sweep.minY ≤ offset.2 ∧ offset.2 ≤ sweep.maxY

theorem Tracks.visit (tracks : Tracks rect place initial sweep) (visited : offset ∈ rect.offsets) :
    Tracks rect place initial (sweep.visit place color offset) := by
  intro point changed
  unfold Sweep.visit at changed ⊢
  dsimp only at changed ⊢
  by_cases differs : sweep.pixels (place offset) ≠ color sweep.pixels offset
  · rw [if_pos differs] at changed ⊢
    dsimp only at changed ⊢
    by_cases here : point = place offset
    · refine ⟨offset, visited, here.symm, ?_⟩
      split_ifs <;> omega
    · rw [Function.update_of_ne here] at changed
      obtain ⟨earlier, drawn, placed, within⟩ := tracks point changed
      refine ⟨earlier, drawn, placed, ?_⟩
      split_ifs <;> omega
  · rw [if_neg differs] at changed ⊢
    exact tracks point changed

theorem tracks_run {minX minY maxX maxY : Int} :
    Tracks rect place initial (run rect place color ⟨initial, minX, minY, maxX, maxY⟩) := by
  have loop : ∀ (offsets : List Point) (sweep : Sweep),
      (∀ offset ∈ offsets, offset ∈ rect.offsets) → Tracks rect place initial sweep →
      Tracks rect place initial (offsets.foldl (visit place color) sweep) := by
    intro offsets
    induction offsets with
    | nil => exact fun _ _ tracks => tracks
    | cons offset offsets ih =>
        intro sweep visited tracks
        exact ih _ (fun later member => visited later (.tail _ member))
          (tracks.visit (visited offset (.head _)))
  exact loop _ _ (fun _ visited => visited) fun _ changed => absurd rfl changed

theorem Tracks.contains_forward (tracks : Tracks rect rect.forward initial sweep) {point : Point}
    (changed : sweep.pixels point ≠ initial point) : rect.Contains point := by
  obtain ⟨offset, visited, rfl, _⟩ := tracks point changed
  have inside := Rect.mem_offsets visited
  unfold Rect.Contains Rect.right Rect.bottom Rect.forward
  dsimp only
  omega

theorem Tracks.narrowed (tracks : Tracks rect rect.forward initial sweep) :
    Narrowed initial rect sweep.pixels (sweep.restrict rect) := by
  intro point changed
  refine ⟨tracks.contains_forward changed, ?_⟩
  obtain ⟨offset, _, rfl, within⟩ := tracks point changed
  unfold restrict
  rw [if_pos (by omega)]
  unfold Rect.Contains Rect.right Rect.bottom Rect.forward
  dsimp only
  omega

/-- A loop that moves backwards tracks what a loop in the other direction would. -/
theorem Tracks.translate (tracks : Tracks rect rect.backward initial sweep) :
    Narrowed initial rect sweep.pixels ((sweep.translate rect).restrict rect) := by
  intro point changed
  obtain ⟨offset, visited, rfl, within⟩ := tracks point changed
  have inside := Rect.mem_offsets visited
  unfold restrict Sweep.translate
  rw [if_pos (by dsimp only; omega)]
  unfold Rect.Contains Rect.right Rect.bottom Rect.backward
  dsimp only
  omega

end Sweep

theorem setPixels_narrowed (dst : Pixels) (rect : Rect) (color : UInt32) :
    Narrowed dst rect (setPixels dst rect color).1 (setPixels dst rect color).2 :=
  Sweep.tracks_run.narrowed

theorem putPixels_narrowed (src : Pixels) (source : Point) (dst : Pixels) (rect : Rect)
    (isOpaque : Bool) :
    Narrowed dst rect (putPixels src source dst rect isOpaque).1
      (putPixels src source dst rect isOpaque).2.1 :=
  Sweep.tracks_run.narrowed

theorem fillMask_narrowed (src : Pixels) (source : Point) (dst : Pixels) (rect : Rect)
    (color : UInt32) : Narrowed dst rect (fillMask src source dst rect color) rect := by
  intro point changed
  have contains : rect.Contains point := Sweep.tracks_run.contains_forward changed
  exact ⟨contains, contains⟩

theorem transferPixels_narrowed (src : Option Pixels) (source : Point) (op : TransferFunction)
    (dst : Pixels) (rect : Rect) :
    Narrowed dst rect (transferPixels src source op dst rect).1
      (transferPixels src source op dst rect).2.1 := by
  unfold transferPixels
  dsimp only
  split_ifs with forwards
  · exact Sweep.tracks_run.narrowed
  · exact Sweep.tracks_run.translate

end GuacNebula.Common
