import GuacNebula.Common.Rect
import Mathlib.Data.List.Basic
import Mathlib.Data.UInt
import Mathlib.Logic.Function.Basic

/-! # Bitmaps and drawing orders

Bitmaps of the server are cached in buffers of the display when they are used again, when something
is drawn from them in another way than copying, and when the server selects them as its drawing
surface. Every drawing order is applied to the surface that is selected.

A surface is known by the number of its allocation, so that a surface that was freed never comes
back. What is drawn is kept as the calls on surfaces. Bitmaps and glyphs belong to FreeRDP, which
calls the functions of a bitmap only between its creation and the call that frees it.
-/

namespace GuacNebula.Rdp

open Common

/-- The transfer functions that ROP3 opcodes are translated to. -/
inductive TransferFunction
  | src | nor | nsrcAnd | nsrc | ndestAnd | ndest | xor | nand | and | xnor | nsrcOr | ndestOr | or
  deriving DecidableEq, Repr

/-- `guac_rdp_rop3_transfer_function`. -/
def rop3TransferFunction (rop3 : Nat) : TransferFunction :=
  match rop3 with
  | 0x11 => .nor
  | 0x22 => .nsrcAnd
  | 0x33 => .nsrc
  | 0x44 => .ndestAnd
  | 0x55 => .ndest
  | 0x66 => .xor
  | 0x77 => .nand
  | 0x88 => .and
  | 0x99 => .xnor
  | 0xBB => .nsrcOr
  | 0xDD => .ndestOr
  | 0xEE => .or
  | _ => .src

/-- A surface, by the number of its allocation. -/
abbrev SurfaceId := Nat

/-- An opaque color. -/
structure Color where
  red : UInt32
  green : UInt32
  blue : UInt32
  deriving DecidableEq, Repr

namespace Color

def black : Color := ⟨0x00, 0x00, 0x00⟩

def white : Color := ⟨0xFF, 0xFF, 0xFF⟩

/-- The components of an RGB value. -/
def ofRgb (rgb : UInt32) : Color where
  red := rgb >>> 16 &&& 0xFF
  green := rgb >>> 8 &&& 0xFF
  blue := rgb &&& 0xFF

end Color

/-- The Cairo surface that is made for data at an offset. -/
structure BitmapImage where
  data : List UInt8
  offset : Int
  width : Int
  height : Int
  stride : Int
  deriving DecidableEq, Repr

/-- A call that draws on a surface. -/
inductive SurfaceCall
  | set (target : SurfaceId) (area : Rect) (color : Color)
  | draw (target : SurfaceId) (x y : Int) (image : BitmapImage)
  | copy (source : SurfaceId) (area : Rect) (target : SurfaceId) (x y : Int)
  | transfer (source : SurfaceId) (area : Rect) (function : TransferFunction)
      (target : SurfaceId) (x y : Int)
  | paint (target : SurfaceId) (x y : Int) (glyph : Nat) (color : Color)
  deriving DecidableEq, Repr

/-- The surfaces that a call reads or writes. -/
def SurfaceCall.surfaces : SurfaceCall → List SurfaceId
  | .set target _ _ | .draw target _ _ _ | .paint target _ _ _ _ => [target]
  | .copy source _ target _ _ | .transfer source _ _ target _ _ => [source, target]

/-- `rdpBitmap`, by what FreeRDP holds of it when it calls. -/
structure RdpBitmap where
  id : Nat
  width : Int
  height : Int
  left : Int
  top : Int
  right : Int
  bottom : Int
  data : Option (List UInt8)
  deriving DecidableEq, Repr

/-- `guac_rdp_bitmap`, without the part of FreeRDP. The layer is its surface. -/
structure GuacBitmap where
  layer : Option SurfaceId
  used : Nat
  deriving DecidableEq, Repr

/-- What `guac_rdp_client` and its display hold for drawing. -/
structure RdpClient where
  /-- The surfaces that were allocated, the default one being the first. -/
  allocated : Nat
  /-- The surfaces of the buffers that are not freed. -/
  buffers : List SurfaceId
  currentSurface : SurfaceId
  glyphColor : UInt32
  /-- The bitmaps that were created. -/
  created : Nat
  /-- The bitmaps that are not freed. -/
  bitmaps : Nat → Option GuacBitmap

/-- The surface of the display itself. -/
def defaultSurface : SurfaceId := 0

namespace RdpClient

/-- A display was allocated, and its surface is drawn on. -/
def start : RdpClient where
  allocated := 1
  buffers := []
  currentSurface := defaultSurface
  glyphColor := 0
  created := 0
  bitmaps := fun _ => none

variable (client : RdpClient)

def setBitmap (id : Nat) (bitmap : Option GuacBitmap) : RdpClient :=
  { client with bitmaps := Function.update client.bitmaps id bitmap }

/-- `guac_common_display_alloc_buffer`. -/
def allocBuffer : RdpClient × SurfaceId :=
  ({ client with
      allocated := client.allocated + 1
      buffers := client.allocated :: client.buffers },
    client.allocated)

/-- `guac_common_display_free_buffer`. -/
def freeBuffer (buffer : SurfaceId) : RdpClient :=
  { client with buffers := client.buffers.erase buffer }

/-- `guac_rdp_cache_bitmap`: the client, the surface of the new buffer and the calls. -/
def cacheBitmap (bitmap : RdpBitmap) (guac : GuacBitmap) :
    RdpClient × SurfaceId × List SurfaceCall :=
  let buffer := client.allocBuffer.2
  (client.allocBuffer.1.setBitmap bitmap.id (some { guac with layer := some buffer }), buffer,
    match bitmap.data with
    | some data =>
        [.draw buffer 0 0 ⟨data, 0, bitmap.width, bitmap.height, 4 * bitmap.width⟩]
    | none => [])

/-- The usage counter of a bitmap is incremented. -/
def countUse (id : Nat) : RdpClient :=
  client.setBitmap id ((client.bitmaps id).map fun guac => { guac with used := guac.used + 1 })

/-- A bitmap that was used before is cached if it is not. -/
def cacheIfUsed (bitmap : RdpBitmap) (guac : GuacBitmap) :
    RdpClient × Option SurfaceId × List SurfaceCall :=
  if guac.layer.isNone && 1 ≤ guac.used then
    let cached := client.cacheBitmap bitmap guac
    (cached.1, some cached.2.1, cached.2.2)
  else (client, guac.layer, [])

/-- The surface of a bitmap, which is made available if it is not. -/
def available (bitmap : RdpBitmap) (guac : GuacBitmap) : RdpClient × SurfaceId × List SurfaceCall :=
  match guac.layer with
  | some buffer => (client, buffer, [])
  | none => client.cacheBitmap bitmap guac

/-- `guac_rdp_bitmap_new`. -/
def bitmapNew : RdpClient :=
  { client with
    created := client.created + 1
    bitmaps := Function.update client.bitmaps client.created (some { layer := none, used := 0 }) }

/-- `guac_rdp_bitmap_paint`. A bitmap that is cached here is still drawn from its data. -/
def bitmapPaint (bitmap : RdpBitmap) : RdpClient × List SurfaceCall :=
  match client.bitmaps bitmap.id with
  | none => (client, [])
  | some guac =>
      let width := bitmap.right - bitmap.left + 1
      let height := bitmap.bottom - bitmap.top + 1
      let cached := client.cacheIfUsed bitmap guac
      let drawing : List SurfaceCall :=
        match guac.layer with
        | some buffer => [.copy buffer ⟨0, 0, width, height⟩ defaultSurface bitmap.left bitmap.top]
        | none =>
            match bitmap.data with
            | some data =>
                [.draw defaultSurface bitmap.left bitmap.top
                  ⟨data, 0, width, height, 4 * bitmap.width⟩]
            | none => []
      (cached.1.countUse bitmap.id, cached.2.2 ++ drawing)

/-- `guac_rdp_bitmap_free`. -/
def bitmapFree (id : Nat) : RdpClient :=
  match client.bitmaps id with
  | none => client
  | some guac =>
      let client :=
        match guac.layer with
        | some buffer => client.freeBuffer buffer
        | none => client
      client.setBitmap id none

/-- `guac_rdp_bitmap_setsurface`. -/
def bitmapSetsurface (bitmap : Option RdpBitmap) (primary : Bool) : RdpClient × List SurfaceCall :=
  if primary then ({ client with currentSurface := defaultSurface }, [])
  else
    match bitmap with
    | none => (client, [])
    | some bitmap =>
        match client.bitmaps bitmap.id with
        | none => (client, [])
        | some guac =>
            let cached := client.available bitmap guac
            ({ cached.1 with currentSurface := cached.2.1 }, cached.2.2)

/-! ## Drawing orders -/

/-- `guac_rdp_gdi_dstblt`. -/
def gdiDstblt (bRop : Nat) (area : Rect) : List SurfaceCall :=
  match bRop with
  | 0x00 => [.set client.currentSurface area .black]
  | 0x55 => [.transfer client.currentSurface area .ndest client.currentSurface area.x area.y]
  | 0xAA => []
  | 0xFF => [.set client.currentSurface area .white]
  | _ => []

/-- `guac_rdp_gdi_patblt`. -/
def gdiPatblt (bRop : Nat) (area : Rect) (foreColor : UInt32) : List SurfaceCall :=
  match bRop with
  | 0x00 => [.set client.currentSurface area .black]
  | 0xAA => []
  | 0xCC | 0xF0 => [.set client.currentSurface area (.ofRgb foreColor)]
  | 0xFF => [.set client.currentSurface area .white]
  | _ => [.transfer client.currentSurface area .ndest client.currentSurface area.x area.y]

/-- `guac_rdp_gdi_scrblt`. -/
def gdiScrblt (source : Rect) (x y : Int) : List SurfaceCall :=
  [.copy defaultSurface source client.currentSurface x y]

/-- `guac_rdp_gdi_memblt`. -/
def gdiMemblt (bRop : Nat) (bitmap : Option RdpBitmap) (source : Rect) (x y : Int) :
    RdpClient × List SurfaceCall :=
  match bitmap with
  | none => (client, [])
  | some bitmap =>
      match client.bitmaps bitmap.id with
      | none => (client, [])
      | some guac =>
          let target := client.currentSurface
          let area : Rect := ⟨x, y, source.width, source.height⟩
          match bRop with
          | 0x00 => (client, [.set target area .black])
          | 0xAA => (client, [])
          | 0xCC =>
              let cached := client.cacheIfUsed bitmap guac
              let drawing : List SurfaceCall :=
                match cached.2.1 with
                | some buffer => [.copy buffer source target x y]
                | none =>
                    match bitmap.data with
                    | some data =>
                        -- The width of a bitmap is unsigned, and so is the offset.
                        [.draw target x y
                          ⟨data, 4 * (source.x + source.y * bitmap.width) % 4294967296,
                            source.width, source.height, 4 * bitmap.width⟩]
                    | none => []
              (cached.1.countUse bitmap.id, cached.2.2 ++ drawing)
          | 0xFF => (client, [.set target area .white])
          | _ =>
              let cached := client.available bitmap guac
              (cached.1.countUse bitmap.id, cached.2.2 ++
                [.transfer cached.2.1 source (rop3TransferFunction bRop) target x y])

/-- `guac_rdp_gdi_opaquerect`, with the color as `guac_rdp_convert_color` gives it. -/
def gdiOpaquerect (area : Rect) (color : UInt32) : List SurfaceCall :=
  [.set client.currentSurface area (.ofRgb color)]

/-- `guac_rdp_glyph_begindraw`, with the colors as `guac_rdp_convert_color` gives them. -/
def glyphBegindraw (area : Rect) (fgcolor bgcolor : UInt32) (redundant : Bool) :
    RdpClient × List SurfaceCall :=
  ({ client with glyphColor := fgcolor },
    if area.width ≠ 0 ∧ area.height ≠ 0 ∧ !redundant then
      [.set client.currentSurface area (.ofRgb bgcolor)]
    else [])

/-- `guac_rdp_glyph_draw`. -/
def glyphDraw (glyph : Nat) (x y : Int) : List SurfaceCall :=
  [.paint client.currentSurface x y glyph (.ofRgb client.glyphColor)]

end RdpClient

/-! ## Sessions -/

/-- What the server has FreeRDP do with bitmaps and the drawing surface. -/
inductive ServerOrder
  | bitmapNew
  | bitmapPaint (bitmap : RdpBitmap)
  | bitmapFree (id : Nat)
  | bitmapSetsurface (bitmap : Option RdpBitmap) (primary : Bool)
  | dstblt (bRop : Nat) (area : Rect)
  | patblt (bRop : Nat) (area : Rect) (foreColor : UInt32)
  | scrblt (source : Rect) (x y : Int)
  | memblt (bRop : Nat) (bitmap : Option RdpBitmap) (source : Rect) (x y : Int)
  | opaquerect (area : Rect) (color : UInt32)
  | glyphBegindraw (area : Rect) (fgcolor bgcolor : UInt32) (redundant : Bool)
  | glyphDraw (glyph : Nat) (x y : Int)

/-- The client after an order, and the calls on surfaces. -/
def RdpClient.order (client : RdpClient) : ServerOrder → RdpClient × List SurfaceCall
  | .bitmapNew => (client.bitmapNew, [])
  | .bitmapPaint bitmap => client.bitmapPaint bitmap
  | .bitmapFree id => (client.bitmapFree id, [])
  | .bitmapSetsurface bitmap primary => client.bitmapSetsurface bitmap primary
  | .dstblt bRop area => (client, client.gdiDstblt bRop area)
  | .patblt bRop area foreColor => (client, client.gdiPatblt bRop area foreColor)
  | .scrblt source x y => (client, client.gdiScrblt source x y)
  | .memblt bRop bitmap source x y => client.gdiMemblt bRop bitmap source x y
  | .opaquerect area color => (client, client.gdiOpaquerect area color)
  | .glyphBegindraw area fgcolor bgcolor redundant =>
      client.glyphBegindraw area fgcolor bgcolor redundant
  | .glyphDraw glyph x y => (client, client.glyphDraw glyph x y)

def orderStep (client : RdpClient) (order : ServerOrder) : RdpClient := (client.order order).1

end GuacNebula.Rdp
