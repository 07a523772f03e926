import GuacNebula.Common.SurfaceFlush

/-! # Operations on surfaces

An operation draws into the local buffer. It then marks what it has drawn as dirty, or it flushes the
surface and is sent itself. What was drawn with a color of its own, or with an image, is always
deferred.

The properties of layers are left out, and with them what `guac_common_surface_flush` sends of them.
The processing of another socket in `guac_common_surface_dup` and the end of a surface are left out
as well.
-/

namespace GuacNebula.Common

variable {Id : Type}

/-- What is sent for a layer: an instruction, or the instructions of a flush, with the surface
before and after it. -/
inductive SurfaceOutput (Id : Type)
  | size (width height : Int)
  | copy (source : Id) (start : Point) (rect : Rect)
  | transfer (source : Id) (start : Point) (op : TransferFunction) (rect : Rect)
  | fill (rect : Rect) (color : UInt32)
  | flush (before : Surface) (instructions : List BitmapInstruction) (after : Surface)

/-! ## Operations on one surface -/

namespace Surface

variable (surface : Surface)

/-- `guac_common_surface_alloc`. A buffer is not realized before it is used. -/
def alloc (width height : Int) (isBuffer : Bool) : Surface where
  width := width
  height := height
  realized := !isBuffer
  heatMap := fun _ => .zero

/-- `__guac_common_surface_flush_deferred`. -/
def flushDeferred (environment : Environment) : Surface × List (SurfaceOutput Id) :=
  if !surface.dirty then (surface, [])
  else if surface.bitmapQueue.length = queueSize - 1 then
    let flushed := surface.flush environment
    (flushed.1.flushToQueue, [.flush surface flushed.2 flushed.1])
  else (surface.flushToQueue, [])

/-- A rectangle that was drawn is marked as dirty, after the surface is flushed if the two are not
to be combined. -/
def deferDraw (environment : Environment) (rect : Rect) : Surface × List (SurfaceOutput Id) :=
  if surface.shouldCombine rect false then (surface.markDirty rect, [])
  else
    let flushed : Surface × List (SurfaceOutput Id) := surface.flushDeferred environment
    (flushed.1.markDirty rect, flushed.2)

/-- `guac_common_surface_draw`. -/
def draw (environment : Environment) (x y : Int) (src : Image) :
    Surface × List (SurfaceOutput Id) :=
  let rect := surface.clipToRect ⟨x, y, src.width, src.height⟩
  if rect.isEmpty then (surface, [])
  else
    let put := putPixels src.pixels (rect.x - x, rect.y - y) surface.pixels rect src.isOpaque
    let drawn := { surface with pixels := put.1 }
    if put.2.1.isEmpty then (drawn, [])
    else (drawn.touchRect put.2.1 environment.time).deferDraw environment put.2.1

/-- `guac_common_surface_paint`. -/
def paint (environment : Environment) (x y : Int) (src : Image) (red green blue : UInt8) :
    Surface × List (SurfaceOutput Id) :=
  let rect := surface.clipToRect ⟨x, y, src.width, src.height⟩
  if rect.isEmpty then (surface, [])
  else
    let filled := fillMask src.pixels (rect.x - x, rect.y - y) surface.pixels rect
      (argb 0xFF red green blue)
    { surface with pixels := filled }.deferDraw environment rect

/-- `guac_common_surface_set`. -/
def set (environment : Environment) (rect : Rect) (red green blue alpha : UInt8) :
    Surface × List (SurfaceOutput Id) :=
  let rect := surface.clipToRect rect
  if rect.isEmpty then (surface, [])
  else
    let color := argb alpha red green blue
    let updated := setPixels surface.pixels rect color
    let drawn := { surface with pixels := updated.1 }
    if updated.2.isEmpty then (drawn, [])
    else if alpha ≠ 0xFF then drawn.deferDraw environment updated.2
    else if drawn.shouldCombine updated.2 true then (drawn.markDirty updated.2, [])
    else
      let flushed := drawn.flush environment
      ({ flushed.1 with realized := true },
        [.flush drawn flushed.2 flushed.1, .fill updated.2 color])

/-- `guac_common_surface_clip`. -/
def clip (rect : Rect) : Surface :=
  let clipRect := if surface.clipped then surface.clipRect else surface.bounds
  { surface with clipped := true, clipRect := clipRect.constrain rect }

/-- `guac_common_surface_reset_clip`. -/
def resetClip : Surface := { surface with clipped := false }

/-- `guac_common_surface_set_lossless`. -/
def setLossless (lossless : Bool) : Surface := { surface with lossless := lossless }

/-- The part of a surface that fits a new size. -/
def fit (width height : Int) : Surface :=
  let sized := { surface with width := width, height := height, pixels := fun _ => 0 }
  let kept := putPixels surface.pixels (0, 0) sized.pixels (sized.boundRect surface.bounds) true
  let dirtyRect := if surface.dirty then sized.boundRect surface.dirtyRect else surface.dirtyRect
  { sized with
    pixels := kept.1
    clipRect := sized.boundRect surface.clipRect
    heatMap := fun _ => .zero
    dirtyRect := dirtyRect
    dirty := surface.dirty && !dirtyRect.isEmpty }

/-- `guac_common_surface_resize`. -/
def resize (width height : Int) : Surface × List (SurfaceOutput Id) :=
  if width = surface.width ∧ height = surface.height then (surface, [])
  else (surface.fit width height, if surface.realized then [.size width height] else [])

end Surface

/-! ## Operations on several surfaces -/

section Surfaces

variable [DecidableEq Id]

/-- Surfaces after an operation, and what was sent for which of them. -/
abbrev SurfaceUpdates (Id : Type) := (Id → Surface) × List (Id × SurfaceOutput Id)

/-- The result of an operation on one surface. -/
def updateSurface (surfaces : Id → Surface) (id : Id)
    (updated : Surface × List (SurfaceOutput Id)) : SurfaceUpdates Id :=
  (Function.update surfaces id updated.1, updated.2.map fun output => (id, output))

/-- `guac_common_surface_flush`, of the contents. -/
def flushSurface (surfaces : Id → Surface) (environment : Environment) (id : Id) :
    SurfaceUpdates Id :=
  let flushed := (surfaces id).flush environment
  updateSurface surfaces id (flushed.1, [.flush (surfaces id) flushed.2 flushed.1])

/-- A rectangle is marked as dirty if it is to be combined. Otherwise both surfaces are flushed, and
the operation itself is sent. -/
def combineOrSend (surfaces : Id → Surface) (environment : Environment) (source target : Id)
    (rect : Rect) (operation : SurfaceOutput Id) : SurfaceUpdates Id :=
  if (surfaces target).shouldCombine rect true then
    updateSurface surfaces target ((surfaces target).markDirty rect, [])
  else
    let first := flushSurface surfaces environment target
    let second := flushSurface first.1 environment source
    let sent := updateSurface second.1 target
      ({ second.1 target with realized := true }, [operation])
    (sent.1, first.2 ++ second.2 ++ sent.2)

/-- `guac_common_surface_transfer`, which `guac_common_surface_copy` is but for what it sends. The
buffer is updated last if both surfaces are the same. -/
def transferRect (surfaces : Id → Surface) (environment : Environment)
    (operation : Point → Rect → SurfaceOutput Id) (op : TransferFunction) (source : Id)
    (srect : Rect) (target : Id) (dx dy : Int) : SurfaceUpdates Id :=
  let bounded := (surfaces source).boundRect srect
  if bounded.isEmpty then (surfaces, [])
  else
    let dx := dx + (bounded.x - srect.x)
    let dy := dy + (bounded.y - srect.y)
    let drect := (surfaces target).clipToRect ⟨dx, dy, bounded.width, bounded.height⟩
    let start := (bounded.x + (drect.x - dx), bounded.y + (drect.y - dy))
    if drect.isEmpty then (surfaces, [])
    else if source = target then
      let sent := combineOrSend surfaces environment source target drect (operation start drect)
      let moved := transferPixels none start op (sent.1 target).pixels drect
      (Function.update sent.1 target { sent.1 target with pixels := moved.1 }, sent.2)
    else
      let moved := transferPixels (some (surfaces source).pixels) start op
        (surfaces target).pixels drect
      let drawn := Function.update surfaces target { surfaces target with pixels := moved.1 }
      if moved.2.1.isEmpty then (drawn, [])
      else combineOrSend drawn environment source target moved.2.1 (operation moved.2.2 moved.2.1)

/-- The operations of `surface.h` on the contents of surfaces. -/
inductive SurfaceAction (Id : Type)
  | draw (id : Id) (x y : Int) (src : Image)
  | paint (id : Id) (x y : Int) (src : Image) (red green blue : UInt8)
  | set (id : Id) (rect : Rect) (red green blue alpha : UInt8)
  | copy (source : Id) (srect : Rect) (target : Id) (dx dy : Int)
  | transfer (source : Id) (srect : Rect) (op : TransferFunction) (target : Id) (dx dy : Int)
  | clip (id : Id) (rect : Rect)
  | resetClip (id : Id)
  | setLossless (id : Id) (lossless : Bool)
  | resize (id : Id) (width height : Int)
  | flush (id : Id)

/-- An operation is called. -/
def SurfaceAction.run (environment : Environment) (surfaces : Id → Surface) :
    SurfaceAction Id → SurfaceUpdates Id
  | .draw id x y src => updateSurface surfaces id ((surfaces id).draw environment x y src)
  | .paint id x y src red green blue =>
      updateSurface surfaces id ((surfaces id).paint environment x y src red green blue)
  | .set id rect red green blue alpha =>
      updateSurface surfaces id ((surfaces id).set environment rect red green blue alpha)
  | .copy source srect target dx dy =>
      transferRect surfaces environment (.copy source) .src source srect target dx dy
  | .transfer source srect op target dx dy =>
      transferRect surfaces environment (fun start rect => .transfer source start op rect) op source
        srect target dx dy
  | .clip id rect => updateSurface surfaces id ((surfaces id).clip rect, [])
  | .resetClip id => updateSurface surfaces id ((surfaces id).resetClip, [])
  | .setLossless id lossless =>
      updateSurface surfaces id ((surfaces id).setLossless lossless, [])
  | .resize id width height => updateSurface surfaces id ((surfaces id).resize width height)
  | .flush id => flushSurface surfaces environment id

end Surfaces

end GuacNebula.Common
