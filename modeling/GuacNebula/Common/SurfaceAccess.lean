import GuacNebula.Common.SurfaceContents
import GuacNebula.Common.SurfaceUpdates

/-! # Accesses to pixels

The functions that draw compute the addresses of pixels and do not check them. In this module the
same functions are given buffers that can only be accessed within bounds, and stop at the first
access out of them. In every run of operations they do what the functions without checks do: a
buffer that is read is read within its bounds, and a surface is written only within its bounds and
its clipping rectangle.
-/

namespace GuacNebula.Common

open Run

/-- A pixel is read from a buffer with the given bounds. -/
def Rect.load (bounds : Rect) (pixels : Pixels) (point : Point) : Option UInt32 :=
  if bounds.Contains point then some (pixels point) else none

/-- The bounds of an image. -/
def Image.bounds (image : Image) : Rect := ⟨0, 0, image.width, image.height⟩

/-- The pixels of a surface that an operation may change. -/
def Surface.Writable (surface : Surface) (point : Point) : Prop :=
  surface.bounds.Contains point ∧ (surface.clipped = true → surface.clipRect.Contains point)

instance (surface : Surface) : DecidablePred surface.Writable :=
  fun _ => inferInstanceAs (Decidable (_ ∧ _))

/-! ## Checked loops -/

namespace Sweep

section Checked

variable (load : Pixels → Point → Option UInt32) (writable : Point → Prop)
  [DecidablePred writable] (place : Point → Point) (combine : UInt32 → UInt32 → UInt32)

/-- One turn of a loop: the pixel of the source is loaded, and the pixel that is drawn is one that
may be changed. -/
def visitChecked (sweep : Sweep) (offset : Point) : Option Sweep :=
  (load sweep.pixels offset).bind fun source =>
    if writable (place offset) then
      some (sweep.visit place (fun pixels offset => combine source (pixels (place offset))) offset)
    else none

/-- A whole rectangle is drawn, up to the first access that is out of bounds. -/
def runChecked (rect : Rect) (sweep : Sweep) : Option Sweep :=
  rect.offsets.foldlM (visitChecked load writable place combine) sweep

variable {load writable place combine} {rect : Rect}

/-- A loop whose accesses are all within bounds does what it does without checks. -/
theorem runChecked_eq {value : Pixels → Point → UInt32}
    (loads : ∀ pixels, ∀ offset ∈ rect.offsets, load pixels offset = some (value pixels offset))
    (writes : ∀ offset ∈ rect.offsets, writable (place offset)) (sweep : Sweep) :
    runChecked load writable place combine rect sweep =
      some (run rect place
        (fun pixels offset => combine (value pixels offset) (pixels (place offset))) sweep) := by
  unfold runChecked run
  generalize rect.offsets = offsets at loads writes
  induction offsets generalizing sweep with
  | nil => rfl
  | cons offset offsets ih =>
      obtain ⟨here, later⟩ := List.forall_mem_cons.mp writes
      have visited : visitChecked load writable place combine sweep offset =
          some (sweep.visit place
            (fun pixels offset => combine (value pixels offset) (pixels (place offset)))
            offset) := by
        unfold visitChecked
        rw [loads sweep.pixels offset List.mem_cons_self, Option.bind_some, if_pos here]
        rfl
      rw [List.foldlM_cons, visited, List.foldl_cons]
      exact ih _ (fun pixels offset member => loads pixels offset (.tail _ member)) later

/-- A loop stops at a pixel of the source that cannot be loaded. -/
theorem runChecked_eq_none {offset : Point} (visited : offset ∈ rect.offsets)
    (fails : ∀ pixels, load pixels offset = none) (sweep : Sweep) :
    runChecked load writable place combine rect sweep = none := by
  unfold runChecked
  generalize rect.offsets = offsets at visited
  induction offsets generalizing sweep with
  | nil => cases visited
  | cons first offsets ih =>
      rw [List.foldlM_cons]
      rcases List.mem_cons.mp visited with rfl | later
      · have stopped : visitChecked load writable place combine sweep offset = none := by
          unfold visitChecked
          rw [fails, Option.bind_none]
        rw [stopped]
        rfl
      · cases visitChecked load writable place combine sweep first with
        | none => rfl
        | some next => exact ih next later

end Checked

end Sweep

section Loops

variable (writable : Point → Prop) [DecidablePred writable]

/-- `setPixels`, which reads no source. -/
def setChecked (dst : Pixels) (rect : Rect) (color : UInt32) : Option (Pixels × Rect) :=
  (Sweep.runChecked (fun _ _ => some 0) writable rect.forward (fun _ _ => color) rect
    ⟨dst, rect.width - 1, rect.height - 1, 0, 0⟩).map fun sweep =>
      (sweep.pixels, sweep.restrict rect)

/-- `putPixels`, with the bounds of the source. -/
def putChecked (srcBounds : Rect) (src : Pixels) (source : Point) (dst : Pixels) (rect : Rect)
    (isOpaque : Bool) : Option (Pixels × Rect × Point) :=
  (Sweep.runChecked
    (fun _ offset => srcBounds.load src (source.1 + offset.1, source.2 + offset.2)) writable
    rect.forward
    (fun src dst => if isOpaque then src ||| 0xFF000000 else argbBlend dst src) rect
    ⟨dst, rect.width, rect.height, 0, 0⟩).map fun sweep =>
      (sweep.pixels, sweep.restrict rect, rect.narrowedSource (sweep.restrict rect) source)

/-- `fillMask`, with the bounds of the mask. -/
def fillMaskChecked (srcBounds : Rect) (src : Pixels) (source : Point) (dst : Pixels) (rect : Rect)
    (color : UInt32) : Option Pixels :=
  (Sweep.runChecked
    (fun _ offset => srcBounds.load src (source.1 + offset.1, source.2 + offset.2)) writable
    rect.forward (fun src dst => if src &&& 0xFF000000 ≠ 0 then color else dst) rect
    ⟨dst, 0, 0, 0, 0⟩).map Sweep.pixels

/-- `transferPixels`, with the bounds of the source. -/
def transferChecked (srcBounds : Rect) (src : Option Pixels) (source : Point)
    (op : TransferFunction) (dst : Pixels) (rect : Rect) : Option (Pixels × Rect × Point) :=
  let srect : Rect := ⟨source.1, source.2, rect.width, rect.height⟩
  let start : Sweep := ⟨dst, rect.width - 1, rect.height - 1, 0, 0⟩
  let sweep :=
    if src.isSome ∨ rect.y < source.2 ∨ rect.y = source.2 ∧ rect.x < source.1 then
      Sweep.runChecked
        (fun pixels offset => srcBounds.load (src.getD pixels) (srect.forward offset))
        writable rect.forward (transferInt op) rect start
    else
      (Sweep.runChecked
        (fun pixels offset => srcBounds.load (src.getD pixels) (srect.backward offset))
        writable rect.backward (transferInt op) rect start).map (·.translate rect)
  sweep.map fun sweep =>
    (sweep.pixels, sweep.restrict rect, rect.narrowedSource (sweep.restrict rect) source)

end Loops

/-! ## Checked operations -/

variable {Id : Type}

namespace Surface

variable (surface : Surface)

/-- `draw` with checked accesses. -/
def drawChecked (environment : Environment) (x y : Int) (src : Image) :
    Option (Surface × List (SurfaceOutput Id)) :=
  let rect := surface.clipToRect ⟨x, y, src.width, src.height⟩
  if rect.isEmpty then some (surface, [])
  else
    (putChecked surface.Writable src.bounds src.pixels (rect.x - x, rect.y - y) surface.pixels rect
      src.isOpaque).map fun put =>
        let drawn := { surface with pixels := put.1 }
        if put.2.1.isEmpty then (drawn, [])
        else (drawn.touchRect put.2.1 environment.time).deferDraw environment put.2.1

/-- `paint` with checked accesses. -/
def paintChecked (environment : Environment) (x y : Int) (src : Image) (red green blue : UInt8) :
    Option (Surface × List (SurfaceOutput Id)) :=
  let rect := surface.clipToRect ⟨x, y, src.width, src.height⟩
  if rect.isEmpty then some (surface, [])
  else
    (fillMaskChecked surface.Writable src.bounds src.pixels (rect.x - x, rect.y - y) surface.pixels
      rect (argb 0xFF red green blue)).map fun filled =>
        { surface with pixels := filled }.deferDraw environment rect

/-- `set` with checked accesses. -/
def setPixelsChecked (environment : Environment) (rect : Rect) (red green blue alpha : UInt8) :
    Option (Surface × List (SurfaceOutput Id)) :=
  let rect := surface.clipToRect rect
  if rect.isEmpty then some (surface, [])
  else
    let color := argb alpha red green blue
    (setChecked surface.Writable surface.pixels rect color).map fun updated =>
      let drawn := { surface with pixels := updated.1 }
      if updated.2.isEmpty then (drawn, [])
      else if alpha ≠ 0xFF then drawn.deferDraw environment updated.2
      else if drawn.shouldCombine updated.2 true then (drawn.markDirty updated.2, [])
      else
        let flushed := drawn.flush environment
        ({ flushed.1 with realized := true },
          [.flush drawn flushed.2 flushed.1, .fill updated.2 color])

end Surface

section Surfaces

variable [DecidableEq Id]

/-- `transferRect` with checked accesses. -/
def transferRectChecked (surfaces : Id → Surface) (environment : Environment)
    (operation : Point → Rect → SurfaceOutput Id) (op : TransferFunction) (source : Id)
    (srect : Rect) (target : Id) (dx dy : Int) : Option (SurfaceUpdates Id) :=
  let bounded := (surfaces source).boundRect srect
  if bounded.isEmpty then some (surfaces, [])
  else
    let dx := dx + (bounded.x - srect.x)
    let dy := dy + (bounded.y - srect.y)
    let drect := (surfaces target).clipToRect ⟨dx, dy, bounded.width, bounded.height⟩
    let start := (bounded.x + (drect.x - dx), bounded.y + (drect.y - dy))
    if drect.isEmpty then some (surfaces, [])
    else if source = target then
      let sent := combineOrSend surfaces environment source target drect (operation start drect)
      (transferChecked (surfaces target).Writable (surfaces source).bounds none start op
        (sent.1 target).pixels drect).map fun moved =>
          (Function.update sent.1 target { sent.1 target with pixels := moved.1 }, sent.2)
    else
      (transferChecked (surfaces target).Writable (surfaces source).bounds
        (some (surfaces source).pixels) start op (surfaces target).pixels drect).map fun moved =>
          let drawn := Function.update surfaces target { surfaces target with pixels := moved.1 }
          if moved.2.1.isEmpty then (drawn, [])
          else
            combineOrSend drawn environment source target moved.2.1 (operation moved.2.2 moved.2.1)

/-- An operation is called whose accesses are checked. -/
def SurfaceAction.runChecked (environment : Environment) (surfaces : Id → Surface)
    (action : SurfaceAction Id) : Option (SurfaceUpdates Id) :=
  match action with
  | .draw id x y src =>
      ((surfaces id).drawChecked environment x y src).map (updateSurface surfaces id)
  | .paint id x y src red green blue =>
      ((surfaces id).paintChecked environment x y src red green blue).map
        (updateSurface surfaces id)
  | .set id rect red green blue alpha =>
      ((surfaces id).setPixelsChecked environment rect red green blue alpha).map
        (updateSurface surfaces id)
  | .copy source srect target dx dy =>
      transferRectChecked surfaces environment (.copy source) .src source srect target dx dy
  | .transfer source srect op target dx dy =>
      transferRectChecked surfaces environment (fun start rect => .transfer source start op rect) op
        source srect target dx dy
  | _ => some (action.run environment surfaces)

end Surfaces

/-! ## Accesses within bounds -/

section Within

variable {writable : Point → Prop} [DecidablePred writable] {rect srcBounds : Rect}

theorem Rect.load_eq {bounds : Rect} {point : Point} (contains : bounds.Contains point)
    (pixels : Pixels) : bounds.load pixels point = some (pixels point) :=
  if_pos contains

theorem Rect.sourceOf_forward (source offset : Point) :
    rect.sourceOf source (rect.forward offset) = (source.1 + offset.1, source.2 + offset.2) :=
  Prod.ext (by unfold sourceOf forward; dsimp only; omega)
    (by unfold sourceOf forward; dsimp only; omega)

theorem Rect.sourceOf_backward (source offset : Point) :
    rect.sourceOf source (rect.backward offset) =
      Rect.backward ⟨source.1, source.2, rect.width, rect.height⟩ offset :=
  Prod.ext (by unfold sourceOf backward; dsimp only; omega)
    (by unfold sourceOf backward; dsimp only; omega)

theorem setChecked_eq (writes : ∀ point, rect.Contains point → writable point) (dst : Pixels)
    (color : UInt32) : setChecked writable dst rect color = some (setPixels dst rect color) := by
  have forward : ∀ offset ∈ rect.offsets, writable (rect.forward offset) := fun offset visited =>
    writes _ (Rect.forward_contains visited)
  unfold setChecked
  rw [Sweep.runChecked_eq (fun _ _ _ => rfl) forward]
  rfl

section Reading

variable {source : Point}
  (reads : ∀ point, rect.Contains point → srcBounds.Contains (rect.sourceOf source point))
  (writes : ∀ point, rect.Contains point → writable point) (dst : Pixels)

include reads in
theorem loads_forward {offset : Point} (visited : offset ∈ rect.offsets) (src : Pixels) :
    srcBounds.load src (source.1 + offset.1, source.2 + offset.2) =
      some (src (source.1 + offset.1, source.2 + offset.2)) := by
  have inside := reads _ (Rect.forward_contains visited)
  rw [Rect.sourceOf_forward] at inside
  exact Rect.load_eq inside src

include reads in
theorem loads_backward {offset : Point} (visited : offset ∈ rect.offsets) (src : Pixels) :
    srcBounds.load src (Rect.backward ⟨source.1, source.2, rect.width, rect.height⟩ offset) =
      some (src (Rect.backward ⟨source.1, source.2, rect.width, rect.height⟩ offset)) := by
  have inside := reads _ (Rect.backward_contains visited)
  rw [Rect.sourceOf_backward] at inside
  exact Rect.load_eq inside src

include reads writes

theorem putChecked_eq (src : Pixels) (isOpaque : Bool) :
    putChecked writable srcBounds src source dst rect isOpaque =
      some (putPixels src source dst rect isOpaque) := by
  unfold putChecked
  rw [Sweep.runChecked_eq (fun _ _ visited => loads_forward reads visited src)
    fun _ visited => writes _ (Rect.forward_contains visited)]
  rfl

theorem fillMaskChecked_eq (src : Pixels) (color : UInt32) :
    fillMaskChecked writable srcBounds src source dst rect color =
      some (fillMask src source dst rect color) := by
  unfold fillMaskChecked
  rw [Sweep.runChecked_eq (fun _ _ visited => loads_forward reads visited src)
    fun _ visited => writes _ (Rect.forward_contains visited)]
  rfl

theorem transferChecked_eq (src : Option Pixels) (op : TransferFunction) :
    transferChecked writable srcBounds src source op dst rect =
      some (transferPixels src source op dst rect) := by
  unfold transferChecked transferPixels
  dsimp only
  by_cases forwards : src.isSome ∨ rect.y < source.2 ∨ rect.y = source.2 ∧ rect.x < source.1
  · have loads : ∀ pixels, ∀ offset ∈ rect.offsets,
        srcBounds.load (src.getD pixels)
            (Rect.forward ⟨source.1, source.2, rect.width, rect.height⟩ offset) =
          some (src.getD pixels
            (Rect.forward ⟨source.1, source.2, rect.width, rect.height⟩ offset)) :=
      fun pixels _ visited => loads_forward reads visited (src.getD pixels)
    rw [if_pos forwards, if_pos forwards,
      Sweep.runChecked_eq loads fun _ visited => writes _ (Rect.forward_contains visited)]
    rfl
  · rw [if_neg forwards, if_neg forwards,
      Sweep.runChecked_eq (fun pixels _ visited => loads_backward reads visited (src.getD pixels))
        fun _ visited => writes _ (Rect.backward_contains visited)]
    rfl

end Reading

end Within

/-! ## Operations on reachable surfaces -/

section Operations

variable {Id : Type} {surface : Surface}

theorem clipToRect_writable (good : surface.Good) {rect : Rect} {point : Point}
    (contains : (surface.clipToRect rect).Contains point) :
    rect.Contains point ∧ surface.Writable point := by
  have inside := Surface.clipToRect_inside good contains
  unfold Surface.clipToRect Surface.boundRect at contains
  by_cases clipped : surface.clipped = true
  · rw [if_pos clipped, Rect.contains_constrain] at contains
    exact ⟨contains.1, inside, fun _ => contains.2⟩
  · rw [if_neg clipped, Rect.contains_constrain] at contains
    exact ⟨contains.1, inside, fun clips => absurd clips clipped⟩

/-- What is drawn of an image lies within it. -/
theorem image_reads (good : surface.Good) (x y : Int) (src : Image) (point : Point)
    (contains : (surface.clipToRect ⟨x, y, src.width, src.height⟩).Contains point) :
    src.bounds.Contains ((surface.clipToRect ⟨x, y, src.width, src.height⟩).sourceOf
      ((surface.clipToRect ⟨x, y, src.width, src.height⟩).x - x,
        (surface.clipToRect ⟨x, y, src.width, src.height⟩).y - y) point) := by
  have inside := (clipToRect_writable good contains).1
  unfold Rect.Contains Rect.right Rect.bottom at inside
  unfold Rect.Contains Rect.right Rect.bottom Image.bounds Rect.sourceOf
  dsimp only at inside ⊢
  omega

theorem drawChecked_eq (good : surface.Good) (environment : Environment) (x y : Int) (src : Image) :
    (surface.drawChecked environment x y src : Option (Surface × List (SurfaceOutput Id))) =
      some (surface.draw environment x y src) := by
  unfold Surface.drawChecked Surface.draw
  dsimp only
  by_cases empty : (surface.clipToRect ⟨x, y, src.width, src.height⟩).isEmpty = true
  · rw [if_pos empty, if_pos empty]
  rw [if_neg empty, if_neg empty, putChecked_eq (image_reads good x y src)
    fun point contains => (clipToRect_writable good contains).2]
  rfl

theorem paintChecked_eq (good : surface.Good) (environment : Environment) (x y : Int) (src : Image)
    (red green blue : UInt8) :
    (surface.paintChecked environment x y src red green blue :
        Option (Surface × List (SurfaceOutput Id))) =
      some (surface.paint environment x y src red green blue) := by
  unfold Surface.paintChecked Surface.paint
  dsimp only
  by_cases empty : (surface.clipToRect ⟨x, y, src.width, src.height⟩).isEmpty = true
  · rw [if_pos empty, if_pos empty]
  rw [if_neg empty, if_neg empty, fillMaskChecked_eq (image_reads good x y src)
    fun point contains => (clipToRect_writable good contains).2]
  rfl

theorem setPixelsChecked_eq (good : surface.Good) (environment : Environment) (rect : Rect)
    (red green blue alpha : UInt8) :
    (surface.setPixelsChecked environment rect red green blue alpha :
        Option (Surface × List (SurfaceOutput Id))) =
      some (surface.set environment rect red green blue alpha) := by
  unfold Surface.setPixelsChecked Surface.set
  dsimp only
  by_cases empty : (surface.clipToRect rect).isEmpty = true
  · rw [if_pos empty, if_pos empty]
  rw [if_neg empty, if_neg empty,
    setChecked_eq fun point contains => (clipToRect_writable good contains).2]
  rfl

variable [DecidableEq Id] {surfaces : Id → Surface}

/-- What is transferred lies within the part of the source that is transferred. -/
theorem transfer_reads (good : surface.Good) (bounded : Rect) (dx dy : Int) (point : Point)
    (contains : (surface.clipToRect ⟨dx, dy, bounded.width, bounded.height⟩).Contains point) :
    bounded.Contains ((surface.clipToRect ⟨dx, dy, bounded.width, bounded.height⟩).sourceOf
      (bounded.x + ((surface.clipToRect ⟨dx, dy, bounded.width, bounded.height⟩).x - dx),
        bounded.y + ((surface.clipToRect ⟨dx, dy, bounded.width, bounded.height⟩).y - dy))
      point) := by
  have inside := (clipToRect_writable good contains).1
  unfold Rect.Contains Rect.right Rect.bottom at inside
  unfold Rect.Contains Rect.right Rect.bottom Rect.sourceOf
  dsimp only at inside ⊢
  omega

theorem transferRectChecked_eq (good : ∀ id, (surfaces id).Good) (environment : Environment)
    (operation : Point → Rect → SurfaceOutput Id) (op : TransferFunction) (source : Id)
    (srect : Rect) (target : Id) (dx dy : Int) :
    transferRectChecked surfaces environment operation op source srect target dx dy =
      some (transferRect surfaces environment operation op source srect target dx dy) := by
  have reads := fun dx dy point contains => (Rect.contains_constrain.mp
    (transfer_reads (good target) ((surfaces source).boundRect srect) dx dy point
      contains)).2
  have writes := fun {rect : Rect} point (contains : ((surfaces target).clipToRect rect).Contains
    point) => (clipToRect_writable (good target) contains).2
  unfold transferRectChecked transferRect
  dsimp only
  by_cases nothing : ((surfaces source).boundRect srect).isEmpty = true
  · rw [if_pos nothing, if_pos nothing]
  rw [if_neg nothing, if_neg nothing]
  by_cases outside : ((surfaces target).clipToRect
      ⟨dx + (((surfaces source).boundRect srect).x - srect.x),
        dy + (((surfaces source).boundRect srect).y - srect.y),
        ((surfaces source).boundRect srect).width,
        ((surfaces source).boundRect srect).height⟩).isEmpty = true
  · rw [if_pos outside, if_pos outside]
  rw [if_neg outside, if_neg outside]
  by_cases same : source = target
  · rw [if_pos same, if_pos same, transferChecked_eq (reads _ _) writes]
    rfl
  · rw [if_neg same, if_neg same, transferChecked_eq (reads _ _) writes]
    rfl

theorem SurfaceAction.runChecked_eq (good : ∀ id, (surfaces id).Good) (environment : Environment)
    (action : SurfaceAction Id) :
    action.runChecked environment surfaces = some (action.run environment surfaces) := by
  cases action with
  | draw id x y src =>
      unfold runChecked run
      dsimp only
      rw [drawChecked_eq (good id) environment x y src]
      rfl
  | paint id x y src red green blue =>
      unfold runChecked run
      dsimp only
      rw [paintChecked_eq (good id) environment x y src red green blue]
      rfl
  | set id rect red green blue alpha =>
      unfold runChecked run
      dsimp only
      rw [setPixelsChecked_eq (good id) environment rect red green blue alpha]
      rfl
  | copy source srect target dx dy =>
      unfold runChecked run
      dsimp only
      rw [transferRectChecked_eq good]
  | transfer source srect op target dx dy =>
      unfold runChecked run
      dsimp only
      rw [transferRectChecked_eq good]
  | clip | resetClip | setLossless | resize | flush =>
      unfold runChecked
      dsimp only

/-- An operation does all that it does with accesses to pixels of the source within its bounds, and
to pixels of the surface within its bounds and its clipping rectangle. -/
def AccessesWithin (session : SurfaceSession Id) (call : SurfaceAction Id × Environment) : Prop :=
  call.1.runChecked call.2 session.surfaces = some (call.1.run call.2 session.surfaces)

/-- In every run of operations on freshly allocated surfaces, all accesses are within bounds. -/
theorem accesses_within (sizes : Id → Int × Int) (isBuffer : Id → Bool)
    (calls : List (SurfaceAction Id × Environment)) :
    Guarded surfaceStep AccessesWithin (.start sizes isBuffer) calls :=
  guarded_of_invariant (SurfaceSession.start_good sizes isBuffer)
    (fun _ call good => good.step call)
    fun _ call good => SurfaceAction.runChecked_eq good.surfaces call.2 call.1

end Operations

end GuacNebula.Common
