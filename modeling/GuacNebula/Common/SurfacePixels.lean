import GuacNebula.Common.SurfaceAccess

/-! # Pixels after an operation

What an image that is drawn and a rectangle that is copied make of every pixel of a surface. The
pixels that an operation reaches are those of its rectangle within the bounds or the clipping
rectangle of the surface.
-/

namespace GuacNebula.Common

variable {Id : Type} {point : Point} {rect : Rect}

/-! ## Clipping -/

/-- The pixels of a surface that operations reach. -/
def Surface.clipArea (surface : Surface) : Rect :=
  if surface.clipped then surface.clipRect else surface.bounds

theorem clipToRect_contains {surface : Surface} :
    (surface.clipToRect rect).Contains point ↔
      rect.Contains point ∧ surface.clipArea.Contains point := by
  unfold Surface.clipToRect Surface.boundRect Surface.clipArea
  split
  · exact Rect.contains_constrain
  · exact Rect.contains_constrain

/-! ## Images -/

/-- The point of an image that a pixel comes from does not depend on the clipping. -/
theorem sourceOf_image (x y : Int) (point : Point) :
    rect.sourceOf (rect.x - x, rect.y - y) point = (point.1 - x, point.2 - y) :=
  Prod.ext (by unfold Rect.sourceOf; dsimp only; omega)
    (by unfold Rect.sourceOf; dsimp only; omega)

namespace Surface

variable {surface : Surface} {environment : Environment}

theorem draw_bounds (good : surface.Good) (x y : Int) (src : Image) :
    (surface.draw environment x y src : Surface × List (SurfaceOutput Id)).1.bounds =
      surface.bounds := by
  unfold draw
  dsimp only
  split_ifs
  · rfl
  · rfl
  · exact (deferDraw_kept (good.redrawn ..) _).bounds

theorem draw_pixels (good : surface.Good) (x y : Int) (src : Image) (point : Point) :
    (surface.draw environment x y src : Surface × List (SurfaceOutput Id)).1.pixels point =
      if (surface.clipToRect ⟨x, y, src.width, src.height⟩).Contains point then
        if src.isOpaque then src.pixels (point.1 - x, point.2 - y) ||| 0xFF000000
        else argbBlend (surface.pixels point) (src.pixels (point.1 - x, point.2 - y))
      else surface.pixels point := by
  unfold draw
  dsimp only
  by_cases empty : (surface.clipToRect ⟨x, y, src.width, src.height⟩).isEmpty = true
  · rw [if_pos empty, if_neg]
    intro contains
    exact Bool.false_ne_true (contains.not_isEmpty.symm.trans empty)
  rw [if_neg empty]
  -- Whether the rectangle was narrowed to nothing or not, the pixels are those that were put.
  have put : ∀ narrowed : Rect × Point, ∀ pixels : Pixels,
      ((if narrowed.1.isEmpty = true then ({ surface with pixels := pixels }, [])
        else ({ surface with pixels := pixels }.touchRect narrowed.1
          environment.time).deferDraw environment narrowed.1 :
          Surface × List (SurfaceOutput Id))).1.pixels = pixels := by
    intro narrowed pixels
    split
    · rfl
    · exact (deferDraw_kept (good.redrawn pixels _) narrowed.1).pixels
  rw [put (putPixels src.pixels _ surface.pixels _ src.isOpaque).2]
  by_cases contains : (surface.clipToRect ⟨x, y, src.width, src.height⟩).Contains point
  · rw [if_pos contains, putPixels_inside _ _ _ _ contains, sourceOf_image]
  · rw [if_neg contains, putPixels_outside _ _ _ _ contains]

/-- `draw` of an opaque image in memory, of which words can be loaded. -/
def drawLoaded (surface : Surface) (environment : Environment) (x y width height : Int)
    (load : Point → Option UInt32) : Option (Surface × List (SurfaceOutput Id)) :=
  let rect := surface.clipToRect ⟨x, y, width, height⟩
  if rect.isEmpty then some (surface, [])
  else
    (Sweep.runChecked
      (fun _ offset => load (rect.x - x + offset.1, rect.y - y + offset.2)) surface.Writable
      rect.forward (fun src _ => src ||| 0xFF000000) rect
      ⟨surface.pixels, rect.width, rect.height, 0, 0⟩).map fun sweep =>
        let drawn := { surface with pixels := sweep.pixels }
        let updated := sweep.restrict rect
        if updated.isEmpty then (drawn, [])
        else (drawn.touchRect updated environment.time).deferDraw environment updated

variable {x y width height : Int} {load : Point → Option UInt32}

/-- An image whose words are all there is drawn. -/
theorem drawLoaded_eq_draw (good : surface.Good)
    (loads : ∀ point, (surface.clipToRect ⟨x, y, width, height⟩).Contains point →
      (load (point.1 - x, point.2 - y)).isSome) :
    (surface.drawLoaded environment x y width height load :
        Option (Surface × List (SurfaceOutput Id))) =
      some
        (surface.draw environment x y ⟨width, height, fun point => (load point).getD 0, true⟩) := by
  unfold drawLoaded draw
  dsimp only
  by_cases empty : (surface.clipToRect ⟨x, y, width, height⟩).isEmpty = true
  · rw [if_pos empty, if_pos empty]
  rw [if_neg empty, if_neg empty]
  have words : ∀ pixels : Pixels, ∀ offset ∈ (surface.clipToRect ⟨x, y, width, height⟩).offsets,
      load ((surface.clipToRect ⟨x, y, width, height⟩).x - x + offset.1,
          (surface.clipToRect ⟨x, y, width, height⟩).y - y + offset.2) =
        some ((load ((surface.clipToRect ⟨x, y, width, height⟩).x - x + offset.1,
          (surface.clipToRect ⟨x, y, width, height⟩).y - y + offset.2)).getD 0) := by
    intro _ offset visited
    have there := loads _ (Rect.forward_contains visited)
    have same : ((Rect.forward (surface.clipToRect ⟨x, y, width, height⟩) offset).1 - x,
        (Rect.forward (surface.clipToRect ⟨x, y, width, height⟩) offset).2 - y) =
        ((surface.clipToRect ⟨x, y, width, height⟩).x - x + offset.1,
          (surface.clipToRect ⟨x, y, width, height⟩).y - y + offset.2) :=
      Prod.ext (by unfold Rect.forward; dsimp only; omega)
        (by unfold Rect.forward; dsimp only; omega)
    rw [same] at there
    obtain ⟨word, loaded⟩ := Option.isSome_iff_exists.mp there
    rw [loaded]
    rfl
  rw [Sweep.runChecked_eq words fun offset visited =>
    (clipToRect_writable good (Rect.forward_contains visited)).2]
  rfl

/-- Drawing stops at a word that is not there. -/
theorem drawLoaded_eq_none
    (contains : (surface.clipToRect ⟨x, y, width, height⟩).Contains point)
    (fails : load (point.1 - x, point.2 - y) = none) :
    (surface.drawLoaded environment x y width height load :
        Option (Surface × List (SurfaceOutput Id))) = none := by
  unfold drawLoaded
  dsimp only
  have filled : ¬ (surface.clipToRect ⟨x, y, width, height⟩).isEmpty = true := by
    rw [contains.not_isEmpty]
    exact Bool.false_ne_true
  rw [if_neg filled, Sweep.runChecked_eq_none (Rect.offsetOf_mem contains)]
  · rfl
  · intro _
    rw [← fails]
    refine congrArg load (Prod.ext ?_ ?_)
    · unfold Rect.offsetOf
      dsimp only
      omega
    · unfold Rect.offsetOf
      dsimp only
      omega

/-- An image is drawn unless a word of it that is drawn is not there. -/
theorem drawLoaded_isSome (good : surface.Good) :
    (surface.drawLoaded environment x y width height load :
        Option (Surface × List (SurfaceOutput Id))).isSome ↔
      ∀ point, (surface.clipToRect ⟨x, y, width, height⟩).Contains point →
        (load (point.1 - x, point.2 - y)).isSome := by
  refine ⟨fun drawn point contains => ?_, fun loads => ?_⟩
  · by_contra missing
    rw [drawLoaded_eq_none contains (Option.not_isSome_iff_eq_none.mp missing)] at drawn
    exact Bool.false_ne_true drawn
  · rw [drawLoaded_eq_draw good loads]
    rfl

/-- What was drawn of an image in memory. -/
theorem drawLoaded_drawn (good : surface.Good) {updated : Surface × List (SurfaceOutput Id)}
    (drawn : surface.drawLoaded environment x y width height load = some updated) :
    updated =
      surface.draw environment x y ⟨width, height, fun point => (load point).getD 0, true⟩ := by
  have loads := (drawLoaded_isSome good).mp (Option.isSome_of_eq_some drawn)
  rw [drawLoaded_eq_draw good loads] at drawn
  exact (Option.some.inj drawn).symm

end Surface

/-! ## Copies -/

/-- A transfer from another surface gives every pixel of the rectangle its value. -/
theorem transferPixels_inside (src : Pixels) (source : Point) (op : TransferFunction)
    (dst : Pixels) (contains : rect.Contains point) :
    (transferPixels (some src) source op dst rect).1 point =
      transferInt op (src (rect.sourceOf source point)) (dst point) := by
  have painted := @Sweep.run_painted rect rect.forward
    (transferColor (some src) op
      (Rect.forward ⟨source.1, source.2, rect.width, rect.height⟩) rect.forward) dst
    rect.forward_injective
    (fun offset _ current agrees => by
      have old : current (rect.forward offset) = dst (rect.forward offset) := by
        refine agrees _ fun earlier _ visited same => ?_
        rw [rect.forward_injective same] at visited
        unfold Visited at visited
        omega
      unfold transferColor
      rw [old]
      rfl)
    (rect.width - 1) (rect.height - 1) 0 0
  have drawn := painted.drawn _ (rect.offsetOf_mem contains)
  rw [rect.forward_offsetOf] at drawn
  unfold transferPixels
  dsimp only
  rw [if_pos (.inl rfl)]
  refine drawn.trans ?_
  unfold transferColor
  rw [rect.forward_offsetOf]
  rfl

theorem transferPixels_outside (src : Option Pixels) (source : Point) (op : TransferFunction)
    (dst : Pixels) (outside : ¬ rect.Contains point) :
    (transferPixels src source op dst rect).1 point = dst point := by
  by_contra changed
  exact outside (transferPixels_narrowed src source op dst rect point changed).1

/-- A rectangle that is shifted contains what the rectangle contained. -/
theorem contains_shifted (part whole : Rect) (dx dy : Int) :
    Rect.Contains ⟨dx + (part.x - whole.x), dy + (part.y - whole.y), part.width, part.height⟩
        point ↔
      part.Contains (whole.x + (point.1 - dx), whole.y + (point.2 - dy)) := by
  unfold Rect.Contains Rect.right Rect.bottom
  dsimp only
  omega

section Transfers

open Surface

variable {surfaces : Id → Surface} {source target : Id} {srect : Rect} {dx dy : Int}

/-- The rectangle that a transfer draws, after the source and the destination were clipped. -/
theorem transfer_contains :
    ((surfaces target).clipToRect
      ⟨dx + (((surfaces source).boundRect srect).x - srect.x),
        dy + (((surfaces source).boundRect srect).y - srect.y),
        ((surfaces source).boundRect srect).width,
        ((surfaces source).boundRect srect).height⟩).Contains point ↔
      ((surfaces target).clipToRect ⟨dx, dy, srect.width, srect.height⟩).Contains point ∧
        (surfaces source).bounds.Contains
          (srect.x + (point.1 - dx), srect.y + (point.2 - dy)) := by
  have whole := @contains_shifted point srect srect dx dy
  rw [Int.sub_self, Int.sub_self, Int.add_zero, Int.add_zero] at whole
  rw [clipToRect_contains, clipToRect_contains, contains_shifted, whole, and_right_comm]
  exact and_congr_left fun _ => Rect.contains_constrain

variable [DecidableEq Id]

/-- The pixels are those that were transferred, whatever is done about the rectangle then. -/
theorem transferred_pixels (good : ∀ id, (surfaces id).Good) (environment : Environment)
    {operation : Point → Rect → SurfaceOutput Id}
    (plain : ∀ start rect, (operation start rect).isFlush = false) (pixels : Pixels)
    (moved : Rect × Point) :
    ((if moved.1.isEmpty = true then
        (Function.update surfaces target { surfaces target with pixels := pixels }, [])
      else combineOrSend
        (Function.update surfaces target { surfaces target with pixels := pixels }) environment
        source target moved.1 (operation moved.2 moved.1) : SurfaceUpdates Id).1
          target).pixels = pixels := by
  split
  · dsimp only
    rw [Function.update_self]
  · refine (combineOrSend_kept (update_good good target pixels) environment source target
      moved.1 (plain ..) target).pixels.trans ?_
    rw [Function.update_self]

/-- What a transfer between two surfaces makes of the pixels of the destination. -/
theorem transferRect_pixels (good : ∀ id, (surfaces id).Good) (environment : Environment)
    {operation : Point → Rect → SurfaceOutput Id}
    (plain : ∀ start rect, (operation start rect).isFlush = false) (op : TransferFunction)
    (different : source ≠ target) (point : Point) :
    ((transferRect surfaces environment operation op source srect target dx dy).1
        target).pixels point =
      if ((surfaces target).clipToRect ⟨dx, dy, srect.width, srect.height⟩).Contains point ∧
          (surfaces source).bounds.Contains
            (srect.x + (point.1 - dx), srect.y + (point.2 - dy)) then
        transferInt op
          ((surfaces source).pixels (srect.x + (point.1 - dx), srect.y + (point.2 - dy)))
          ((surfaces target).pixels point)
      else (surfaces target).pixels point := by
  have drawn := @transfer_contains Id point surfaces source target srect dx dy
  unfold transferRect
  dsimp only
  rw [if_neg different]
  by_cases bounded : ((surfaces source).boundRect srect).isEmpty = true
  · rw [if_pos bounded, if_neg]
    intro both
    have sizes := (clipToRect_contains.mp (drawn.mpr both)).1.nonempty
    unfold Rect.isEmpty at bounded
    dsimp only at sizes
    rw [decide_eq_false (by omega), decide_eq_false (by omega)] at bounded
    exact Bool.false_ne_true bounded
  rw [if_neg bounded]
  generalize ((surfaces target).clipToRect
      ⟨dx + (((surfaces source).boundRect srect).x - srect.x),
        dy + (((surfaces source).boundRect srect).y - srect.y),
        ((surfaces source).boundRect srect).width,
        ((surfaces source).boundRect srect).height⟩) = drect at drawn ⊢
  by_cases empty : drect.isEmpty = true
  · rw [if_pos empty, if_neg]
    intro both
    exact Bool.false_ne_true ((drawn.mpr both).not_isEmpty.symm.trans empty)
  rw [if_neg empty]
  rw [transferred_pixels good environment plain _
    (transferPixels (some (surfaces source).pixels) _ op (surfaces target).pixels drect).2]
  by_cases contains : drect.Contains point
  · rw [if_pos (drawn.mp contains), transferPixels_inside _ _ _ _ contains]
    exact congrArg (fun start => transferInt op ((surfaces source).pixels start) _)
      (Prod.ext (by unfold Rect.sourceOf; dsimp only; omega)
        (by unfold Rect.sourceOf; dsimp only; omega))
  · rw [if_neg fun both => contains (drawn.mpr both), transferPixels_outside _ _ _ _ contains]

end Transfers

end GuacNebula.Common
