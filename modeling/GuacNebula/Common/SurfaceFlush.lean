import GuacNebula.Common.Surface

/-! # Flushing a surface

A change of a surface is first a dirty rectangle, which is extended as long as that is cheap. It is
then queued, and at last sent as an image. A flush sorts the queue, combines what it holds, and
puts combined rectangles back into the queue as long as there is room.

`flush_covers` is that every pixel of the dirty rectangle and of the queued ones that still exists
is sent by a flush, and `flush_frame` that nothing is left in the queue, nor was ever stored behind
its end.
-/

namespace GuacNebula.Common

open CInt

/-- `GUAC_COMMON_SURFACE_QUEUE_SIZE`. -/
def queueSize : Nat := 256

/-- `GUAC_COMMON_SURFACE_HEAT_CELL_SIZE`. -/
def heatCellSize : Int := 64

/-- `GUAC_COMMON_SURFACE_HEAT_DIMENSION`. -/
def heatDimension (size : Int) : Int := (size + heatCellSize - 1).tdiv heatCellSize

/-- What an operation asks of its surroundings: whether all users support WebP, the processing lag
of the client, and the time. -/
structure Environment where
  supportsWebp : Bool
  lag : Int
  time : Int

/-- The instructions of a flush. An image is sent with the contents of the buffer. -/
inductive BitmapInstruction
  | clear (rect : Rect)
  | png (rect : Rect) (isOpaque : Bool) (image : Pixels)
  | jpeg (rect : Rect) (image : Pixels) (quality : Int)
  | webp (rect : Rect) (isOpaque : Bool) (image : Pixels) (quality : Int) (lossless : Bool)

/-- `guac_common_surface_suggest_quality`. -/
def suggestQuality (lag : Int) : Int :=
  let quality := 90 - (lag - 20)
  if quality > 90 then 90 else if quality < 30 then 30 else quality

/-- The framerate shown by the history of a cell. -/
def HeatCell.framerate (cell : HeatCell) : Int :=
  let elapsed := toInt (cell.history.get (cell.oldestEntry - 1) - cell.history.get cell.oldestEntry)
  if elapsed ≠ 0 then (5 * 1000 : Int).tdiv elapsed else 0

/-- A cell of a new heat map. -/
def HeatCell.zero : HeatCell := {}

/-- The oldest entry of a cell is replaced. -/
def HeatCell.touch (time : Int) (cell : HeatCell) : HeatCell where
  history := cell.history.set cell.oldestEntry time
  oldestEntry := cell.oldestEntry + 1

/-- `__guac_common_surface_bitmap_rect_compare`. -/
def bitmapRectCompare (a b : BitmapRect) : Int :=
  if a.rect.y ≠ b.rect.y then a.rect.y - b.rect.y
  else if a.rect.x ≠ b.rect.x then a.rect.x - b.rect.x
  else if a.rect.width ≠ b.rect.width then b.rect.width - a.rect.width
  else a.rect.height - b.rect.height

namespace Surface

variable (surface : Surface)

/-! ## Clipping -/

/-- The rectangle of all pixels. -/
def bounds : Rect := ⟨0, 0, surface.width, surface.height⟩

/-- `__guac_common_bound_rect`. -/
def boundRect (rect : Rect) : Rect := rect.constrain surface.bounds

/-- `__guac_common_clip_rect`. -/
def clipToRect (rect : Rect) : Rect :=
  if surface.clipped then rect.constrain surface.clipRect else surface.boundRect rect

/-! ## The dirty rectangle -/

/-- The cost of an update, before its image data is looked at. -/
def updateCost (rect : Rect) : Int := toInt (4096 + rect.width * rect.height)

/-- `__guac_common_should_combine`. -/
def shouldCombine (rect : Rect) (rectOnly : Bool) : Bool :=
  if !surface.realized then true
  else if surface.dirty then
    let combined := surface.dirtyRect.extend rect
    let combinedCost := updateCost combined
    let dirtyCost := updateCost surface.dirtyRect
    let cost := if rectOnly then (updateCost rect).tdiv 16 else updateCost rect
    combined.width ≤ 64 && combined.height ≤ 64
      || combinedCost ≤ toInt (cost + dirtyCost)
      || toInt (combinedCost - dirtyCost) ≤ dirtyCost.tdiv 4
      || toInt (combinedCost - cost) ≤ cost.tdiv 4
      || rect.x = surface.dirtyRect.x && rect.y = surface.dirtyRect.bottom
        && combinedCost ≤ toInt (toInt (dirtyCost + cost) * 3)
  else false

/-- `__guac_common_mark_dirty`. -/
def markDirty (rect : Rect) : Surface :=
  if rect.isEmpty then surface
  else if surface.dirty then { surface with dirtyRect := surface.dirtyRect.extend rect }
  else { surface with dirtyRect := rect, dirty := true }

/-- `__guac_common_surface_flush_to_queue`. -/
def flushToQueue : Surface :=
  if !surface.dirty then surface
  else
    { surface with
      overflow := surface.overflow || queueSize ≤ surface.bitmapQueue.length
      bitmapQueue := surface.bitmapQueue ++ [{ rect := surface.dirtyRect }]
      dirty := false }

/-! ## The kind of an image -/

/-- `__guac_common_surface_is_opaque`. -/
def isOpaque (rect : Rect) : Bool :=
  rect.offsets.all fun offset => surface.pixels (rect.forward offset) &&& 0xFF000000 = 0xFF000000

/-- The cells of the heat map from a row and a column on. -/
def heatCells (minX minY columns rows : Int) : List Int :=
  (List.range rows.toNat).flatMap fun (y : Nat) =>
    (List.range columns.toNat).map fun (x : Nat) =>
      (minY + y) * heatDimension surface.width + minX + x

/-- `__guac_common_surface_calculate_framerate`. The last row and column are not looked at. -/
def calculateFramerate (rect : Rect) : Int :=
  let cells := surface.heatCells (rect.x.tdiv heatCellSize) (rect.y.tdiv heatCellSize)
    ((rect.width - 1).tdiv heatCellSize) ((rect.height - 1).tdiv heatCellSize)
  let sum := cells.foldl (fun sum cell => (sum + (surface.heatMap cell).framerate) % 4294967296) 0
  let count := (cells.length : Int) % 4294967296
  if count ≠ 0 then sum / count else 0

/-- `__guac_common_surface_touch_rect`. -/
def touchRect (rect : Rect) (time : Int) : Surface :=
  let cells := surface.heatCells (rect.x.tdiv heatCellSize) (rect.y.tdiv heatCellSize)
    ((rect.width - 1).tdiv heatCellSize + 1) ((rect.height - 1).tdiv heatCellSize + 1)
  { surface with
    heatMap := cells.foldl
      (fun heatMap cell => Function.update heatMap cell ((heatMap cell).touch time))
      surface.heatMap }

/-- `__guac_common_surface_png_optimality`. A pixel is compared with the one to the left of it. -/
def pngOptimality (rect : Rect) : Int :=
  if rect.width < 1 || rect.height < 1 then 0
  else
    let same := (rect.offsets.filter fun offset => 1 ≤ offset.1).countP fun offset =>
      surface.pixels (rect.forward offset) ||| 0xFF000000
        = surface.pixels (rect.forward (offset.1 - 1, offset.2)) ||| 0xFF000000
    let different := (rect.offsets.filter fun offset => 1 ≤ offset.1).countP fun offset =>
      surface.pixels (rect.forward offset) ||| 0xFF000000
        ≠ surface.pixels (rect.forward (offset.1 - 1, offset.2)) ||| 0xFF000000
    (toInt (0x100 * same)).tdiv (1 + different) - 0x400

/-- `__guac_common_surface_should_use_jpeg`. -/
def shouldUseJpeg (rect : Rect) : Bool :=
  !surface.lossless && 3 ≤ toInt (surface.calculateFramerate rect)
    && toInt (rect.width * rect.height) > 4096 && surface.pngOptimality rect < 0

/-- `__guac_common_surface_should_use_webp`. -/
def shouldUseWebp (environment : Environment) (rect : Rect) : Bool :=
  environment.supportsWebp && 3 ≤ toInt (surface.calculateFramerate rect)
    && surface.pngOptimality rect < 0

/-! ## Images -/

/-- `__guac_common_surface_flush_to_png`. -/
def flushToPng (isOpaque : Bool) : Surface × List BitmapInstruction :=
  if surface.dirty then
    ({ surface with realized := true, dirty := false },
      (if isOpaque then [] else [.clear surface.dirtyRect])
        ++ [.png surface.dirtyRect isOpaque surface.pixels])
  else (surface, [])

/-- `__guac_common_surface_flush_to_jpeg`. -/
def flushToJpeg (environment : Environment) : Surface × List BitmapInstruction :=
  if surface.dirty then
    let rect := surface.dirtyRect.expandToGrid 16 surface.bounds
    ({ surface with dirtyRect := rect, realized := true, dirty := false },
      [.jpeg rect surface.pixels (suggestQuality environment.lag)])
  else (surface, [])

/-- `__guac_common_surface_flush_to_webp`. -/
def flushToWebp (environment : Environment) (isOpaque : Bool) :
    Surface × List BitmapInstruction :=
  if surface.dirty then
    let rect := surface.dirtyRect.expandToGrid 8 surface.bounds
    ({ surface with dirtyRect := rect, realized := true, dirty := false },
      [.webp rect isOpaque surface.pixels (suggestQuality environment.lag) surface.lossless])
  else (surface, [])

/-- The dirty rectangle is sent, by the end of the loop in `__guac_common_surface_flush`. -/
def flushBitmap (environment : Environment) : Surface × List BitmapInstruction :=
  let isOpaque := surface.isOpaque surface.dirtyRect
  if surface.shouldUseWebp environment surface.dirtyRect then
    surface.flushToWebp environment isOpaque
  else if isOpaque && surface.shouldUseJpeg surface.dirtyRect then
    surface.flushToJpeg environment
  else surface.flushToPng isOpaque

/-! ## The flush -/

/-- One candidate of the inner loop in `__guac_common_surface_flush`. -/
def combineCandidate (combined : Int) (candidate : BitmapRect) : Surface × Int × BitmapRect :=
  if candidate.flushed then (surface, combined, candidate)
  else
    let rect := surface.boundRect candidate.rect
    if rect.isEmpty then (surface, combined, { rect := rect, flushed := true })
    else if surface.shouldCombine rect false || !surface.dirty then
      (surface.markDirty rect, combined + 1, { rect := rect, flushed := true })
    else (surface, combined, { rect := rect })

/-- The inner loop: the dirty rectangle is built up as much as possible. -/
def combineAll (surface : Surface) (combined : Int) :
    List BitmapRect → Surface × Int × List BitmapRect
  | [] => (surface, combined, [])
  | candidate :: rest =>
      let first := surface.combineCandidate combined candidate
      let others := combineAll first.1 first.2.1 rest
      (others.1, others.2.1, first.2.2 :: others.2.2)

/-- The inner loop for the queue from an index on. -/
def combineQueue (i : Nat) : Surface × Int :=
  let built := surface.combineAll 0 (surface.bitmapQueue.drop i)
  ({ built.1 with bitmapQueue := surface.bitmapQueue.take i ++ built.2.2 }, built.2.1)

/-- The body of the outer loop, for a rectangle that is not flushed. -/
def flushCandidate (environment : Environment) (originalQueueLength i : Nat) :
    Surface × List BitmapInstruction :=
  let built := surface.combineQueue i
  if (built.2 > 1 || i < originalQueueLength) && built.1.bitmapQueue.length < queueSize then
    (built.1.flushToQueue, [])
  else if built.1.dirty then built.1.flushBitmap environment
  else (built.1, [])

/-- The body of the outer loop in `__guac_common_surface_flush`. -/
def flushIteration (environment : Environment) (originalQueueLength i : Nat) :
    Surface × List BitmapInstruction :=
  match surface.bitmapQueue[i]? with
  | none => (surface, [])
  | some candidate =>
      if candidate.flushed then (surface, [])
      else surface.flushCandidate environment originalQueueLength i

/-! ### The length of the queue -/

theorem combineAll_length (combined : Int) (candidates : List BitmapRect) :
    (surface.combineAll combined candidates).2.2.length = candidates.length := by
  induction candidates generalizing surface combined with
  | nil => rfl
  | cons candidate rest ih => exact congrArg (· + 1) (ih _ _)

theorem combineQueue_length (i : Nat) :
    (surface.combineQueue i).1.bitmapQueue.length = surface.bitmapQueue.length := by
  unfold combineQueue
  dsimp only
  rw [List.length_append, combineAll_length, ← List.length_append, List.take_append_drop]

theorem flushToQueue_length :
    surface.flushToQueue.bitmapQueue.length ≤ surface.bitmapQueue.length + 1 := by
  unfold flushToQueue
  split_ifs
  · exact Nat.le_succ _
  · exact (List.length_append ..).le

theorem flushBitmap_bitmapQueue (environment : Environment) :
    (surface.flushBitmap environment).1.bitmapQueue = surface.bitmapQueue := by
  unfold flushBitmap flushToWebp flushToJpeg flushToPng
  dsimp only
  split_ifs
  all_goals rfl

theorem flushIteration_length (environment : Environment) (originalQueueLength i : Nat) :
    (surface.flushIteration environment originalQueueLength i).1.bitmapQueue.length
      ≤ max surface.bitmapQueue.length queueSize := by
  have length := surface.combineQueue_length i
  have queued := (surface.combineQueue i).1.flushToQueue_length
  unfold flushIteration
  split
  · exact Nat.le_max_left ..
  · unfold flushCandidate
    dsimp only
    split_ifs with flushed room dirty
    · exact Nat.le_max_left ..
    · rw [Bool.and_eq_true, decide_eq_true_eq] at room
      dsimp only
      omega
    · rw [flushBitmap_bitmapQueue, length]
      exact Nat.le_max_left ..
    · exact length.le.trans (Nat.le_max_left ..)

/-- The outer loop in `__guac_common_surface_flush`. It ends, as no iteration makes the queue longer
than its capacity. -/
def flushLoop (environment : Environment) (originalQueueLength i : Nat) (surface : Surface) :
    Surface × List BitmapInstruction :=
  if i < surface.bitmapQueue.length then
    let flushed := surface.flushIteration environment originalQueueLength i
    let others := flushLoop environment originalQueueLength (i + 1) flushed.1
    (others.1, flushed.2 ++ others.2)
  else (surface, [])
termination_by max surface.bitmapQueue.length queueSize - i
decreasing_by
  have fits := surface.flushIteration_length environment originalQueueLength i
  omega

/-- The last dirty rectangle is queued, and the queue is sorted. -/
def sortQueue : Surface :=
  let queued := surface.flushToQueue
  { queued with
    bitmapQueue := queued.bitmapQueue.mergeSort fun a b => bitmapRectCompare a b ≤ 0 }

/-- `__guac_common_surface_flush`. -/
def flush (environment : Environment) : Surface × List BitmapInstruction :=
  let sorted := surface.sortQueue
  let flushed := flushLoop environment sorted.bitmapQueue.length 0 sorted
  ({ flushed.1 with bitmapQueue := [] }, flushed.2)

end Surface

/-! ## What a flush sends -/

/-- The rectangle that an instruction draws. To clear a rectangle does not count. -/
def BitmapInstruction.area : BitmapInstruction → Option Rect
  | .clear _ => none
  | .png rect .. => some rect
  | .jpeg rect .. => some rect
  | .webp rect .. => some rect

/-- One of the instructions draws a point. -/
def Covered (instructions : List BitmapInstruction) (point : Point) : Prop :=
  ∃ instruction ∈ instructions, ∃ rect, instruction.area = some rect ∧ rect.Contains point

/-- A point belongs to a rectangle that is not flushed. -/
def Waiting (candidates : List BitmapRect) (point : Point) : Prop :=
  ∃ candidate ∈ candidates, candidate.flushed = false ∧ candidate.rect.Contains point

variable {point : Point} {candidates others : List BitmapRect}
  {instructions more : List BitmapInstruction}

theorem covered_singleton {instruction : BitmapInstruction} {rect : Rect}
    (area : instruction.area = some rect) (contains : rect.Contains point) :
    Covered [instruction] point :=
  ⟨instruction, .head _, rect, area, contains⟩

theorem covered_append :
    Covered (instructions ++ more) point ↔ Covered instructions point ∨ Covered more point := by
  simp only [Covered, List.mem_append, or_and_right, exists_or]

theorem waiting_append :
    Waiting (candidates ++ others) point ↔ Waiting candidates point ∨ Waiting others point := by
  simp only [Waiting, List.mem_append, or_and_right, exists_or]

theorem waiting_cons {candidate : BitmapRect} :
    Waiting (candidate :: candidates) point ↔
      candidate.flushed = false ∧ candidate.rect.Contains point ∨ Waiting candidates point := by
  simp only [Waiting, List.exists_mem_cons_iff]

theorem Waiting.perm (waiting : Waiting candidates point) (same : others.Perm candidates) :
    Waiting others point := by
  obtain ⟨candidate, member, unflushed, contains⟩ := waiting
  exact ⟨candidate, same.mem_iff.mpr member, unflushed, contains⟩

namespace Surface

variable {surface : Surface} {environment : Environment} {originalQueueLength i : Nat}

/-- A point belongs to the dirty rectangle. -/
def InDirty (surface : Surface) (point : Point) : Prop :=
  surface.dirty = true ∧ surface.dirtyRect.Contains point

/-- The dirty rectangle, if there is one, lies within the bounds. -/
def DirtyInside (surface : Surface) : Prop :=
  surface.dirty = true → surface.dirtyRect.Inside surface.bounds

theorem dirtyInside_of_clean (clean : surface.dirty = false) : surface.DirtyInside :=
  fun dirty => absurd (clean.symm.trans dirty) Bool.false_ne_true

/-! ### Frames -/

theorem markDirty_frame (surface : Surface) (rect : Rect) :
    ∃ dirty dirtyRect, surface.markDirty rect
      = { surface with dirty := dirty, dirtyRect := dirtyRect } := by
  unfold markDirty
  split_ifs
  all_goals exact ⟨_, _, rfl⟩

theorem combineCandidate_frame (surface : Surface) (combined : Int) (candidate : BitmapRect) :
    ∃ dirty rect, (surface.combineCandidate combined candidate).1
      = { surface with dirty := dirty, dirtyRect := rect } := by
  unfold combineCandidate
  dsimp only
  split_ifs
  · exact ⟨_, _, rfl⟩
  · exact ⟨_, _, rfl⟩
  · exact surface.markDirty_frame _
  · exact ⟨_, _, rfl⟩

theorem combineAll_frame (surface : Surface) (combined : Int) (candidates : List BitmapRect) :
    ∃ dirty rect, (surface.combineAll combined candidates).1
      = { surface with dirty := dirty, dirtyRect := rect } := by
  induction candidates generalizing surface combined with
  | nil => exact ⟨_, _, rfl⟩
  | cons candidate rest ih =>
      obtain ⟨dirty, rect, first⟩ := surface.combineCandidate_frame combined candidate
      obtain ⟨finalDirty, finalRect, others⟩ :=
        ih (surface.combineCandidate combined candidate).1
          (surface.combineCandidate combined candidate).2.1
      exact ⟨finalDirty, finalRect, others.trans (by rw [first])⟩

/-! ### Combining -/

theorem markDirty_contains {rect : Rect} (contains : surface.InDirty point ∨ rect.Contains point) :
    (surface.markDirty rect).InDirty point := by
  unfold markDirty
  split_ifs with empty dirty
  · rcases contains with already | inside
    · exact already
    · exact absurd (inside.not_isEmpty.symm.trans empty) Bool.false_ne_true
  · exact ⟨dirty, Rect.extend_contains (contains.imp_left And.right)⟩
  · exact ⟨rfl, contains.resolve_left fun already => dirty already.1⟩

theorem DirtyInside.markDirty (inside : surface.DirtyInside) {rect : Rect}
    (within : rect.Inside surface.bounds) : (surface.markDirty rect).DirtyInside := by
  unfold Surface.markDirty
  split_ifs with empty dirty
  · exact inside
  · exact fun _ => (inside dirty).extend within
  · exact fun _ => within

theorem combineCandidate_keeps (combined : Int) {candidate : BitmapRect}
    (inside : surface.bounds.Contains point)
    (pending : surface.InDirty point
      ∨ candidate.flushed = false ∧ candidate.rect.Contains point) :
    (surface.combineCandidate combined candidate).1.InDirty point
      ∨ (surface.combineCandidate combined candidate).2.2.flushed = false
        ∧ (surface.combineCandidate combined candidate).2.2.rect.Contains point := by
  have bounded (contains : candidate.rect.Contains point) :
      (surface.boundRect candidate.rect).Contains point :=
    Rect.contains_constrain.mpr ⟨contains, inside⟩
  unfold combineCandidate
  dsimp only
  split_ifs with flushed empty combines
  · exact pending
  · refine pending.imp_right fun waiting => ?_
    exact absurd ((bounded waiting.2).not_isEmpty.symm.trans empty) Bool.false_ne_true
  · exact Or.inl (markDirty_contains (pending.imp_right fun waiting => bounded waiting.2))
  · exact pending.imp_right fun waiting => ⟨rfl, bounded waiting.2⟩

theorem DirtyInside.combineCandidate (inside : surface.DirtyInside) (combined : Int)
    (candidate : BitmapRect) : (surface.combineCandidate combined candidate).1.DirtyInside := by
  unfold Surface.combineCandidate
  dsimp only
  split_ifs with flushed empty combines
  · exact inside
  · exact inside
  · exact inside.markDirty (Rect.constrain_inside ..)
  · exact inside

/-- The first candidate is always taken. -/
theorem combineCandidate_flushed (clean : surface.dirty = false) (combined : Int)
    (candidate : BitmapRect) :
    (surface.combineCandidate combined candidate).2.2.flushed = true := by
  unfold combineCandidate
  dsimp only
  split_ifs with flushed empty combines
  · exact flushed
  · rfl
  · rfl
  · rw [clean, Bool.not_false, Bool.or_true] at combines
    exact absurd rfl combines

theorem combineCandidate_bounds (combined : Int) (candidate : BitmapRect) :
    (surface.combineCandidate combined candidate).1.bounds = surface.bounds := by
  obtain ⟨dirty, rect, frame⟩ := surface.combineCandidate_frame combined candidate
  rw [frame]
  rfl

theorem combineAll_keeps (combined : Int) (inside : surface.bounds.Contains point)
    (pending : surface.InDirty point ∨ Waiting candidates point) :
    (surface.combineAll combined candidates).1.InDirty point
      ∨ Waiting (surface.combineAll combined candidates).2.2 point := by
  induction candidates generalizing surface combined with
  | nil => exact pending
  | cons candidate rest ih =>
      have within : (surface.combineCandidate combined candidate).1.bounds.Contains point := by
        rwa [combineCandidate_bounds]
      unfold combineAll
      dsimp only
      rw [waiting_cons] at pending ⊢
      rcases or_assoc.mpr pending with first | later
      · rcases combineCandidate_keeps combined inside first with dirty | waiting
        · exact (ih _ within (Or.inl dirty)).imp_right Or.inr
        · exact Or.inr (Or.inl waiting)
      · exact (ih _ within (Or.inr later)).imp_right Or.inr

theorem DirtyInside.combineAll (inside : surface.DirtyInside) (combined : Int)
    (candidates : List BitmapRect) : (surface.combineAll combined candidates).1.DirtyInside := by
  induction candidates generalizing surface combined with
  | nil => exact inside
  | cons candidate rest ih => exact ih (inside.combineCandidate combined candidate) _

theorem combineQueue_frame (surface : Surface) (i : Nat) :
    ∃ dirty rect queue, (surface.combineQueue i).1
      = { surface with dirty := dirty, dirtyRect := rect, bitmapQueue := queue } := by
  obtain ⟨dirty, rect, frame⟩ := surface.combineAll_frame 0 (surface.bitmapQueue.drop i)
  unfold combineQueue
  dsimp only
  rw [frame]
  exact ⟨dirty, rect, _, rfl⟩

theorem combineQueue_inside (clean : surface.dirty = false) (i : Nat) :
    (surface.combineQueue i).1.DirtyInside :=
  (dirtyInside_of_clean clean).combineAll 0 (surface.bitmapQueue.drop i)

/-- A point that is still to be flushed is in the dirty rectangle then, or in a later one. -/
theorem combineQueue_keeps (inside : surface.bounds.Contains point)
    (clean : surface.dirty = false) (waiting : Waiting (surface.bitmapQueue.drop i) point) :
    (surface.combineQueue i).1.InDirty point
      ∨ Waiting ((surface.combineQueue i).1.bitmapQueue.drop (i + 1)) point := by
  have kept := combineAll_keeps 0 inside (Or.inr waiting)
  unfold combineQueue
  dsimp only
  cases remaining : surface.bitmapQueue.drop i with
  | nil =>
      rw [remaining] at waiting
      obtain ⟨candidate, member, _⟩ := waiting
      exact absurd member List.not_mem_nil
  | cons candidate rest =>
      have short : (surface.bitmapQueue.take i).length = i := by
        have some_left := congrArg List.length remaining
        rw [List.length_drop, List.length_cons] at some_left
        rw [List.length_take]
        omega
      rw [remaining] at kept
      unfold combineAll at kept ⊢
      dsimp only at kept ⊢
      rw [← List.drop_drop, List.drop_left' short]
      rw [waiting_cons, combineCandidate_flushed clean] at kept
      exact kept.imp_right fun kept => kept.resolve_left fun first =>
        Bool.false_ne_true first.1.symm

theorem flushToQueue_frame (room : surface.bitmapQueue.length < queueSize) :
    ∃ queue, surface.flushToQueue = { surface with bitmapQueue := queue, dirty := false } := by
  unfold flushToQueue
  split_ifs with clean
  · rw [Bool.not_eq_true'] at clean
    rw [← clean]
    exact ⟨_, rfl⟩
  · rw [decide_eq_false (Nat.not_le.mpr room), Bool.or_false]
    exact ⟨_, rfl⟩

/-- No point is lost by the way from the dirty rectangle to the queue, of which a part may be left
out. -/
theorem flushToQueue_waiting (short : i ≤ surface.bitmapQueue.length)
    (pending : surface.InDirty point ∨ Waiting (surface.bitmapQueue.drop i) point) :
    Waiting (surface.flushToQueue.bitmapQueue.drop i) point := by
  unfold flushToQueue
  split_ifs with clean
  · rw [Bool.not_eq_true'] at clean
    exact pending.resolve_left fun dirty => Bool.false_ne_true (clean.symm.trans dirty.1)
  · rw [List.drop_append_of_le_length short, waiting_append]
    exact pending.symm.imp_right fun dirty => ⟨_, .head _, rfl, dirty.2⟩

theorem flushBitmap_frame (dirty : surface.dirty = true) (environment : Environment) :
    ∃ rect, (surface.flushBitmap environment).1
      = { surface with dirtyRect := rect, realized := true, dirty := false } := by
  unfold flushBitmap flushToWebp flushToJpeg flushToPng
  dsimp only
  simp only [dirty, if_true]
  split_ifs
  all_goals exact ⟨_, rfl⟩

/-- Whatever the kind of the image, it shows the whole dirty rectangle. -/
theorem flushBitmap_covers (inside : surface.DirtyInside) (pending : surface.InDirty point) :
    Covered (surface.flushBitmap environment).2 point := by
  have expanded (cellSize : Int) :
      (surface.dirtyRect.expandToGrid cellSize surface.bounds).Contains point :=
    Rect.expandToGrid_contains (inside pending.1) pending.2
  unfold flushBitmap flushToWebp flushToJpeg flushToPng
  dsimp only
  simp only [pending.1, if_true]
  split_ifs
  · exact covered_singleton rfl (expanded 8)
  · exact covered_singleton rfl (expanded 16)
  all_goals exact covered_append.mpr (Or.inr (covered_singleton rfl pending.2))

/-! ### The loop -/

theorem flushCandidate_frame (surface : Surface) (environment : Environment)
    (originalQueueLength i : Nat) :
    ∃ realized rect queue,
      (surface.flushCandidate environment originalQueueLength i).1
        = { surface with
            realized := realized, dirty := false, dirtyRect := rect, bitmapQueue := queue } := by
  obtain ⟨dirty, rect, queue, frame⟩ := surface.combineQueue_frame i
  unfold flushCandidate
  dsimp only
  split_ifs with room dirty
  · rw [Bool.and_eq_true, decide_eq_true_eq] at room
    obtain ⟨queue, queued⟩ := flushToQueue_frame room.2
    rw [queued, frame]
    exact ⟨_, _, _, rfl⟩
  · obtain ⟨rect, sent⟩ := flushBitmap_frame dirty environment
    rw [sent, frame]
    exact ⟨_, _, _, rfl⟩
  · rw [Bool.not_eq_true] at dirty
    rw [frame] at dirty ⊢
    dsimp only at dirty
    rw [dirty]
    exact ⟨_, _, _, rfl⟩

theorem flushIteration_frame (clean : surface.dirty = false) (environment : Environment)
    (originalQueueLength i : Nat) :
    ∃ realized rect queue,
      (surface.flushIteration environment originalQueueLength i).1
        = { surface with
            realized := realized, dirty := false, dirtyRect := rect, bitmapQueue := queue } := by
  unfold flushIteration
  split
  · rw [← clean]
    exact ⟨_, _, _, rfl⟩
  · split_ifs
    · rw [← clean]
      exact ⟨_, _, _, rfl⟩
    · exact surface.flushCandidate_frame ..

/-- An iteration sends a point, or leaves it to a later one. -/
theorem flushIteration_covers (inside : surface.bounds.Contains point)
    (clean : surface.dirty = false) (waiting : Waiting (surface.bitmapQueue.drop i) point) :
    Covered (surface.flushIteration environment originalQueueLength i).2 point
      ∨ Waiting ((surface.flushIteration environment originalQueueLength i
         ).1.bitmapQueue.drop (i + 1)) point := by
  have kept := combineQueue_keeps inside clean waiting
  unfold flushIteration
  split
  next missing =>
    rw [List.getElem?_eq_none_iff] at missing
    rw [List.drop_of_length_le missing] at waiting
    obtain ⟨candidate, member, _⟩ := waiting
    exact absurd member List.not_mem_nil
  next candidate found =>
    obtain ⟨short, here⟩ := List.getElem?_eq_some_iff.mp found
    split_ifs with flushed
    · rw [List.drop_eq_getElem_cons short, here, waiting_cons, flushed] at waiting
      exact Or.inr (waiting.resolve_left fun first => Bool.false_ne_true first.1.symm)
    · unfold flushCandidate
      dsimp only
      split_ifs with room dirty
      · refine Or.inr (flushToQueue_waiting ?_ kept)
        rw [combineQueue_length]
        exact short
      · rw [flushBitmap_bitmapQueue]
        exact kept.imp_left (flushBitmap_covers (combineQueue_inside clean i))
      · exact Or.inr (kept.resolve_left fun pending => dirty pending.1)

theorem flushLoop_frame (clean : surface.dirty = false) (environment : Environment)
    (originalQueueLength i : Nat) :
    ∃ realized rect queue, (flushLoop environment originalQueueLength i surface).1
      = { surface with
          realized := realized, dirty := false, dirtyRect := rect, bitmapQueue := queue } := by
  fun_induction flushLoop environment originalQueueLength i surface with
  | case1 i surface more flushed others ih =>
      obtain ⟨realized, rect, queue, frame⟩ :=
        flushIteration_frame clean environment originalQueueLength i
      obtain ⟨finalRealized, finalRect, finalQueue, final⟩ := ih (by rw [frame])
      exact ⟨finalRealized, finalRect, finalQueue, final.trans (by rw [frame])⟩
  | case2 i surface done =>
      rw [← clean]
      exact ⟨_, _, _, rfl⟩

/-- The loop sends everything that is left from its index on. -/
theorem flushLoop_covers (inside : surface.bounds.Contains point)
    (clean : surface.dirty = false) (waiting : Waiting (surface.bitmapQueue.drop i) point) :
    Covered (flushLoop environment originalQueueLength i surface).2 point := by
  fun_induction flushLoop environment originalQueueLength i surface with
  | case1 i surface more flushed others ih =>
      obtain ⟨realized, rect, queue, frame⟩ :=
        flushIteration_frame clean environment originalQueueLength i
      rw [covered_append]
      refine (flushIteration_covers inside clean waiting).imp_right fun later => ih ?_ ?_ later
      · rw [frame]
        exact inside
      · rw [frame]
  | case2 i surface done =>
      rw [List.drop_of_length_le (Nat.not_lt.mp done)] at waiting
      obtain ⟨candidate, member, _⟩ := waiting
      exact absurd member List.not_mem_nil

/-! ### The whole flush -/

/-- A point whose latest colour was not sent, as far as the surface knows. -/
def Pending (surface : Surface) (point : Point) : Prop :=
  surface.bounds.Contains point ∧ (surface.InDirty point
    ∨ ∃ queued ∈ surface.bitmapQueue, queued.rect.Contains point)

/-- No rectangle of the queue was flushed already. -/
def Unflushed (surface : Surface) : Prop :=
  ∀ queued ∈ surface.bitmapQueue, queued.flushed = false

theorem flushToQueue_clean (surface : Surface) : surface.flushToQueue.dirty = false := by
  unfold flushToQueue
  split_ifs with clean
  · rwa [Bool.not_eq_true'] at clean
  · rfl

theorem flushToQueue_bounds (surface : Surface) :
    surface.flushToQueue.bounds = surface.bounds := by
  unfold flushToQueue
  split_ifs
  all_goals rfl

theorem sortQueue_frame (room : surface.bitmapQueue.length < queueSize) :
    ∃ queue, surface.sortQueue = { surface with bitmapQueue := queue, dirty := false } := by
  obtain ⟨queue, queued⟩ := flushToQueue_frame room
  unfold sortQueue
  rw [queued]
  exact ⟨_, rfl⟩

theorem sortQueue_waiting (unflushed : surface.Unflushed) (pending : surface.Pending point) :
    Waiting surface.sortQueue.bitmapQueue point := by
  have waiting : surface.InDirty point ∨ Waiting surface.bitmapQueue point :=
    pending.2.imp_right fun ⟨queued, member, contains⟩ =>
      ⟨queued, member, unflushed queued member, contains⟩
  exact (flushToQueue_waiting (Nat.zero_le _) waiting).perm (List.mergeSort_perm ..)

/-- A flush leaves nothing dirty and nothing queued, and does not need more room than there is. -/
theorem flush_frame (room : surface.bitmapQueue.length < queueSize) (environment : Environment) :
    ∃ realized rect, (surface.flush environment).1
      = { surface with
          realized := realized, dirty := false, dirtyRect := rect, bitmapQueue := [] } := by
  obtain ⟨queue, sorted⟩ := sortQueue_frame room
  have clean : surface.sortQueue.dirty = false := surface.flushToQueue_clean
  obtain ⟨realized, rect, left, frame⟩ :=
    flushLoop_frame clean environment surface.sortQueue.bitmapQueue.length 0
  unfold flush
  dsimp only
  rw [frame, sorted]
  exact ⟨_, _, rfl⟩

/-- Every pixel that is still to be sent is sent by a flush. -/
theorem flush_covers (unflushed : surface.Unflushed) (pending : surface.Pending point) :
    Covered (surface.flush environment).2 point := by
  have inside : surface.sortQueue.bounds.Contains point := by
    change surface.flushToQueue.bounds.Contains point
    rw [flushToQueue_bounds]
    exact pending.1
  exact flushLoop_covers inside surface.flushToQueue_clean
    (sortQueue_waiting unflushed pending)

end Surface

end GuacNebula.Common
