import GuacNebula.Common.SurfaceOperations
import GuacNebula.Lib.Run

/-! # Updates of surfaces

A session takes operations on any number of surfaces that share a socket. Next to the surfaces it
keeps the pixels that an operation has changed and that were not sent since.

The main result is `no_update_lost`: in every run all of these pixels are known to their surface, a
flush sends all of them, and no queue outgrows its capacity. What is cut off or filled in when a
surface is resized is no update in this sense.
-/

namespace GuacNebula.Common

open Run

variable {Id : Type}

/-! ## What becomes of pending pixels -/

/-- An operation of its own draws a point on the layer. -/
def SurfaceOutput.Draws (output : SurfaceOutput Id) (point : Point) : Prop :=
  match output with
  | .copy _ _ rect => rect.Contains point
  | .transfer _ _ _ rect => rect.Contains point
  | .fill rect _ => rect.Contains point
  | .size .. => False
  | .flush .. => False

/-- A point of the layer is drawn, by an operation of its own or by a flush. -/
def SurfaceOutput.Covers (output : SurfaceOutput Id) (point : Point) : Prop :=
  match output with
  | .flush _ instructions _ => Covered instructions point
  | output => output.Draws point

/-- The output is that of a flush. -/
def SurfaceOutput.isFlush : SurfaceOutput Id → Bool
  | .flush .. => true
  | _ => false

/-- A flush sends all that is pending, and leaves nothing. -/
def SurfaceOutput.Complete : SurfaceOutput Id → Prop
  | .flush before instructions after =>
      (∀ point, before.Pending point → Covered instructions point)
        ∧ after.bitmapQueue = [] ∧ after.dirty = false
  | _ => True

theorem SurfaceOutput.complete_of_plain {output : SurfaceOutput Id}
    (plain : output.isFlush = false) : output.Complete := by
  cases output with
  | flush before instructions after => exact absurd plain.symm Bool.false_ne_true
  | _ => trivial

namespace Surface

variable {surface middle : Surface} {environment : Environment} {point : Point}
  {outputs more : List (SurfaceOutput Id)}

/-- The invariant of a surface between two operations. -/
structure Good (surface : Surface) : Prop where
  room : surface.bitmapQueue.length < queueSize
  fits : surface.overflow = false
  unflushed : surface.Unflushed
  clip : surface.clipped = true → ∀ point, surface.clipRect.Contains point →
    surface.bounds.Contains point

/-- The surface keeps its invariant, and its pending pixels unless they are sent. -/
structure Accounted (surface : Surface) (updated : Surface × List (SurfaceOutput Id)) : Prop where
  good : updated.1.Good
  complete : ∀ output ∈ updated.2, output.Complete
  pending : ∀ point, updated.1.bounds.Contains point → surface.Pending point →
    updated.1.Pending point ∨ ∃ output ∈ updated.2, output.Covers point
  flushed : ∀ output ∈ updated.2, output.isFlush = true → ∀ point, surface.Pending point →
    ∃ output ∈ updated.2, output.Covers point

/-- No pixel has changed. -/
structure Kept (surface : Surface) (updated : Surface × List (SurfaceOutput Id)) : Prop
    extends surface.Accounted updated where
  bounds : updated.1.bounds = surface.bounds
  pixels : updated.1.pixels = surface.pixels

theorem Kept.trans (first : surface.Kept (middle, outputs)) {last : Surface}
    (second : middle.Kept (last, more)) : surface.Kept (last, outputs ++ more) where
  good := second.good
  complete := fun output sent => (List.mem_append.mp sent).elim (first.complete output)
    (second.complete output)
  pending := by
    intro point inside pending
    have within : middle.bounds.Contains point := second.bounds ▸ inside
    rcases first.pending point within pending with pending | ⟨output, sent, covers⟩
    · rcases second.pending point inside pending with pending | ⟨output, sent, covers⟩
      · exact Or.inl pending
      · exact Or.inr ⟨output, List.mem_append_right _ sent, covers⟩
    · exact Or.inr ⟨output, List.mem_append_left _ sent, covers⟩
  flushed := by
    intro output sent flush point pending
    rcases List.mem_append.mp sent with sent | sent
    · obtain ⟨output, sent, covers⟩ := first.flushed output sent flush point pending
      exact ⟨output, List.mem_append_left _ sent, covers⟩
    · have within : middle.bounds.Contains point := first.bounds ▸ pending.1
      rcases first.pending point within pending with pending | ⟨output, sent, covers⟩
      · obtain ⟨output, sent, covers⟩ := second.flushed output sent flush point pending
        exact ⟨output, List.mem_append_right _ sent, covers⟩
      · exact ⟨output, List.mem_append_left _ sent, covers⟩
  bounds := second.bounds.trans first.bounds
  pixels := second.pixels.trans first.pixels

/-- Nothing is sent, and nothing is taken out of the queue or the dirty rectangle. -/
theorem Kept.silent {updated : Surface} (good : updated.Good)
    (bounds : updated.bounds = surface.bounds) (pixels : updated.pixels = surface.pixels)
    (pending : ∀ point, surface.Pending point → updated.Pending point) :
    surface.Kept (updated, ([] : List (SurfaceOutput Id))) where
  good := good
  complete := fun _ sent => absurd sent List.not_mem_nil
  pending := fun point _ known => Or.inl (pending point known)
  flushed := fun _ sent => absurd sent List.not_mem_nil
  bounds := bounds
  pixels := pixels

theorem Kept.refl (good : surface.Good) :
    surface.Kept (surface, ([] : List (SurfaceOutput Id))) :=
  .silent good rfl rfl fun _ pending => pending

theorem markDirty_kept (good : surface.Good) (rect : Rect) :
    surface.Kept (surface.markDirty rect, ([] : List (SurfaceOutput Id))) := by
  obtain ⟨dirty, dirtyRect, frame⟩ := surface.markDirty_frame rect
  have pending : ∀ point, surface.Pending point → (surface.markDirty rect).Pending point := by
    intro point pending
    have marked (inDirty : surface.InDirty point) : (surface.markDirty rect).InDirty point :=
      markDirty_contains (Or.inl inDirty)
    rw [frame] at marked ⊢
    exact ⟨pending.1, pending.2.imp_left marked⟩
  rw [frame] at pending ⊢
  exact .silent ⟨good.room, good.fits, good.unflushed, good.clip⟩ rfl rfl pending

theorem flushToQueue_kept (good : surface.Good)
    (room : surface.bitmapQueue.length < queueSize - 1) :
    surface.Kept (surface.flushToQueue, ([] : List (SurfaceOutput Id))) := by
  unfold flushToQueue
  split_ifs with clean
  · exact .refl good
  · have fits : decide (queueSize ≤ surface.bitmapQueue.length) = false :=
      decide_eq_false (Nat.not_le.mpr good.room)
    rw [fits, Bool.or_false]
    refine .silent ⟨?_, good.fits, ?_, good.clip⟩ rfl rfl fun point pending => ⟨pending.1, ?_⟩
    · dsimp only
      rw [List.length_append, List.length_singleton]
      omega
    · intro queued member
      rcases List.mem_append.mp member with member | last
      · exact good.unflushed queued member
      · rw [List.mem_singleton.mp last]
    · refine Or.inr ?_
      rcases pending.2 with dirty | ⟨queued, member, contains⟩
      · exact ⟨_, List.mem_append_right _ (.head _), dirty.2⟩
      · exact ⟨queued, List.mem_append_left _ member, contains⟩

theorem flush_good (good : surface.Good) (environment : Environment) :
    (surface.flush environment).1.Good := by
  obtain ⟨realized, rect, frame⟩ := flush_frame good.room environment
  rw [frame]
  exact ⟨Nat.zero_lt_succ _, good.fits, fun _ member => absurd member List.not_mem_nil, good.clip⟩

theorem flush_kept (good : surface.Good) (environment : Environment) :
    surface.Kept ((surface.flush environment).1, ([.flush surface
      (surface.flush environment).2 (surface.flush environment).1] : List (SurfaceOutput Id))) := by
  obtain ⟨realized, rect, frame⟩ := flush_frame good.room environment
  have covers (point : Point) (pending : surface.Pending point) :
      Covered (surface.flush environment).2 point :=
    flush_covers good.unflushed pending
  have bounds : (surface.flush environment).1.bounds = surface.bounds := by
    rw [frame]
    rfl
  refine ⟨⟨flush_good good environment, ?_, ?_, ?_⟩, bounds, by rw [frame]⟩
  · intro output sent
    rw [List.mem_singleton.mp sent]
    refine ⟨covers, ?_, ?_⟩
    · rw [frame]
    · rw [frame]
  · exact fun point _ pending => Or.inr ⟨_, .head _, covers point pending⟩
  · exact fun _ _ _ point pending => ⟨_, .head _, covers point pending⟩

theorem flushDeferred_kept (good : surface.Good) :
    surface.Kept (surface.flushDeferred environment : Surface × List (SurfaceOutput Id)) := by
  unfold flushDeferred
  split_ifs with clean full
  · exact .refl good
  · have flushed : (surface.flush environment).1.Kept
        ((surface.flush environment).1.flushToQueue, ([] : List (SurfaceOutput Id))) := by
      refine flushToQueue_kept (flush_good good environment) ?_
      obtain ⟨realized, rect, frame⟩ := flush_frame good.room environment
      rw [frame]
      exact Nat.zero_lt_succ _
    exact (flush_kept good environment).trans flushed
  · have room := good.room
    exact flushToQueue_kept good (by omega)

theorem deferDraw_kept (good : surface.Good) (rect : Rect) :
    surface.Kept (surface.deferDraw environment rect : Surface × List (SurfaceOutput Id)) := by
  unfold deferDraw
  split_ifs
  · exact markDirty_kept good rect
  · have flushed : surface.Kept
        (surface.flushDeferred environment : Surface × List (SurfaceOutput Id)) :=
      flushDeferred_kept good
    have marked := flushed.trans (markDirty_kept flushed.good rect)
    rwa [List.append_nil] at marked

theorem markDirty_pending {rect : Rect} (inside : surface.bounds.Contains point)
    (contains : rect.Contains point) : (surface.markDirty rect).Pending point := by
  refine ⟨?_, Or.inl (markDirty_contains (Or.inr contains))⟩
  obtain ⟨dirty, dirtyRect, frame⟩ := surface.markDirty_frame rect
  rw [frame]
  exact inside

theorem deferDraw_pending {rect : Rect} (good : surface.Good)
    (inside : surface.bounds.Contains point) (contains : rect.Contains point) :
    (surface.deferDraw environment rect : Surface × List (SurfaceOutput Id)).1.Pending point := by
  have flushed : surface.Kept
      (surface.flushDeferred environment : Surface × List (SurfaceOutput Id)) :=
    flushDeferred_kept good
  unfold deferDraw
  split_ifs
  · exact markDirty_pending inside contains
  · exact markDirty_pending (flushed.bounds ▸ inside) contains

/-- An operation is sent, which makes sure that the layer exists. -/
theorem sent_kept (good : surface.Good) {operation : SurfaceOutput Id}
    (plain : operation.isFlush = false) :
    surface.Kept ({ surface with realized := true }, [operation]) where
  good := ⟨good.room, good.fits, good.unflushed, good.clip⟩
  complete := by
    intro output sent
    rw [List.mem_singleton.mp sent]
    exact SurfaceOutput.complete_of_plain plain
  pending := fun _ _ pending => Or.inl pending
  flushed := by
    intro output sent flush
    rw [List.mem_singleton.mp sent, plain] at flush
    exact absurd flush Bool.false_ne_true
  bounds := rfl
  pixels := rfl

/-! ## Drawing on one surface -/

/-- A surface that was drawn to accounts for the pixels that have changed as well. They are pending,
or the operation is sent. -/
structure Drawn (surface : Surface) (updated : Surface × List (SurfaceOutput Id)) : Prop
    extends surface.Accounted updated where
  shown : ∀ point, updated.1.pixels point ≠ surface.pixels point →
    updated.1.Pending point ∨ ∃ output ∈ updated.2, output.Draws point

theorem alloc_good (width height : Int) (isBuffer : Bool) :
    (alloc width height isBuffer).Good :=
  ⟨Nat.zero_lt_succ _, rfl, fun _ member => absurd member List.not_mem_nil,
    fun clipped => absurd clipped Bool.false_ne_true⟩

theorem Good.redrawn (good : surface.Good) (pixels : Pixels) (heatMap : Int → HeatCell) :
    ({ surface with pixels := pixels, heatMap := heatMap } : Surface).Good :=
  ⟨good.room, good.fits, good.unflushed, good.clip⟩

theorem Kept.drawn {pixels : Pixels} {heatMap : Int → HeatCell}
    {updated : Surface × List (SurfaceOutput Id)}
    (kept : ({ surface with pixels := pixels, heatMap := heatMap } : Surface).Kept updated)
    (shown : ∀ point, pixels point ≠ surface.pixels point →
      updated.1.Pending point ∨ ∃ output ∈ updated.2, output.Draws point) :
    surface.Drawn updated where
  good := kept.good
  complete := kept.complete
  pending := kept.pending
  flushed := kept.flushed
  shown := by
    rw [kept.pixels]
    exact shown

/-- Nothing was drawn. -/
theorem Kept.drawn_same {updated : Surface × List (SurfaceOutput Id)}
    (kept : surface.Kept updated) : surface.Drawn updated :=
  kept.drawn fun _ changed => absurd rfl changed

/-- The pixels are changed afterwards. -/
theorem Kept.repainted {updated : Surface × List (SurfaceOutput Id)} (kept : surface.Kept updated)
    {pixels : Pixels} (shown : ∀ point, pixels point ≠ surface.pixels point →
      updated.1.Pending point ∨ ∃ output ∈ updated.2, output.Draws point) :
    surface.Drawn ({ updated.1 with pixels := pixels }, updated.2) :=
  ⟨⟨kept.good.redrawn .., kept.complete, kept.pending, kept.flushed⟩, shown⟩

theorem clipToRect_inside {rect : Rect} (good : surface.Good)
    (contains : (surface.clipToRect rect).Contains point) : surface.bounds.Contains point := by
  unfold clipToRect boundRect at contains
  split_ifs at contains with clipped
  · exact good.clip clipped point (Rect.contains_constrain.mp contains).2
  · exact (Rect.contains_constrain.mp contains).2

/-- The rectangle of an operation was narrowed to nothing. -/
theorem unchanged_drawn (good : surface.Good) {rect updated : Rect} {pixels : Pixels}
    (narrowed : Narrowed surface.pixels rect pixels updated) (empty : updated.isEmpty = true) :
    surface.Drawn ({ surface with pixels := pixels }, ([] : List (SurfaceOutput Id))) :=
  (Kept.refl (good.redrawn ..)).drawn fun point changed =>
    absurd (congrFun (narrowed.eq_of_isEmpty empty) point) changed

theorem deferred_drawn (good : surface.Good) {updated : Rect} {pixels : Pixels}
    {heatMap : Int → HeatCell}
    (narrowed : Narrowed surface.pixels surface.bounds pixels updated) :
    surface.Drawn (({ surface with pixels := pixels, heatMap := heatMap } : Surface).deferDraw
      environment updated : Surface × List (SurfaceOutput Id)) := by
  have redrawn := good.redrawn pixels heatMap
  refine (deferDraw_kept redrawn updated).drawn fun point changed => Or.inl ?_
  obtain ⟨inside, contains⟩ := narrowed point changed
  exact deferDraw_pending redrawn inside contains

/-- What was drawn within the clipping rectangle was drawn within the bounds. -/
theorem Good.bounded (good : surface.Good) {rect updated : Rect} {pixels : Pixels}
    (narrowed : Narrowed surface.pixels (surface.clipToRect rect) pixels updated) :
    Narrowed surface.pixels surface.bounds pixels updated :=
  fun point changed => (narrowed point changed).imp_left (clipToRect_inside good)

theorem draw_drawn (good : surface.Good) (x y : Int) (src : Image) :
    surface.Drawn (surface.draw environment x y src : Surface × List (SurfaceOutput Id)) := by
  unfold draw
  dsimp only
  split_ifs with empty unchanged
  · exact (Kept.refl good).drawn_same
  · exact unchanged_drawn good (putPixels_narrowed _ _ _ _ _) unchanged
  · exact deferred_drawn good (good.bounded (putPixels_narrowed _ _ _ _ _))

theorem paint_drawn (good : surface.Good) (x y : Int) (src : Image) (red green blue : UInt8) :
    surface.Drawn
      (surface.paint environment x y src red green blue : Surface × List (SurfaceOutput Id)) := by
  unfold paint
  dsimp only
  split_ifs with empty
  · exact (Kept.refl good).drawn_same
  · exact deferred_drawn good (good.bounded (fillMask_narrowed _ _ _ _ _))

theorem set_drawn (good : surface.Good) (rect : Rect) (red green blue alpha : UInt8) :
    surface.Drawn
      (surface.set environment rect red green blue alpha : Surface × List (SurfaceOutput Id)) := by
  have narrowed := good.bounded
    (setPixels_narrowed surface.pixels (surface.clipToRect rect) (argb alpha red green blue))
  unfold set
  dsimp only
  generalize setPixels surface.pixels _ _ = updated at narrowed ⊢
  split_ifs with empty unchanged deferred combines
  · exact (Kept.refl good).drawn_same
  · exact unchanged_drawn good narrowed unchanged
  · exact deferred_drawn good narrowed
  · refine (markDirty_kept (good.redrawn ..) _).drawn fun point changed => Or.inl ?_
    obtain ⟨inside, contains⟩ := narrowed point changed
    exact markDirty_pending inside contains
  · have flushed : Kept _ (_, ([_] : List (SurfaceOutput Id))) :=
      flush_kept (good.redrawn updated.1 surface.heatMap) environment
    refine (flushed.trans (sent_kept flushed.good rfl)).drawn fun point changed => ?_
    exact Or.inr ⟨_, List.mem_append_right _ (.head _), (narrowed point changed).2⟩

/-! ## The shape of a surface -/

theorem clip_kept (good : surface.Good) (rect : Rect) :
    surface.Kept (surface.clip rect, ([] : List (SurfaceOutput Id))) := by
  refine .silent ⟨good.room, good.fits, good.unflushed, fun _ point contains => ?_⟩ rfl rfl
    fun _ pending => pending
  have inside := (Rect.contains_constrain.mp contains).1
  split_ifs at inside with clipped
  · exact good.clip clipped point inside
  · exact inside

theorem resetClip_kept (good : surface.Good) :
    surface.Kept (surface.resetClip, ([] : List (SurfaceOutput Id))) :=
  .silent ⟨good.room, good.fits, good.unflushed, fun clipped => absurd clipped Bool.false_ne_true⟩
    rfl rfl fun _ pending => pending

theorem setLossless_kept (good : surface.Good) (lossless : Bool) :
    surface.Kept (surface.setLossless lossless, ([] : List (SurfaceOutput Id))) :=
  .silent ⟨good.room, good.fits, good.unflushed, good.clip⟩ rfl rfl fun _ pending => pending

theorem fit_good (good : surface.Good) (width height : Int) : (surface.fit width height).Good :=
  ⟨good.room, good.fits, good.unflushed,
    fun _ _ contains => (Rect.contains_constrain.mp contains).2⟩

/-- A pixel that is not cut off stays pending. -/
theorem fit_pending {width height : Int}
    (inside : (surface.fit width height).bounds.Contains point)
    (pending : surface.Pending point) : (surface.fit width height).Pending point := by
  refine ⟨inside, pending.2.imp_left fun inDirty => ?_⟩
  have contains : (surface.dirtyRect.constrain ⟨0, 0, width, height⟩).Contains point :=
    Rect.contains_constrain.mpr ⟨inDirty.2, inside⟩
  unfold fit InDirty
  dsimp only
  rw [if_pos inDirty.1, inDirty.1]
  exact ⟨congrArg not contains.not_isEmpty, contains⟩

theorem resize_accounted (good : surface.Good) (width height : Int) :
    surface.Accounted (surface.resize width height : Surface × List (SurfaceOutput Id)) := by
  unfold resize
  split_ifs with same realized
  · exact (Kept.refl good).toAccounted
  · have plain (output : SurfaceOutput Id) (sent : output ∈ [.size width height]) :
        output.isFlush = false := by
      rw [List.mem_singleton.mp sent]
      rfl
    exact ⟨fit_good good .., fun output sent => SurfaceOutput.complete_of_plain (plain output sent),
      fun _ inside pending => Or.inl (fit_pending inside pending),
      fun output sent flush =>
        absurd ((plain output sent).symm.trans flush) Bool.false_ne_true⟩
  · exact ⟨fit_good good .., fun _ sent => absurd sent List.not_mem_nil,
      fun _ inside pending => Or.inl (fit_pending inside pending),
      fun _ sent => absurd sent List.not_mem_nil⟩

end Surface

/-! ## Several surfaces -/

section Surfaces

variable [DecidableEq Id] {surfaces : Id → Surface} {environment : Environment} {id : Id}

/-- What was sent for one layer. -/
def outputsOf (id : Id) (outputs : List (Id × SurfaceOutput Id)) : List (SurfaceOutput Id) :=
  outputs.filterMap fun entry => if entry.1 = id then some entry.2 else none

@[simp] theorem mem_outputsOf {outputs : List (Id × SurfaceOutput Id)}
    {output : SurfaceOutput Id} : output ∈ outputsOf id outputs ↔ (id, output) ∈ outputs := by
  unfold outputsOf
  rw [List.mem_filterMap]
  constructor
  · rintro ⟨⟨owner, sent⟩, member, same⟩
    dsimp only at same
    split_ifs at same with owned
    rw [← owned, ← Option.some.inj same]
    exact member
  · exact fun member => ⟨(id, output), member, if_pos rfl⟩

theorem outputsOf_append (outputs more : List (Id × SurfaceOutput Id)) :
    outputsOf id (outputs ++ more) = outputsOf id outputs ++ outputsOf id more :=
  List.filterMap_append

theorem outputsOf_own (outputs : List (SurfaceOutput Id)) :
    outputsOf id (outputs.map fun output => (id, output)) = outputs := by
  unfold outputsOf
  rw [List.filterMap_map]
  exact (List.filterMap_congr fun output _ => if_pos rfl).trans List.filterMap_some

theorem outputsOf_other {other : Id} (differs : other ≠ id) (outputs : List (SurfaceOutput Id)) :
    outputsOf other (outputs.map fun output => (id, output)) = [] := by
  unfold outputsOf
  rw [List.filterMap_map, List.filterMap_eq_nil_iff]
  exact fun output _ => if_neg differs.symm

/-- What holds for the surface drawn to holds for all surfaces, if it does where nothing is done. -/
theorem updateSurface_each (Law : Surface → Surface × List (SurfaceOutput Id) → Prop)
    (surfaces : Id → Surface) (id : Id) {updated : Surface × List (SurfaceOutput Id)}
    (target : Law (surfaces id) updated)
    (others : ∀ other, Law (surfaces other) (surfaces other, [])) (other : Id) :
    Law (surfaces other) ((updateSurface surfaces id updated).1 other,
      outputsOf other (updateSurface surfaces id updated).2) := by
  unfold updateSurface
  dsimp only
  by_cases same : other = id
  · rw [same, Function.update_self, outputsOf_own]
    exact target
  · rw [Function.update_of_ne same, outputsOf_other same]
    exact others other

open Surface

variable {source target : Id} {rect : Rect} {operation : SurfaceOutput Id}

theorem flushSurface_kept (good : ∀ id, (surfaces id).Good) (environment : Environment)
    (id other : Id) :
    (surfaces other).Kept ((flushSurface surfaces environment id).1 other,
      outputsOf other (flushSurface surfaces environment id).2) :=
  updateSurface_each Kept surfaces id (flush_kept (good id) environment)
    (fun other => .refl (good other)) other

theorem combineOrSend_kept (good : ∀ id, (surfaces id).Good) (environment : Environment)
    (source target : Id) (rect : Rect) (plain : operation.isFlush = false) (other : Id) :
    (surfaces other).Kept
      ((combineOrSend surfaces environment source target rect operation).1 other,
        outputsOf other
          (combineOrSend surfaces environment source target rect operation).2) := by
  unfold combineOrSend
  dsimp only
  split_ifs with combines
  · exact updateSurface_each Kept surfaces target (markDirty_kept (good target) rect)
      (fun other => .refl (good other)) other
  · have first := flushSurface_kept good environment target
    have second := flushSurface_kept (fun id => (first id).good) environment source
    have sent := updateSurface_each Kept _ target (sent_kept (second target).good plain)
      fun other => .refl (second other).good
    rw [outputsOf_append, outputsOf_append]
    exact ((first other).trans (second other)).trans (sent other)

/-- The rectangle is pending on the target, or drawn by what is sent. -/
theorem combineOrSend_shown {point : Point} (inside : (surfaces target).bounds.Contains point)
    (contains : rect.Contains point) (draws : operation.Draws point) :
    ((combineOrSend surfaces environment source target rect operation).1 target).Pending point
      ∨ ∃ output ∈ outputsOf target
          (combineOrSend surfaces environment source target rect operation).2,
        output.Draws point := by
  unfold combineOrSend
  dsimp only
  split_ifs with combines
  · unfold updateSurface
    dsimp only
    rw [Function.update_self]
    exact Or.inl (markDirty_pending inside contains)
  · refine Or.inr ⟨operation, mem_outputsOf.mpr ?_, draws⟩
    exact List.mem_append_right _ (.head _)

/-- Surfaces keep their invariant when the pixels of one of them change. -/
theorem update_good (good : ∀ id, (surfaces id).Good) (target : Id) (pixels : Pixels) (id : Id) :
    (Function.update surfaces target { surfaces target with pixels := pixels } id).Good := by
  by_cases same : id = target
  · rw [same, Function.update_self]
    exact (good target).redrawn ..
  · rw [Function.update_of_ne same]
    exact good id

/-- The buffer is updated first. -/
theorem combineOrSend_drawn (good : ∀ id, (surfaces id).Good) {pixels : Pixels} {updated : Rect}
    (narrowed : Narrowed (surfaces target).pixels (surfaces target).bounds pixels updated)
    (plain : operation.isFlush = false)
    (draws : ∀ point, updated.Contains point → operation.Draws point) (other : Id) :
    (surfaces other).Drawn
      ((combineOrSend (Function.update surfaces target { surfaces target with pixels := pixels })
          environment source target updated operation).1 other,
        outputsOf other
          (combineOrSend (Function.update surfaces target { surfaces target with pixels := pixels })
            environment source target updated operation).2) := by
  have kept := combineOrSend_kept (update_good good target pixels) environment source target
    updated plain other
  by_cases same : other = target
  · subst same
    rw [Function.update_self] at kept
    refine kept.drawn fun point changed => ?_
    obtain ⟨inside, contains⟩ := narrowed point changed
    refine combineOrSend_shown ?_ contains (draws point contains)
    rw [Function.update_self]
    exact inside
  · rw [Function.update_of_ne same] at kept
    exact kept.drawn_same

/-- The buffer is updated last. -/
theorem combineOrSend_repainted (good : ∀ id, (surfaces id).Good) {start : Point}
    {op : TransferFunction}
    (inside : ∀ point, rect.Contains point → (surfaces target).bounds.Contains point)
    (plain : operation.isFlush = false)
    (draws : ∀ point, rect.Contains point → operation.Draws point) (other : Id) :
    (surfaces other).Drawn
      (Function.update (combineOrSend surfaces environment source target rect operation).1 target
          { (combineOrSend surfaces environment source target rect operation).1 target with
            pixels := (transferPixels none start op
              ((combineOrSend surfaces environment source target rect operation).1 target).pixels
              rect).1 }
          other,
        outputsOf other
          (combineOrSend surfaces environment source target rect operation).2) := by
  have kept := combineOrSend_kept good environment source target rect plain other
  by_cases same : other = target
  · subst same
    rw [Function.update_self, kept.pixels]
    refine kept.repainted fun point changed => ?_
    have contains : rect.Contains point :=
      (transferPixels_narrowed none start op _ rect point changed).1
    exact combineOrSend_shown (inside point contains) contains (draws point contains)
  · rw [Function.update_of_ne same]
    exact kept.drawn_same

theorem transferRect_drawn (good : ∀ id, (surfaces id).Good)
    (operation : Point → Rect → SurfaceOutput Id) {op : TransferFunction} {srect : Rect}
    {dx dy : Int} (plain : ∀ start rect, (operation start rect).isFlush = false)
    (draws : ∀ start rect point, rect.Contains point → (operation start rect).Draws point)
    (other : Id) :
    (surfaces other).Drawn
      ((transferRect surfaces environment operation op source srect target dx dy).1 other,
        outputsOf other
          (transferRect surfaces environment operation op source srect target dx dy).2) := by
  unfold transferRect
  dsimp only
  split_ifs with bounded clipped same unchanged
  · exact (Kept.refl (good other)).drawn_same
  · exact (Kept.refl (good other)).drawn_same
  · exact combineOrSend_repainted good (fun point => clipToRect_inside (good target)) (plain ..)
      (draws _ _) other
  · dsimp only
    by_cases here : other = target
    · subst here
      rw [Function.update_self]
      exact unchanged_drawn (good other) (transferPixels_narrowed _ _ _ _ _) unchanged
    · rw [Function.update_of_ne here]
      exact (Kept.refl (good other)).drawn_same
  · exact combineOrSend_drawn good ((good target).bounded (transferPixels_narrowed _ _ _ _ _))
      (plain ..) (draws _ _) other

/-- The size of a surface is changed. -/
def SurfaceAction.resizes : SurfaceAction Id → Bool
  | .resize .. => true
  | _ => false

theorem SurfaceAction.run_drawn (good : ∀ id, (surfaces id).Good) (environment : Environment)
    {action : SurfaceAction Id} (drawing : action.resizes = false) (other : Id) :
    (surfaces other).Drawn ((action.run environment surfaces).1 other,
      outputsOf other (action.run environment surfaces).2) := by
  have idle (other : Id) :
      (surfaces other).Drawn (surfaces other, ([] : List (SurfaceOutput Id))) :=
    (Kept.refl (good other)).drawn_same
  have each (id : Id) {updated : Surface × List (SurfaceOutput Id)}
      (drawn : (surfaces id).Drawn updated) :=
    updateSurface_each Drawn surfaces id drawn idle other
  cases action with
  | draw id x y src => exact each id (draw_drawn (good id) x y src)
  | paint id x y src red green blue => exact each id (paint_drawn (good id) x y src red green blue)
  | set id rect red green blue alpha =>
      exact each id (set_drawn (good id) rect red green blue alpha)
  | copy source srect target dx dy =>
      exact transferRect_drawn good (.copy source) (fun _ _ => rfl)
        (fun _ _ _ contains => contains) other
  | transfer source srect op target dx dy =>
      exact transferRect_drawn good (fun start rect => .transfer source start op rect)
        (fun _ _ => rfl) (fun _ _ _ contains => contains) other
  | clip id rect => exact each id (clip_kept (good id) rect).drawn_same
  | resetClip id => exact each id (resetClip_kept (good id)).drawn_same
  | setLossless id lossless => exact each id (setLossless_kept (good id) lossless).drawn_same
  | resize id width height => exact absurd drawing.symm Bool.false_ne_true
  | flush id => exact (flushSurface_kept good environment id other).drawn_same

theorem SurfaceAction.run_accounted (good : ∀ id, (surfaces id).Good) (environment : Environment)
    (action : SurfaceAction Id) (other : Id) :
    (surfaces other).Accounted ((action.run environment surfaces).1 other,
      outputsOf other (action.run environment surfaces).2) := by
  cases resizing : action.resizes with
  | false => exact (run_drawn good environment resizing other).toAccounted
  | true =>
      cases action with
      | resize id width height =>
          exact updateSurface_each Accounted surfaces id (resize_accounted (good id) width height)
            (fun other => (Kept.refl (good other)).toAccounted) other
      | _ => exact absurd resizing Bool.false_ne_true

/-! ## Sessions -/

/-- Surfaces, and the pixels of each that were changed and not sent since. -/
structure SurfaceSession (Id : Type) where
  surfaces : Id → Surface
  unsent : Id → Point → Prop

/-- All surfaces are allocated. -/
def SurfaceSession.start (sizes : Id → Int × Int) (isBuffer : Id → Bool) : SurfaceSession Id where
  surfaces := fun id => .alloc (sizes id).1 (sizes id).2 (isBuffer id)
  unsent := fun _ _ => False

/-- An operation is called. What was unsent is sent by any output that covers it. What the operation
itself has changed is only sent by what is sent of the operation, not by a flush on its way. -/
def surfaceStep (session : SurfaceSession Id) (call : SurfaceAction Id × Environment) :
    SurfaceSession Id :=
  let done := call.1.run call.2 session.surfaces
  { surfaces := done.1
    unsent := fun id point => (done.1 id).bounds.Contains point
      ∧ (session.unsent id point ∧ (∀ output, (id, output) ∈ done.2 → ¬ output.Covers point)
        ∨ call.1.resizes = false
          ∧ (done.1 id).pixels point ≠ (session.surfaces id).pixels point
          ∧ ∀ output, (id, output) ∈ done.2 → ¬ output.Draws point) }

/-- Every pixel that is not sent lies in the dirty rectangle of its surface or in a queued one, and
no queue was ever too long. -/
structure NoLostUpdate (session : SurfaceSession Id) : Prop where
  known : ∀ id point, session.unsent id point → (session.surfaces id).Pending point
  room : ∀ id, (session.surfaces id).bitmapQueue.length ≤ queueSize
  fits : ∀ id, (session.surfaces id).overflow = false

/-- A flush of an operation sends all that is pending and leaves the queue empty, and all that was
not sent before the operation is sent. -/
def FlushesAll (session : SurfaceSession Id) (call : SurfaceAction Id × Environment) : Prop :=
  ∀ id before instructions after,
    (id, .flush before instructions after) ∈ (call.1.run call.2 session.surfaces).2 →
      (∀ point, before.Pending point → Covered instructions point)
        ∧ after.bitmapQueue = [] ∧ after.dirty = false
        ∧ ∀ point, session.unsent id point →
          ∃ output, (id, output) ∈ (call.1.run call.2 session.surfaces).2 ∧ output.Covers point

/-- The invariant of a session. -/
structure SurfaceSession.Good (session : SurfaceSession Id) : Prop where
  surfaces : ∀ id, (session.surfaces id).Good
  known : ∀ id point, session.unsent id point → (session.surfaces id).Pending point

omit [DecidableEq Id] in
theorem SurfaceSession.start_good (sizes : Id → Int × Int) (isBuffer : Id → Bool) :
    (SurfaceSession.start sizes isBuffer).Good where
  surfaces := fun _ => alloc_good ..
  known := fun _ _ unsent => unsent.elim

theorem SurfaceSession.Good.step {session : SurfaceSession Id} (good : session.Good)
    (call : SurfaceAction Id × Environment) : (surfaceStep session call).Good := by
  have accounted := SurfaceAction.run_accounted good.surfaces call.2 call.1
  refine ⟨fun id => (accounted id).good, fun id point unsent => ?_⟩
  obtain ⟨inside, ⟨before, missed⟩ | ⟨drawing, changed, missed⟩⟩ := unsent
  · refine ((accounted id).pending point inside (good.known id point before)).resolve_right ?_
    rintro ⟨output, sent, covers⟩
    exact missed output (mem_outputsOf.mp sent) covers
  · have drawn := SurfaceAction.run_drawn good.surfaces call.2 drawing id
    refine (drawn.shown point changed).resolve_right ?_
    rintro ⟨output, sent, draws⟩
    exact missed output (mem_outputsOf.mp sent) draws

theorem SurfaceSession.Good.flushesAll {session : SurfaceSession Id} (good : session.Good)
    (call : SurfaceAction Id × Environment) : FlushesAll session call := by
  intro id before instructions after sent
  have accounted := SurfaceAction.run_accounted good.surfaces call.2 call.1 id
  have member := mem_outputsOf.mpr sent
  obtain ⟨covers, emptied, clean⟩ := accounted.complete _ member
  refine ⟨covers, emptied, clean, fun point unsent => ?_⟩
  obtain ⟨output, sent, covers⟩ :=
    accounted.flushed _ member rfl point (good.known id point unsent)
  exact ⟨output, mem_outputsOf.mp sent, covers⟩

/-- In every run of operations on freshly allocated surfaces, no update is lost. -/
theorem no_update_lost (sizes : Id → Int × Int) (isBuffer : Id → Bool)
    (calls : List (SurfaceAction Id × Environment)) :
    Always surfaceStep NoLostUpdate (.start sizes isBuffer) calls
      ∧ Guarded surfaceStep FlushesAll (.start sizes isBuffer) calls := by
  have initial := SurfaceSession.start_good sizes isBuffer
  constructor
  · have good : Always surfaceStep SurfaceSession.Good (.start sizes isBuffer) calls :=
      always_invariant initial fun _ call good => good.step call
    exact good.mono fun session good =>
      ⟨good.known, fun id => (good.surfaces id).room.le, fun id => (good.surfaces id).fits⟩
  · exact guarded_of_invariant initial (fun _ call good => good.step call)
      fun _ call good => good.flushesAll call

end Surfaces

end GuacNebula.Common
