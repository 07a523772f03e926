import GuacNebula.Terminal.ScrollPosition

/-! # The handle of the scrollbar

The handle is as long, in proportion to its container, as the screen is in proportion to the rows
that can be shown, but at least 64 pixels if there is room for them. Its position follows from the
value of the scrollbar, or from the mouse, which drags it and thereby changes the value.

The computation divides by the number of rows, of which a screen without rows may have none, and
takes the padding from the height of the parent, which may be lower than that.
-/

namespace GuacNebula.Terminal

open CInt

/-- `GUAC_TERMINAL_SCROLLBAR_PADDING`. -/
def scrollbarPadding : Int := 2

/-- `GUAC_TERMINAL_SCROLLBAR_MIN_HEIGHT`. -/
def scrollbarMinHeight : Int := 64

/-- `guac_terminal_scrollbar_render_state`. -/
structure ScrollbarRenderState where
  handleX : Int
  handleY : Int
  handleWidth : Int
  handleHeight : Int
  containerX : Int
  containerY : Int
  containerWidth : Int
  containerHeight : Int
  deriving DecidableEq, Repr

/-- `guac_terminal_scrollbar`: the size of the parent and of the visible area, what has been drawn,
and the drag, beside the bounds and the value. -/
structure DrawnScrollbar extends Scrollbar where
  parentWidth : Int
  parentHeight : Int
  visibleArea : Int
  renderState : ScrollbarRenderState
  draggingHandle : Bool
  dragOffsetY : Int
  dragCurrentY : Int
  deriving DecidableEq, Repr

namespace DrawnScrollbar

variable (scrollbar : DrawnScrollbar)

/-- The handle can be no bigger than the scrollbar itself. -/
def maxHandleHeight : Int := toInt (scrollbar.parentHeight - scrollbarPadding * 2)

/-- The legal delta between scroll values. -/
def scrollDelta : Int :=
  if scrollbar.max > scrollbar.min then toInt (scrollbar.max - scrollbar.min) else 0

/-- The number of rows that the height of the handle is divided by. -/
def scrollRows : Int := toInt (scrollbar.scrollDelta + scrollbar.visibleArea)

/-- The visible area in proportion to the scrolling region. -/
def proportionalHeight : Int :=
  (toInt (scrollbar.maxHandleHeight * scrollbar.visibleArea)).tdiv scrollbar.scrollRows

/-- The height of the handle within its limits. -/
def handleHeight : Int :=
  let handleHeight :=
    if scrollbar.proportionalHeight > scrollbarMinHeight then scrollbar.proportionalHeight
    else scrollbarMinHeight
  if handleHeight > scrollbar.maxHandleHeight then scrollbar.maxHandleHeight else handleHeight

/-- The lowest position of the handle. -/
def maxHandleY : Int :=
  toInt (toInt (scrollbarPadding + scrollbar.maxHandleHeight) - scrollbar.handleHeight)

/-- The position that the handle is dragged to, within its bounds. -/
def draggedHandleY : Int :=
  let draggedHandleY := toInt (scrollbar.dragCurrentY - scrollbar.dragOffsetY)
  if draggedHandleY < scrollbarPadding then scrollbarPadding
  else if draggedHandleY > scrollbar.maxHandleY then scrollbar.maxHandleY
  else draggedHandleY

/-- The position of the handle. -/
def handleY : Int :=
  if scrollbar.draggingHandle then scrollbar.draggedHandleY
  else if scrollbar.scrollDelta > 0 then
    toInt (scrollbarPadding +
      (toInt (toInt (scrollbar.maxHandleY - scrollbarPadding)
        * toInt (scrollbar.value - scrollbar.min))).tdiv scrollbar.scrollDelta)
  else scrollbarPadding

/-- The value of the scrollbar, which follows the handle while that is dragged. -/
def newValue : Int :=
  if scrollbar.draggingHandle ∧ scrollbar.maxHandleY > scrollbarPadding then
    toInt (scrollbar.min +
      (toInt (toInt (scrollbar.draggedHandleY - scrollbarPadding) * scrollbar.scrollDelta)).tdiv
        (toInt (scrollbar.maxHandleY - scrollbarPadding)))
  else scrollbar.value

/-- `calculate_state`, which yields nothing where it divides by zero. -/
def calculateState : Option (ScrollbarRenderState × Int) :=
  if scrollbar.scrollRows = 0 then none
  else some
    ({ handleX := scrollbarPadding
       handleY := scrollbar.handleY
       handleWidth := scrollbarWidth - scrollbarPadding * 2
       handleHeight := scrollbar.handleHeight
       containerX := toInt (scrollbar.parentWidth - scrollbarWidth)
       containerY := 0
       containerWidth := scrollbarWidth
       containerHeight := scrollbar.parentHeight },
     scrollbar.newValue)

end DrawnScrollbar

/-! ## Calls -/

namespace DrawnScrollbar

/-- `guac_terminal_scrollbar_alloc`. Where the drag began and where it is are of no account until
there is one. -/
def alloc (parentWidth parentHeight visibleArea : Int) : DrawnScrollbar where
  min := 0
  max := 0
  value := 0
  parentWidth := parentWidth
  parentHeight := parentHeight
  visibleArea := visibleArea
  renderState := ⟨0, 0, 0, 0, 0, 0, 0, 0⟩
  draggingHandle := false
  dragOffsetY := 0
  dragCurrentY := 0

variable (scrollbar : DrawnScrollbar)

/-- `guac_terminal_scrollbar_parent_resized`. -/
def parentResized (parentWidth parentHeight visibleArea : Int) : DrawnScrollbar :=
  { scrollbar with
    parentWidth := parentWidth, parentHeight := parentHeight, visibleArea := visibleArea }

/-- `guac_terminal_scrollbar_handle_mouse`, with whether the scrollbar has handled the event. The
lowest bit of the mask is the left button. -/
def handleMouse (x y mask : Int) : DrawnScrollbar × Bool :=
  let state := scrollbar.renderState
  let parentRight := toInt (state.containerX + state.containerWidth)
  let parentBottom := toInt (state.containerY + state.containerHeight)
  let handleLeft := toInt (state.containerX + state.handleX)
  let handleTop := toInt (state.containerY + state.handleY)
  let handleRight := toInt (handleLeft + state.handleWidth)
  let handleBottom := toInt (handleTop + state.handleHeight)
  if scrollbar.draggingHandle then
    if mask % 2 = 1 then ({ scrollbar with dragCurrentY := y }, true)
    else ({ scrollbar with draggingHandle := false }, true)
  else if mask = 1 ∧ x ≥ handleLeft ∧ x < handleRight ∧ y ≥ handleTop ∧ y < handleBottom then
    ({ scrollbar with
        draggingHandle := true, dragOffsetY := toInt (y - handleTop), dragCurrentY := y }, true)
  else (scrollbar, x ≥ state.containerX ∧ x < parentRight ∧ y ≥ state.containerY ∧ y < parentBottom)

/-- `guac_terminal_scrollbar_flush`, whose scroll handler assigns the value at its end. -/
def flush : Option DrawnScrollbar :=
  scrollbar.calculateState.map fun (state, value) =>
    { scrollbar with
      toScrollbar :=
        if value = scrollbar.value then scrollbar.toScrollbar
        else scrollbar.toScrollbar.setValue value
      renderState := state }

end DrawnScrollbar

/-- A call of a function of the scrollbar. -/
inductive ScrollbarCall where
  | setBounds (min max : Int)
  | setValue (value : Int)
  | parentResized (parentWidth parentHeight visibleArea : Int)
  | handleMouse (x y mask : Int)
  | flush
  deriving DecidableEq, Repr

/-- The scrollbar after a call, if that returns. -/
def DrawnScrollbar.call (scrollbar : DrawnScrollbar) : ScrollbarCall → Option DrawnScrollbar
  | .setBounds min max =>
      some { scrollbar with toScrollbar := scrollbar.toScrollbar.setBounds min max }
  | .setValue value => some { scrollbar with toScrollbar := scrollbar.toScrollbar.setValue value }
  | .parentResized parentWidth parentHeight visibleArea =>
      some (scrollbar.parentResized parentWidth parentHeight visibleArea)
  | .handleMouse x y mask => some (scrollbar.handleMouse x y mask).1
  | .flush => scrollbar.flush

/-! ## What the scrollbar is for -/

/-- The handle lies inside its container. -/
structure ScrollbarRenderState.HandleInside (state : ScrollbarRenderState) : Prop where
  left : 0 ≤ state.handleX
  width : 0 ≤ state.handleWidth
  right : state.handleX + state.handleWidth ≤ state.containerWidth
  top : 0 ≤ state.handleY
  height : 0 ≤ state.handleHeight
  bottom : state.handleY + state.handleHeight ≤ state.containerHeight

namespace DrawnScrollbar

variable (scrollbar : DrawnScrollbar)

/-- The height of the parent is an `int`, the value lies within the bounds, and so many rows as can
be shown are an `int`, too. -/
structure Valid : Prop where
  parentHeight : FitsInt scrollbar.parentHeight
  visibleArea : 0 ≤ scrollbar.visibleArea
  min : FitsInt scrollbar.min
  max : FitsInt scrollbar.max
  lower : scrollbar.min ≤ scrollbar.value
  upper : scrollbar.value ≤ scrollbar.max
  rows : FitsInt (scrollbar.max - scrollbar.min + scrollbar.visibleArea)

/-- Nothing is divided by zero, the handle lies inside its container, and the value within the
bounds. -/
def Behaves : Prop :=
  ∃ state value, scrollbar.calculateState = some (state, value)
    ∧ state.HandleInside ∧ scrollbar.min ≤ value ∧ value ≤ scrollbar.max

/-- The height of the handle: as much of the container as the visible area is of the rows, but at
least 64 pixels, and no more than there is room for. -/
def handleLength : Int :=
  Min.min (scrollbar.parentHeight - scrollbarPadding * 2) (Max.max scrollbarMinHeight
    (toInt ((scrollbar.parentHeight - scrollbarPadding * 2) * scrollbar.visibleArea)
      / (scrollbar.max - scrollbar.min + scrollbar.visibleArea)))

/-- The number of pixels that the handle can move by. -/
def travel : Int := scrollbar.parentHeight - scrollbarPadding * 2 - scrollbar.handleLength

/-- The number of pixels that the mouse has moved the handle by from the top. -/
def dragged : Int :=
  Max.max 0 (Min.min scrollbar.travel
    (toInt (scrollbar.dragCurrentY - scrollbar.dragOffsetY) - scrollbarPadding))

/-- The container has room for the padding, there is a row to show, and the product that the value
or the position is computed from has not wrapped around to a number so low that the value is below
its bounds or the handle above its container. -/
structure Workable : Prop where
  padding : scrollbarPadding * 2 ≤ scrollbar.parentHeight
  rows : 0 < scrollbar.visibleArea ∨ scrollbar.min < scrollbar.max
  drag : scrollbar.draggingHandle = true → 0 < scrollbar.travel →
    -scrollbar.travel < toInt (scrollbar.dragged * (scrollbar.max - scrollbar.min))
  position : scrollbar.draggingHandle = false → scrollbar.min < scrollbar.max →
    -3 * (scrollbar.max - scrollbar.min) <
      toInt (scrollbar.travel * (scrollbar.value - scrollbar.min))

end DrawnScrollbar

/-- The bounds of a call are in order, and its numbers those of a parent and of rows. -/
def ScrollbarCall.Proper (scrollbar : DrawnScrollbar) : ScrollbarCall → Prop
  | .setBounds min max =>
      FitsInt min ∧ FitsInt max ∧ min ≤ max ∧ FitsInt (max - min + scrollbar.visibleArea)
  | .parentResized _ parentHeight visibleArea =>
      FitsInt parentHeight ∧ 0 ≤ visibleArea
        ∧ FitsInt (scrollbar.max - scrollbar.min + visibleArea)
  | .setValue _ | .handleMouse .. | .flush => True

/-- The scrollbars that calls can lead to. -/
inductive DrawnScrollbar.Reachable : DrawnScrollbar → Prop
  | alloc (parentWidth parentHeight visibleArea : Int) (height : FitsInt parentHeight)
      (nonneg : 0 ≤ visibleArea) (area : FitsInt visibleArea) :
      Reachable (alloc parentWidth parentHeight visibleArea)
  | call {scrollbar after : DrawnScrollbar} (reachable : Reachable scrollbar)
      (call : ScrollbarCall) (proper : call.Proper scrollbar)
      (returned : scrollbar.call call = some after) : Reachable after

/-! ## Calls keep the value within the bounds -/

theorem Scrollbar.setValue_within {scrollbar : Scrollbar} (ordered : scrollbar.min ≤ scrollbar.max)
    (value : Int) :
    scrollbar.min ≤ (scrollbar.setValue value).value
      ∧ (scrollbar.setValue value).value ≤ scrollbar.max := by
  unfold Scrollbar.setValue
  dsimp only
  split_ifs <;> omega

theorem DrawnScrollbar.Valid.setValue {scrollbar : DrawnScrollbar} (valid : scrollbar.Valid)
    (value : Int) (state : ScrollbarRenderState) :
    Valid { scrollbar with
      toScrollbar := scrollbar.toScrollbar.setValue value, renderState := state } := by
  have within := Scrollbar.setValue_within (valid.lower.trans valid.upper) value
  exact { valid with lower := within.1, upper := within.2 }

theorem DrawnScrollbar.Valid.handleMouse {scrollbar : DrawnScrollbar} (valid : scrollbar.Valid)
    (x y mask : Int) : (scrollbar.handleMouse x y mask).1.Valid := by
  unfold DrawnScrollbar.handleMouse
  dsimp only
  split_ifs <;> exact { valid with }

/-- A call keeps the value within the bounds. -/
theorem DrawnScrollbar.Valid.call {scrollbar after : DrawnScrollbar} (valid : scrollbar.Valid)
    (call : ScrollbarCall) (proper : call.Proper scrollbar)
    (returned : scrollbar.call call = some after) : after.Valid := by
  cases call with
  | setBounds min max =>
      obtain ⟨minFits, maxFits, ordered, rows⟩ := proper
      obtain rfl := Option.some.inj returned
      have within : min ≤ (scrollbar.toScrollbar.setBounds min max).value
          ∧ (scrollbar.toScrollbar.setBounds min max).value ≤ max := by
        unfold Scrollbar.setBounds
        dsimp only
        split_ifs <;> omega
      exact { valid with
        min := minFits, max := maxFits, lower := within.1, upper := within.2, rows := rows }
  | setValue value =>
      obtain rfl := Option.some.inj returned
      exact valid.setValue value scrollbar.renderState
  | parentResized parentWidth parentHeight visibleArea =>
      obtain rfl := Option.some.inj returned
      exact { valid with parentHeight := proper.1, visibleArea := proper.2.1, rows := proper.2.2 }
  | handleMouse x y mask =>
      obtain rfl := Option.some.inj returned
      exact valid.handleMouse x y mask
  | flush =>
      obtain ⟨⟨state, value⟩, computed, rfl⟩ := Option.map_eq_some_iff.mp returned
      dsimp only
      split_ifs
      · exact { valid with }
      · exact valid.setValue value state

/-- The value of a scrollbar that calls lead to lies within its bounds. -/
theorem DrawnScrollbar.Reachable.valid {scrollbar : DrawnScrollbar}
    (reachable : scrollbar.Reachable) : scrollbar.Valid := by
  induction reachable with
  | alloc parentWidth parentHeight visibleArea height nonneg area =>
      exact
        { parentHeight := height
          visibleArea := nonneg
          min := (by decide : FitsInt 0)
          max := (by decide : FitsInt 0)
          lower := le_rfl
          upper := le_rfl
          rows := by simpa [DrawnScrollbar.alloc] using area }
  | call reachable call proper returned valid => exact valid.call call proper returned

/-! ## The state that is computed -/

namespace DrawnScrollbar

variable {scrollbar : DrawnScrollbar}

theorem Valid.scrollDelta_eq (valid : scrollbar.Valid) :
    scrollbar.scrollDelta = scrollbar.max - scrollbar.min := by
  obtain ⟨_, area, _, _, lower, upper, rows⟩ := valid
  unfold FitsInt at rows
  unfold scrollDelta toInt
  split_ifs <;> omega

theorem Valid.scrollRows_eq (valid : scrollbar.Valid) :
    scrollbar.scrollRows = scrollbar.max - scrollbar.min + scrollbar.visibleArea := by
  rw [scrollRows, valid.scrollDelta_eq, toInt_of_fits valid.rows]

/-- The divisor is zero if there is no row to show. -/
theorem Valid.scrollRows_ne_zero (valid : scrollbar.Valid) :
    scrollbar.scrollRows ≠ 0 ↔ 0 < scrollbar.visibleArea ∨ scrollbar.min < scrollbar.max := by
  rw [valid.scrollRows_eq]
  obtain ⟨_, area, _, _, lower, upper, _⟩ := valid
  omega

section Room

variable (valid : scrollbar.Valid) (padding : scrollbarPadding * 2 ≤ scrollbar.parentHeight)
include valid padding

theorem maxHandleHeight_eq :
    scrollbar.maxHandleHeight = scrollbar.parentHeight - scrollbarPadding * 2 := by
  have height := valid.parentHeight
  unfold scrollbarPadding at padding
  unfold FitsInt at height
  unfold maxHandleHeight scrollbarPadding toInt
  omega

omit valid in
theorem handleLength_bounds :
    0 ≤ scrollbar.handleLength
      ∧ scrollbar.handleLength ≤ scrollbar.parentHeight - scrollbarPadding * 2 := by
  unfold handleLength scrollbarMinHeight
  omega

theorem handleHeight_eq (rows : scrollbar.scrollRows ≠ 0) :
    scrollbar.handleHeight = scrollbar.handleLength := by
  have positive : 0 < scrollbar.max - scrollbar.min + scrollbar.visibleArea := by
    rw [valid.scrollRows_eq] at rows
    obtain ⟨_, area, _, _, lower, upper, _⟩ := valid
    omega
  unfold handleHeight handleLength proportionalHeight
  rw [maxHandleHeight_eq valid padding, valid.scrollRows_eq]
  generalize toInt ((scrollbar.parentHeight - scrollbarPadding * 2) * scrollbar.visibleArea) =
    product
  generalize scrollbar.max - scrollbar.min + scrollbar.visibleArea = divisor at positive ⊢
  unfold scrollbarMinHeight
  rcases le_or_gt 0 product with sign | sign
  · rw [Int.tdiv_eq_ediv_of_nonneg sign]
    dsimp only
    split_ifs <;> omega
  · -- the quotient of a product that has wrapped around is below the minimum either way
    have truncated : 0 ≤ (-product).tdiv divisor := Int.tdiv_nonneg (by omega) positive.le
    have floored : product / divisor < 0 := Int.ediv_neg_of_neg_of_pos sign positive
    rw [Int.neg_tdiv] at truncated
    dsimp only
    split_ifs <;> omega

theorem travel_bounds : 0 ≤ scrollbar.travel ∧ scrollbar.travel < 2147483644 := by
  have height := valid.parentHeight
  have length := handleLength_bounds padding
  unfold FitsInt at height
  unfold travel scrollbarPadding at *
  omega

theorem maxHandleY_eq (rows : scrollbar.scrollRows ≠ 0) :
    scrollbar.maxHandleY = scrollbarPadding + scrollbar.travel := by
  have height := valid.parentHeight
  have length := handleLength_bounds padding
  rw [maxHandleY, maxHandleHeight_eq valid padding, handleHeight_eq valid padding rows]
  unfold FitsInt at height
  unfold travel scrollbarPadding toInt at *
  omega

theorem draggedHandleY_eq (rows : scrollbar.scrollRows ≠ 0) :
    scrollbar.draggedHandleY = scrollbarPadding + scrollbar.dragged := by
  have bounds := travel_bounds valid padding
  rw [draggedHandleY, maxHandleY_eq valid padding rows]
  unfold dragged
  split_ifs <;> omega

theorem dragged_bounds : 0 ≤ scrollbar.dragged ∧ scrollbar.dragged ≤ scrollbar.travel := by
  have bounds := travel_bounds valid padding
  unfold dragged
  omega

/-- The handle lies inside its container unless the product that its position is computed from has
wrapped around to a low number. -/
theorem handleY_inside_iff (rows : scrollbar.scrollRows ≠ 0) :
    (0 ≤ scrollbar.handleY ∧ scrollbar.handleY + scrollbar.handleLength ≤ scrollbar.parentHeight) ↔
      (scrollbar.draggingHandle = false → scrollbar.min < scrollbar.max →
        -3 * (scrollbar.max - scrollbar.min) <
          toInt (scrollbar.travel * (scrollbar.value - scrollbar.min))) := by
  have bounds := travel_bounds valid padding
  have travel : scrollbar.travel =
    scrollbar.parentHeight - scrollbarPadding * 2 - scrollbar.handleLength := rfl
  have pad : scrollbarPadding = 2 := rfl
  rw [handleY]
  cases dragging : scrollbar.draggingHandle with
  | true =>
      have moved := dragged_bounds valid padding
      rw [if_pos rfl, draggedHandleY_eq valid padding rows]
      simp only [Bool.true_eq_false, false_imp_iff, iff_true]
      omega
  | false =>
      rw [if_neg Bool.false_ne_true, valid.scrollDelta_eq, maxHandleY_eq valid padding rows]
      have span : FitsInt (scrollbar.value - scrollbar.min) := by
        obtain ⟨_, area, _, _, lower, upper, rows⟩ := valid
        unfold FitsInt at rows ⊢
        omega
      have spanned : toInt (scrollbarPadding + scrollbar.travel - scrollbarPadding) =
          scrollbar.travel := by
        unfold toInt
        omega
      rw [spanned, toInt_of_fits span]
      by_cases range : scrollbar.min < scrollbar.max
      · have positive : 0 < scrollbar.max - scrollbar.min := by omega
        have quotient := tdiv_toInt_bounds positive
          (Int.mul_nonneg bounds.1 (Int.sub_nonneg.mpr valid.lower))
          (by
            rw [Int.mul_comm]
            exact Int.mul_le_mul_of_nonneg_right (Int.sub_le_sub_right valid.upper _) bounds.1)
        have low := neg_le_tdiv_iff (toInt (scrollbar.travel * (scrollbar.value - scrollbar.min)))
          positive (by decide : (0 : Int) ≤ 2)
        rw [if_pos positive]
        simp only [range, forall_const]
        generalize toInt (scrollbar.travel * (scrollbar.value - scrollbar.min)) = product at *
        generalize product.tdiv (scrollbar.max - scrollbar.min) = moved at *
        have position : toInt (scrollbarPadding + moved) = scrollbarPadding + moved := by
          unfold toInt
          omega
        rw [position]
        omega
      · rw [if_neg (by omega)]
        simp only [range, false_imp_iff, implies_true, iff_true]
        omega

/-- The value lies within the bounds unless the product that it is computed from has wrapped around
to a low number. -/
theorem newValue_within_iff (rows : scrollbar.scrollRows ≠ 0) :
    (scrollbar.min ≤ scrollbar.newValue ∧ scrollbar.newValue ≤ scrollbar.max) ↔
      (scrollbar.draggingHandle = true → 0 < scrollbar.travel →
        -scrollbar.travel < toInt (scrollbar.dragged * (scrollbar.max - scrollbar.min))) := by
  have bounds := travel_bounds valid padding
  have moved := dragged_bounds valid padding
  rw [newValue, maxHandleY_eq valid padding rows, draggedHandleY_eq valid padding rows,
    valid.scrollDelta_eq]
  by_cases dragging : scrollbar.draggingHandle = true ∧ 0 < scrollbar.travel
  · obtain ⟨drag, positive⟩ := dragging
    have spans : toInt (scrollbarPadding + scrollbar.travel - scrollbarPadding) = scrollbar.travel
        ∧ toInt (scrollbarPadding + scrollbar.dragged - scrollbarPadding) = scrollbar.dragged := by
      unfold toInt
      omega
    have range : 0 ≤ scrollbar.max - scrollbar.min :=
      Int.sub_nonneg.mpr (valid.lower.trans valid.upper)
    have quotient := tdiv_toInt_bounds positive (Int.mul_nonneg moved.1 range)
      (Int.mul_le_mul_of_nonneg_right moved.2 range)
    have low := neg_le_tdiv_iff (toInt (scrollbar.dragged * (scrollbar.max - scrollbar.min)))
      positive (le_refl (0 : Int))
    rw [if_pos ⟨drag, by omega⟩, spans.1, spans.2]
    simp only [drag, positive, forall_const]
    obtain ⟨_, area, least, greatest, _, _, fits⟩ := valid
    generalize toInt (scrollbar.dragged * (scrollbar.max - scrollbar.min)) = product at *
    generalize product.tdiv scrollbar.travel = change at *
    unfold FitsInt at least greatest fits
    unfold toInt
    omega
  · rw [if_neg (fun both => dragging ⟨both.1, by omega⟩)]
    exact iff_of_true ⟨valid.lower, valid.upper⟩ fun drag travel => absurd ⟨drag, travel⟩ dragging

end Room

/-- **When the computation behaves.** Nothing is divided by zero, the handle lies inside its
container and the value within its bounds exactly if the container has room for the padding, there
is a row to show, and no product wraps around to a low number. -/
theorem scrollbar_behaves_iff (valid : scrollbar.Valid) :
    scrollbar.Behaves ↔ scrollbar.Workable := by
  constructor
  · rintro ⟨state, value, computed, inside, lower, upper⟩
    have rows : scrollbar.scrollRows ≠ 0 := by
      intro zero
      rw [calculateState, if_pos zero] at computed
      exact absurd computed (by simp)
    rw [calculateState, if_neg rows, Option.some.injEq, Prod.mk.injEq] at computed
    obtain ⟨rfl, rfl⟩ := computed
    have padding : scrollbarPadding * 2 ≤ scrollbar.parentHeight := by
      have height := valid.parentHeight
      obtain ⟨_, _, _, top, handle, bottom⟩ := inside
      have most : scrollbar.handleHeight ≤ scrollbar.maxHandleHeight := by
        unfold handleHeight
        dsimp only
        split_ifs <;> omega
      unfold maxHandleHeight toInt at most
      unfold FitsInt at height
      unfold scrollbarPadding at *
      dsimp only at top handle bottom
      omega
    have same := handleHeight_eq valid padding rows
    exact
      { padding := padding
        rows := valid.scrollRows_ne_zero.mp rows
        drag := (newValue_within_iff valid padding rows).mp ⟨lower, upper⟩
        position := (handleY_inside_iff valid padding rows).mp
          ⟨inside.top, same ▸ inside.bottom⟩ }
  · rintro ⟨padding, some, drag, position⟩
    have rows := valid.scrollRows_ne_zero.mpr some
    have same := handleHeight_eq valid padding rows
    have vertical := (handleY_inside_iff valid padding rows).mpr position
    have within := (newValue_within_iff valid padding rows).mpr drag
    refine ⟨_, _, if_neg rows, ?_, within.1, within.2⟩
    exact
      { left := (by decide : 0 ≤ scrollbarPadding)
        width := (by decide : 0 ≤ scrollbarWidth - scrollbarPadding * 2)
        right := (by decide :
          scrollbarPadding + (scrollbarWidth - scrollbarPadding * 2) ≤ scrollbarWidth)
        top := vertical.1
        height := same ▸ (handleLength_bounds padding).1
        bottom := same ▸ vertical.2 }

end DrawnScrollbar

/-- The scrollbar of a new terminal, once that has been reset. -/
def createScrollbar (metrics : FontMetrics) (options : TerminalOptions) : DrawnScrollbar :=
  let scrollbar := DrawnScrollbar.alloc options.width options.height
    (calculateRowsAndColumns metrics options.height options.width).1
  { scrollbar with toScrollbar := scrollbar.toScrollbar.reset }

/-- A screen of 24 rows, whose scrollbar is dragged far above it. -/
theorem scrollbar_behaves_dragged :
    let scrollbar : DrawnScrollbar :=
      { createScrollbar sampleMetrics (sampleOptions 24 80) with
        min := -76, draggingHandle := true, dragOffsetY := 10, dragCurrentY := -500 }
    scrollbar.Valid ∧ scrollbar.Behaves := by
  intro scrollbar
  have valid : scrollbar.Valid := by
    constructor <;> decide
  have workable : scrollbar.Workable :=
    { padding := by decide
      rows := .inl (by decide)
      drag := by decide
      position := by decide }
  exact ⟨valid, (DrawnScrollbar.scrollbar_behaves_iff valid).mpr workable⟩

/-- A terminal lower than a character has no row, and its scrollbar divides by zero. -/
theorem scrollbar_without_rows_divides_by_zero :
    let scrollbar := createScrollbar sampleMetrics { sampleOptions 24 80 with height := 8 }
    scrollbar.Valid ∧ scrollbar.calculateState = none ∧ ¬ scrollbar.Behaves := by
  intro scrollbar
  have valid : scrollbar.Valid := by
    constructor <;> decide
  have divided : scrollbar.calculateState = none := by decide
  refine ⟨valid, divided, ?_⟩
  rintro ⟨state, value, computed, _⟩
  rw [divided] at computed
  exact absurd computed (by simp)

end GuacNebula.Terminal
