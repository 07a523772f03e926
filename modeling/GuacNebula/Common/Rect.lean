import Mathlib.Algebra.Order.Group.Int
import Mathlib.Data.Int.Init

/-! # Rectangles

A rectangle contains the points from its corner up to its extents, which is none at all if one of
its sizes is not positive. What the functions on rectangles do is said by the points that they keep.

Coordinates whose extents exceed `int` are left out. An expansion computes extents that reach beyond
the maximum, but by less than two cells (`expandSides_extents`).
-/

namespace GuacNebula.Common

/-- A position, by its column and its row. -/
abbrev Point := Int × Int

/-- `guac_common_rect`. -/
structure Rect where
  x : Int
  y : Int
  width : Int
  height : Int
  deriving DecidableEq, Repr, Inhabited

namespace Rect

variable (rect : Rect)

/-- The column behind the last one. -/
def right : Int := rect.x + rect.width

/-- The row behind the last one. -/
def bottom : Int := rect.y + rect.height

/-- A rectangle by its extents. -/
def ofExtents (left top right bottom : Int) : Rect where
  x := left
  y := top
  width := right - left
  height := bottom - top

/-- The point belongs to the rectangle. -/
def Contains (point : Point) : Prop :=
  rect.x ≤ point.1 ∧ point.1 < rect.right ∧ rect.y ≤ point.2 ∧ point.2 < rect.bottom

instance (point : Point) : Decidable (rect.Contains point) :=
  inferInstanceAs (Decidable (_ ∧ _ ∧ _ ∧ _))

/-- There is nothing in the rectangle. -/
def isEmpty : Bool := rect.width ≤ 0 || rect.height ≤ 0

/-- The rectangle does not reach out of another one. -/
def Inside (outer : Rect) : Prop :=
  outer.x ≤ rect.x ∧ rect.right ≤ outer.right ∧ outer.y ≤ rect.y ∧ rect.bottom ≤ outer.bottom

/-- `guac_common_rect_extend`. -/
def extend (min : Rect) : Rect :=
  ofExtents (if min.x < rect.x then min.x else rect.x) (if min.y < rect.y then min.y else rect.y)
    (if min.right > rect.right then min.right else rect.right)
    (if min.bottom > rect.bottom then min.bottom else rect.bottom)

/-- `guac_common_rect_constrain`. -/
def constrain (max : Rect) : Rect :=
  ofExtents (if max.x > rect.x then max.x else rect.x) (if max.y > rect.y then max.y else rect.y)
    (if max.right < rect.right then max.right else rect.right)
    (if max.bottom < rect.bottom then max.bottom else rect.bottom)

/-- The adjustment of one pair of sides in `guac_common_rect_expand_to_grid`: the pair is moved back
between the sides of the maximum, and cut off where it does not fit between them. -/
def fitSides (low high maxLow maxHigh : Int) : Int × Int :=
  if high > maxHigh then
    let low := low - (high - maxHigh)
    (if low < maxLow then maxLow else low, maxHigh)
  else if low < maxLow then
    let high := high + (maxLow - low)
    (maxLow, if high > maxHigh then maxHigh else high)
  else (low, high)

/-- One pair of sides expanded to a multiple of the cell size, and adjusted. -/
def expandSides (cellSize low size maxLow maxHigh : Int) : Int × Int :=
  let missing := cellSize - size.tmod cellSize
  let first := low - missing.tdiv 2
  fitSides first (first + size + missing) maxLow maxHigh

/-- `guac_common_rect_expand_to_grid`. -/
def expandToGrid (cellSize : Int) (max : Rect) : Rect :=
  if cellSize ≤ 1 then rect
  else
    let (left, right) := expandSides cellSize rect.x rect.width max.x max.right
    let (top, bottom) := expandSides cellSize rect.y rect.height max.y max.bottom
    ofExtents left top right bottom

/-! ## Points -/

variable {rect} {other : Rect} {point : Point}

@[simp] theorem ofExtents_right (left top right bottom : Int) :
    (ofExtents left top right bottom).right = right := by
  simp only [Rect.right, ofExtents]
  omega

@[simp] theorem ofExtents_bottom (left top right bottom : Int) :
    (ofExtents left top right bottom).bottom = bottom := by
  simp only [Rect.bottom, ofExtents]
  omega

theorem Contains.nonempty (contains : rect.Contains point) : 0 < rect.width ∧ 0 < rect.height := by
  unfold Contains right bottom at contains
  omega

theorem Contains.not_isEmpty (contains : rect.Contains point) : rect.isEmpty = false := by
  have sizes := contains.nonempty
  unfold isEmpty
  rw [decide_eq_false (by omega), decide_eq_false (by omega), Bool.or_false]

theorem Contains.mono (contains : rect.Contains point) (inside : rect.Inside other) :
    other.Contains point := by
  unfold Contains Inside at *
  omega

theorem contains_constrain :
    (rect.constrain other).Contains point ↔ rect.Contains point ∧ other.Contains point := by
  unfold Contains constrain
  rw [ofExtents_right, ofExtents_bottom]
  simp only [ofExtents]
  split_ifs <;> omega

theorem constrain_inside (rect max : Rect) : (rect.constrain max).Inside max := by
  unfold Inside constrain
  rw [ofExtents_right, ofExtents_bottom]
  simp only [ofExtents]
  split_ifs <;> omega

/-- Nothing is lost when a rectangle is extended. -/
theorem extend_contains (contains : rect.Contains point ∨ other.Contains point) :
    (rect.extend other).Contains point := by
  unfold Contains extend at *
  rw [ofExtents_right, ofExtents_bottom]
  simp only [ofExtents]
  split_ifs <;> omega

theorem Inside.extend {max : Rect} (inside : rect.Inside max) (otherInside : other.Inside max) :
    (rect.extend other).Inside max := by
  unfold Inside Rect.extend at *
  rw [ofExtents_right, ofExtents_bottom]
  simp only [ofExtents]
  split_ifs <;> omega

/-- The sides of a rectangle inside the maximum lie between the adjusted ones. -/
theorem expandSides_covers {cellSize : Int} (positive : 0 < cellSize)
    {low size maxLow maxHigh : Int} (lower : maxLow ≤ low) (upper : low + size ≤ maxHigh) :
    (expandSides cellSize low size maxLow maxHigh).1 ≤ low ∧
      low + size ≤ (expandSides cellSize low size maxLow maxHigh).2 := by
  have missing := Int.tmod_lt_of_pos size positive
  unfold expandSides fitSides
  dsimp only
  rw [Int.tdiv_eq_ediv_of_nonneg (by omega)]
  split_ifs <;> constructor <;> dsimp only <;> omega

/-- A rectangle inside the maximum loses nothing when it is expanded. -/
theorem expandToGrid_contains {cellSize : Int} {max : Rect} (inside : rect.Inside max)
    (contains : rect.Contains point) : (rect.expandToGrid cellSize max).Contains point := by
  unfold Contains Inside at *
  unfold expandToGrid
  split_ifs with small
  · exact contains
  · have positive : 0 < cellSize := by omega
    have columns := expandSides_covers positive inside.1 inside.2.1
    have rows := expandSides_covers positive inside.2.2.1 inside.2.2.2
    simp only [ofExtents_right, ofExtents_bottom]
    simp only [ofExtents]
    unfold right bottom at *
    omega

/-! ## Expansion to a grid -/

/-- A pair of sides that was moved back lies between the sides of the maximum, and is as long as it
was unless it takes all of the space between these. -/
theorem fitSides_fits (low high maxLow maxHigh : Int) :
    maxLow ≤ (fitSides low high maxLow maxHigh).1 ∧ (fitSides low high maxLow maxHigh).2 ≤ maxHigh ∧
      ((fitSides low high maxLow maxHigh).2 - (fitSides low high maxLow maxHigh).1 = high - low ∨
        fitSides low high maxLow maxHigh = (maxLow, maxHigh)) := by
  unfold fitSides
  dsimp only
  split_ifs <;> simp only [Prod.mk.injEq, and_true, or_true, true_or] <;> omega

/-- The missing part makes up a multiple of the cell size. -/
theorem dvd_add_missing (cellSize size : Int) :
    cellSize ∣ size + (cellSize - size.tmod cellSize) := by
  have division := Int.mul_tdiv_add_tmod size cellSize
  have multiple : size + (cellSize - size.tmod cellSize) =
      cellSize * (size.tdiv cellSize) + cellSize := by omega
  rw [multiple]
  exact Int.dvd_add (Int.dvd_mul_right _ _) (Int.dvd_refl _)

/-- A pair of expanded sides lies between the sides of the maximum, at a distance that is a multiple
of the cell size or all of the space there is. -/
theorem expandSides_fits (cellSize low size maxLow maxHigh : Int) :
    maxLow ≤ (expandSides cellSize low size maxLow maxHigh).1 ∧
      (expandSides cellSize low size maxLow maxHigh).2 ≤ maxHigh ∧
      (cellSize ∣ (expandSides cellSize low size maxLow maxHigh).2 -
          (expandSides cellSize low size maxLow maxHigh).1 ∨
        (expandSides cellSize low size maxLow maxHigh).2 -
          (expandSides cellSize low size maxLow maxHigh).1 = maxHigh - maxLow) := by
  unfold expandSides
  dsimp only
  generalize low - (cellSize - size.tmod cellSize).tdiv 2 = first
  have fits := fitSides_fits first (first + size + (cellSize - size.tmod cellSize)) maxLow maxHigh
  refine ⟨fits.1, fits.2.1, ?_⟩
  rcases fits.2.2 with same | all
  · have expanded : first + size + (cellSize - size.tmod cellSize) - first =
        size + (cellSize - size.tmod cellSize) := by omega
    rw [same, expanded]
    exact Or.inl (dvd_add_missing cellSize size)
  · rw [all]
    exact Or.inr rfl

/-- The extents that are computed before they are moved back. -/
theorem expandSides_extents {cellSize low size maxLow maxHigh : Int} (positive : 0 < cellSize)
    (lower : maxLow ≤ low) (upper : low + size ≤ maxHigh) (nonneg : 0 ≤ size) :
    maxLow - cellSize ≤ low - (cellSize - size.tmod cellSize).tdiv 2 ∧
      low - (cellSize - size.tmod cellSize).tdiv 2 + size + (cellSize - size.tmod cellSize) ≤
        maxHigh + cellSize := by
  have missing := Int.tmod_lt_of_pos size positive
  have least := Int.tmod_nonneg cellSize nonneg
  rw [Int.tdiv_eq_ediv_of_nonneg (by omega)]
  omega

/-- A rectangle in the maximum is expanded to one that contains it and stays in the maximum. Each
size of that is a multiple of the cell size or that of the maximum. -/
theorem expandToGrid_grid (cellSize : Int) (rect max : Rect) (cells : 2 ≤ cellSize)
    (inside : rect.Inside max) :
    rect.Inside (rect.expandToGrid cellSize max) ∧ (rect.expandToGrid cellSize max).Inside max ∧
      (cellSize ∣ (rect.expandToGrid cellSize max).width ∨
        (rect.expandToGrid cellSize max).width = max.width) ∧
      (cellSize ∣ (rect.expandToGrid cellSize max).height ∨
        (rect.expandToGrid cellSize max).height = max.height) := by
  have positive : 0 < cellSize := by omega
  have columns := expandSides_covers positive inside.1 inside.2.1
  have rows := expandSides_covers positive inside.2.2.1 inside.2.2.2
  unfold Inside at *
  have fitColumns := expandSides_fits cellSize rect.x rect.width max.x max.right
  have fitRows := expandSides_fits cellSize rect.y rect.height max.y max.bottom
  have width : max.right - max.x = max.width := by unfold Rect.right; omega
  have height : max.bottom - max.y = max.height := by unfold Rect.bottom; omega
  rw [width] at fitColumns
  rw [height] at fitRows
  unfold expandToGrid
  rw [if_neg (by omega)]
  simp only [ofExtents_right, ofExtents_bottom]
  simp only [ofExtents]
  exact ⟨⟨columns.1, columns.2, rows.1, rows.2⟩,
    ⟨fitColumns.1, fitColumns.2.1, fitRows.1, fitRows.2.1⟩, fitColumns.2.2, fitRows.2.2⟩

/-- A pixel in the corner of the maximum. -/
theorem expandToGrid_grid_corner :
    (⟨63, 0, 1, 1⟩ : Rect).Inside ((⟨63, 0, 1, 1⟩ : Rect).expandToGrid 16 ⟨0, 0, 64, 12⟩) :=
  (expandToGrid_grid 16 ⟨63, 0, 1, 1⟩ ⟨0, 0, 64, 12⟩ (by decide) (by unfold Inside; decide)).1

example : (⟨63, 0, 1, 1⟩ : Rect).expandToGrid 16 ⟨0, 0, 64, 12⟩ = ⟨48, 0, 16, 12⟩ := by decide

end Rect

end GuacNebula.Common
