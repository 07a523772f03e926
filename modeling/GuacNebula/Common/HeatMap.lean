import GuacNebula.Common.SurfaceOperations
import Mathlib.Data.List.Nodup

/-! # The heat map

A heat cell stands for a square of the surface, and counts for a rectangle whose area meets its own.
Both loops derive their last cell from the first one and the size of the rectangle, not from its far
edge, and only the loop that touches the cells includes the last one.

`touchesExactly_iff` is when the touched cells are those that count, and `not_averagesExactly` that
the framerate is never the average of these.
-/

namespace GuacNebula.Common

namespace Surface

variable (surface : Surface) (rect : Rect)

/-- The cells that `__guac_common_surface_touch_rect` visits. -/
def touchedCells : List Int :=
  surface.heatCells (rect.x.tdiv heatCellSize) (rect.y.tdiv heatCellSize)
    ((rect.width - 1).tdiv heatCellSize + 1) ((rect.height - 1).tdiv heatCellSize + 1)

/-- The cells that `__guac_common_surface_calculate_framerate` visits. -/
def averagedCells : List Int :=
  surface.heatCells (rect.x.tdiv heatCellSize) (rect.y.tdiv heatCellSize)
    ((rect.width - 1).tdiv heatCellSize) ((rect.height - 1).tdiv heatCellSize)

/-- The mean framerate of the cells. -/
def meanFramerate (cells : List Int) : Int :=
  let sum := cells.foldl (fun sum cell => (sum + (surface.heatMap cell).framerate) % 4294967296) 0
  let count := (cells.length : Int) % 4294967296
  if count ≠ 0 then sum / count else 0

/-- The heat map after the cells were touched. -/
def touched (time : Int) (heatMap : Int → HeatCell) (cells : List Int) : Int → HeatCell :=
  cells.foldl (fun heatMap cell => Function.update heatMap cell ((heatMap cell).touch time)) heatMap

theorem touchRect_heatMap (time : Int) :
    (surface.touchRect rect time).heatMap =
      touched time surface.heatMap (surface.touchedCells rect) := rfl

theorem calculateFramerate_eq :
    surface.calculateFramerate rect = surface.meanFramerate (surface.averagedCells rect) := rfl

/-! ## Cells and their areas -/

/-- The area of a cell. -/
def cellArea (column row : Int) : Rect :=
  ⟨column * heatCellSize, row * heatCellSize, heatCellSize, heatCellSize⟩

/-- The area of a cell meets the rectangle. -/
def Meets (column row : Int) : Prop :=
  ∃ point, rect.Contains point ∧ (cellArea column row).Contains point

/-- There is a cell of this column and row. -/
def HasCell (column row : Int) : Prop :=
  0 ≤ column ∧ column < heatDimension surface.width ∧
    0 ≤ row ∧ row < heatDimension surface.height

/-- Where the cell is stored. -/
def cellIndex (column row : Int) : Int := row * heatDimension surface.width + column

/-- The index is one of a cell that is stored. -/
def InHeatMap (cell : Int) : Prop :=
  0 ≤ cell ∧ cell < heatDimension surface.width * heatDimension surface.height

/-- The list has every cell that meets the rectangle once, and no other one. -/
def ListsExactly (cells : List Int) : Prop :=
  (∀ cell ∈ cells, surface.InHeatMap cell) ∧
    ∀ column row, surface.HasCell column row →
      (Meets rect column row → cells.count (surface.cellIndex column row) = 1) ∧
        (¬ Meets rect column row → cells.count (surface.cellIndex column row) = 0)

/-- A touch stays within the heat map, updates every cell that meets the rectangle once, and leaves
the other ones. -/
def TouchesExactly : Prop :=
  (∀ cell ∈ surface.touchedCells rect, surface.InHeatMap cell) ∧
    ∀ column row, surface.HasCell column row → ∀ time,
      (Meets rect column row →
          (surface.touchRect rect time).heatMap (surface.cellIndex column row) =
            (surface.heatMap (surface.cellIndex column row)).touch time) ∧
        (¬ Meets rect column row →
          (surface.touchRect rect time).heatMap (surface.cellIndex column row) =
            surface.heatMap (surface.cellIndex column row))

/-- What the framerate is the mean of is every cell that meets the rectangle, each of them once. -/
def AveragesExactly : Prop := surface.ListsExactly rect (surface.averagedCells rect)

/-! ## Where the loops go -/

variable {surface rect} {column row : Int}

theorem cellIndex_inj {otherColumn otherRow : Int} (lower : 0 ≤ column)
    (upper : column < heatDimension surface.width) (otherLower : 0 ≤ otherColumn)
    (otherUpper : otherColumn < heatDimension surface.width)
    (same : surface.cellIndex column row = surface.cellIndex otherColumn otherRow) :
    column = otherColumn ∧ row = otherRow := by
  unfold cellIndex at same
  have rows : row = otherRow := by
    have quotient := congrArg (· / heatDimension surface.width) same
    rw [Int.add_comm, Int.add_mul_ediv_right _ _ (by omega), Int.ediv_eq_zero_of_lt lower upper,
      Int.add_comm, Int.add_comm _ otherColumn, Int.add_mul_ediv_right _ _ (by omega),
      Int.ediv_eq_zero_of_lt otherLower otherUpper] at quotient
    omega
  subst rows
  exact ⟨by omega, rfl⟩

/-- The loops visit the cells of the columns and the rows that they count. -/
theorem mem_heatCells {minX minY columns rows : Int} (cell : Int) :
    cell ∈ surface.heatCells minX minY columns rows ↔
      ∃ column row, (minX ≤ column ∧ column < minX + columns) ∧
        (minY ≤ row ∧ row < minY + rows) ∧ surface.cellIndex column row = cell := by
  unfold heatCells cellIndex
  simp only [List.mem_flatMap, List.mem_map, List.mem_range]
  constructor
  · rintro ⟨y, rowBound, x, columnBound, rfl⟩
    exact ⟨minX + x, minY + y, by omega, by omega, by omega⟩
  · rintro ⟨column, row, columnBounds, rowBounds, rfl⟩
    refine ⟨(row - minY).toNat, by omega, (column - minX).toNat, by omega, ?_⟩
    rw [show minY + ((row - minY).toNat : Int) = row by omega]
    omega

/-- No cell is visited twice if the columns are those of the heat map. -/
theorem heatCells_nodup {minX minY columns rows : Int} (lower : 0 ≤ minX)
    (upper : minX + columns ≤ heatDimension surface.width) :
    (surface.heatCells minX minY columns rows).Nodup := by
  unfold heatCells
  rw [List.nodup_flatMap]
  constructor
  · intro y _
    refine List.Nodup.map_on ?_ List.nodup_range
    intro x _ other _ same
    omega
  · refine List.nodup_range.imp_of_mem ?_
    intro y other _ _ different cell present otherPresent
    simp only [List.mem_map, List.mem_range] at present otherPresent
    obtain ⟨x, bound, rfl⟩ := present
    obtain ⟨otherX, otherBound, same⟩ := otherPresent
    refine different ?_
    have same : surface.cellIndex (minX + otherX) (minY + other) =
        surface.cellIndex (minX + x) (minY + y) := by
      unfold cellIndex
      omega
    have rows := (cellIndex_inj (by omega) (by omega) (by omega) (by omega) same).2
    omega

/-- A touched cell is updated once if it is visited once. -/
theorem touched_apply (time : Int) (heatMap : Int → HeatCell) {cells : List Int}
    (nodup : cells.Nodup) (cell : Int) :
    touched time heatMap cells cell =
      if cell ∈ cells then (heatMap cell).touch time else heatMap cell := by
  induction cells generalizing heatMap with
  | nil => rw [if_neg List.not_mem_nil]; rfl
  | cons first rest ih =>
      obtain ⟨absent, nodup⟩ := List.nodup_cons.mp nodup
      change touched time (Function.update heatMap first ((heatMap first).touch time)) rest cell = _
      rw [ih _ nodup]
      by_cases same : cell = first
      · subst same
        rw [if_neg absent, if_pos List.mem_cons_self, Function.update_self]
      · rw [Function.update_of_ne same]
        simp only [List.mem_cons, same, false_or]

/-- A touch moves on to another entry. -/
theorem touch_ne (cell : HeatCell) (time : Int) : cell.touch time ≠ cell := by
  intro same
  have next : cell.oldestEntry + 1 = cell.oldestEntry := congrArg HeatCell.oldestEntry same
  exact absurd next (by generalize cell.oldestEntry = entry; revert entry; decide)

/-! ## Cells that count -/

/-- The numbers of the columns, or rows, whose pixels meet a span of pixels. -/
theorem meets_span (start size index : Int) (positive : 0 < size) :
    (∃ pixel, (start ≤ pixel ∧ pixel < start + size) ∧
      (index * heatCellSize ≤ pixel ∧ pixel < index * heatCellSize + heatCellSize)) ↔
      start / 64 ≤ index ∧ index ≤ (start + size - 1) / 64 := by
  unfold heatCellSize
  constructor
  · rintro ⟨pixel, inside, area⟩
    omega
  · intro bounds
    refine ⟨if start ≤ index * 64 then index * 64 else start, ?_, ?_⟩ <;> split_ifs <;> omega

theorem meets_iff (nonempty : 0 < rect.width ∧ 0 < rect.height) :
    Meets rect column row ↔
      (rect.x / 64 ≤ column ∧ column ≤ (rect.x + rect.width - 1) / 64) ∧
        rect.y / 64 ≤ row ∧ row ≤ (rect.y + rect.height - 1) / 64 := by
  rw [← meets_span _ _ _ nonempty.1, ← meets_span _ _ _ nonempty.2]
  unfold Meets Rect.Contains cellArea Rect.right Rect.bottom
  dsimp only
  constructor
  · rintro ⟨point, inside, area⟩
    exact ⟨⟨point.1, by omega, by omega⟩, point.2, by omega, by omega⟩
  · rintro ⟨⟨x, inX, areaX⟩, y, inY, areaY⟩
    exact ⟨(x, y), ⟨inX.1, inX.2, inY.1, inY.2⟩, areaX.1, areaX.2, areaY.1, areaY.2⟩

/-! ## The cells of the loops -/

/-- The loops along a span of pixels start at the cell of its first pixel, and have counted no cell
behind the last one. -/
theorem span_cells {start size total : Int} (lower : 0 ≤ start) (upper : start + size ≤ total)
    (positive : 0 < size) :
    start.tdiv heatCellSize = start / 64 ∧ (size - 1).tdiv heatCellSize = (size - 1) / 64 ∧
      (start + size - 1) / 64 < heatDimension total := by
  unfold heatDimension heatCellSize
  rw [Int.tdiv_eq_ediv_of_nonneg lower, Int.tdiv_eq_ediv_of_nonneg (by omega),
    Int.tdiv_eq_ediv_of_nonneg (by omega)]
  exact ⟨rfl, rfl, by omega⟩

theorem heatCells_inHeatMap {minX minY columns rows : Int} (left : 0 ≤ minX)
    (right : minX + columns ≤ heatDimension surface.width) (top : 0 ≤ minY)
    (bottom : minY + rows ≤ heatDimension surface.height) :
    ∀ cell ∈ surface.heatCells minX minY columns rows, surface.InHeatMap cell := by
  intro cell present
  obtain ⟨column, row, columnBounds, rowBounds, rfl⟩ := (mem_heatCells cell).mp present
  unfold InHeatMap cellIndex
  have first : 0 ≤ row * heatDimension surface.width := Int.mul_nonneg (by omega) (by omega)
  have rows : (row + 1) * heatDimension surface.width ≤
      heatDimension surface.height * heatDimension surface.width :=
    Int.mul_le_mul_of_nonneg_right (by omega) (by omega)
  rw [Int.add_mul, Int.one_mul, Int.mul_comm (heatDimension surface.height)] at rows
  omega

/-- The cell of a column and a row is visited if both are counted. -/
theorem cellIndex_mem_heatCells {minX minY columns rows : Int} (left : 0 ≤ minX)
    (right : minX + columns ≤ heatDimension surface.width) (has : surface.HasCell column row) :
    surface.cellIndex column row ∈ surface.heatCells minX minY columns rows ↔
      (minX ≤ column ∧ column < minX + columns) ∧ minY ≤ row ∧ row < minY + rows := by
  rw [mem_heatCells]
  constructor
  · rintro ⟨other, otherRow, columnBounds, rowBounds, same⟩
    obtain ⟨rfl, rfl⟩ := cellIndex_inj (by omega) (by omega) has.1 has.2.1 same
    exact ⟨columnBounds, rowBounds⟩
  · intro ⟨columnBounds, rowBounds⟩
    exact ⟨column, row, columnBounds, rowBounds, rfl⟩

section Inside

variable (inside : rect.Inside surface.bounds) (nonempty : 0 < rect.width ∧ 0 < rect.height)
include inside nonempty

theorem loop_spans : 0 ≤ rect.x ∧ 0 ≤ rect.y ∧
    (rect.x.tdiv heatCellSize = rect.x / 64 ∧
      (rect.width - 1).tdiv heatCellSize = (rect.width - 1) / 64 ∧
      (rect.x + rect.width - 1) / 64 < heatDimension surface.width) ∧
    rect.y.tdiv heatCellSize = rect.y / 64 ∧
      (rect.height - 1).tdiv heatCellSize = (rect.height - 1) / 64 ∧
      (rect.y + rect.height - 1) / 64 < heatDimension surface.height := by
  unfold Rect.Inside bounds Rect.right Rect.bottom at inside
  dsimp only at inside
  exact ⟨inside.1, inside.2.2.1, span_cells inside.1 (by omega) nonempty.1,
    span_cells inside.2.2.1 (by omega) nonempty.2⟩

/-- The cell of the last pixel is one of the heat map, and meets the rectangle. -/
theorem meets_last :
    surface.HasCell ((rect.x + rect.width - 1) / 64) ((rect.y + rect.height - 1) / 64) ∧
      Meets rect ((rect.x + rect.width - 1) / 64) ((rect.y + rect.height - 1) / 64) := by
  obtain ⟨left, top, columns, rows⟩ := loop_spans inside nonempty
  rw [meets_iff nonempty]
  exact ⟨⟨by omega, columns.2.2, by omega, rows.2.2⟩, by omega, by omega⟩

theorem touchedCells_inHeatMap :
    ∀ cell ∈ surface.touchedCells rect, surface.InHeatMap cell := by
  obtain ⟨left, top, columns, rows⟩ := loop_spans inside nonempty
  unfold touchedCells
  exact heatCells_inHeatMap (by omega) (by omega) (by omega) (by omega)

theorem averagedCells_inHeatMap :
    ∀ cell ∈ surface.averagedCells rect, surface.InHeatMap cell := by
  obtain ⟨left, top, columns, rows⟩ := loop_spans inside nonempty
  unfold averagedCells
  exact heatCells_inHeatMap (by omega) (by omega) (by omega) (by omega)

/-- The heat map after a touch. -/
theorem touchRect_apply (has : surface.HasCell column row) (time : Int) :
    (surface.touchRect rect time).heatMap (surface.cellIndex column row) =
      if (rect.x / 64 ≤ column ∧ column ≤ rect.x / 64 + (rect.width - 1) / 64) ∧
          rect.y / 64 ≤ row ∧ row ≤ rect.y / 64 + (rect.height - 1) / 64
      then (surface.heatMap (surface.cellIndex column row)).touch time
      else surface.heatMap (surface.cellIndex column row) := by
  obtain ⟨left, top, columns, rows⟩ := loop_spans inside nonempty
  have nodup : (surface.touchedCells rect).Nodup := heatCells_nodup (by omega) (by omega)
  rw [touchRect_heatMap, touched_apply time surface.heatMap nodup]
  refine if_congr ?_ rfl rfl
  unfold touchedCells
  rw [cellIndex_mem_heatCells (by omega) (by omega) has]
  omega

/-- The touched cells are those that count if neither the columns nor the rows of the rectangle
reach into one more cell than their number needs. -/
theorem touchesExactly_iff :
    surface.TouchesExactly rect ↔
      rect.x % 64 + (rect.width - 1) % 64 < 64 ∧ rect.y % 64 + (rect.height - 1) % 64 < 64 := by
  constructor
  · intro exactly
    obtain ⟨has, meets⟩ := meets_last inside nonempty
    have updated := (exactly.2 _ _ has 0).1 meets
    rw [touchRect_apply inside nonempty has] at updated
    split_ifs at updated with visited
    · omega
    · exact absurd updated.symm (touch_ne _ 0)
  · intro aligned
    refine ⟨touchedCells_inHeatMap inside nonempty, ?_⟩
    intro column row has time
    rw [touchRect_apply inside nonempty has, meets_iff nonempty]
    exact ⟨fun meets => if_pos (by omega), fun apart => if_neg (by omega)⟩

/-- The cell of the last pixel is never averaged. -/
theorem not_averagesExactly : ¬ surface.AveragesExactly rect := by
  intro exactly
  obtain ⟨has, meets⟩ := meets_last inside nonempty
  have once := (exactly.2 _ _ has).1 meets
  have present := List.count_pos_iff.mp (by rw [once]; exact Nat.one_pos)
  obtain ⟨left, top, columns, rows⟩ := loop_spans inside nonempty
  unfold averagedCells at present
  rw [cellIndex_mem_heatCells (by omega) (by omega) has] at present
  omega

end Inside

/-- No rectangle has both its touch and its framerate right: the framerate never is, and the touch
is only if the rectangle does not reach into one more cell than its sizes need. Both stay within the
heat map. -/
theorem heatMap_coverage (surface : Surface) (rect : Rect) (inside : rect.Inside surface.bounds)
    (nonempty : 0 < rect.width ∧ 0 < rect.height) :
    ¬ (surface.TouchesExactly rect ∧ surface.AveragesExactly rect) ∧
      (surface.TouchesExactly rect ↔
        rect.x % 64 + (rect.width - 1) % 64 < 64 ∧ rect.y % 64 + (rect.height - 1) % 64 < 64) ∧
      ¬ surface.AveragesExactly rect ∧
      (∀ cell ∈ surface.touchedCells rect, surface.InHeatMap cell) ∧
      ∀ cell ∈ surface.averagedCells rect, surface.InHeatMap cell :=
  ⟨fun exactly => not_averagesExactly inside nonempty exactly.2,
    touchesExactly_iff inside nonempty, not_averagesExactly inside nonempty,
    touchedCells_inHeatMap inside nonempty, averagedCells_inHeatMap inside nonempty⟩

/-- A rectangle of one cell. -/
theorem heatMap_coverage_cell :
    ¬ ((alloc 64 64 false).TouchesExactly ⟨0, 0, 64, 64⟩ ∧
      (alloc 64 64 false).AveragesExactly ⟨0, 0, 64, 64⟩) :=
  (heatMap_coverage (alloc 64 64 false) ⟨0, 0, 64, 64⟩
    (by unfold Rect.Inside; decide) (by decide)).1

/-- Two pixels on both sides of the border between two cells: the second cell is not touched. -/
theorem heatMap_coverage_border :
    (⟨63, 0, 2, 1⟩ : Rect).Inside (alloc 128 64 false).bounds ∧
      ¬ (alloc 128 64 false).TouchesExactly ⟨63, 0, 2, 1⟩ ∧
      ¬ (alloc 128 64 false).AveragesExactly ⟨63, 0, 2, 1⟩ := by
  have inside : (⟨63, 0, 2, 1⟩ : Rect).Inside (alloc 128 64 false).bounds := by
    unfold Rect.Inside
    decide
  refine ⟨inside, ?_, not_averagesExactly inside (by decide)⟩
  rw [touchesExactly_iff inside (by decide)]
  decide

end Surface

end GuacNebula.Common
