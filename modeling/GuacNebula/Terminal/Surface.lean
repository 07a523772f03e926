import GuacNebula.Lib.Moves
import GuacNebula.Terminal.Display

/-! # Copies on the surface

The surface moves a rectangle cell after cell, forwards or backwards. `surfaceCopy_eq` is that
the direction is chosen so that this is one block of moves: every cell of the rectangle receives
what its source held before the copy, however the two rectangles overlap.
-/

namespace GuacNebula.Terminal

open Moves

variable {Paint : Type*}

/-! ## Scan order -/

/-- `p` is visited before `q`. -/
def Before (p q : Place) : Prop := p.1 < q.1 ∨ (p.1 = q.1 ∧ p.2 < q.2)

theorem Before.ne {p q : Place} (before : Before p q) : p ≠ q := by
  rintro rfl
  rcases before with rows | ⟨-, columns⟩
  · exact lt_irrefl _ rows
  · exact lt_irrefl _ columns

theorem Before.asymm {p q : Place} (before : Before p q) : ¬ Before q p := by
  intro after
  rcases before with rows | ⟨rows, columns⟩ <;> rcases after with rows' | ⟨rows', columns'⟩ <;>
    omega

/-- The place lies within a rectangle with a corner at the origin. -/
def Within (height width : Int) (place : Place) : Prop :=
  0 ≤ place.1 ∧ place.1 < height ∧ 0 ≤ place.2 ∧ place.2 < width

instance (height width : Int) (place : Place) : Decidable (Within height width place) :=
  inferInstanceAs (Decidable (_ ∧ _ ∧ _ ∧ _))

theorem mem_scan {height width : Int} {place : Place} :
    place ∈ scan height width ↔ Within height width place := by
  obtain ⟨row, column⟩ := place
  simp only [scan, List.mem_flatMap, List.mem_range, List.mem_map, Prod.mk.injEq, Within]
  constructor
  · rintro ⟨r, rowBound, c, columnBound, rfl, rfl⟩
    omega
  · intro within
    exact ⟨row.toNat, by omega, column.toNat, by omega, by omega, by omega⟩

theorem scan_ordered (height width : Int) : (scan height width).Pairwise Before := by
  refine List.pairwise_flatMap.mpr ⟨fun row _ => ?_, ?_⟩
  · refine List.pairwise_map.mpr (List.pairwise_lt_range.imp ?_)
    intro left right less
    exact Or.inr ⟨rfl, Int.ofNat_lt.mpr less⟩
  · refine List.pairwise_lt_range.imp ?_
    intro upper lower less p inUpper q inLower
    obtain ⟨-, -, rfl⟩ := List.mem_map.mp inUpper
    obtain ⟨-, -, rfl⟩ := List.mem_map.mp inLower
    exact Or.inl (Int.ofNat_lt.mpr less)

/-! ## A rectangle as a block of moves -/

/-- The moves of a rectangle. -/
def CopyRect.block (rect : CopyRect) : Block Place := fun place =>
  if Within rect.height rect.width (place - rect.target) then
    some (rect.source + (place - rect.target))
  else none

theorem CopyRect.block_eq_some {rect : CopyRect} {place origin : Place} :
    rect.block place = some origin ↔
      Within rect.height rect.width (place - rect.target)
        ∧ rect.source + (place - rect.target) = origin := by
  by_cases within : Within rect.height rect.width (place - rect.target)
  · simp only [block, within, if_true, Option.some.injEq, true_and]
  · simp only [block, within, if_false, reduceCtorEq, false_and]

/-- The move of one cell of a rectangle. -/
def CopyRect.single (rect : CopyRect) (offset : Place) : Block Place := fun place =>
  if place = rect.target + offset then some (rect.source + offset) else none

theorem CopyRect.single_eq_some {rect : CopyRect} {offset place origin : Place} :
    rect.single offset place = some origin ↔
      place = rect.target + offset ∧ rect.source + offset = origin := by
  by_cases hit : place = rect.target + offset
  · simp only [single, hit, if_true, Option.some.injEq, true_and]
  · simp only [single, hit, if_false, reduceCtorEq, false_and]

theorem CopyRect.run_single (rect : CopyRect) (offset : Place) (screen : Screen Paint) :
    Function.update screen (rect.target + offset) (screen (rect.source + offset))
      = (rect.single offset).run screen := by
  funext place
  by_cases hit : place = rect.target + offset
  · subst hit
    simp only [Function.update_self, Block.run, Block.origin, single, if_true, Option.getD_some]
  · simp only [Function.update_of_ne hit, Block.run, Block.origin, single, hit, if_false,
      Option.getD_none]

/-- Cells visited once each are moved disjointly. -/
theorem CopyRect.singles_disjoint (rect : CopyRect) {offsets : List Place}
    (distinct : offsets.Nodup) : Disjoint (offsets.map rect.single) := by
  refine List.pairwise_map.mpr (distinct.imp ?_)
  intro first second differ place
  by_cases hit : place = rect.target + first
  · refine Or.inr (if_neg ?_)
    rintro rfl
    exact differ (add_left_cancel hit).symm
  · exact Or.inl (if_neg hit)

/-- A cell is not read after it was written, as long as the order of the visits puts the reader
of every written cell first. -/
theorem CopyRect.singles_undisturbed (rect : CopyRect) {offsets : List Place}
    {order : Place → Place → Prop} (ordered : offsets.Pairwise order)
    (readFirst : ∀ first second, order first second →
      rect.source + second = rect.target + first → rect.source = rect.target) :
    Undisturbed (offsets.map rect.single) := by
  refine List.pairwise_map.mpr (ordered.imp ?_)
  intro first second before place source moved origin disturbed
  obtain ⟨-, rfl⟩ := single_eq_some.mp moved
  obtain ⟨clash, rfl⟩ := single_eq_some.mp disturbed
  rw [clash, readFirst first second before clash]

theorem CopyRect.gather_singles (rect : CopyRect) {offsets : List Place}
    (distinct : offsets.Nodup)
    (all : ∀ offset, offset ∈ offsets ↔ Within rect.height rect.width offset) (place : Place) :
    gather (offsets.map rect.single) place = rect.block.origin place := by
  by_cases within : Within rect.height rect.width (place - rect.target)
  · rw [Block.origin_of_some (block_eq_some.mpr ⟨within, rfl⟩)]
    refine gather_of_mem (rect.singles_disjoint distinct)
      (List.mem_map_of_mem ((all _).mpr within)) ?_
    exact single_eq_some.mpr ⟨by rw [add_sub_cancel], rfl⟩
  · have untouched : rect.block place = none := if_neg within
    rw [Block.origin_of_none untouched]
    refine gather_of_untouched ?_
    intro block member
    obtain ⟨offset, visited, rfl⟩ := List.mem_map.mp member
    refine if_neg ?_
    rintro rfl
    rw [add_sub_cancel_left] at within
    exact within ((all offset).mp visited)

/-- The direction of the transfer lets every cell be read before it is written. -/
theorem CopyRect.transfer_undisturbed (rect : CopyRect) :
    Undisturbed ((if rect.target.1 < rect.source.1
        ∨ (rect.target.1 = rect.source.1 ∧ rect.target.2 < rect.source.2)
      then scan rect.height rect.width
      else (scan rect.height rect.width).reverse).map rect.single) := by
  have ordered := scan_ordered rect.height rect.width
  split
  · refine rect.singles_undisturbed ordered ?_
    intro first second before clash
    have rows := congrArg Prod.fst clash
    have columns := congrArg Prod.snd clash
    simp only [Prod.fst_add, Prod.snd_add] at rows columns
    rcases before with less | ⟨equal, less⟩ <;> omega
  · refine rect.singles_undisturbed (List.pairwise_reverse.mpr ordered) ?_
    intro first second before clash
    have rows := congrArg Prod.fst clash
    have columns := congrArg Prod.snd clash
    simp only [Prod.fst_add, Prod.snd_add] at rows columns
    refine Prod.ext ?_ ?_ <;> rcases before with less | ⟨equal, less⟩ <;> omega

/-- **A copy on the surface reads before it writes**, whatever the overlap. -/
theorem surfaceCopy_eq (screen : Screen Paint) (rect : CopyRect) :
    surfaceCopy screen rect = rect.block.run screen := by
  have distinct : (scan rect.height rect.width).Nodup :=
    (scan_ordered rect.height rect.width).imp fun before => before.ne
  have undisturbed := rect.transfer_undisturbed
  unfold surfaceCopy
  simp only [CopyRect.run_single]
  generalize visits : (if rect.target.1 < rect.source.1
        ∨ (rect.target.1 = rect.source.1 ∧ rect.target.2 < rect.source.2)
      then scan rect.height rect.width
      else (scan rect.height rect.width).reverse) = order at undisturbed ⊢
  have once : order.Nodup := by
    subst visits
    split
    · exact distinct
    · exact List.nodup_reverse.mpr distinct
  have all : ∀ offset, offset ∈ order ↔ Within rect.height rect.width offset := by
    intro offset
    subst visits
    split
    · exact mem_scan
    · rw [List.mem_reverse, mem_scan]
  have executed := runAll_of_undisturbed (rect.singles_disjoint once) undisturbed screen
  rw [runAll, List.foldl_map] at executed
  rw [executed]
  funext place
  rw [rect.gather_singles once all]
  rfl

/-- The copies of a flush are executed block after block. -/
theorem foldl_surfaceCopy (rects : List CopyRect) (screen : Screen Paint) :
    rects.foldl surfaceCopy screen = runAll (rects.map CopyRect.block) screen := by
  induction rects generalizing screen with
  | nil => rfl
  | cons rect rects ih =>
      rw [List.foldl_cons, ih, surfaceCopy_eq]
      rfl

end GuacNebula.Terminal
