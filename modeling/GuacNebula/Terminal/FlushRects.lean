import GuacNebula.Terminal.DisplayQueue

/-! # The rectangles of a flush

A flush takes the pending copies off the queue rectangle by rectangle. `copyScan` is what its
visits establish: every pending copy is in exactly one of the rectangles, at the place and with
the source it was pending with, so that executing all rectangles on one unchanged screen would
be executing the pending copies.
-/

namespace GuacNebula.Terminal

open Moves

/-! ## Growing a rectangle -/

theorem rectColumn_spec (fits : Place → Bool) (row : Int) (remaining : Nat) (column : Int) :
    column ≤ rectColumn fits row remaining column
      ∧ rectColumn fits row remaining column ≤ column + remaining
      ∧ ∀ c, column ≤ c → c < rectColumn fits row remaining column → fits (row, c) := by
  induction remaining generalizing column with
  | zero =>
      refine ⟨le_refl _, by simp [rectColumn], ?_⟩
      intro c from_ before
      exact absurd from_ (not_le.mpr before)
  | succ remaining ih =>
      rw [rectColumn]
      by_cases here : fits (row, column)
      · obtain ⟨lower, upper, all⟩ := ih (column + 1)
        rw [if_pos here]
        refine ⟨by omega, by omega, ?_⟩
        intro c from_ before
        by_cases first : c = column
        · rw [first]
          exact here
        · exact all c (by omega) before
      · rw [if_neg here]
        refine ⟨le_refl _, by omega, ?_⟩
        intro c from_ before
        exact absurd from_ (not_le.mpr before)

theorem lt_rectColumn {fits : Place → Bool} {row column : Int} {remaining : Nat}
    (left : 0 < remaining) (here : fits (row, column)) :
    column < rectColumn fits row remaining column := by
  cases remaining with
  | zero => cases left
  | succ remaining =>
      have lower := (rectColumn_spec fits row remaining (column + 1)).1
      rw [rectColumn, if_pos here]
      omega

/-- Once the right edge is known, rows are added below as long as they fit up to it. -/
theorem rectBounds_spec (fits : Place → Bool) (width column : Int) (remaining : Nat)
    (row right bottom : Int) (known : 0 ≤ right) :
    (rectBounds fits width column remaining row right bottom).1 = right
      ∧ ((rectBounds fits width column remaining row right bottom).2 = bottom
        ∨ row ≤ (rectBounds fits width column remaining row right bottom).2
          ∧ (rectBounds fits width column remaining row right bottom).2 < row + remaining)
      ∧ ∀ r, row ≤ r → r ≤ (rectBounds fits width column remaining row right bottom).2 →
        row ≤ (rectBounds fits width column remaining row right bottom).2 → bottom < row →
        ∀ c, column ≤ c → c ≤ right → fits (r, c) := by
  induction remaining generalizing row bottom with
  | zero =>
      refine ⟨rfl, Or.inl rfl, ?_⟩
      intro r _ _ grown shorter
      exact absurd (lt_of_le_of_lt grown shorter) (lt_irrefl _)
  | succ remaining ih =>
      rw [rectBounds]
      by_cases tooSmall : rectColumn fits row (width - column).toNat column - 1 < right
      · rw [if_pos tooSmall]
        refine ⟨rfl, Or.inl rfl, ?_⟩
        intro r _ _ grown shorter
        exact absurd (lt_of_le_of_lt grown shorter) (lt_irrefl _)
      · rw [if_neg tooSmall, if_neg (by omega : right ≠ -1)]
        obtain ⟨same, extent, all⟩ := ih (row + 1) row
        have fitting := (rectColumn_spec fits row (width - column).toNat column).2.2
        refine ⟨same, Or.inr ?_, ?_⟩
        · rcases extent with stop | ⟨lower, upper⟩ <;> omega
        · intro r from_ upTo _ _ c left upToRight
          by_cases first : r = row
          · rw [first]
            exact fitting c left (by omega)
          · exact all r (by omega) upTo (by omega) (by omega) c left upToRight

/-- **A detected rectangle holds operations that fit**, and lies within the display, if it starts
at one. -/
theorem detect_spec {display : Display} {fits : Place → Bool} {start : Place}
    (within : Within display.height display.width start) (here : fits start) :
    start.2 ≤ (display.detect fits start).1
      ∧ (display.detect fits start).1 < display.width
      ∧ start.1 ≤ (display.detect fits start).2
      ∧ (display.detect fits start).2 < display.height
      ∧ ∀ place : Place, start.1 ≤ place.1 → place.1 ≤ (display.detect fits start).2 →
        start.2 ≤ place.2 → place.2 ≤ (display.detect fits start).1 → fits place := by
  obtain ⟨top, aboveBottom, left, beforeRight⟩ := within
  obtain ⟨rows, rowCount⟩ := Nat.exists_eq_succ_of_ne_zero
    (by omega : (display.height - start.1).toNat ≠ 0)
  have columnCount : 0 < (display.width - start.2).toNat := by omega
  have beyond : start.2 < rectColumn fits start.1 (display.width - start.2).toNat start.2 :=
    lt_rectColumn columnCount here
  obtain ⟨-, upper, fitting⟩ :=
    rectColumn_spec fits start.1 (display.width - start.2).toNat start.2
  unfold Display.detect
  rw [rowCount, rectBounds]
  generalize rectColumn fits start.1 (display.width - start.2).toNat start.2 = stop
    at beyond upper fitting ⊢
  rw [if_neg (by omega : ¬ stop - 1 < -1), if_pos rfl]
  obtain ⟨same, extent, all⟩ :=
    rectBounds_spec fits display.width start.2 rows (start.1 + 1) (stop - 1) start.1 (by omega)
  refine ⟨by omega, by omega, ?_, ?_, ?_⟩
  · rcases extent with stop | ⟨lower, -⟩ <;> omega
  · rcases extent with stop | ⟨-, upper⟩ <;> omega
  · intro place fromTop upTo fromLeft upToRight
    by_cases first : place.1 = start.1
    · have inRow := fitting place.2 fromLeft (by omega)
      rw [← first] at inRow
      exact inRow
    · exact all place.1 (by omega) upTo (by omega) (by omega) place.2 fromLeft (by omega)

/-! ## Pending copies -/

/-- What has been established when the places of `visited` have been visited. -/
structure CopyScan (initial : Display) (visited : List Place)
    (state : Display × List CopyRect) : Prop where
  frame : state.1 = { initial with operations := state.1.operations }
  moved : ∀ rect ∈ state.2, ∀ place origin, rect.block place = some origin →
    Within initial.height initial.width place
      ∧ initial.operations place = .copy origin.1 origin.2
      ∧ state.1.operations place = .nop
  kept : ∀ place, (∀ rect ∈ state.2, rect.block place = none) →
    state.1.operations place = initial.operations place
  disjoint : Disjoint (state.2.map CopyRect.block)
  done : ∀ place ∈ visited, ∀ row column, state.1.operations place ≠ .copy row column

theorem CopyScan.start (initial : Display) : CopyScan initial [] (initial, []) where
  frame := rfl
  moved := by
    intro rect member
    cases member
  kept := fun _ _ => rfl
  disjoint := List.Pairwise.nil
  done := by
    intro place member
    cases member

theorem CopyScan.height {initial : Display} {visited : List Place}
    {state : Display × List CopyRect} (established : CopyScan initial visited state) :
    state.1.height = initial.height := by
  rw [established.frame]

theorem CopyScan.width {initial : Display} {visited : List Place}
    {state : Display × List CopyRect} (established : CopyScan initial visited state) :
    state.1.width = initial.width := by
  rw [established.frame]

/-- A place with a pending copy is in no rectangle yet. -/
theorem CopyScan.pending {initial : Display} {visited : List Place}
    {state : Display × List CopyRect} (established : CopyScan initial visited state)
    {place : Place} {row column : Int} (copy : state.1.operations place = .copy row column) :
    ∀ rect ∈ state.2, rect.block place = none := by
  intro rect member
  cases moved : rect.block place with
  | none => rfl
  | some origin =>
      rw [(established.moved rect member place origin moved).2.2] at copy
      cases copy

/-- The place lies in the rectangle between two corners. -/
def Spanned (first last other : Place) : Prop :=
  first.1 ≤ other.1 ∧ other.1 ≤ last.1 ∧ first.2 ≤ other.2 ∧ other.2 ≤ last.2

theorem within_sub_iff_spanned {first last other : Place} :
    Within (last.1 - first.1 + 1) (last.2 - first.2 + 1) (other - first)
      ↔ Spanned first last other := by
  unfold Spanned
  simp only [Within, Prod.fst_sub, Prod.snd_sub]
  omega

section Handled

variable {operations : Place → Operation} {fits : Place → Bool} {first last other : Place}

theorem markHandled_of_spanned (fit : ∀ other, Spanned first last other → fits other)
    (inside : Spanned first last other) :
    markHandled operations fits first last other = .nop :=
  if_pos ⟨inside.1, inside.2.1, inside.2.2.1, inside.2.2.2, fit other inside⟩

theorem markHandled_of_not_spanned (outside : ¬ Spanned first last other) :
    markHandled operations fits first last other = operations other := by
  refine if_neg ?_
  rintro ⟨top, bottom, left, right, -⟩
  exact outside ⟨top, bottom, left, right⟩

end Handled

/-- The visit of a place that holds a pending copy emits one rectangle of pending copies. -/
theorem CopyScan.visitCopy {initial : Display} {visited : List Place}
    {state : Display × List CopyRect} (established : CopyScan initial visited state)
    {place : Place} (within : Within initial.height initial.width place) {row column : Int}
    (copy : state.1.operations place = .copy row column) :
    CopyScan initial (visited ++ [place]) (flushCopyAt state place) := by
  have here : state.1.continuesCopy place (row, column) place := by
    simp only [Display.continuesCopy, sub_self, add_zero, copy, decide_true]
  have inState : Within state.1.height state.1.width place := by
    rw [established.height, established.width]
    exact within
  obtain ⟨leftRight, rightBound, topBottom, bottomBound, all⟩ := detect_spec inState here
  rw [established.width] at rightBound
  rw [established.height] at bottomBound
  rw [flushCopyAt, copy]
  dsimp only
  generalize state.1.detect (state.1.continuesCopy place (row, column)) place = corner at *
  have holds (other : Place) (inside : Spanned place (corner.2, corner.1) other) :
      state.1.continuesCopy place (row, column) other :=
    all other inside.1 inside.2.1 inside.2.2.1 inside.2.2.2
  have wasCopy (other : Place) (inside : Spanned place (corner.2, corner.1) other) :
      state.1.operations other
        = .copy (row + (other.1 - place.1)) (column + (other.2 - place.2)) :=
    of_decide_eq_true (holds other inside)
  refine ⟨?_, ?_, ?_, ?_, ?_⟩
  · rw [established.frame]
  · intro rect member other origin moved
    rcases List.mem_append.mp member with old | new
    · obtain ⟨inside, wasPending, nop⟩ := established.moved rect old other origin moved
      refine ⟨inside, wasPending, ?_⟩
      by_cases again : Spanned place (corner.2, corner.1) other
      · exact markHandled_of_spanned holds again
      · exact (markHandled_of_not_spanned again).trans nop
    · obtain rfl := List.mem_singleton.mp new
      obtain ⟨inside, rfl⟩ := CopyRect.block_eq_some.mp moved
      have inside : Spanned place (corner.2, corner.1) other := within_sub_iff_spanned.mp inside
      have pending := wasCopy other inside
      refine ⟨?_, ?_, markHandled_of_spanned holds inside⟩
      · obtain ⟨top, bottom, left, right⟩ := within
        obtain ⟨below, above, after, before⟩ := inside
        dsimp only at above before
        exact ⟨by omega, by omega, by omega, by omega⟩
      · rw [← established.kept other (established.pending pending), pending]
        simp only [Prod.fst_add, Prod.snd_add, Prod.fst_sub, Prod.snd_sub]
  · intro other untouched
    have outside : ¬ Spanned place (corner.2, corner.1) other := by
      intro inside
      have isNone := untouched _ (List.mem_append_right _ (List.mem_singleton_self _))
      rw [CopyRect.block, if_pos (within_sub_iff_spanned.mpr inside)] at isNone
      cases isNone
    refine (markHandled_of_not_spanned outside).trans (established.kept other ?_)
    intro rect member
    exact untouched rect (List.mem_append_left _ member)
  · rw [List.map_append]
    refine List.pairwise_append.mpr ⟨established.disjoint, List.pairwise_singleton _ _, ?_⟩
    intro earlier member later new other
    obtain rfl := List.mem_singleton.mp new
    obtain ⟨rect, old, rfl⟩ := List.mem_map.mp member
    by_cases inside : Spanned place (corner.2, corner.1) other
    · exact Or.inl (established.pending (wasCopy other inside) rect old)
    · exact Or.inr (if_neg (fun within => inside (within_sub_iff_spanned.mp within)))
  · intro other member r c stillCopy
    by_cases inside : Spanned place (corner.2, corner.1) other
    · cases (markHandled_of_spanned holds inside).symm.trans stillCopy
    · replace stillCopy := (markHandled_of_not_spanned inside).symm.trans stillCopy
      rcases List.mem_append.mp member with old | new
      · exact established.done other old r c stillCopy
      · obtain rfl := List.mem_singleton.mp new
        exact inside ⟨le_refl _, topBottom, le_refl _, leftRight⟩

theorem CopyScan.visit {initial : Display} {visited : List Place}
    {state : Display × List CopyRect} (established : CopyScan initial visited state)
    {place : Place} (within : Within initial.height initial.width place) :
    CopyScan initial (visited ++ [place]) (flushCopyAt state place) := by
  have unchanged (nothing : ∀ row column, state.1.operations place ≠ .copy row column) :
      CopyScan initial (visited ++ [place]) state := by
    refine { established with done := ?_ }
    intro other member
    rcases List.mem_append.mp member with old | new
    · exact established.done other old
    · obtain rfl := List.mem_singleton.mp new
      exact nothing
  cases operation : state.1.operations place with
  | copy row column => exact established.visitCopy within operation
  | nop =>
      rw [flushCopyAt, operation]
      exact unchanged fun _ _ => by rw [operation]; exact Operation.noConfusion
  | set character =>
      rw [flushCopyAt, operation]
      exact unchanged fun _ _ => by rw [operation]; exact Operation.noConfusion

theorem copyScan_foldl {initial : Display} (places : List Place) {visited : List Place}
    {state : Display × List CopyRect} (established : CopyScan initial visited state)
    (within : ∀ place ∈ places, Within initial.height initial.width place) :
    CopyScan initial (visited ++ places) (places.foldl flushCopyAt state) := by
  induction places generalizing visited state with
  | nil =>
      rw [List.append_nil]
      exact established
  | cons place places ih =>
      rw [List.append_cons]
      exact ih (established.visit (within place List.mem_cons_self))
        fun other member => within other (List.mem_cons_of_mem _ member)

/-- **Every pending copy is emitted once**, in a rectangle that moves it from its own source. -/
theorem copyScan (display : Display) :
    CopyScan display (scan display.height display.width) (flushCopy display) :=
  copyScan_foldl _ (CopyScan.start display) fun _ member => mem_scan.mp member

/-- The blocks of moves a flush executes, in the order of their execution. -/
def Display.copyBlocks (display : Display) : List (Block Place) :=
  (flushCopy display).2.map CopyRect.block

theorem copyBlocks_disjoint (display : Display) : Disjoint display.copyBlocks :=
  (copyScan display).disjoint

/-- Executed on one unchanged screen, the rectangles are the pending copies. -/
theorem gather_copyBlocks (display : Display) {place : Place}
    (within : Within display.height display.width place) :
    gather display.copyBlocks place = display.origin place := by
  have scanned := copyScan display
  unfold Display.copyBlocks
  by_cases covered : ∃ rect ∈ (flushCopy display).2, rect.block place ≠ none
  · obtain ⟨rect, member, some⟩ := covered
    obtain ⟨origin, moved⟩ := Option.ne_none_iff_exists'.mp some
    rw [gather_of_mem scanned.disjoint (List.mem_map_of_mem member) moved, Display.origin,
      (scanned.moved rect member place origin moved).2.1]
  · push Not at covered
    have kept := scanned.kept place covered
    rw [Display.origin, gather_of_untouched]
    · cases operation : display.operations place with
      | nop => rfl
      | set character => rfl
      | copy row column =>
          exact absurd (kept.trans operation) (scanned.done place (mem_scan.mpr within) row column)
    · intro block member
      obtain ⟨rect, isRect, rfl⟩ := List.mem_map.mp member
      exact covered rect isRect

/-- After the copies no copy is pending, and nothing else has changed. -/
theorem flushCopy_operations (display : Display) {place : Place}
    (within : Within display.height display.width place) :
    (flushCopy display).1.operations place =
      match display.operations place with
      | .copy _ _ => .nop
      | operation => operation := by
  have scanned := copyScan display
  by_cases covered : ∃ rect ∈ (flushCopy display).2, rect.block place ≠ none
  · obtain ⟨rect, member, some⟩ := covered
    obtain ⟨origin, moved⟩ := Option.ne_none_iff_exists'.mp some
    obtain ⟨-, copy, nop⟩ := scanned.moved rect member place origin moved
    rw [nop, copy]
  · push Not at covered
    have kept := scanned.kept place covered
    rw [kept]
    cases operation : display.operations place with
    | nop => rfl
    | set character => rfl
    | copy row column =>
        exact absurd (kept.trans operation) (scanned.done place (mem_scan.mpr within) row column)

end GuacNebula.Terminal
