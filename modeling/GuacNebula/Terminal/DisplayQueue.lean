import GuacNebula.Lib.Run
import GuacNebula.Terminal.Surface

/-! # What the queued operations describe

The display's calls change pending operations, not cells. `Display.meaning` is the screen that
the operations describe on top of a given one: what is set is shown, a wide character also
covers the cell to its right unless a glyph is set there, and what is copied is taken from the
given screen. A call changes this screen as if it were applied to it directly, as long as it
does not cut a pending wide character (`meaning_call`), and then so does every sequence of
calls (`meaning_exec`).
-/

namespace GuacNebula.Terminal

open Run

variable {Paint : Type*}

/-! ## Pending characters -/

/-- The wide character pending in the cell to the left. -/
def Display.wideBefore (display : Display) (place : Place) : Option TerminalChar :=
  match display.operations (place.1, place.2 - 1) with
  | .set character => if character.width = 2 then some character else none
  | _ => none

/-- A glyph is pending to be drawn in the cell. -/
def Display.glyphAt (display : Display) (place : Place) : Bool :=
  match display.operations place with
  | .set character => hasGlyph character.value
  | _ => false

/-- Where the pending operation of a place takes the content of the cell from, if it does not
set it. -/
def Display.origin (display : Display) (place : Place) : Place :=
  match display.operations place with
  | .copy row column => (row, column)
  | _ => place

/-- What a cell shows where no wide character covers it. -/
def Display.ownMeaning (display : Display) (paint : TerminalChar → Nat → Paint)
    (screen : Screen Paint) (place : Place) : Paint :=
  match display.operations place with
  | .set character => paint character 0
  | _ => screen (display.origin place)

/-- The screen that the pending operations describe. -/
def Display.meaning (display : Display) (paint : TerminalChar → Nat → Paint)
    (screen : Screen Paint) : Screen Paint := fun place =>
  if display.glyphAt place then display.ownMeaning paint screen place
  else
    match display.wideBefore place with
    | some character => paint character 1
    | none => display.ownMeaning paint screen place

/-- The width of a character is the number of columns it is drawn in. -/
def TerminalChar.Sized (wc : Wcwidth) (character : TerminalChar) : Prop :=
  character.width = wc.columns character.drawn

theorem TerminalChar.Sized.le_two {wc : Wcwidth} {character : TerminalChar}
    (sized : character.Sized wc) : character.width ≤ 2 := by
  rw [sized]
  exact wc.columns_le_two _

/-- Only glyphs are wide. -/
theorem TerminalChar.Sized.hasGlyph_of_wide {wc : Wcwidth} {character : TerminalChar}
    (sized : character.Sized wc) (wide : character.width = 2) :
    hasGlyph character.value = true := by
  by_contra blank
  rw [TerminalChar.Sized, TerminalChar.drawn, if_neg blank, wc.columns_space] at sized
  omega

/-- The invariant of the queue: operations are pending for cells of the display only, and the
characters in it take at least one column and as many as they are drawn in. -/
structure Display.Queued (wc : Wcwidth) (display : Display) : Prop where
  bounded : ∀ place, ¬ Within display.height display.width place →
    display.operations place = .nop
  sized : ∀ place character, display.operations place = .set character →
    character.Sized wc ∧ character.width ≠ 0

/-- Whether a call addresses cells of a display only, at both ends of a move. -/
def DisplayCall.InRange (height width : Int) : DisplayCall → Prop
  | .setColumns row startColumn endColumn _ =>
      0 ≤ row ∧ row < height ∧ 0 ≤ startColumn ∧ startColumn ≤ endColumn ∧ endColumn < width
  | .copyRows startRow endRow offset =>
      0 ≤ startRow ∧ startRow ≤ endRow ∧ endRow < height
        ∧ 0 ≤ startRow + offset ∧ endRow + offset < height
  | .copyColumns row startColumn endColumn offset =>
      0 ≤ row ∧ row < height ∧ 0 ≤ startColumn ∧ startColumn ≤ endColumn ∧ endColumn < width
        ∧ 0 ≤ startColumn + offset ∧ endColumn + offset < width

/-- The cell does not show the right half of a pending character. -/
def Display.NotCovered (display : Display) (place : Place) : Prop :=
  display.glyphAt place ∨ display.wideBefore place = none

/-- A call keeps pending characters whole: it sets no blank on the right half of a pending wide
character, leaves no right half behind, sets no wide character next to a pending glyph, and
moves no half of a pending wide character without the other. Characters are as wide as they
are drawn. -/
def Display.KeepsWhole (wc : Wcwidth) (display : Display) : DisplayCall → Prop
  | .setColumns row startColumn endColumn character =>
      character.width = 0 ∨
        (character.Sized wc
          ∧ (character.width = 1 →
              (hasGlyph character.value = false → display.wideBefore (row, startColumn) = none)
              ∧ (endColumn + 1 < display.width → display.NotCovered (row, endColumn + 1)))
          ∧ (character.width = 2 → ∀ column, startColumn < column → column ≤ endColumn + 1 →
              (column - startColumn) % 2 = 1 → column < display.width →
              display.glyphAt (row, column) = false))
  | .copyRows _ _ _ => True
  | .copyColumns row startColumn endColumn offset =>
      offset = 0 ∨
        ((display.glyphAt (row, startColumn)
            ∨ (display.wideBefore (row, startColumn) = none
              ∧ display.wideBefore (row, startColumn + offset) = none))
          ∧ (endColumn + offset + 1 < display.width →
              display.glyphAt (row, endColumn + offset + 1)
              ∨ (display.wideBefore (row, endColumn + offset + 1) = none
                ∧ display.wideBefore (row, endColumn + 1) = none)))

/-! ## Calls in range -/

theorem fitRange_of_mem {start stop offset limit : Int} (lower : 0 ≤ start) (ordered : start ≤ stop)
    (upper : stop < limit) (movedLower : 0 ≤ start + offset) (movedUpper : stop + offset < limit) :
    fitRange start stop offset limit = (start, stop) := by
  unfold fitRange
  simp only
  rw [fitToRange_of_mem lower (by omega), fitToRange_of_mem (by omega) (by omega : stop ≤ limit - 1),
    fitToRange_of_mem movedLower (by omega), fitToRange_of_mem (by omega) (by omega)]
  simp only [add_sub_cancel_right]

@[simp] theorem call_height (display : Display) (call : DisplayCall) :
    (display.call call).height = display.height := by
  cases call with
  | setColumns row startColumn endColumn character =>
      simp only [Display.call, displaySetColumns]
      split <;> [rfl; (split <;> rfl)]
  | copyRows startRow endRow offset => rfl
  | copyColumns row startColumn endColumn offset =>
      simp only [Display.call, displayCopyColumns]
      split <;> rfl

@[simp] theorem call_width (display : Display) (call : DisplayCall) :
    (display.call call).width = display.width := by
  cases call with
  | setColumns row startColumn endColumn character =>
      simp only [Display.call, displaySetColumns]
      split <;> [rfl; (split <;> rfl)]
  | copyRows startRow endRow offset => rfl
  | copyColumns row startColumn endColumn offset =>
      simp only [Display.call, displayCopyColumns]
      split <;> rfl

/-- The operations after a character has been set in a range of columns. -/
theorem setColumns_operations {display : Display} {row startColumn endColumn : Int}
    {character : TerminalChar} (visible : character.width ≠ 0)
    (inRange : (DisplayCall.setColumns row startColumn endColumn character).InRange
      display.height display.width) (place : Place) :
    (displaySetColumns display row startColumn endColumn character).operations place =
      if place.1 = row ∧ startColumn ≤ place.2 ∧ place.2 ≤ endColumn
          ∧ (place.2 - startColumn) % character.width = 0 then
        .set character
      else display.operations place := by
  obtain ⟨top, bottom, left, ordered, right⟩ := inRange
  rw [displaySetColumns, if_neg visible, if_neg (by omega)]
  simp only [fitToRange_of_mem left (by omega : startColumn ≤ display.width - 1),
    fitToRange_of_mem (by omega : 0 ≤ endColumn) (by omega : endColumn ≤ display.width - 1)]

theorem copyRows_operations {display : Display} {startRow endRow offset : Int}
    (inRange : (DisplayCall.copyRows startRow endRow offset).InRange display.height display.width)
    (place : Place) :
    (displayCopyRows display startRow endRow offset).operations place =
      if startRow + offset ≤ place.1 ∧ place.1 ≤ endRow + offset
          ∧ 0 ≤ place.2 ∧ place.2 < display.width then
        (display.operations (place.1 - offset, place.2)).orCopy (place.1 - offset) place.2
      else display.operations place := by
  obtain ⟨lower, ordered, upper, movedLower, movedUpper⟩ := inRange
  simp only [displayCopyRows, fitRange_of_mem lower ordered upper movedLower movedUpper]

theorem copyColumns_operations {display : Display} {row startColumn endColumn offset : Int}
    (inRange : (DisplayCall.copyColumns row startColumn endColumn offset).InRange
      display.height display.width) (place : Place) :
    (displayCopyColumns display row startColumn endColumn offset).operations place =
      if place.1 = row ∧ startColumn + offset ≤ place.2 ∧ place.2 ≤ endColumn + offset then
        (display.operations (row, place.2 - offset)).orCopy row (place.2 - offset)
      else display.operations place := by
  obtain ⟨top, bottom, lower, ordered, upper, movedLower, movedUpper⟩ := inRange
  rw [displayCopyColumns, if_neg (by omega)]
  simp only [fitRange_of_mem lower ordered upper movedLower movedUpper]

theorem orCopy_eq_set {operation : Operation} {row column : Int} {character : TerminalChar} :
    operation.orCopy row column = .set character ↔ operation = .set character := by
  cases operation <;> simp [Operation.orCopy]

/-- A call in range keeps the invariant of the queue. -/
theorem Display.Queued.call {wc : Wcwidth} {display : Display} (queued : display.Queued wc)
    {call : DisplayCall} (inRange : call.InRange display.height display.width)
    (keepsWhole : display.KeepsWhole wc call) : (display.call call).Queued wc := by
  cases call with
  | setColumns row startColumn endColumn character =>
      by_cases empty : character.width = 0
      · rw [Display.call, displaySetColumns, if_pos empty]
        exact queued
      · have sized : character.Sized wc := (keepsWhole.resolve_left empty).1
        refine ⟨?_, ?_⟩
        · intro place outside
          rw [call_height, call_width] at outside
          rw [Display.call, setColumns_operations empty inRange, if_neg]
          · exact queued.bounded place outside
          · rintro ⟨inRow, left, right, -⟩
            obtain ⟨top, bottom, fromLeft, -, toRight⟩ := inRange
            exact outside ⟨by omega, by omega, by omega, by omega⟩
        · intro place other
          rw [Display.call, setColumns_operations empty inRange]
          split
          · intro set
            cases set
            exact ⟨sized, empty⟩
          · exact queued.sized place other
  | copyRows startRow endRow offset =>
      refine ⟨?_, ?_⟩
      · intro place outside
        rw [call_height, call_width] at outside
        rw [Display.call, copyRows_operations inRange, if_neg]
        · exact queued.bounded place outside
        · rintro ⟨above, below, left, right⟩
          obtain ⟨lower, -, upper, movedLower, movedUpper⟩ := inRange
          exact outside ⟨by omega, by omega, by omega, by omega⟩
      · intro place other
        rw [Display.call, copyRows_operations inRange]
        split
        · rw [orCopy_eq_set]
          exact queued.sized _ other
        · exact queued.sized place other
  | copyColumns row startColumn endColumn offset =>
      refine ⟨?_, ?_⟩
      · intro place outside
        rw [call_height, call_width] at outside
        rw [Display.call, copyColumns_operations inRange, if_neg]
        · exact queued.bounded place outside
        · rintro ⟨inRow, left, right⟩
          obtain ⟨top, bottom, lower, -, upper, movedLower, movedUpper⟩ := inRange
          exact outside ⟨by omega, by omega, by omega, by omega⟩
      · intro place other
        rw [Display.call, copyColumns_operations inRange]
        split
        · rw [orCopy_eq_set]
          exact queued.sized _ other
        · exact queued.sized place other

/-! ## Calls and meaning -/

/-- Two displays describe the same content for a place where they have the same operations for
it and, unless a glyph is pending there, the same wide character to its left. -/
theorem meaning_congr {first second : Display} {paint : TerminalChar → Nat → Paint}
    {screen : Screen Paint} {p q : Place}
    (glyph : first.glyphAt p = second.glyphAt q)
    (own : first.ownMeaning paint screen p = second.ownMeaning paint screen q)
    (wide : second.glyphAt q = false → first.wideBefore p = second.wideBefore q) :
    first.meaning paint screen p = second.meaning paint screen q := by
  unfold Display.meaning
  rw [glyph, own]
  by_cases shown : second.glyphAt q
  · rw [if_pos shown, if_pos shown]
  · rw [if_neg shown, if_neg shown, wide (Bool.eq_false_iff.mpr shown)]

theorem meaning_of_glyphAt {display : Display} {paint : TerminalChar → Nat → Paint}
    {screen : Screen Paint} {place : Place} (glyph : display.glyphAt place) :
    display.meaning paint screen place = display.ownMeaning paint screen place :=
  if_pos glyph

theorem meaning_of_wideBefore {display : Display} {paint : TerminalChar → Nat → Paint}
    {screen : Screen Paint} {place : Place} {character : TerminalChar}
    (empty : display.glyphAt place = false)
    (wide : display.wideBefore place = some character) :
    display.meaning paint screen place = paint character 1 := by
  rw [Display.meaning, if_neg (Bool.eq_false_iff.mp empty), wide]

/-- What is not covered shows its own operation. -/
theorem Display.NotCovered.meaning {display : Display} {paint : TerminalChar → Nat → Paint}
    {screen : Screen Paint} {place : Place} (notCovered : display.NotCovered place) :
    display.meaning paint screen place = display.ownMeaning paint screen place := by
  by_cases glyph : display.glyphAt place
  · exact meaning_of_glyphAt glyph
  · rw [Display.meaning, if_neg glyph, notCovered.resolve_left glyph]

section

variable {first second : Display} {p q : Place}

theorem glyphAt_congr (same : first.operations p = second.operations q) :
    first.glyphAt p = second.glyphAt q := by
  rw [Display.glyphAt, Display.glyphAt, same]

theorem wideBefore_congr
    (same : first.operations (p.1, p.2 - 1) = second.operations (q.1, q.2 - 1)) :
    first.wideBefore p = second.wideBefore q := by
  rw [Display.wideBefore, Display.wideBefore, same]

theorem ownMeaning_congr {paint : TerminalChar → Nat → Paint} {screen : Screen Paint}
    (same : first.operations p = second.operations p) :
    first.ownMeaning paint screen p = second.ownMeaning paint screen p := by
  rw [Display.ownMeaning, Display.ownMeaning, Display.origin, Display.origin, same]

/-- What a moved operation describes is what it described where it came from. -/
theorem ownMeaning_orCopy {paint : TerminalChar → Nat → Paint} {screen : Screen Paint}
    (moved : first.operations p = (second.operations q).orCopy q.1 q.2) :
    first.ownMeaning paint screen p = second.ownMeaning paint screen q := by
  rw [Display.ownMeaning, Display.ownMeaning, Display.origin, Display.origin, moved]
  cases second.operations q <;> rfl

theorem glyphAt_orCopy {row column : Int}
    (moved : first.operations p = (second.operations q).orCopy row column) :
    first.glyphAt p = second.glyphAt q := by
  rw [Display.glyphAt, Display.glyphAt, moved]
  cases second.operations q <;> rfl

theorem wideBefore_orCopy {row column : Int}
    (moved : first.operations (p.1, p.2 - 1)
      = (second.operations (q.1, q.2 - 1)).orCopy row column) :
    first.wideBefore p = second.wideBefore q := by
  rw [Display.wideBefore, Display.wideBefore, moved]
  cases second.operations (q.1, q.2 - 1) <;> rfl

theorem wideBefore_eq_none {display : Display} {place : Place}
    (nop : display.operations (place.1, place.2 - 1) = .nop) : display.wideBefore place = none := by
  rw [Display.wideBefore, nop]

/-- Nothing stands to the left of the first column. -/
theorem Display.Queued.wideBefore_zero {wc : Wcwidth} {display : Display}
    (queued : display.Queued wc) {place : Place} (first : place.2 = 0) :
    display.wideBefore place = none := by
  refine wideBefore_eq_none (queued.bounded _ ?_)
  rintro ⟨-, -, left, -⟩
  dsimp only at left
  omega

end

section

variable {wc : Wcwidth} {display : Display} {paint : TerminalChar → Nat → Paint}
  {screen : Screen Paint} {place : Place}

section Set

variable {after : Display} {row column startColumn endColumn : Int} {character : TerminalChar}

/-- A cell that keeps its operation shows the same if what covers it stays where it is. -/
theorem meaning_outside (same : after.operations place = display.operations place)
    (before : display.glyphAt place = false →
      after.operations (place.1, place.2 - 1) = display.operations (place.1, place.2 - 1)
        ∨ (after.wideBefore place = none ∧ display.wideBefore place = none)) :
    after.meaning paint screen place = display.meaning paint screen place := by
  refine meaning_congr (glyphAt_congr same) (ownMeaning_congr same) fun empty => ?_
  rcases before empty with unchanged | ⟨none, none'⟩
  · exact wideBefore_congr unchanged
  · rw [none, none']

/-- A character of one column covers nothing to its right. -/
theorem wideBefore_of_narrow (one : character.width = 1)
    (set : after.operations (row, column - 1) = .set character) :
    after.wideBefore (row, column) = none := by
  simp only [Display.wideBefore, set, one]
  rfl

/-- Setting characters of one column, seen in one cell of the row. -/
theorem meaning_set_narrow (one : character.width = 1) (ordered : startColumn ≤ endColumn)
    (operations : ∀ column, after.operations (row, column) =
      if startColumn ≤ column ∧ column ≤ endColumn then .set character
      else display.operations (row, column))
    (blankStart : hasGlyph character.value = false → display.wideBefore (row, startColumn) = none)
    (rightEdge : endColumn + 1 < display.width → display.NotCovered (row, endColumn + 1))
    (toRight : column < display.width) :
    after.meaning paint screen (row, column) =
      if startColumn ≤ column ∧ column ≤ endColumn then paint character 0
      else display.meaning paint screen (row, column) := by
  by_cases inside : startColumn ≤ column ∧ column ≤ endColumn
  · rw [if_pos inside]
    have set : after.operations (row, column) = .set character :=
      (operations _).trans (if_pos inside)
    have shown : after.ownMeaning paint screen (row, column) = paint character 0 := by
      rw [Display.ownMeaning, set]
    rw [← shown]
    refine Display.NotCovered.meaning ?_
    by_cases glyph : hasGlyph character.value
    · exact Or.inl (by rw [Display.glyphAt, set]; exact glyph)
    · refine Or.inr ?_
      by_cases first : column = startColumn
      · rw [first, ← blankStart (Bool.eq_false_iff.mpr glyph)]
        refine wideBefore_congr ((operations _).trans (if_neg ?_))
        rintro ⟨from_, -⟩
        omega
      · exact wideBefore_of_narrow one ((operations _).trans (if_pos ⟨by omega, by omega⟩))
  · rw [if_neg inside]
    refine meaning_outside ((operations _).trans (if_neg inside)) ?_
    intro empty
    by_cases edge : column = endColumn + 1
    · subst edge
      have set : after.operations (row, endColumn + 1 - 1) = .set character :=
        (operations _).trans (if_pos ⟨by omega, by omega⟩)
      exact Or.inr ⟨wideBefore_of_narrow one set,
        (rightEdge toRight).resolve_left (Bool.eq_false_iff.mp empty)⟩
    · refine Or.inl ((operations _).trans (if_neg ?_))
      rintro ⟨from_, upTo⟩
      dsimp only at from_ upTo
      omega

/-- Setting characters of two columns, seen in one cell of the row. -/
theorem meaning_set_wide (two : character.width = 2) (glyph : hasGlyph character.value = true)
    (operations : ∀ column, after.operations (row, column) =
      if startColumn ≤ column ∧ column ≤ endColumn ∧ (column - startColumn) % 2 = 0 then
        .set character
      else display.operations (row, column))
    (trailing : ∀ column, startColumn < column → column ≤ endColumn + 1 →
      (column - startColumn) % 2 = 1 → column < display.width →
      display.glyphAt (row, column) = false)
    (toRight : column < display.width) :
    after.meaning paint screen (row, column) =
      if startColumn ≤ column ∧ column - (column - startColumn) % 2 ≤ endColumn then
        paint character ((column - startColumn) % 2).toNat
      else display.meaning paint screen (row, column) := by
  by_cases inside : startColumn ≤ column ∧ column - (column - startColumn) % 2 ≤ endColumn
  · rw [if_pos inside]
    rcases Int.emod_two_eq_zero_or_one (column - startColumn) with even | odd
    · have set : after.operations (row, column) = .set character :=
        (operations _).trans (if_pos ⟨inside.1, by omega, even⟩)
      rw [meaning_of_glyphAt (by rw [Display.glyphAt, set]; exact glyph), Display.ownMeaning, set,
        even]
      rfl
    · have same : after.operations (row, column) = display.operations (row, column) :=
        (operations _).trans (if_neg fun hit => by omega)
      have set : after.operations (row, column - 1) = .set character :=
        (operations _).trans (if_pos ⟨by omega, by omega, by omega⟩)
      have empty := trailing column (by omega) (by omega) odd toRight
      have wide : after.wideBefore (row, column) = some character := by
        simp only [Display.wideBefore, set, two, if_true]
      rw [meaning_of_wideBefore ((glyphAt_congr same).trans empty) wide, odd]
      rfl
  · rw [if_neg inside]
    have apart : ∀ other, startColumn ≤ other → other ≤ endColumn →
        (other - startColumn) % 2 = 0 → other ≠ column ∧ other ≠ column - 1 := by
      intro other from_ upTo even
      constructor <;> rintro rfl <;> exact inside ⟨by omega, by omega⟩
    refine meaning_outside ((operations _).trans (if_neg ?_)) fun _ =>
      Or.inl ((operations _).trans (if_neg ?_))
    · rintro ⟨from_, upTo, even⟩
      exact (apart column from_ upTo even).1 rfl
    · rintro ⟨from_, upTo, even⟩
      exact (apart (column - 1) from_ upTo even).2 rfl

end Set

/-- Setting characters in a range of columns, seen in one cell. -/
theorem meaning_setColumns {row startColumn endColumn : Int}
    {character : TerminalChar} (visible : character.width ≠ 0)
    (inRange : (DisplayCall.setColumns row startColumn endColumn character).InRange
      display.height display.width)
    (keepsWhole : display.KeepsWhole wc (.setColumns row startColumn endColumn character))
    (within : Within display.height display.width place) :
    (displaySetColumns display row startColumn endColumn character).meaning paint screen place =
      if place.1 = row ∧ startColumn ≤ place.2
          ∧ place.2 - (place.2 - startColumn) % character.width ≤ endColumn then
        paint character ((place.2 - startColumn) % character.width).toNat
      else display.meaning paint screen place := by
  obtain ⟨sized, narrow, wide⟩ := keepsWhole.resolve_left visible
  have operations := setColumns_operations visible inRange
  generalize displaySetColumns display row startColumn endColumn character = after at operations ⊢
  obtain ⟨r, c⟩ := place
  obtain ⟨top, bottom, left, ordered, right⟩ := inRange
  obtain ⟨-, -, fromLeft, toRight⟩ := within
  dsimp only at fromLeft toRight ⊢
  by_cases inRow : r = row
  swap
  · rw [if_neg (fun inside => inRow inside.1)]
    have same : ∀ column, after.operations (r, column) = display.operations (r, column) :=
      fun column => (operations _).trans (if_neg fun inside => inRow inside.1)
    exact meaning_outside (same c) fun _ => .inl (same (c - 1))
  subst inRow
  rcases (by have := sized.le_two; omega : character.width = 1 ∨ character.width = 2)
    with one | two
  · simp only [one, Nat.cast_one, Int.emod_one, and_true, true_and, sub_zero, Int.toNat_zero]
      at operations ⊢
    have edges := narrow one
    exact meaning_set_narrow one ordered
      (fun column => (operations (r, column)).trans (if_congr (and_iff_right rfl) rfl rfl)) edges.1
      edges.2 toRight
  · simp only [two, Nat.cast_ofNat, true_and] at operations ⊢
    exact meaning_set_wide two (sized.hasGlyph_of_wide two)
      (fun column => (operations (r, column)).trans (if_congr (and_iff_right rfl) rfl rfl))
      (wide two) toRight

/-- Copying rows, seen in one cell. Whole rows are moved, and no wide character crosses the end
of a row. -/
theorem meaning_copyRows (queued : display.Queued wc) {startRow endRow offset : Int}
    (inRange : (DisplayCall.copyRows startRow endRow offset).InRange
      display.height display.width)
    (within : Within display.height display.width place) :
    (displayCopyRows display startRow endRow offset).meaning paint screen place =
      if startRow + offset ≤ place.1 ∧ place.1 ≤ endRow + offset then
        display.meaning paint screen (place.1 - offset, place.2)
      else display.meaning paint screen place := by
  have operations := copyRows_operations inRange
  have queuedAfter : (displayCopyRows display startRow endRow offset).Queued wc :=
    queued.call inRange trivial
  generalize displayCopyRows display startRow endRow offset = after at operations queuedAfter ⊢
  obtain ⟨-, -, fromLeft, toRight⟩ := within
  by_cases inside : startRow + offset ≤ place.1 ∧ place.1 ≤ endRow + offset
  · rw [if_pos inside]
    have moved : ∀ column, 0 ≤ column → column < display.width →
        after.operations (place.1, column)
          = (display.operations (place.1 - offset, column)).orCopy (place.1 - offset) column :=
      fun column left right =>
        (operations _).trans (if_pos ⟨inside.1, inside.2, left, right⟩)
    have here := moved place.2 fromLeft toRight
    refine meaning_congr (glyphAt_orCopy here) (ownMeaning_orCopy here) fun _ => ?_
    by_cases first : place.2 = 0
    · have uncovered : display.wideBefore (place.1 - offset, place.2) = none :=
        queued.wideBefore_zero first
      rw [queuedAfter.wideBefore_zero first, uncovered]
    · exact wideBefore_orCopy (moved (place.2 - 1) (by omega) (by omega))
  · rw [if_neg inside]
    have same : ∀ column, after.operations (place.1, column)
        = display.operations (place.1, column) :=
      fun column => (operations _).trans (if_neg fun hit => inside ⟨hit.1, hit.2.1⟩)
    exact meaning_congr (glyphAt_congr (same place.2)) (ownMeaning_congr (same place.2))
      fun _ => wideBefore_congr (same (place.2 - 1))

/-- Copying columns, seen in one cell. -/
theorem meaning_copyColumns {row startColumn endColumn offset : Int}
    (inRange : (DisplayCall.copyColumns row startColumn endColumn offset).InRange
      display.height display.width)
    (keepsWhole : display.KeepsWhole wc (.copyColumns row startColumn endColumn offset))
    (within : Within display.height display.width place) :
    (displayCopyColumns display row startColumn endColumn offset).meaning paint screen place =
      if place.1 = row ∧ startColumn + offset ≤ place.2 ∧ place.2 ≤ endColumn + offset then
        display.meaning paint screen (row, place.2 - offset)
      else display.meaning paint screen place := by
  have operations := copyColumns_operations inRange
  generalize displayCopyColumns display row startColumn endColumn offset = after at operations ⊢
  obtain ⟨r, c⟩ := place
  obtain ⟨-, -, -, toRight⟩ := within
  dsimp only at toRight ⊢
  have unchanged : ∀ column,
      ¬ (r = row ∧ startColumn + offset ≤ column ∧ column ≤ endColumn + offset) →
        after.operations (r, column) = display.operations (r, column) :=
    fun column outside => (operations _).trans (if_neg outside)
  have moved : ∀ column, startColumn + offset ≤ column → column ≤ endColumn + offset →
      after.operations (row, column)
        = (display.operations (row, column - offset)).orCopy row (column - offset) :=
    fun column left right => (operations _).trans (if_pos ⟨rfl, left, right⟩)
  by_cases still : offset = 0
  -- Without an offset operations become copies of cells onto themselves at most.
  · subst still
    have asBefore : ∀ column, after.operations (r, column) = display.operations (r, column)
        ∨ after.operations (r, column) = (display.operations (r, column)).orCopy r column := by
      intro column
      by_cases inside : r = row ∧ startColumn + 0 ≤ column ∧ column ≤ endColumn + 0
      · obtain ⟨rfl, left, right⟩ := inside
        have here := moved column left right
        rw [sub_zero] at here
        exact Or.inr here
      · exact Or.inl (unchanged column inside)
    have settled : after.meaning paint screen (r, c) = display.meaning paint screen (r, c) := by
      refine meaning_congr ?_ ?_ fun _ => ?_
      · rcases asBefore c with same | copied
        · exact glyphAt_congr same
        · exact glyphAt_orCopy copied
      · rcases asBefore c with same | copied
        · exact ownMeaning_congr same
        · exact ownMeaning_orCopy copied
      · rcases asBefore (c - 1) with same | copied
        · exact wideBefore_congr same
        · exact wideBefore_orCopy copied
    split
    · next inside =>
        rw [sub_zero, ← inside.1]
        exact settled
    · exact settled
  obtain ⟨leftEdge, rightEdge⟩ := keepsWhole.resolve_left still
  by_cases inside : r = row ∧ startColumn + offset ≤ c ∧ c ≤ endColumn + offset
  · rw [if_pos inside]
    obtain ⟨rfl, left, right⟩ := inside
    have here := moved c left right
    refine meaning_congr (glyphAt_orCopy here) (ownMeaning_orCopy here) fun empty => ?_
    by_cases first : c = startColumn + offset
    · have source : c - offset = startColumn := by omega
      rw [source] at empty ⊢
      obtain ⟨none, none'⟩ := leftEdge.resolve_left (Bool.eq_false_iff.mp empty)
      rw [none, ← none', ← first]
      exact wideBefore_congr (unchanged (c - 1) fun hit => by omega)
    · have previous := moved (c - 1) (by omega) (by omega)
      apply wideBefore_orCopy
      rw [show c - offset - 1 = c - 1 - offset by omega]
      exact previous
  · rw [if_neg inside]
    have same := unchanged c inside
    refine meaning_congr (glyphAt_congr same) (ownMeaning_congr same) fun empty => ?_
    by_cases edge : r = row ∧ c = endColumn + offset + 1
    · obtain ⟨rfl, rfl⟩ := edge
      obtain ⟨none, none'⟩ := (rightEdge toRight).resolve_left (Bool.eq_false_iff.mp empty)
      rw [none, ← none']
      obtain ⟨-, -, -, ordered, -⟩ := inRange
      have previous := moved (endColumn + offset) (by omega) (le_refl _)
      apply wideBefore_orCopy
      simp only [add_sub_cancel_right] at previous ⊢
      exact previous
    · exact wideBefore_congr (unchanged (c - 1) fun hit => edge ⟨hit.1, by omega⟩)

/-- **A call changes the described screen as if it were applied to it.** -/
theorem meaning_call (queued : display.Queued wc) {call : DisplayCall}
    (inRange : call.InRange display.height display.width)
    (keepsWhole : display.KeepsWhole wc call)
    (within : Within display.height display.width place) :
    (display.call call).meaning paint screen place =
      call.apply paint display.height display.width (display.meaning paint screen) place := by
  obtain ⟨top, bottom, fromLeft, toRight⟩ := within
  cases call with
  | setColumns row startColumn endColumn character =>
      have bounds := inRange
      obtain ⟨rowTop, rowBottom, left, ordered, right⟩ := bounds
      simp only [Display.call, DisplayCall.apply,
        fitToRange_of_mem left (by omega : startColumn ≤ display.width - 1),
        fitToRange_of_mem (by omega : 0 ≤ endColumn) (by omega : endColumn ≤ display.width - 1)]
      by_cases empty : character.width = 0
      · rw [if_neg (fun all => all.1 empty), displaySetColumns, if_pos empty]
      · rw [meaning_setColumns empty inRange keepsWhole ⟨top, bottom, fromLeft, toRight⟩]
        refine if_congr ?_ rfl rfl
        constructor
        · rintro ⟨inRow, from_, upTo⟩
          exact ⟨empty, rowTop, rowBottom, inRow, toRight, from_, upTo⟩
        · rintro ⟨-, -, -, inRow, -, from_, upTo⟩
          exact ⟨inRow, from_, upTo⟩
  | copyRows startRow endRow offset =>
      have bounds := inRange
      obtain ⟨lower, ordered, upper, movedLower, movedUpper⟩ := bounds
      simp only [Display.call, DisplayCall.apply,
        fitRange_of_mem lower ordered upper movedLower movedUpper]
      rw [meaning_copyRows queued inRange ⟨top, bottom, fromLeft, toRight⟩]
      exact if_congr ⟨fun rows => ⟨rows.1, rows.2, fromLeft, toRight⟩,
        fun all => ⟨all.1, all.2.1⟩⟩ rfl rfl
  | copyColumns row startColumn endColumn offset =>
      have bounds := inRange
      obtain ⟨rowTop, rowBottom, lower, ordered, upper, movedLower, movedUpper⟩ := bounds
      simp only [Display.call, DisplayCall.apply,
        fitRange_of_mem lower ordered upper movedLower movedUpper]
      rw [meaning_copyColumns inRange keepsWhole ⟨top, bottom, fromLeft, toRight⟩]
      exact if_congr ⟨fun inside => ⟨rowTop, rowBottom, inside⟩, fun all => all.2.2⟩ rfl rfl

/-- A call in range reads cells of the display only. -/
theorem apply_congr {height width : Int} {call : DisplayCall} (inRange : call.InRange height width)
    {left right : Screen Paint}
    (same : ∀ place, Within height width place → left place = right place)
    (within : Within height width place) :
    call.apply paint height width left place = call.apply paint height width right place := by
  obtain ⟨top, bottom, fromLeft, toRight⟩ := within
  have here := same place ⟨top, bottom, fromLeft, toRight⟩
  cases call with
  | setColumns row startColumn endColumn character =>
      simp only [DisplayCall.apply, here]
  | copyRows startRow endRow offset =>
      obtain ⟨lower, ordered, upper, movedLower, movedUpper⟩ := inRange
      simp only [DisplayCall.apply,
        fitRange_of_mem lower ordered upper movedLower movedUpper]
      split
      · next inside => exact same _ ⟨by omega, by omega, fromLeft, toRight⟩
      · exact here
  | copyColumns row startColumn endColumn offset =>
      obtain ⟨rowTop, rowBottom, lower, ordered, upper, movedLower, movedUpper⟩ := inRange
      simp only [DisplayCall.apply,
        fitRange_of_mem lower ordered upper movedLower movedUpper]
      split
      · next inside => exact same _ ⟨by omega, by omega, by omega, by omega⟩
      · exact here

end

/-- The screen obtained by applying calls one after another directly to the cells. -/
def applyAll (paint : TerminalChar → Nat → Paint) (height width : Int) (screen : Screen Paint)
    (calls : List DisplayCall) : Screen Paint :=
  exec (fun current call => call.apply paint height width current) screen calls

theorem exec_call_size (display : Display) (calls : List DisplayCall) :
    (exec Display.call display calls).height = display.height
      ∧ (exec Display.call display calls).width = display.width := by
  induction calls generalizing display with
  | nil => exact ⟨rfl, rfl⟩
  | cons call calls ih =>
      rw [exec_cons]
      refine ⟨(ih _).1.trans (call_height display call), (ih _).2.trans (call_width display call)⟩

/-- Calls in range that keep pending characters whole keep the invariant of the queue. -/
theorem queued_exec {wc : Wcwidth} {display : Display} (queued : display.Queued wc)
    {calls : List DisplayCall} (inRange : ∀ call ∈ calls, call.InRange display.height display.width)
    (whole : Guarded Display.call (Display.KeepsWhole wc) display calls) :
    (exec Display.call display calls).Queued wc := by
  induction calls generalizing display with
  | nil => exact queued
  | cons call calls ih =>
      refine ih (queued.call (inRange call List.mem_cons_self) whole.1) ?_ whole.2
      intro other member
      rw [call_height, call_width]
      exact inRange other (List.mem_cons_of_mem _ member)

/-- **The queue describes the directly updated screen**, in every run of calls that keep pending
characters whole. -/
theorem meaning_exec {wc : Wcwidth} {display : Display} (queued : display.Queued wc)
    {paint : TerminalChar → Nat → Paint} {screen direct : Screen Paint} {calls : List DisplayCall}
    (inRange : ∀ call ∈ calls, call.InRange display.height display.width)
    (whole : Guarded Display.call (Display.KeepsWhole wc) display calls)
    (start : ∀ place, Within display.height display.width place →
      display.meaning paint screen place = direct place)
    {place : Place} (within : Within display.height display.width place) :
    (exec Display.call display calls).meaning paint screen place =
      applyAll paint display.height display.width direct calls place := by
  induction calls generalizing display direct with
  | nil => exact start place within
  | cons call calls ih =>
      have first := inRange call List.mem_cons_self
      have later : ∀ other ∈ calls,
          other.InRange (display.call call).height (display.call call).width := by
        intro other member
        rw [call_height, call_width]
        exact inRange other (List.mem_cons_of_mem _ member)
      have called : ∀ other, Within (display.call call).height (display.call call).width other →
          (display.call call).meaning paint screen other
            = call.apply paint display.height display.width direct other := by
        intro other inside
        rw [call_height, call_width] at inside
        rw [meaning_call queued first whole.1 inside]
        exact apply_congr first start inside
      have next := ih (queued.call first whole.1) later whole.2 called
        (by rw [call_height, call_width]; exact within)
      rw [call_height, call_width] at next
      exact next

end GuacNebula.Terminal
