import GuacNebula.Terminal.CellMarks

/-! # Resuming a selection

A selection is resumed from the end of its range that is farther from the new position. Only the
position of that end is retained: the width that is stored with the start of the selection remains
the one of the character that the selection was started at, and the last column of a wide character
is retained in place of its first one.
-/

namespace GuacNebula.Terminal

/-! ## The calls -/

/-- The row that `guac_terminal_buffer_get_row` returns for a width of zero. -/
def Buffer.readRow (buffer : Buffer) (row : Int) : Row := (bufferGetRow buffer row 0).row row

/-- `guac_terminal_find_char`: the first column and the width of the character at a position. -/
def findChar (buffer : Buffer) (row column : Int) : Int × Int :=
  let bufferRow := buffer.readRow row
  if column < bufferRow.length then
    let startColumn : Int :=
      if column > 0 then scanStart bufferRow.characters column.toNat else column
    if (bufferRow.characters startColumn).value ≠ charContinuation then
      (startColumn, (bufferRow.characters startColumn).width)
    else (column, 1)
  else (column, 1)

/-- `guac_terminal_select_start`. -/
def selectStart (buffer : Buffer) (row column : Int) : Selection where
  textSelected := false
  selectionCommitted := false
  startRow := row
  startColumn := (findChar buffer row column).1
  startWidth := (findChar buffer row column).2
  endRow := row
  endColumn := (findChar buffer row column).1
  endWidth := (findChar buffer row column).2

/-- `guac_terminal_select_update`. -/
def selectUpdate (buffer : Buffer) (selection : Selection) (row column : Int) : Selection :=
  if row ≠ selection.endRow ∨ column < selection.endColumn
      ∨ column ≥ selection.endColumn + selection.endWidth then
    { selection with
      endRow := row
      endColumn := (findChar buffer row column).1
      endWidth := (findChar buffer row column).2
      textSelected := true }
  else selection

/-- Whether a position is behind the first cell of a selection. -/
def Selection.FirstBefore (selection : Selection) (row column : Int) : Prop :=
  row > selection.normalizedRange.1.1
    ∨ (row = selection.normalizedRange.1.1 ∧ column > selection.normalizedRange.1.2)

instance (selection : Selection) (row column : Int) : Decidable (selection.FirstBefore row column) :=
  inferInstanceAs (Decidable (_ ∨ _))

/-- The end of the range that `guac_terminal_select_resume` retains. -/
def Selection.anchor (selection : Selection) (row column : Int) : Int × Int :=
  if selection.FirstBefore row column then selection.normalizedRange.1
  else selection.normalizedRange.2

/-- `guac_terminal_select_resume`. -/
def selectResume (buffer : Buffer) (selection : Selection) (row column : Int) : Selection :=
  if !selection.textSelected then selection
  else
    selectUpdate buffer
      { selection with
        startRow := (selection.anchor row column).1
        startColumn := (selection.anchor row column).2
        selectionCommitted := false }
      row column

/-- The calls of `guac_terminal_select_update` while the mouse is dragged over positions. -/
def selectDrag (buffer : Buffer) (selection : Selection) (positions : List (Int × Int)) :
    Selection :=
  positions.foldl (fun selection position => selectUpdate buffer selection position.1 position.2)
    selection

/-! ## Ranges -/

/-- A position is not behind another one. -/
def Precedes (first second : Int × Int) : Prop :=
  first.1 < second.1 ∨ (first.1 = second.1 ∧ first.2 ≤ second.2)

instance (first second : Int × Int) : Decidable (Precedes first second) :=
  inferInstanceAs (Decidable (_ ∨ _))

namespace Precedes

variable {first second : Int × Int}

theorem refl (position : Int × Int) : Precedes position position := .inr ⟨rfl, le_rfl⟩

theorem total (first second : Int × Int) : Precedes first second ∨ Precedes second first := by
  unfold Precedes
  omega

theorem antisymm (forward : Precedes first second) (backward : Precedes second first) :
    first = second := by
  unfold Precedes at forward backward
  exact Prod.ext (by omega) (by omega)

end Precedes

/-- The columns that a character takes in a row. -/
structure Span where
  row : Int
  column : Int
  width : Int
  deriving DecidableEq, Repr

namespace Span

variable (span : Span)

/-- The first cell of a character. -/
def first : Int × Int := (span.row, span.column)

/-- The last cell of a character. -/
def last : Int × Int := (span.row, span.column + span.width - 1)

end Span

/-- The character at a position. -/
def spanAt (buffer : Buffer) (position : Int × Int) : Span where
  row := position.1
  column := (findChar buffer position.1 position.2).1
  width := (findChar buffer position.1 position.2).2

/-- A range contains a whole character. -/
def RangeContains (range : (Int × Int) × (Int × Int)) (span : Span) : Prop :=
  Precedes range.1 span.first ∧ Precedes span.last range.2

/-- A range is the smallest one that contains two characters. -/
structure IsSmallestRange (range : (Int × Int) × (Int × Int)) (one other : Span) : Prop where
  containsOne : RangeContains range one
  containsOther : RangeContains range other
  smallest : ∀ larger, RangeContains larger one → RangeContains larger other →
    Precedes larger.1 range.1 ∧ Precedes range.2 larger.2

/-- The smallest range runs from the earlier of the first cells to the later of the last ones. -/
theorem isSmallestRange_iff (range : (Int × Int) × (Int × Int)) (one other : Span) :
    IsSmallestRange range one other ↔
      RangeContains range one ∧ RangeContains range other
        ∧ (range.1 = one.first ∨ range.1 = other.first)
        ∧ (range.2 = one.last ∨ range.2 = other.last) := by
  constructor
  · rintro ⟨inOne, inOther, smallest⟩
    refine ⟨inOne, inOther, ?_, ?_⟩
    · rcases Precedes.total one.first other.first with order | order
      · have later := (smallest (one.first, range.2) ⟨.refl _, inOne.2⟩ ⟨order, inOther.2⟩).1
        exact .inl (inOne.1.antisymm later)
      · have later := (smallest (other.first, range.2) ⟨order, inOne.2⟩ ⟨.refl _, inOther.2⟩).1
        exact .inr (inOther.1.antisymm later)
    · rcases Precedes.total one.last other.last with order | order
      · have earlier := (smallest (range.1, other.last) ⟨inOne.1, order⟩ ⟨inOther.1, .refl _⟩).2
        exact .inr (earlier.antisymm inOther.2)
      · have earlier := (smallest (range.1, one.last) ⟨inOne.1, .refl _⟩ ⟨inOther.1, order⟩).2
        exact .inl (earlier.antisymm inOne.2)
  · rintro ⟨inOne, inOther, firstSame, lastSame⟩
    refine ⟨inOne, inOther, fun larger largerOne largerOther => ⟨?_, ?_⟩⟩
    · rcases firstSame with same | same <;> rw [same]
      · exact largerOne.1
      · exact largerOther.1
    · rcases lastSame with same | same <;> rw [same]
      · exact largerOne.2
      · exact largerOther.2

/-! ## Characters -/

/-- A character of a row is followed by its continuations, all of which the row holds. -/
def Row.Complete (row : Row) : Prop :=
  ∀ column, 0 ≤ column → column < row.length →
    (row.characters column).value ≠ charContinuation →
      1 ≤ (row.characters column).width ∧ column + (row.characters column).width ≤ row.length
        ∧ ∀ other, column < other → other < column + (row.characters column).width →
          (row.characters other).value = charContinuation

/-- The first column and the width of the character at a column: it starts there or left of it, and
continues up to it, unless there is none and the column stands for itself. -/
inductive Row.CharacterAt (row : Row) (column : Int) : Int × Int → Prop
  | character (first : Int) (nonneg : 0 ≤ first) (before : first ≤ column)
      (within : column < row.length) (solid : (row.characters first).value ≠ charContinuation)
      (continued : ∀ other, first < other → other ≤ column →
        (row.characters other).value = charContinuation) :
      CharacterAt row column (first, (row.characters first).width)
  | none
      (missing : row.length ≤ column ∨ ∀ other, 0 ≤ other → other ≤ column →
        (row.characters other).value = charContinuation) :
      CharacterAt row column (column, 1)

/-- A scan that ends at a continuation has come to the first column. -/
theorem scanStart_continuation {characters : Int → TerminalChar} {column : Nat}
    (continued : (characters (scanStart characters column : Int)).value = charContinuation) :
    scanStart characters column = 0 := by
  induction column with
  | zero => rfl
  | succ column ih =>
      rw [scanStart] at continued ⊢
      split at continued
      · rename_i skipped
        rw [if_pos skipped]
        exact ih continued
      · rename_i solid
        exact absurd continued solid

theorem findChar_at (buffer : Buffer) (row : Int) {column : Int} (nonneg : 0 ≤ column) :
    (buffer.readRow row).CharacterAt column (findChar buffer row column) := by
  have start : (if column > 0 then
      (scanStart (buffer.readRow row).characters column.toNat : Int) else column) =
      scanStart (buffer.readRow row).characters column.toNat := by
    split_ifs with positive
    · rfl
    · obtain rfl : column = 0 := by omega
      rfl
  obtain ⟨before, continued⟩ := scanStart_spec (buffer.readRow row).characters column.toNat
  unfold findChar
  dsimp only
  rw [start]
  split_ifs with within solid
  · exact .character _ (by omega) (by omega) within solid
      fun other after most => continued other after (by omega)
  · have continuation := not_not.mp solid
    have zero := scanStart_continuation continuation
    refine .none (.inr fun other least most => ?_)
    by_cases first : other = 0
    · rw [first, ← Nat.cast_zero, ← zero]
      exact continuation
    · exact continued other (by omega) (by omega)
  · exact .none (.inl (by omega))

namespace Row.CharacterAt

variable {row : Row} (complete : row.Complete) {column other : Int} {one second : Int × Int}

theorem le (found : row.CharacterAt column one) : one.1 ≤ column := by
  cases found with
  | character first nonneg before => exact before
  | none => exact le_rfl

theorem nonneg (found : row.CharacterAt column one) (columnNonneg : 0 ≤ column) : 0 ≤ one.1 := by
  cases found with
  | character first nonneg => exact nonneg
  | none => exact columnNonneg

include complete

theorem positive (found : row.CharacterAt column one) : 1 ≤ one.2 := by
  cases found with
  | character first nonneg before within solid =>
      have width := (complete first nonneg (by omega) solid).1
      change (1 : Int) ≤ ((row.characters first).width : Int)
      omega
  | none => exact le_rfl

/-- The character at a column within a character is that one. -/
theorem eq_of_within (found : row.CharacterAt column one)
    (located : row.CharacterAt other second) (least : one.1 ≤ other)
    (most : other < one.1 + one.2) : second = one := by
  cases found with
  | character first nonneg before within solid continued =>
      dsimp only at least most
      obtain ⟨-, inside, rest⟩ := complete first nonneg (by omega) solid
      cases located with
      | character start startNonneg startBefore startWithin startSolid startContinued =>
          obtain rfl : start = first := by
            by_contra apart
            rcases lt_or_gt_of_ne apart with left | right
            · exact solid (startContinued first left least)
            · exact startSolid (rest start right (by omega))
          rfl
      | none missing =>
          rcases missing with beyond | continuations
          · omega
          · exact absurd (continuations first nonneg least) solid
  | none missing =>
      dsimp only at least most
      obtain rfl : other = column := by omega
      cases located with
      | character start startNonneg startBefore startWithin startSolid =>
          rcases missing with beyond | continuations
          · omega
          · exact absurd (continuations start startNonneg startBefore) startSolid
      | none => rfl

/-- A character and a column that holds none do not overlap. -/
theorem apart_of_none {first : Int} (nonneg : 0 ≤ first) (within : first < row.length)
    (solid : (row.characters first).value ≠ charContinuation)
    (missing : row.length ≤ other ∨ ∀ inner, 0 ≤ inner → inner ≤ other →
      (row.characters inner).value = charContinuation) :
    first + (row.characters first).width ≤ other ∨ other + 1 ≤ first := by
  have inside := (complete first nonneg within solid).2.1
  rcases missing with beyond | continuations
  · exact .inl (by omega)
  · by_contra overlap
    exact solid (continuations first nonneg (by omega))

/-- Two characters are the same, or they do not overlap. -/
theorem same_or_apart (found : row.CharacterAt column one) (located : row.CharacterAt other second) :
    one = second ∨ one.1 + one.2 ≤ second.1 ∨ second.1 + second.2 ≤ one.1 := by
  cases found with
  | character first nonneg before within solid =>
      cases located with
      | character start startNonneg startBefore startWithin startSolid =>
          rcases lt_trichotomy first start with left | rfl | right
          · refine .inr (.inl ?_)
            by_contra overlap
            exact startSolid
              ((complete first nonneg (by omega) solid).2.2 start left (not_le.mp overlap))
          · exact .inl rfl
          · refine .inr (.inr ?_)
            by_contra overlap
            exact solid ((complete start startNonneg (by omega) startSolid).2.2 first right
              (not_le.mp overlap))
      | none missing => exact .inr (apart_of_none complete nonneg (by omega) solid missing)
  | none missing =>
      cases located with
      | character start startNonneg startBefore startWithin startSolid =>
          exact .inr (apart_of_none complete startNonneg (by omega) startSolid missing).symm
      | none =>
          rcases lt_trichotomy column other with left | rfl | right
          · exact .inr (.inl left)
          · exact .inl rfl
          · exact .inr (.inr right)

end Row.CharacterAt

/-! ## Ends -/

/-- The row of every character is complete. -/
def Buffer.Complete (buffer : Buffer) : Prop := ∀ row, (buffer.readRow row).Complete

/-- The character at the end of a selection. -/
def Selection.endSpan (selection : Selection) : Span where
  row := selection.endRow
  column := selection.endColumn
  width := selection.endWidth

/-- The selection with another end. -/
def Selection.withEnd (selection : Selection) (span : Span) : Selection :=
  { selection with
    endRow := span.row
    endColumn := span.column
    endWidth := span.width }

/-- The selection with another start, of which the width is not changed. -/
def Selection.withStart (selection : Selection) (position : Int × Int) : Selection :=
  { selection with
    startRow := position.1
    startColumn := position.2
    selectionCommitted := false }

section Ends

variable {buffer : Buffer} (complete : buffer.Complete)
include complete

theorem spanAt_positive {position : Int × Int} (nonneg : 0 ≤ position.2) :
    1 ≤ (spanAt buffer position).width :=
  (findChar_at buffer position.1 nonneg).positive (complete _)

/-- Two characters of a row are the same, or they do not overlap. -/
theorem spanAt_same_or_apart {one other : Int × Int} (oneNonneg : 0 ≤ one.2)
    (otherNonneg : 0 ≤ other.2) (rows : one.1 = other.1) :
    spanAt buffer one = spanAt buffer other
      ∨ (spanAt buffer one).column + (spanAt buffer one).width ≤ (spanAt buffer other).column
      ∨ (spanAt buffer other).column + (spanAt buffer other).width
        ≤ (spanAt buffer one).column := by
  have located := findChar_at buffer other.1 otherNonneg
  rw [← rows] at located
  have apart := (findChar_at buffer one.1 oneNonneg).same_or_apart (complete _) located
  unfold spanAt
  rw [← rows]
  exact apart.imp_left fun same => by rw [same]

/-- The character at a cell of a character is that one. -/
theorem spanAt_of_within {one other : Int × Int} (oneNonneg : 0 ≤ one.2) (otherNonneg : 0 ≤ other.2)
    (rows : one.1 = other.1) (least : (spanAt buffer one).column ≤ other.2)
    (most : other.2 < (spanAt buffer one).column + (spanAt buffer one).width) :
    spanAt buffer other = spanAt buffer one := by
  have located := findChar_at buffer other.1 otherNonneg
  rw [← rows] at located
  have same := (findChar_at buffer one.1 oneNonneg).eq_of_within (complete _) located least most
  unfold spanAt
  rw [← rows, same]

/-- An update leaves the end at the character of its position, also where it leaves it unchanged. -/
theorem selectUpdate_withEnd (selection : Selection) {last position : Int × Int}
    (lastNonneg : 0 ≤ last.2) (nonneg : 0 ≤ position.2)
    (selected : selection.textSelected = true) :
    selectUpdate buffer (selection.withEnd (spanAt buffer last)) position.1 position.2 =
      selection.withEnd (spanAt buffer position) := by
  unfold selectUpdate
  split_ifs with changed
  · unfold Selection.withEnd
    rw [← selected]
    rfl
  · change ¬ (position.1 ≠ last.1 ∨ position.2 < (spanAt buffer last).column
      ∨ position.2 ≥ (spanAt buffer last).column + (spanAt buffer last).width) at changed
    rw [spanAt_of_within complete lastNonneg nonneg (by omega) (by omega) (by omega)]

/-- A drag leaves the end at the character of the last position. -/
theorem selectDrag_withEnd (selection : Selection) {last : Int × Int} (lastNonneg : 0 ≤ last.2)
    {positions : List (Int × Int)} (nonneg : ∀ position ∈ positions, 0 ≤ position.2)
    (selected : selection.textSelected = true) :
    selectDrag buffer (selection.withEnd (spanAt buffer last)) positions =
      selection.withEnd (spanAt buffer (positions.getLast?.getD last)) := by
  induction positions generalizing last with
  | nil => rfl
  | cons position positions ih =>
      obtain ⟨first, later⟩ := List.forall_mem_cons.mp nonneg
      have updated := selectUpdate_withEnd complete selection lastNonneg first selected
      rw [List.getLast?_cons]
      change selectDrag buffer (selectUpdate buffer _ position.1 position.2) positions = _
      rw [updated]
      exact ih first later

end Ends

/-! ## Existing selections -/

/-- Text is selected, from the start of a character to the end of one, and the selection ends at a
character. -/
structure Selection.Existing (buffer : Buffer) (selection : Selection) : Prop where
  selected : selection.textSelected = true
  ends : ∃ position : Int × Int, 0 ≤ position.2 ∧ selection.endSpan = spanAt buffer position
  firstNonneg : 0 ≤ selection.normalizedRange.1.2
  first : (spanAt buffer selection.normalizedRange.1).first = selection.normalizedRange.1
  lastNonneg : 0 ≤ selection.normalizedRange.2.2
  last : (spanAt buffer selection.normalizedRange.2).last = selection.normalizedRange.2

theorem Selection.Existing.anchor_nonneg {buffer : Buffer} {selection : Selection}
    (existing : selection.Existing buffer) (row column : Int) :
    0 ≤ (selection.anchor row column).2 := by
  unfold Selection.anchor
  split_ifs
  · exact existing.firstNonneg
  · exact existing.lastNonneg

/-- The range of a selection that has been given a start and an end. -/
theorem normalizedRange_withStart (selection : Selection) (start : Int × Int) (span : Span) :
    ((selection.withStart start).withEnd span).normalizedRange =
      if Precedes span.first start then
        (span.first, (start.1, start.2 + selection.startWidth - 1))
      else (start, span.last) := by
  have ordered : (start.1 < span.row ∨ (start.1 = span.row ∧ start.2 < span.column)) ↔
      ¬ Precedes span.first start := by
    change _ ↔ ¬ (span.row < start.1 ∨ (span.row = start.1 ∧ span.column ≤ start.2))
    omega
  unfold Selection.normalizedRange
  change (if start.1 < span.row ∨ (start.1 = span.row ∧ start.2 < span.column) then _ else _) = _
  simp only [ordered, ite_not]
  rfl

/-- From the first cell of a character to another character: the range is the smallest one unless
the width is used, and is not that of the character. -/
theorem smallest_from_first {start : Int × Int} {one other : Span} (width : Int)
    (first : one.first = start) (onePositive : 1 ≤ one.width) (otherPositive : 1 ≤ other.width)
    (apart : one.row = other.row → one = other ∨ one.column + one.width ≤ other.column
      ∨ other.column + other.width ≤ one.column) :
    IsSmallestRange
        (if Precedes other.first start then (other.first, (start.1, start.2 + width - 1))
          else (start, other.last)) one other ↔
      (Precedes other.first start → width = one.width) := by
  subst first
  obtain ⟨oneRow, oneColumn, oneWidth⟩ := one
  obtain ⟨otherRow, otherColumn, otherWidth⟩ := other
  rw [isSmallestRange_iff]
  simp only [Span.mk.injEq] at apart
  dsimp only at onePositive otherPositive
  split_ifs with order <;>
    simp only [RangeContains, Precedes, Span.first, Span.last, Prod.mk.injEq, true_and, or_true,
      true_or, and_true] at order ⊢ <;>
    omega

/-- From the last cell of a character to another one. -/
theorem smallest_from_last {start : Int × Int} {one other : Span} (width : Int)
    (last : one.last = start) (onePositive : 1 ≤ one.width) (otherPositive : 1 ≤ other.width)
    (apart : one.row = other.row → one = other ∨ one.column + one.width ≤ other.column
      ∨ other.column + other.width ≤ one.column) :
    IsSmallestRange
        (if Precedes other.first start then (other.first, (start.1, start.2 + width - 1))
          else (start, other.last)) one other ↔
      (if Precedes other.first start then width = 1 else one.width = 1) := by
  subst last
  obtain ⟨oneRow, oneColumn, oneWidth⟩ := one
  obtain ⟨otherRow, otherColumn, otherWidth⟩ := other
  rw [isSmallestRange_iff]
  simp only [Span.mk.injEq] at apart
  dsimp only at onePositive otherPositive
  split_ifs with order <;>
    simp only [RangeContains, Precedes, Span.first, Span.last, Prod.mk.injEq, true_and, or_true,
      and_true] at order ⊢ <;>
    omega

/-- The width that is stored with the start of a selection is that of what is retained of it. If the
position is behind the first cell, that is a character, whose width is used unless the selection is
dragged behind it; otherwise it is the last column of a character. -/
def Selection.ResumesWhole (buffer : Buffer) (selection : Selection)
    (position final : Int × Int) : Prop :=
  if selection.FirstBefore position.1 position.2 then
    Precedes (spanAt buffer final).first selection.normalizedRange.1 →
      selection.startWidth = (spanAt buffer selection.normalizedRange.1).width
  else if Precedes (spanAt buffer final).first selection.normalizedRange.2 then
    selection.startWidth = 1
  else (spanAt buffer selection.normalizedRange.2).width = 1

instance (buffer : Buffer) (selection : Selection) (position final : Int × Int) :
    Decidable (selection.ResumesWhole buffer position final) :=
  inferInstanceAs (Decidable (if selection.FirstBefore position.1 position.2 then
      (Precedes (spanAt buffer final).first selection.normalizedRange.1 → _ = _)
    else if Precedes (spanAt buffer final).first selection.normalizedRange.2 then _ = _
    else _ = _))

theorem lastPosition_nonneg {position : Int × Int} (nonneg : 0 ≤ position.2)
    {positions : List (Int × Int)} (dragged : ∀ position ∈ positions, 0 ≤ position.2) :
    0 ≤ (positions.getLast?.getD position).2 := by
  rcases last : positions.getLast? with _ | final
  · exact nonneg
  · exact dragged final (List.mem_of_getLast? last)

/-- The selection that is resumed at a position and dragged from there. -/
theorem selectDrag_resume {buffer : Buffer} (complete : buffer.Complete) {selection : Selection}
    (existing : selection.Existing buffer) {position : Int × Int} (nonneg : 0 ≤ position.2)
    {positions : List (Int × Int)} (dragged : ∀ position ∈ positions, 0 ≤ position.2) :
    selectDrag buffer (selectResume buffer selection position.1 position.2) positions =
      (selection.withStart (selection.anchor position.1 position.2)).withEnd
        (spanAt buffer (positions.getLast?.getD position)) := by
  obtain ⟨last, lastNonneg, ends⟩ := existing.ends
  have same : selection.withStart (selection.anchor position.1 position.2) =
      (selection.withStart (selection.anchor position.1 position.2)).withEnd
        (spanAt buffer last) := by
    rw [← ends]
    rfl
  have resumed : selectResume buffer selection position.1 position.2 =
      (selection.withStart (selection.anchor position.1 position.2)).withEnd
        (spanAt buffer position) := by
    rw [← selectUpdate_withEnd complete (selection.withStart _) lastNonneg nonneg
      existing.selected, ← same]
    exact if_neg (by simp [existing.selected])
  rw [resumed, selectDrag_withEnd complete (selection.withStart _) nonneg dragged
    existing.selected]

/-- **When a selection is resumed whole.** After a selection has been resumed at a position, and
dragged from there, its range is the smallest one with the whole character at the end that has been
retained and the whole character at the last position, exactly if the stored width is the one that
belongs to what is retained. -/
theorem selectResume_smallest_iff (buffer : Buffer) (complete : buffer.Complete)
    (selection : Selection) (existing : selection.Existing buffer) (position : Int × Int)
    (nonneg : 0 ≤ position.2) (positions : List (Int × Int))
    (dragged : ∀ position ∈ positions, 0 ≤ position.2) :
    let final := positions.getLast?.getD position
    IsSmallestRange
        (selectDrag buffer (selectResume buffer selection position.1 position.2)
          positions).normalizedRange
        (spanAt buffer (selection.anchor position.1 position.2)) (spanAt buffer final) ↔
      selection.ResumesWhole buffer position final := by
  intro final
  have finalNonneg : 0 ≤ final.2 := lastPosition_nonneg nonneg dragged
  have positive := spanAt_positive complete finalNonneg
  rw [selectDrag_resume complete existing nonneg dragged, normalizedRange_withStart,
    Selection.ResumesWhole, Selection.anchor]
  by_cases before : selection.FirstBefore position.1 position.2
  · rw [if_pos before, if_pos before]
    exact smallest_from_first selection.startWidth existing.first
      (spanAt_positive complete existing.firstNonneg) positive
      (spanAt_same_or_apart complete existing.firstNonneg finalNonneg)
  · rw [if_neg before, if_neg before]
    exact smallest_from_last selection.startWidth existing.last
      (spanAt_positive complete existing.lastNonneg) positive
      (spanAt_same_or_apart complete existing.lastNonneg finalNonneg)

/-! ## Selections that calls lead to -/

section Calls

variable {buffer : Buffer} (complete : buffer.Complete)

/-- The selection, whether or not text was selected before. -/
def Selection.select (selection : Selection) : Selection := { selection with textSelected := true }

theorem selectDrag_select (selection : Selection) (positions : List (Int × Int)) :
    (selectDrag buffer selection positions).select
      = selectDrag buffer selection.select positions := by
  induction positions generalizing selection with
  | nil => rfl
  | cons position positions ih =>
      have updated : (selectUpdate buffer selection position.1 position.2).select =
          selectUpdate buffer selection.select position.1 position.2 := by
        unfold selectUpdate
        change _ = if position.1 ≠ selection.endRow ∨ position.2 < selection.endColumn
          ∨ position.2 ≥ selection.endColumn + selection.endWidth then _ else _
        split_ifs <;> rfl
      change (selectDrag buffer (selectUpdate buffer selection position.1 position.2)
        positions).select = _
      rw [ih, updated]
      rfl

include complete

theorem spanAt_first {position : Int × Int} (nonneg : 0 ≤ position.2) :
    0 ≤ (spanAt buffer position).first.2
      ∧ spanAt buffer (spanAt buffer position).first = spanAt buffer position := by
  have positive := spanAt_positive complete nonneg
  have least : 0 ≤ (spanAt buffer position).column :=
    (findChar_at buffer position.1 nonneg).nonneg nonneg
  exact ⟨least, spanAt_of_within complete nonneg least rfl le_rfl
    (show (spanAt buffer position).column < _ by omega)⟩

theorem spanAt_last {position : Int × Int} (nonneg : 0 ≤ position.2) :
    0 ≤ (spanAt buffer position).last.2
      ∧ spanAt buffer (spanAt buffer position).last = spanAt buffer position := by
  have positive := spanAt_positive complete nonneg
  have least : 0 ≤ (spanAt buffer position).column :=
    (findChar_at buffer position.1 nonneg).nonneg nonneg
  have last : (spanAt buffer position).last.2 =
    (spanAt buffer position).column + (spanAt buffer position).width - 1 := rfl
  exact ⟨by omega, spanAt_of_within complete nonneg (by omega) rfl (by omega) (by omega)⟩

/-- A selection is one of whole characters if its range is the smallest one with two of them. -/
theorem existing_of_smallest {selection : Selection} (selected : selection.textSelected = true)
    {last one other : Int × Int} (lastNonneg : 0 ≤ last.2) (oneNonneg : 0 ≤ one.2)
    (otherNonneg : 0 ≤ other.2) (ends : selection.endSpan = spanAt buffer last)
    (smallest : IsSmallestRange selection.normalizedRange (spanAt buffer one)
      (spanAt buffer other)) : selection.Existing buffer := by
  obtain ⟨-, -, first, final⟩ := (isSmallestRange_iff _ _ _).mp smallest
  have firstCell : 0 ≤ selection.normalizedRange.1.2
      ∧ (spanAt buffer selection.normalizedRange.1).first = selection.normalizedRange.1 := by
    rcases first with same | same <;> rw [same]
    · exact ⟨(spanAt_first complete oneNonneg).1, by rw [(spanAt_first complete oneNonneg).2]⟩
    · exact ⟨(spanAt_first complete otherNonneg).1, by rw [(spanAt_first complete otherNonneg).2]⟩
  have lastCell : 0 ≤ selection.normalizedRange.2.2
      ∧ (spanAt buffer selection.normalizedRange.2).last = selection.normalizedRange.2 := by
    rcases final with same | same <;> rw [same]
    · exact ⟨(spanAt_last complete oneNonneg).1, by rw [(spanAt_last complete oneNonneg).2]⟩
    · exact ⟨(spanAt_last complete otherNonneg).1, by rw [(spanAt_last complete otherNonneg).2]⟩
  exact
    { selected := selected
      ends := ⟨last, lastNonneg, ends⟩
      firstNonneg := firstCell.1
      first := firstCell.2
      lastNonneg := lastCell.1
      last := lastCell.2 }

end Calls

/-- The selections that are started and dragged, and then resumed and dragged any number of times,
as long as each is resumed whole. -/
inductive Selection.Reached (buffer : Buffer) : Selection → Prop
  | started (position : Int × Int) (nonneg : 0 ≤ position.2) (positions : List (Int × Int))
      (dragged : ∀ position ∈ positions, 0 ≤ position.2)
      (selected : (selectDrag buffer (selectStart buffer position.1 position.2)
        positions).textSelected = true) :
      Reached buffer (selectDrag buffer (selectStart buffer position.1 position.2) positions)
  | resumed {selection : Selection} (reached : Reached buffer selection) (position : Int × Int)
      (nonneg : 0 ≤ position.2) (positions : List (Int × Int))
      (dragged : ∀ position ∈ positions, 0 ≤ position.2)
      (whole : selection.ResumesWhole buffer position (positions.getLast?.getD position)) :
      Reached buffer
        (selectDrag buffer (selectResume buffer selection position.1 position.2) positions)

/-- A selection that calls lead to is one of whole characters. -/
theorem Selection.Reached.existing {buffer : Buffer} (complete : buffer.Complete)
    {selection : Selection} (reached : selection.Reached buffer) : selection.Existing buffer := by
  induction reached with
  | started position nonneg positions dragged selected =>
      have finalNonneg := lastPosition_nonneg nonneg dragged
      have ran : selectDrag buffer (selectStart buffer position.1 position.2) positions =
          ((selectStart buffer position.1 position.2).select.withStart
            (spanAt buffer position).first).withEnd
              (spanAt buffer (positions.getLast?.getD position)) := by
        have same : selectDrag buffer (selectStart buffer position.1 position.2) positions =
            (selectDrag buffer (selectStart buffer position.1 position.2) positions).select := by
          unfold Selection.select
          rw [← selected]
        rw [same, selectDrag_select]
        exact selectDrag_withEnd complete (selectStart buffer position.1 position.2).select nonneg
          dragged rfl
      have smallest := (smallest_from_first (spanAt buffer position).width rfl
        (spanAt_positive complete nonneg) (spanAt_positive complete finalNonneg)
        (spanAt_same_or_apart complete nonneg finalNonneg)).mpr fun _ => rfl
      refine existing_of_smallest complete selected finalNonneg nonneg finalNonneg
        (by rw [ran]; rfl) ?_
      rw [ran, normalizedRange_withStart]
      exact smallest
  | resumed reached position nonneg positions dragged whole existing =>
      have ran := selectDrag_resume complete existing nonneg dragged
      have smallest := (selectResume_smallest_iff buffer complete _ existing position nonneg
        positions dragged).mpr whole
      exact existing_of_smallest complete (by rw [ran]; exact existing.selected)
        (lastPosition_nonneg nonneg dragged) (existing.anchor_nonneg position.1 position.2)
        (lastPosition_nonneg nonneg dragged) (by rw [ran]; rfl) smallest

/-! ## Samples -/

/-- A row in which characters of two columns stand at the columns 0 and 4, among others of one. -/
def wideRow : Row where
  characters column :=
    if column = 0 ∨ column = 4 then { value := 0x4E2D, attributes := default, width := 2 }
    else if column = 1 ∨ column = 5 then
      { value := charContinuation, attributes := default, width := 0 }
    else { value := 0x61, attributes := default, width := 1 }
  length := 8
  available := 256

/-- A buffer of such rows. -/
def wideBuffer : Buffer where
  defaultCharacter := { value := 0, attributes := default, width := 1 }
  rows _ := wideRow
  top := 0
  length := 1
  available := 100
  accesses := []

theorem wideBuffer_complete : wideBuffer.Complete := by
  intro row
  have read : wideBuffer.readRow row = wideRow := by
    unfold Buffer.readRow bufferGetRow Buffer.setRow Buffer.row Buffer.index
    exact Function.update_self ..
  rw [read]
  intro column nonneg within solid
  have places : column = 0 ∨ column = 4 ∨ (column ≠ 0 ∧ column ≠ 4) := by omega
  rcases places with rfl | rfl | ⟨notFirst, notSecond⟩
  · refine ⟨by decide, by decide, fun other after before => ?_⟩
    obtain rfl : other = 1 := by
      change other < 0 + 2 at before
      omega
    rfl
  · refine ⟨by decide, by decide, fun other after before => ?_⟩
    obtain rfl : other = 5 := by
      change other < 4 + 2 at before
      omega
    rfl
  · have narrow : (wideRow.characters column).width = 1 := by
      by_cases continuation : column = 1 ∨ column = 5
      · rcases continuation with rfl | rfl <;> exact absurd rfl solid
      · unfold wideRow
        dsimp only
        rw [if_neg (by omega), if_neg continuation]
    rw [narrow]
    change column < 8 at within
    exact ⟨le_rfl, (by change column + 1 ≤ 8; omega), fun other after before => by omega⟩

/-- A selection is resumed at the second column of a character, which its range then contains. -/
theorem selectResume_smallest_wide :
    let selection := selectDrag wideBuffer (selectStart wideBuffer 0 2) [(0, 3)]
    selection.Existing wideBuffer
      ∧ IsSmallestRange (selectResume wideBuffer selection 0 5).normalizedRange
        (spanAt wideBuffer (0, 2)) (spanAt wideBuffer (0, 5)) := by
  intro selection
  have existing : selection.Existing wideBuffer :=
    (Selection.Reached.started (0, 2) (by decide) [(0, 3)] (by simp) (by decide)).existing
      wideBuffer_complete
  exact ⟨existing, (selectResume_smallest_iff wideBuffer wideBuffer_complete selection existing
    (0, 5) (by decide) [] (by simp)).mpr (by decide)⟩

/-- A selection that was started at a character of two columns is resumed on its other side, where
the range goes beyond that character by a column. -/
theorem resumed_wide_start_is_too_long :
    let selection := selectDrag wideBuffer (selectStart wideBuffer 0 4) [(0, 2)]
    selection.Existing wideBuffer ∧ wideBuffer.Complete
      ∧ (selectResume wideBuffer selection 0 0).normalizedRange = ((0, 0), (0, 6))
      ∧ ¬ IsSmallestRange (selectResume wideBuffer selection 0 0).normalizedRange
        (spanAt wideBuffer (selection.anchor 0 0)) (spanAt wideBuffer (0, 0)) := by
  intro selection
  have existing : selection.Existing wideBuffer :=
    (Selection.Reached.started (0, 4) (by decide) [(0, 2)] (by simp) (by decide)).existing
      wideBuffer_complete
  have range : (selectResume wideBuffer selection 0 0).normalizedRange = ((0, 0), (0, 6)) := by
    decide
  refine ⟨existing, wideBuffer_complete, range, fun smallest => ?_⟩
  obtain ⟨-, -, -, last⟩ := (isSmallestRange_iff _ _ _).mp smallest
  exact absurd last (by decide)

end GuacNebula.Terminal
