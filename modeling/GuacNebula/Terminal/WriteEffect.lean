import GuacNebula.Terminal.Breaks

/-! # The effect of writing a character

`guac_terminal_set_columns` writes a character to every place of a range, writes the one under the
visible cursor once more, and forces breaks around the range. Only what is left of characters at
the two edges should change beyond the range.

The character under the cursor is written to the column of the cursor, and not to the column in
which it starts.
-/

namespace GuacNebula.Terminal

/-- What is to stand in a column of the range: the character or its continuation, marked if the
visible cursor is on the character. -/
def Grid.written (grid : Grid) (row start : Int) (character : TerminalChar) (column : Int) :
    TerminalChar :=
  let part := (column - start) % character.width
  let character :=
    if row = grid.visibleCursorRow ∧ column - part = grid.visibleCursorCol then
      character.withCursor
    else character
  if part = 0 then character else character.continuation

/-- What is left of the characters that a range of columns cuts at its edges. -/
def Row.CutAround (row : Row) (start stop column : Int) : Prop :=
  LeftRemains row.characters start column
    ∨ RightRemains row.characters row.length (stop + 1) column

/-- The effect of writing a character to a range of columns. The row is compared with what it is
when it has been extended to have these columns. -/
structure WriteEffect (before : Grid) (row start stop : Int) (character : TerminalChar)
    (after : Grid) : Prop where
  length : (after.row row).length = ((before.getRow row (stop + 1)).row row).length
  written : ∀ column, start ≤ column → column ≤ stop →
    (after.row row).characters column = before.written row start character column
  cut : ∀ column, ((before.getRow row (stop + 1)).row row).CutAround start stop column →
    ((after.row row).characters column).IsBlank
  kept : ∀ column, ¬ (start ≤ column ∧ column ≤ stop) →
    ¬ ((before.getRow row (stop + 1)).row row).CutAround start stop column →
    (after.row row).characters column =
      ((before.getRow row (stop + 1)).row row).characters column
  others : ∀ other, before.buffer.index other ≠ before.buffer.index row →
    after.row other = before.row other

/-- The visible cursor is on the first column of a character that is written, if it is on any. -/
def Grid.CursorAligned (grid : Grid) (row start stop : Int) (width : Nat) : Prop :=
  grid.CursorIn row start stop → (grid.visibleCursorCol - start) % width = 0

/-- In a row of whole characters, what is left of them are their columns beyond the edges. -/
theorem Row.cutAround_iff {row : Row} {start stop column : Int} (nonneg : 0 ≤ start)
    (ordered : start ≤ stop + 1) (within : stop + 1 ≤ row.length)
    (formed : ∀ other, 0 ≤ other → other < row.length →
      Held row.characters 0 row.length other) :
    row.CutAround start stop column ↔
      column < start ∧ Across row.characters row.length start column
        ∨ stop < column ∧ Across row.characters row.length (stop + 1) column := by
  rw [← remains_iff_across nonneg (ordered.trans within) formed,
    ← remains_iff_across (nonneg.trans ordered) within formed]
  refine or_congr ⟨fun left => ⟨left.1.2, .inl left⟩, ?_⟩ ⟨fun right => ⟨right.1.1, .inr right⟩, ?_⟩
  · rintro ⟨before, left | right⟩
    · exact left
    · exact absurd right.1.1 (Int.not_le.mpr before)
  · rintro ⟨after, left | right⟩
    · exact absurd left.1.2 (Int.not_lt.mpr after)
    · exact right

/-! ## The edges of a range -/

section Range

variable {before written broken after : Int → TerminalChar} {length start stop column : Int}

/-- The first column of a range that consists of whole characters has one that lies in it. -/
theorem Held.first (held : Held written start (stop + 1) start) :
    ¬ Continued written start ∧ start + (written start).width ≤ stop + 1 := by
  have begins := held.start_eq le_rfl le_rfl
    (fun other after before => absurd after (Int.not_lt.mpr before)) (.inl rfl)
  exact ⟨begins.1, begins.2.2⟩

variable (same : ∀ column, ¬ (start ≤ column ∧ column ≤ stop) → written column = before column)
  (tiled : ∀ column, start ≤ column → column ≤ stop → Held written start (stop + 1) column)

include same in
/-- What is left beyond the range at its first edge is left at its second one. -/
theorem RightRemains.beyond (ordered : start ≤ stop + 1) (further : stop < column)
    (remains : RightRemains written length start column) :
    RightRemains before length (stop + 1) column := by
  have outside (other : Int) (after : stop + 1 ≤ other) : written other = before other :=
    same other (by omega)
  rcases Int.lt_or_eq_of_le ordered with inside | empty
  · obtain ⟨bounds, reaches, _⟩ := remains
    refine ⟨⟨further, bounds.2⟩, fun other after before => ?_, ?_⟩
    · rw [Continued, ← outside other after.le]
      exact reaches other (by omega) before
    · rintro ⟨other, after, before, _, solid, _⟩
      refine solid ?_
      rw [Continued, ← outside other after]
      exact reaches other (by omega) before
  · rw [← empty]
    exact remains.congr fun other after _ => (outside other (by omega)).symm

include same tiled in
/-- A range that consists of whole characters is not touched when breaks are forced around it, and
what they blank is what it cuts. -/
theorem blanked_around (ordered : start ≤ stop + 1) (nonneg : 0 ≤ start)
    (within : stop + 1 ≤ length) (left : Blanked written (Remains written length start) broken)
    (right : Blanked broken (Remains broken length (stop + 1)) after) :
    Blanked written
      (fun column => LeftRemains before start column ∨ RightRemains before length (stop + 1) column)
      after := by
  have outside (other : Int) (after : stop + 1 ≤ other) : written other = before other :=
    same other (by omega)
  have spared (other : Int) (held : Held written start (stop + 1) other) :
      ¬ Remains written length start other := by
    rintro (remains | remains)
    · obtain ⟨first, low, high, _⟩ := held
      have := remains.1.2
      omega
    · exact remains.2.2 (held.mono le_rfl within)
  -- The columns left of the second edge are in order since those of the range are.
  have done (column : Int) : ¬ LeftRemains broken (stop + 1) column := by
    rcases Int.lt_or_eq_of_le ordered with inside | empty
    · rintro ⟨bounds, reaches, loose⟩
      rcases Int.lt_or_le column start with lower | upper
      · have head := (tiled start le_rfl (by omega)).first
        exact head.1 (left.continued (reaches start lower inside)).2
      · have held := left.held spared (tiled column upper (by omega))
        exact loose (held.mono nonneg le_rfl)
    · rw [← empty]
      exact left.left_done
  constructor
  · rintro column (cut | cut)
    · have remains : LeftRemains written start column :=
        cut.congr fun other _ low => same other (by omega)
      exact right.isBlank (left.blank column (.inl remains))
    · by_cases gone : RightRemains written length start column
      · exact right.isBlank (left.blank column (.inr gone))
      · have inside : start < stop + 1 := by
          refine lt_of_le_of_ne ordered fun empty => gone ?_
          rw [empty]
          exact cut.congr fun other low _ => outside other low
        have head := (tiled start le_rfl (by omega)).first
        -- Whatever the first break blanked up to here, it would have blanked this column as well.
        have kept (other : Int) (low : stop + 1 ≤ other) (high : other ≤ column) :
            broken other = written other := by
          refine left.kept other ?_
          rintro (remains | remains)
          · have := remains.1.2
            omega
          · have reaches (between : Int) (low : start < between) (high : between ≤ column) :
                Continued written between := by
              rcases Int.lt_or_le other between with later | earlier
              · rw [Continued, outside between (by omega)]
                exact cut.2.1 between (by omega) high
              · exact remains.2.1 between low earlier
            refine gone ⟨⟨by omega, cut.1.2⟩, reaches, fun held => ?_⟩
            have covers := held.start_eq le_rfl (by omega) reaches (.inl rfl)
            omega
        refine right.blank column (.inr ⟨cut.1, fun other low high => ?_, fun held => cut.2.2 ?_⟩)
        · rw [Continued, kept other low.le high, outside other low.le]
          exact cut.2.1 other low high
        · obtain ⟨first, low, high, covers, solid, ends, inner⟩ := held
          have here : broken first = before first :=
            (kept first low high).trans (outside first low)
          rw [Continued, here] at solid
          rw [here] at covers ends inner
          refine ⟨first, low, high, covers, solid, ends, fun other after within => ?_⟩
          rw [Continued, ← outside other (by omega)]
          exact (left.continued (inner other after within)).2
  · intro column spare
    rw [right.kept column ?_, left.kept column ?_]
    · rintro (remains | remains)
      · exact spare (.inl (remains.congr fun other _ low => (same other (by omega)).symm))
      · rcases Int.lt_or_le stop column with further | inside
        · exact spare (.inr (remains.beyond same ordered further))
        · exact spared column (tiled column remains.1.1 inside) (.inr remains)
    · rintro (remains | remains)
      · exact done column remains
      · refine spare (.inr ⟨remains.1, fun other low high => ?_, fun held => remains.2.2 ?_⟩)
        · rw [Continued, ← outside other low.le]
          exact (left.continued (remains.2.1 other low high)).2
        · have stays : Held written (stop + 1) length column :=
            held.congr fun other low _ => outside other low
          refine left.held (fun other held => ?_) stays
          have further : stop < other := by
            obtain ⟨first, low, high, _⟩ := held
            omega
          rintro (early | late)
          · have := early.1.2
            omega
          · refine (late.beyond same ordered further).2.2 (held.congr fun between low _ => ?_)
            exact (outside between low).symm

end Range

/-! ## The range -/

section Write

variable {grid : Grid} {row start stop : Int} {character : TerminalChar}

/-- The part of a character that stands in a column, and the column in which the character
starts. -/
theorem part_bounds (character : TerminalChar) (positive : 1 ≤ character.width)
    (start column : Int) :
    0 ≤ (column - start) % character.width
      ∧ (column - start) % character.width < (character.width : Int) := by
  have size : (0 : Int) < character.width := by omega
  exact ⟨Int.emod_nonneg _ size.ne', Int.emod_lt_of_pos _ size⟩

theorem part_le (width : Nat) {start column : Int} (after : start ≤ column) :
    start ≤ column - (column - start) % width := by
  have split := Int.emod_add_mul_ediv (column - start) width
  have nonneg : 0 ≤ (width : Int) * ((column - start) / width) :=
    Int.mul_nonneg (Int.natCast_nonneg width)
      (Int.ediv_nonneg (by omega) (Int.natCast_nonneg width))
  omega

/-- Where a range ends with a whole character, so does every character written to it. -/
theorem ends_within {width : Nat} {start stop column : Int} (positive : 1 ≤ width)
    (whole : (width : Int) ∣ stop - start + 1) (inside : column ≤ stop) :
    column - (column - start) % width + width ≤ stop + 1 := by
  have size : (0 : Int) < width := by omega
  obtain ⟨count, counted⟩ := whole
  have split := Int.emod_add_mul_ediv (column - start) width
  have below : (column - start) / width < count := by
    refine Int.ediv_lt_of_lt_mul size ?_
    rw [Int.mul_comm]
    omega
  have scaled : (width : Int) * ((column - start) / width + 1) ≤ width * count :=
    Int.mul_le_mul_of_nonneg_left (by omega) size.le
  rw [Int.mul_add, Int.mul_one] at scaled
  omega

/-- A range of whole characters is written as far as it goes. -/
theorem Row.set_whole (row : Row) (positive : 1 ≤ character.width)
    (whole : (character.width : Int) ∣ stop - start + 1) (column : Int) :
    (row.set start stop character).characters column =
      if start ≤ column ∧ column ≤ stop then
        if (column - start) % character.width = 0 then character else character.continuation
      else row.characters column := by
  have part := part_bounds character positive start column
  have reach : start ≤ column ∧ column - (column - start) % character.width ≤ stop ↔
      start ≤ column ∧ column ≤ stop := by
    refine and_congr_right fun after => ⟨fun begins => ?_, fun inside => by omega⟩
    have first : (column - (column - start) % character.width - start) % character.width = 0 := by
      rw [sub_right_comm]
      exact Int.emod_eq_zero_of_dvd (Int.dvd_self_sub_emod ..)
    have ends := ends_within positive whole begins
    rw [first] at ends
    omega
  unfold Row.set
  dsimp only
  simp only [reach]

/-- Where a single character is written it takes its own columns. -/
theorem Row.set_single (row : Row) (positive : 1 ≤ character.width) (place column : Int) :
    (row.set place place character).characters column =
      if place ≤ column ∧ column < place + character.width then
        if column = place then character else character.continuation
      else row.characters column := by
  have part := part_bounds character positive place column
  have reach : place ≤ column ∧ column - (column - place) % character.width ≤ place ↔
      place ≤ column ∧ column < place + character.width := by
    refine and_congr_right fun after => ⟨fun begins => by omega, fun inside => ?_⟩
    rw [Int.emod_eq_of_lt (by omega) (by omega)]
    omega
  unfold Row.set
  dsimp only
  simp only [reach]
  split
  case isFalse => rfl
  case isTrue inside =>
    rw [Int.emod_eq_of_lt (by omega) (by omega)]
    exact if_congr Int.sub_eq_zero rfl rfl

/-- The column in which a character of the range starts is a number of characters away from any
other such column. -/
theorem part_of_aligned {width : Nat} {start place column : Int}
    (aligned : (place - start) % width = 0) (after : place ≤ column)
    (before : column < place + width) : (column - start) % width = column - place := by
  obtain ⟨count, counted⟩ := Int.dvd_of_emod_eq_zero aligned
  have moved : column - start = column - place + width * count := by omega
  rw [moved, Int.add_mul_emod_self_left]
  exact Int.emod_eq_of_lt (by omega) (by omega)

/-- The row after the first part of the function, while the cursor is on the first column of a
character. -/
theorem setColumnsCursor_rewritten (positive : 1 ≤ character.width)
    (whole : (character.width : Int) ∣ stop - start + 1)
    (aligned : grid.CursorAligned row start stop character.width) :
    ∃ characters,
      (∀ column, start ≤ column → column ≤ stop →
        characters column = grid.written row start character column)
      ∧ (∀ column, ¬ (start ≤ column ∧ column ≤ stop) →
        characters column = ((grid.getRow row (stop + 1)).row row).characters column)
      ∧ grid.Rewritten row characters ((grid.getRow row (stop + 1)).row row).length
          (setColumnsCursor grid row start stop character) := by
  refine ⟨fun column =>
      if start ≤ column ∧ column ≤ stop then grid.written row start character column
      else ((grid.getRow row (stop + 1)).row row).characters column,
    fun column after before => if_pos ⟨after, before⟩, fun column outside => if_neg outside, ?_⟩
  have grown : (grid.getRow row (stop + 1)).row row
      = (grid.row row).grow grid.buffer.defaultCharacter (stop + 1) := Buffer.setRow_row ..
  have long := grid.getRow_length row (stop + 1)
  have raw := Grid.Rewritten.setColumnsRaw grid row start stop (Nat.ne_of_gt positive)
  rw [← grown, ← long] at raw
  unfold setColumnsCursor
  dsimp only
  split
  case isFalse away =>
    refine raw.congr (funext fun column => ?_) rfl
    rw [Row.set_whole _ positive whole]
    split
    case isFalse => rfl
    case isTrue inside =>
      have part := part_bounds character positive start column
      have elsewhere : ¬ (row = grid.visibleCursorRow
          ∧ column - (column - start) % character.width = grid.visibleCursorCol) := by
        rintro ⟨here, there⟩
        have first := part_le character.width inside.1
        exact away ⟨here, by change grid.visibleCursorCol ≥ start; omega,
          by change grid.visibleCursorCol ≤ stop; omega⟩
      simp only [Grid.written, if_neg elsewhere]
  case isTrue shown =>
    have first := aligned shown
    obtain ⟨here, after, before⟩ := shown
    change grid.visibleCursorCol ≥ start at after
    change grid.visibleCursorCol ≤ stop at before
    have ends := ends_within positive whole before
    rw [first, Int.sub_zero] at ends
    change grid.Rewritten row _ _ (setColumnsRaw (setColumnsRaw grid row start stop character) row
      grid.visibleCursorCol grid.visibleCursorCol character.withCursor)
    have single : 1 ≤ character.withCursor.width := positive
    have again := raw.trans (.setColumnsRaw (setColumnsRaw grid row start stop character) row
      grid.visibleCursorCol grid.visibleCursorCol (Nat.ne_of_gt single))
    have room : grid.visibleCursorCol + 1
        ≤ ((setColumnsRaw grid row start stop character).row row).length := by
      rw [raw.length, long]
      omega
    refine again.congr (funext fun column => ?_) ?_
    · rw [Row.set_single _ single, Row.grow_characters _ room, raw.characters,
        Row.set_whole _ positive whole]
      have part := part_bounds character positive start column
      by_cases under : grid.visibleCursorCol ≤ column
          ∧ column < grid.visibleCursorCol + character.withCursor.width
      · have place : (column - start) % character.width = column - grid.visibleCursorCol :=
          part_of_aligned first under.1 under.2
        have inside : start ≤ column ∧ column ≤ stop := by
          have width : character.withCursor.width = character.width := rfl
          omega
        rw [if_pos under, if_pos inside]
        unfold Grid.written
        dsimp only
        have there : row = grid.visibleCursorRow
            ∧ column - (column - grid.visibleCursorCol) = grid.visibleCursorCol :=
          ⟨here, by omega⟩
        rw [place, if_pos there]
        exact if_congr Int.sub_eq_zero.symm rfl rfl
      · rw [if_neg under]
        refine if_congr Iff.rfl ?_ rfl
        have apart : ¬ (row = grid.visibleCursorRow
            ∧ column - (column - start) % character.width = grid.visibleCursorCol) := by
          rintro ⟨_, there⟩
          refine under ⟨by omega, ?_⟩
          change column < grid.visibleCursorCol + character.width
          omega
        simp only [Grid.written, if_neg apart]
    · rw [max_eq_left room, raw.length]

/-- If the cursor is on another column, a character starts there afterwards. -/
theorem setColumnsCursor_astray (positive : 1 ≤ character.width)
    (shown : grid.CursorIn row start stop) :
    ∃ characters, (characters grid.visibleCursorCol).value = character.value
      ∧ grid.Rewritten row characters ((grid.getRow row (stop + 1)).row row).length
          (setColumnsCursor grid row start stop character) := by
  have long := grid.getRow_length row (stop + 1)
  have raw := Grid.Rewritten.setColumnsRaw grid row start stop (Nat.ne_of_gt positive)
  rw [← long] at raw
  have single : 1 ≤ character.withCursor.width := positive
  have again := raw.trans (.setColumnsRaw (setColumnsRaw grid row start stop character) row
    grid.visibleCursorCol grid.visibleCursorCol (Nat.ne_of_gt single))
  obtain ⟨here, after, before⟩ := shown
  have inside : grid.visibleCursorCol ≤ grid.visibleCursorCol
      ∧ grid.visibleCursorCol < grid.visibleCursorCol + character.withCursor.width := by
    omega
  have cursor : setColumnsCursor grid row start stop character
      = setColumnsRaw (setColumnsRaw grid row start stop character) row grid.visibleCursorCol
          grid.visibleCursorCol character.withCursor :=
    if_pos ⟨here, after, before⟩
  rw [cursor]
  refine ⟨_, ?_, again.congr rfl ?_⟩
  · rw [Row.set_single _ single, if_pos inside, if_pos rfl]
    rfl
  · rw [raw.length, max_eq_left (by omega)]

/-- The range consists of whole characters once it has been written. -/
theorem written_held (positive : 1 ≤ character.width) (solid : character.value ≠ charContinuation)
    (whole : (character.width : Int) ∣ stop - start + 1) {characters : Int → TerminalChar}
    (written : ∀ column, start ≤ column → column ≤ stop →
      characters column = grid.written row start character column) {column : Int}
    (after : start ≤ column) (before : column ≤ stop) :
    Held characters start (stop + 1) column := by
  have part := part_bounds character positive start column
  have first := part_le character.width after
  have ends := ends_within positive whole before
  have aligned : (column - (column - start) % character.width - start) % character.width = 0 := by
    rw [sub_right_comm]
    exact Int.emod_eq_zero_of_dvd Int.dvd_self_sub_emod
  have within : column - (column - start) % character.width ≤ column := by omega
  have covers : column < column - (column - start) % character.width + character.width := by omega
  generalize column - (column - start) % character.width = place
    at first ends aligned within covers
  have head : (characters place).value = character.value
      ∧ (characters place).width = character.width := by
    rw [written place first (by omega)]
    unfold Grid.written
    dsimp only
    rw [if_pos aligned]
    split <;> exact ⟨rfl, rfl⟩
  refine ⟨place, first, within, by rw [head.2]; exact covers, ?_, by rw [head.2]; exact ends,
    fun other low high => ?_⟩
  · rw [Continued, head.1]
    exact solid
  · rw [head.2] at high
    have inner : (other - start) % character.width = other - place :=
      part_of_aligned aligned low.le high
    rw [Continued, written other (by omega) (by omega)]
    unfold Grid.written
    dsimp only
    rw [inner, if_neg (by omega)]
    split <;> rfl

/-- The effect of writing a character while the visible cursor is not within one. -/
theorem setColumns_effect (grid : Grid) (nonneg : 0 ≤ start) (ordered : start ≤ stop + 1)
    (positive : 1 ≤ character.width) (solid : character.value ≠ charContinuation)
    (whole : (character.width : Int) ∣ stop - start + 1)
    (aligned : grid.CursorAligned row start stop character.width) :
    WriteEffect grid row start stop character (setColumns grid row start stop character) := by
  have long := grid.getRow_length row (stop + 1)
  obtain ⟨characters, stored, same, rewritten⟩ :=
    setColumnsCursor_rewritten positive whole aligned
  obtain ⟨broken, after, left, right, breaks⟩ :=
    forceBreaks_rewritten rewritten nonneg ordered (by omega)
  have blanked := blanked_around same
    (fun column after before => written_held positive solid whole stored after before) ordered
    nonneg (by omega) left right
  refine ⟨breaks.length, fun column after before => ?_, fun column cut => ?_,
    fun column outside spared => ?_, fun other apart => breaks.row_other apart⟩
  · rw [setColumns, breaks.characters, blanked.kept column ?_, stored column after before]
    rintro (early | late)
    · have := early.1.2
      omega
    · have := late.1.1
      omega
  · rw [setColumns, breaks.characters]
    exact blanked.blank column cut
  · rw [setColumns, breaks.characters, blanked.kept column spared, same column outside]

/-- Writing a character has the effect it should have if and only if the visible cursor is not
within one of the characters that are written. -/
theorem setColumns_effect_iff (grid : Grid) {row start stop : Int} {character : TerminalChar}
    (nonneg : 0 ≤ start) (ordered : start ≤ stop + 1) (positive : 1 ≤ character.width)
    (solid : character.value ≠ charContinuation)
    (whole : (character.width : Int) ∣ stop - start + 1) :
    WriteEffect grid row start stop character (setColumns grid row start stop character) ↔
      grid.CursorAligned row start stop character.width := by
  refine ⟨fun effect shown => ?_, setColumns_effect grid nonneg ordered positive solid whole⟩
  by_contra astray
  have long := grid.getRow_length row (stop + 1)
  obtain ⟨characters, value, rewritten⟩ := setColumnsCursor_astray positive shown
  obtain ⟨broken, after, left, right, breaks⟩ :=
    forceBreaks_rewritten rewritten nonneg ordered (by omega)
  have head : ¬ Continued characters grid.visibleCursorCol := by
    rw [Continued, value]
    exact solid
  have kept := right.not_continued (left.not_continued head)
  have stored := effect.written grid.visibleCursorCol shown.2.1 shown.2.2
  rw [setColumns, breaks.characters] at stored
  refine kept ?_
  rw [Continued, stored]
  simp only [Grid.written, if_neg astray]
  rfl

end Write

/-- A grid of three columns whose visible cursor is in the given one, and a character of two
columns. -/
def cursorGrid (column : Int) : Grid :=
  { (sampleOptions 1 3).grid 1 3 with visibleCursorCol := column }

def wideChar : TerminalChar := { (sampleOptions 1 3).defaultChar with value := 0x4E2D, width := 2 }

/-- The cursor is on the first column of the character. -/
theorem setColumns_effect_first :
    WriteEffect (cursorGrid 0) 0 0 1 wideChar (setColumns (cursorGrid 0) 0 0 1 wideChar) :=
  (setColumns_effect_iff (cursorGrid 0) (by decide) (by decide) (by decide) (by decide)
    ⟨1, by decide⟩).mpr fun _ => by decide

/-- The cursor is on the second column of the character: a character starts there too, and the
breaks blank all that was written. -/
theorem setColumns_effect_second :
    ¬ WriteEffect (cursorGrid 1) 0 0 1 wideChar (setColumns (cursorGrid 1) 0 0 1 wideChar) := by
  intro effect
  have stored := effect.written 0 (by decide) (by decide)
  have blank : (((setColumns (cursorGrid 1) 0 0 1 wideChar).row 0).characters 0).value = 32 := by
    decide +kernel
  rw [stored] at blank
  exact absurd blank (by decide)

end GuacNebula.Terminal
