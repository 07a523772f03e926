import GuacNebula.Terminal.EditLimits
import GuacNebula.Terminal.LineEdits

/-! # When an edit of lines fits

As long as no more lines are asked for than there are from the cursor to the end of the scroll
region, the rows that are moved and those that are cleared make up the region. If there are more, a
row beyond the region is cleared, which a screen full of letters shows: the one below the region, or
the one above the cursor. With the whole screen as region this is the latest row of the scrollback
or, for an insertion, the one that follows the last row in the ring.

The main result is `csi_lines_iff`.
-/

namespace GuacNebula.Terminal

open CInt

/-! ## The effect of an edit that fits -/

section Effect

variable {edit : LineEdit} {console after : Console} {amount : Int}

/-- A region is spliced by moving rows within it and clearing those that are free then. -/
theorem LinesEffect.of_editRows (ringed : console.Ringed)
    (valid : (console.lineShape amount).Valid) {startRow endRow offset first last : Int}
    (eq : after.grid = editRows console.grid startRow endRow offset first last)
    (summed : FitsInt (console.cursorRow + csiAmount amount))
    (still : edit.pushed (console.lineShape amount) = 0)
    (cleared : console.cursorRow ≤ first ∧ last ≤ console.scrollEnd)
    (source : console.cursorRow ≤ startRow ∧ endRow ≤ console.scrollEnd)
    (target : console.cursorRow ≤ startRow + offset ∧ endRow + offset ≤ console.scrollEnd)
    (shifted : offset ≠ 0)
    (blank : ∀ row, console.cursorRow ≤ row → row ≤ console.scrollEnd →
      edit.source (console.lineShape amount) row = none → first ≤ row ∧ row ≤ last)
    (moved : ∀ row other, console.cursorRow ≤ row → row ≤ console.scrollEnd →
      edit.source (console.lineShape amount) row = some other →
      other + offset = row ∧ (row < first ∨ last < row) ∧ startRow ≤ other ∧ other ≤ endRow) :
    LinesEffect edit console amount after := by
  obtain ⟨ring, _, _, top, width⟩ := ringed
  have row : 0 ≤ console.cursorRow ∧ console.cursorRow < console.grid.termHeight := valid.row
  have onScreen : console.scrollEnd < console.grid.termHeight := valid.region.2.2
  have size : 0 < console.grid.buffer.available := by omega
  constructor
  · exact summed
  · rw [eq, editRows_top, (editRows_keeps ..).available]
    exact top
  · intro place
    rw [eq, editRows_index, still, Int.add_zero]
  · rw [still, eq]
    intro place stored inRing apart column
    rw [Int.sub_zero] at inRing apart ⊢
    have outside : place < console.cursorRow ∨ console.scrollEnd < place := by
      rw [LineShape.mem_region] at apart
      change ¬ (console.cursorRow ≤ place ∧ place ≤ console.scrollEnd) at apart
      omega
    have onTop := stored.2
    exact editRows_outside width.1.le size ⟨cleared.1, target.1⟩ ⟨cleared.2, target.2⟩ outside
      (by omega) (by omega) column
  · rw [LineEdit.sources_eq (by have := valid.amount.1; omega), List.forall₂_map_right_iff,
      List.forall₂_same, eq]
    intro place member
    obtain ⟨low, high⟩ := LineShape.mem_region.mp member
    cases shown : edit.source (console.lineShape amount) place with
    | none =>
        obtain ⟨begins, ends⟩ := blank place low high shown
        exact editRows_blank width.1.le begins ends
    | some other =>
        obtain ⟨rfl, outside, begins, ends⟩ := moved place other low high shown
        intro column nonneg
        exact editRows_moved width.1.le size cleared source target (by omega) shifted outside begins
          ends nonneg

theorem csiInsertLines_effect (ringed : console.Ringed)
    (valid : (console.lineShape amount).Valid)
    (fits : console.cursorRow + csiAmount amount ≤ console.scrollEnd + 1)
    (eq : after.grid = scrollDown console.grid console.cursorRow console.scrollEnd
      (csiAmount amount)) :
    LinesEffect .insert console amount after := by
  have height := valid.height
  have row : 0 ≤ console.cursorRow ∧ console.cursorRow < console.grid.termHeight := valid.row
  have onScreen : console.scrollEnd < console.grid.termHeight := valid.region.2.2
  have positive : 1 ≤ csiAmount amount := valid.amount.1
  change FitsInt (console.grid.termHeight + 1) at height
  have source : toInt (console.scrollEnd - csiAmount amount)
      = console.scrollEnd - csiAmount amount :=
    toInt_of_fits (by unfold FitsInt at *; omega)
  have stop : toInt (console.cursorRow + csiAmount amount - 1)
      = console.cursorRow + csiAmount amount - 1 :=
    toInt_of_fits (by unfold FitsInt at *; omega)
  unfold scrollDown at eq
  rw [source, stop] at eq
  refine .of_editRows ringed valid eq (by unfold FitsInt at *; omega) rfl (by omega) (by omega)
    (by omega) (by omega) ?_ ?_
  · intro place low high shown
    change (if place < console.cursorRow + csiAmount amount then none else some _) = none at shown
    split at shown
    · omega
    · cases shown
  · intro place other low high shown
    change (if place < console.cursorRow + csiAmount amount then none else some _)
      = some other at shown
    split at shown
    · cases shown
    · cases shown
      change place - csiAmount amount + csiAmount amount = place ∧ _ ∧ _ ≤ place - csiAmount amount
        ∧ place - csiAmount amount ≤ _
      omega

/-- What the ring shows after it has been moved. -/
theorem advance_cell {grid : Grid} (positive : 0 < grid.buffer.available)
    (startRow endRow amount row column : Int) :
    (advance grid startRow endRow amount).cell (row - amount) column = grid.cell row column := by
  refine Grid.cell_congr (advance_keeps ..).defaultCharacter ?_ column
  rw [Grid.row, advance_buffer, Buffer.row, Buffer.advance_index positive]
  rfl

/-- The whole screen is moved up by the ring, and the rows that come into view are cleared. -/
def scrolledRows (grid : Grid) (startRow endRow amount : Int) : Grid :=
  let grid := advance grid startRow endRow amount
  clearRange grid (endRow - amount + 1) 0 endRow (grid.termWidth - 1)

section Scrolled

variable {grid : Grid} {startRow endRow : Int}

theorem scrolledRows_keeps (grid : Grid) (startRow endRow amount : Int) :
    (advance grid startRow endRow amount).Keeps (scrolledRows grid startRow endRow amount) :=
  clearRange_keeps ..

theorem scrolledRows_top (grid : Grid) (startRow endRow amount : Int) :
    (scrolledRows grid startRow endRow amount).buffer.top = (grid.buffer.advance amount).top := by
  have cleared := (clearRange_writes (advance grid startRow endRow amount)
    (endRow - amount + 1) 0 endRow ((advance grid startRow endRow amount).termWidth - 1)).keeps.2.1
  refine cleared.trans ?_
  rw [advance_buffer]

theorem scrolledRows_index (positive : 0 < grid.buffer.available)
    (startRow endRow amount row : Int) :
    (scrolledRows grid startRow endRow amount).buffer.index row
      = grid.buffer.index (row + amount) := by
  have moved := Buffer.advance_index positive amount (row + amount)
  rw [Int.add_sub_cancel] at moved
  refine (clearRange_index ..).trans ?_
  rw [advance_buffer, moved]

/-- A row that is not cleared shows what the row that it has moved from has shown. -/
theorem scrolledRows_cell (positive : 0 < grid.buffer.available) (width : 0 ≤ grid.termWidth)
    {row : Int} (above : row < endRow - amount + 1) (near : endRow - row < grid.buffer.available)
    (column : Int) :
    (scrolledRows grid startRow endRow amount).cell row column
      = grid.cell (row + amount) column := by
  have keeps := advance_keeps grid startRow endRow amount
  rw [← advance_cell positive startRow endRow amount (row + amount) column, Int.add_sub_cancel]
  refine Grid.cell_congr (scrolledRows_keeps ..).defaultCharacter
    (clearRange_others ?_ ?_ (.inl above) ?_ ?_) column
  · rw [keeps.termWidth]
    exact width
  all_goals
    rw [keeps.available]
    omega

theorem scrolledRows_blank (width : 0 ≤ grid.termWidth) {row : Int}
    (low : endRow - amount + 1 ≤ row) (high : row ≤ endRow) :
    (scrolledRows grid startRow endRow amount).RowBlank row := by
  refine clearRange_rowBlank ?_ low high
  rw [(advance_keeps ..).termWidth]
  exact width

end Scrolled

/-- A deletion from the whole screen pushes rows into the scrollback. -/
theorem csiDeleteLines_scrolls (ringed : console.Ringed)
    (valid : (console.lineShape amount).Valid)
    (fits : console.cursorRow + csiAmount amount ≤ console.scrollEnd + 1)
    (whole : console.cursorRow = 0 ∧ console.scrollEnd = console.grid.termHeight - 1)
    (summed : FitsInt (console.cursorRow + csiAmount amount))
    (eq : after.grid = scrolledRows console.grid console.cursorRow console.scrollEnd
      (csiAmount amount)) :
    LinesEffect .delete console amount after := by
  obtain ⟨ring, _, _, top, width⟩ := ringed
  have positive : 1 ≤ csiAmount amount := valid.amount.1
  have size : 0 < console.grid.buffer.available := by omega
  have pushed : LineEdit.delete.pushed (console.lineShape amount) = csiAmount amount :=
    (if_pos whole).trans
      (min_eq_left (by change csiAmount amount ≤ console.grid.termHeight; omega))
  have kept {place : Int} (above : place < console.scrollEnd - csiAmount amount + 1)
      (inRing : console.grid.termHeight - console.grid.buffer.available ≤ place) (column : Int) :
      after.grid.cell place column = console.grid.cell (place + csiAmount amount) column := by
    rw [eq]
    exact scrolledRows_cell size width.1.le above (by omega) column
  constructor
  · exact summed
  · have same : after.grid.buffer.available = console.grid.buffer.available := by
      rw [eq, (scrolledRows_keeps ..).available, (advance_keeps ..).available]
    rw [same, eq, scrolledRows_top]
    unfold Buffer.advance
    dsimp only
    split <;> omega
  · intro place
    rw [eq, scrolledRows_index size, pushed]
  · rw [pushed]
    intro place stored inRing apart column
    rw [LineShape.mem_region] at apart
    change ¬ (console.cursorRow ≤ place - csiAmount amount
      ∧ place - csiAmount amount ≤ console.scrollEnd) at apart
    have onTop := stored.2
    rw [kept (by omega) inRing, Int.sub_add_cancel]
  · rw [LineEdit.sources_eq (zero_le_one.trans positive), List.forall₂_map_right_iff,
      List.forall₂_same]
    intro place member
    obtain ⟨low, high⟩ : console.cursorRow ≤ place ∧ place ≤ console.scrollEnd :=
      LineShape.mem_region.mp member
    change console.grid.ShowsRow after.grid place
      (if place + csiAmount amount ≤ console.scrollEnd then some (place + csiAmount amount)
        else none)
    split
    · intro column _
      exact kept (by omega) (by omega) column
    · change after.grid.RowBlank place
      rw [eq]
      exact scrolledRows_blank width.1.le (by omega) high

theorem csiDeleteLines_effect (ringed : console.Ringed)
    (valid : (console.lineShape amount).Valid)
    (fits : console.cursorRow + csiAmount amount ≤ console.scrollEnd + 1)
    (eq : after.grid = scrollUp console.grid console.cursorRow console.scrollEnd
      (csiAmount amount)) :
    LinesEffect .delete console amount after := by
  have height : FitsInt (console.grid.termHeight + 1) := valid.height
  have row : 0 ≤ console.cursorRow ∧ console.cursorRow < console.grid.termHeight := valid.row
  have onScreen : console.scrollEnd < console.grid.termHeight := valid.region.2.2
  have positive : 1 ≤ csiAmount amount := valid.amount.1
  have summed : FitsInt (console.cursorRow + csiAmount amount) := by
    unfold FitsInt at *
    omega
  have start : toInt (console.scrollEnd - csiAmount amount + 1)
      = console.scrollEnd - csiAmount amount + 1 :=
    toInt_of_fits (by unfold FitsInt at *; omega)
  have offset : toInt (-csiAmount amount) = -csiAmount amount :=
    toInt_of_fits (by unfold FitsInt at *; omega)
  unfold scrollUp at eq
  rw [start, offset, toInt_of_fits summed] at eq
  by_cases whole : console.cursorRow = 0 ∧ console.scrollEnd = console.grid.termHeight - 1
  · rw [if_pos whole] at eq
    exact csiDeleteLines_scrolls ringed valid fits whole summed eq
  · rw [if_neg whole] at eq
    have source (place : Int) : LineEdit.delete.source (console.lineShape amount) place =
        if place + csiAmount amount ≤ console.scrollEnd then some (place + csiAmount amount)
        else none :=
      rfl
    have pushed : LineEdit.delete.pushed (console.lineShape amount) = 0 := if_neg whole
    refine .of_editRows ringed valid eq summed pushed (by omega) (by omega) (by omega) (by omega)
      ?_ ?_
    · intro place low high shown
      rw [source] at shown
      split at shown
      · cases shown
      · omega
    · intro place other low high shown
      rw [source] at shown
      split at shown
      · cases shown
        omega
      · cases shown

end Effect

/-! ## When an edit of lines fits -/

/-- A console on which every row shows a letter, with one row of scrollback. -/
def lineConsole (shape : LineShape) : Console :=
  { (create sampleMetrics (sampleOptions 1 1)).toConsole with
    cursorRow := shape.row
    scrollStart := shape.scrollStart
    scrollEnd := shape.scrollEnd
    maxScrollback := shape.height + 1
    requestedScrollback := shape.height + 1
    grid :=
      { (sampleOptions 1 1).grid 1 1 with
        termHeight := shape.height
        currentAttributes := { (sampleOptions 1 1).defaultChar.attributes with bold := true }
        buffer :=
          { ((sampleOptions 1 1).grid 1 1).buffer with
            rows := fun _ => { characters := fun _ => letter 0x61, length := 1, available := 1 }
            top := 0
            length := shape.height + 1
            available := shape.height + 1 } } }

section Necessary

variable {shape : LineShape} {edit : LineEdit} {after : Console}

theorem lineConsole_ringed (valid : shape.Valid) : (lineConsole shape).Ringed := by
  have onScreen := valid.row
  refine ⟨?_, valid.height, le_refl (shape.height + 1), ⟨le_refl (0 : Int), ?_⟩, ?_⟩
  · change shape.height ≤ shape.height + 1
    omega
  · change 0 < shape.height + 1
    omega
  · have single : (0 : Int) < 1 ∧ FitsInt 1 := by decide
    exact single

theorem lineConsole_shape (valid : shape.Valid) :
    (lineConsole shape).lineShape shape.amount = shape := by
  have same : csiAmount shape.amount = shape.amount := by
    have positive := valid.amount.1
    exact if_neg (by omega)
  unfold Console.lineShape
  rw [same]
  rfl

theorem lineConsole_stored {row : Int} (below : -1 ≤ row) (above : row < shape.height) :
    (lineConsole shape).Stored row := by
  refine ⟨.inr ?_, above⟩
  have length : effectiveBufferLength (lineConsole shape) = shape.height + 1 := by
    unfold effectiveBufferLength
    change (if shape.height + 1 > (if shape.height + 1 > shape.height + 1 then shape.height + 1
      else if shape.height + 1 < shape.height then shape.height else shape.height + 1) then _
      else shape.height + 1) = shape.height + 1
    rw [if_neg (by omega : ¬ shape.height + 1 > shape.height + 1),
      if_neg (by omega : ¬ shape.height + 1 < shape.height),
      if_neg (by omega : ¬ shape.height + 1 > shape.height + 1)]
  unfold getAvailableScroll
  rw [length]
  change -(shape.height + 1 - shape.height) ≤ row
  omega

/-- No row that is to show what another one has shown is blank. -/
theorem lineConsole_outside (effect : LinesEffect edit (lineConsole shape) shape.amount after)
    (keeps : (lineConsole shape).grid.Keeps after.grid) (valid : shape.Valid) {row : Int}
    (below : -1 ≤ row) (above : row + edit.pushed shape < shape.height)
    (nonneg : 0 ≤ edit.pushed shape) (apart : row < shape.row ∨ shape.scrollEnd < row) :
    ¬ after.grid.RowBlank row := by
  intro blank
  have same := lineConsole_shape valid
  have kept := effect.outside (row + edit.pushed shape) (lineConsole_stored (by omega) above)
  rw [same, Int.add_sub_cancel] at kept
  have shown := kept
    (by change shape.height - (shape.height + 1) ≤ row; omega)
    (by rw [LineShape.mem_region]; omega) 0
  have cleared := blank 0 le_rfl (by rw [keeps.termWidth]; exact Int.one_pos)
  rw [shown, Grid.blank, keeps.currentAttributes] at cleared
  have attributes := congrArg (fun cell => cell.attributes.bold) cleared
  change (letter 0x61).attributes.bold = true at attributes
  exact absurd attributes (by decide)

/-- The rows that are cleared for an insertion lie within the region. -/
theorem insertLines_fits (valid : shape.Valid)
    (eq : after.grid = scrollDown (lineConsole shape).grid shape.row shape.scrollEnd shape.amount)
    (effect : LinesEffect .insert (lineConsole shape) shape.amount after) :
    shape.row + shape.amount ≤ shape.scrollEnd + 1 := by
  have summed := effect.summed
  have same : csiAmount shape.amount = shape.amount :=
    congrArg LineShape.amount (lineConsole_shape valid)
  rw [same] at summed
  change FitsInt (shape.row + shape.amount) at summed
  have keeps := scrollDown_keeps (lineConsole shape).grid shape.row shape.scrollEnd shape.amount
  rw [← eq] at keeps
  have outside {row : Int} (below : -1 ≤ row) (above : row < shape.height) :=
    lineConsole_outside effect keeps valid below
      (show row + LineEdit.insert.pushed shape < shape.height by
        change row + 0 < shape.height
        omega)
      le_rfl
  obtain ⟨onTop, inside⟩ := valid.row
  obtain ⟨_, _, onScreen⟩ := valid.region
  have positive := valid.amount.1
  by_contra beyond
  have stop : toInt (shape.row + shape.amount - 1) = shape.row + shape.amount - 1 :=
    toInt_of_fits (by unfold FitsInt at *; omega)
  have cleared {row : Int} (low : shape.row ≤ row) (high : row ≤ shape.row + shape.amount - 1) :
      after.grid.RowBlank row := by
    rw [eq]
    unfold scrollDown
    rw [stop]
    have wide : (0 : Int) ≤ 1 := by decide
    exact editRows_blank wide low high
  rcases Int.lt_or_le (max shape.row (shape.scrollEnd + 1)) shape.height with screen | scrollback
  · exact outside (by omega) screen (by omega) (cleared (le_max_left ..) (by omega))
  · -- The row below the screen is the one above it.
    have size : 0 < (lineConsole shape).grid.buffer.available := by
      change 0 < shape.height + 1
      omega
    have around : (lineConsole shape).grid.buffer.index (-1)
        = (lineConsole shape).grid.buffer.index shape.height := by
      rw [Buffer.index_eq_emod size, Buffer.index_eq_emod size]
      change (0 + -1) % (shape.height + 1) = (0 + shape.height) % (shape.height + 1)
      rw [← Int.add_emod_right, show 0 + -1 + (shape.height + 1) = 0 + shape.height by omega]
    have place (row : Int) : after.grid.buffer.index row
        = (lineConsole shape).grid.buffer.index row := by
      rw [effect.moved]
      exact congrArg _ (Int.add_zero row)
    have shared : after.grid.row (-1) = after.grid.row shape.height := by
      rw [Grid.row, Grid.row, Buffer.row, Buffer.row, place, place, around]
    have blank : after.grid.RowBlank shape.height := cleared (by omega) (by omega)
    exact outside (show (-1 : Int) ≤ -1 from le_rfl) (by omega) (by omega)
      (blank.congr (.refl after.grid) shared)

/-- The rows that are cleared for a deletion lie within the region. -/
theorem deleteLines_fits (valid : shape.Valid)
    (eq : after.grid = scrollUp (lineConsole shape).grid shape.row shape.scrollEnd shape.amount)
    (effect : LinesEffect .delete (lineConsole shape) shape.amount after) :
    shape.row + shape.amount ≤ shape.scrollEnd + 1 := by
  have keeps := scrollUp_keeps (lineConsole shape).grid shape.row shape.scrollEnd shape.amount
  rw [← eq] at keeps
  obtain ⟨onTop, inside⟩ := valid.row
  obtain ⟨start, ordered, onScreen⟩ := valid.region
  obtain ⟨positive, fits⟩ := valid.amount
  by_contra beyond
  have first : toInt (shape.scrollEnd - shape.amount + 1) = shape.scrollEnd - shape.amount + 1 := by
    have height := valid.height
    exact toInt_of_fits (by unfold FitsInt at *; omega)
  have cleared {row : Int} (low : shape.scrollEnd - shape.amount + 1 ≤ row)
      (high : row ≤ shape.scrollEnd) : after.grid.RowBlank row := by
    rw [eq]
    unfold scrollUp
    rw [first]
    refine clearRange_rowBlank ?_ low high
    split
    · rw [(advance_keeps ..).termWidth]
      exact (lineConsole_ringed valid).width.1.le
    · rw [(copyRows_keeps ..).termWidth]
      exact (lineConsole_ringed valid).width.1.le
  have pushed : LineEdit.delete.pushed shape =
      if shape.row = 0 ∧ shape.scrollEnd = shape.height - 1 then min shape.amount shape.height
      else 0 :=
    rfl
  refine lineConsole_outside effect keeps valid
    (show -1 ≤ min (shape.row - 1) shape.scrollEnd by omega) ?_ ?_ (by omega)
    (cleared (by omega) (by omega))
  · rw [pushed]
    split <;> omega
  · rw [pushed]
    split <;> omega

end Necessary

/-! ## The two functions -/

/-- An edit of lines splices the region, whatever the rows show, if and only if it does not ask for
more lines than there are from the cursor to the end of the region. -/
theorem csi_lines_iff (edit : LineEdit) {shape : LineShape} (valid : shape.Valid) :
    (∀ (console : Console) (argc : Nat) (argv : Nat → Int) (privateMode : UInt8),
      console.Ringed → EditAmount (argv 0) → console.lineShape (argv 0) = shape →
      LinesEffect edit console (argv 0)
        (csiConsole console argc argv privateMode edit.function)) ↔
      shape.amount ≤ shape.scrollEnd - shape.row + 1 := by
  constructor
  · intro effects
    have amount : EditAmount shape.amount := ⟨by have := valid.amount.1; omega, valid.amount.2⟩
    have same : csiAmount shape.amount = shape.amount :=
      congrArg LineShape.amount (lineConsole_shape valid)
    have effect := effects (lineConsole shape) 1 (fun _ => shape.amount) 0
      (lineConsole_ringed valid) amount (lineConsole_shape valid)
    have within : shape.row + shape.amount ≤ shape.scrollEnd + 1 := by
      cases edit with
      | insert =>
          refine insertLines_fits valid ?_ effect
          change scrollDown _ _ _ (csiAmount shape.amount) = _
          rw [same]
          rfl
      | delete =>
          refine deleteLines_fits valid ?_ effect
          change scrollUp _ _ _ (csiAmount shape.amount) = _
          rw [same]
          rfl
    omega
  · rintro fits console argc argv privateMode ringed amount rfl
    have within : console.cursorRow + csiAmount (argv 0) ≤ console.scrollEnd + 1 := by
      change csiAmount (argv 0) ≤ console.scrollEnd - console.cursorRow + 1 at fits
      omega
    cases edit with
    | insert => exact csiInsertLines_effect ringed valid within rfl
    | delete => exact csiDeleteLines_effect ringed valid within rfl

/-- A line is inserted at the first of two rows. -/
theorem csi_inserts_line :
    LinesEffect .insert (lineConsole ⟨3, 0, 0, 1, 1⟩) 1
      (csiConsole (lineConsole ⟨3, 0, 0, 1, 1⟩) 1 (fun _ => 1) 0 .insertLines) := by
  have valid : LineShape.Valid ⟨3, 0, 0, 1, 1⟩ :=
    ⟨by decide, by decide, by decide, by decide⟩
  have fits : (1 : Int) ≤ 1 - 0 + 1 := by decide
  exact (csi_lines_iff .insert valid).mpr fits _ 1 (fun _ => 1) 0 (lineConsole_ringed valid)
    ⟨by decide, by decide⟩ rfl

/-- Three lines are inserted in a region of two rows: the row below the region is cleared. -/
theorem csi_inserts_beyond :
    ¬ LinesEffect .insert (lineConsole ⟨3, 0, 0, 1, 3⟩) 3
      (csiConsole (lineConsole ⟨3, 0, 0, 1, 3⟩) 1 (fun _ => 3) 0 .insertLines) := by
  intro effect
  have valid : LineShape.Valid ⟨3, 0, 0, 1, 3⟩ :=
    ⟨by decide, by decide, by decide, by decide⟩
  have kept := effect.outside 2 (lineConsole_stored (by decide) (by decide)) (by decide)
    (by decide) 0
  have cleared : ((csiConsole (lineConsole ⟨3, 0, 0, 1, 3⟩) 1 (fun _ => 3) 0
      .insertLines).grid.cell 2 0).value = 0 := by
    decide +kernel
  have shown := congrArg TerminalChar.value kept
  exact absurd (cleared.symm.trans shown) (by decide)

end GuacNebula.Terminal
