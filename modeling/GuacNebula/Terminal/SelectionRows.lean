import GuacNebula.Terminal.CellWrites
import GuacNebula.Terminal.ResizeRows

/-! # The rows of a selection

The ends of a selection are kept as rows of the screen. When the screen moves down the buffer, the
scrolling functions move the selection up by as many rows, so that it stays on its text. A resize
that shifts the rows of the buffer moves the cursor along, but not the selection.
-/

namespace GuacNebula.Terminal

open Run

/-- Something that moves the rows of the buffer against those of the screen: the screen scrolls as
a whole, or it is resized. -/
inductive RowAction where
  | scroll (amount : Int)
  | resize (width height : Int)
  deriving DecidableEq, Repr

/-- The effect of an action. -/
def rowStep (console : Console) : RowAction → Console
  | .scroll amount =>
      { console with grid := scrollUp console.grid 0 (console.grid.termHeight - 1) amount }
  | .resize width height => resizeCells console width height

/-- The rows of the buffer that the ends of the selection lie on. -/
def Grid.selectedRows (grid : Grid) : Int × Int :=
  (grid.buffer.index grid.selection.startRow, grid.buffer.index grid.selection.endRow)

/-- While text is selected, the ends of the selection lie on the rows of the buffer they were made
on. -/
def SelectionStays (start console : Console) : Prop :=
  console.grid.selection.textSelected = true → console.grid.selectedRows = start.grid.selectedRows

/-- No resize shifts the rows of the buffer while text is selected, unless it shifts them all around
the ring. -/
def ShiftGuard (console : Console) : RowAction → Prop
  | .scroll _ => True
  | .resize _ height =>
      console.grid.selection.textSelected = true →
        console.grid.buffer.available ∣ resizeShift console height

instance (console : Console) : ∀ action, Decidable (ShiftGuard console action)
  | .scroll _ => isTrue trivial
  | .resize _ _ => inferInstanceAs (Decidable (_ → _))

/-! ## Positions in the ring -/

section Ring

variable {buffer : Buffer} (positive : 0 < buffer.available)
include positive

/-- The ring is addressed modulo its size. -/
theorem Buffer.index_eq_emod (row : Int) :
    buffer.index row = (buffer.top + row) % buffer.available := by
  have size := Int.natAbs_of_nonneg positive.le
  have nonneg := Int.emod_nonneg (buffer.top + row) positive.ne'
  have below := Int.emod_lt_of_pos (buffer.top + row) positive
  unfold Buffer.index
  rw [Int.tmod_eq_emod]
  dsimp only
  split_ifs <;> omega

/-- A screen that has moved down shows what it showed that many rows further up. -/
theorem Buffer.advance_index (amount row : Int) :
    (buffer.advance amount).index (row - amount) = buffer.index row := by
  have positive' : 0 < (buffer.advance amount).available := positive
  rw [Buffer.index_eq_emod positive', Buffer.index_eq_emod positive]
  have turned : ∃ turns, (buffer.advance amount).top + (row - amount)
      = buffer.top + row + buffer.available * turns := by
    unfold Buffer.advance
    dsimp only
    split
    · exact ⟨-1, by omega⟩
    · exact ⟨0, by omega⟩
  obtain ⟨turns, same⟩ := turned
  rw [same]
  exact Int.add_mul_emod_self_left ..

/-- A row is the same row of a shifted ring exactly if the shift goes all around. -/
theorem Buffer.index_shift_iff {shifted : Buffer} {amount : Int}
    (available : shifted.available = buffer.available)
    (top : shifted.top = buffer.top + amount) (row : Int) :
    shifted.index row = buffer.index row ↔ buffer.available ∣ amount := by
  rw [Buffer.index_eq_emod (available ▸ positive), Buffer.index_eq_emod positive, available, top,
    Int.emod_eq_emod_iff_emod_sub_eq_zero, ← Int.dvd_iff_emod_eq_zero]
  rw [show buffer.top + amount + row - (buffer.top + row) = amount by omega]

end Ring

/-! ## Steps -/

theorem Buffer.index_congr {before after : Buffer} (top : after.top = before.top)
    (available : after.available = before.available) (row : Int) :
    after.index row = before.index row := by
  rw [Buffer.index, Buffer.index, top, available]

theorem advance_buffer (grid : Grid) (startRow endRow amount : Int) :
    (advance grid startRow endRow amount).buffer = grid.buffer.advance amount := by
  unfold advance moveCursorRow
  dsimp only
  split <;> rfl

theorem advance_selection (grid : Grid) (startRow endRow amount : Int) :
    (advance grid startRow endRow amount).selection = grid.selection.advance amount := by
  unfold advance moveCursorRow
  dsimp only
  split <;> rfl

/-- The screen as a whole moves down the buffer, and the rows that come into view are cleared. -/
theorem scrollUp_screen (grid : Grid) (amount : Int) :
    CellWrites (advance grid 0 (grid.termHeight - 1) amount)
      (scrollUp grid 0 (grid.termHeight - 1) amount) := by
  unfold scrollUp
  dsimp only
  rw [if_pos ⟨rfl, rfl⟩]
  exact clearRange_writes ..

/-- Scrolling the whole screen leaves the ends of the selection on their rows of the buffer, unless
it drops the selection. -/
theorem scrollUp_selectedRows {grid : Grid} (positive : 0 < grid.buffer.available) (amount : Int)
    (selected : (scrollUp grid 0 (grid.termHeight - 1) amount).selection.textSelected = true) :
    grid.selection.textSelected = true
      ∧ (scrollUp grid 0 (grid.termHeight - 1) amount).selectedRows = grid.selectedRows := by
  obtain ⟨keeps, top, selection⟩ := (scrollUp_screen grid amount).keeps
  have available := keeps.available
  rw [advance_buffer] at top available
  rw [advance_selection] at selection
  rcases selection with kept | dropped
  · rw [kept] at selected
    have before : grid.selection.textSelected = true := by
      unfold Selection.advance at selected
      split at selected <;> exact selected
    have moved : grid.selection.advance amount =
        { grid.selection with
          startRow := grid.selection.startRow - amount
          endRow := grid.selection.endRow - amount } := if_pos before
    refine ⟨before, ?_⟩
    rw [Grid.selectedRows, kept, moved, Buffer.index_congr top available,
      Buffer.index_congr top available, Buffer.advance_index positive,
      Buffer.advance_index positive]
    rfl
  · rw [dropped] at selected
    cases selected

/-- A resize leaves the selection where it is on the screen. -/
theorem resize_selectedRows {console : Console} (positive : 0 < console.grid.buffer.available)
    (width height : Int) :
    (rowStep console (.resize width height)).grid.selection = console.grid.selection
      ∧ ((rowStep console (.resize width height)).grid.selectedRows = console.grid.selectedRows
        ↔ console.grid.buffer.available ∣ resizeShift console height) := by
  obtain ⟨shifted, shifts, buffer, selection, -⟩ := resizeCells_shifts console width height
  have same := selection.trans shifts.selection
  refine ⟨same, ?_⟩
  change (_, _) = (_, _) ↔ _
  rw [rowStep, buffer, same, Prod.mk.injEq,
    Buffer.index_shift_iff positive shifts.available shifts.top,
    Buffer.index_shift_iff positive shifts.available shifts.top, and_self_iff]

theorem rowStep_available (console : Console) (action : RowAction) :
    (rowStep console action).grid.buffer.available = console.grid.buffer.available := by
  cases action with
  | scroll amount => exact (scrollUp_keeps ..).available
  | resize width height =>
      obtain ⟨shifted, shifts, buffer, -⟩ := resizeCells_shifts console width height
      exact (congrArg Buffer.available buffer).trans shifts.available

/-- The guard of a step is exact. -/
theorem rowStep_stays_iff {start console : Console}
    (positive : 0 < console.grid.buffer.available) (stays : SelectionStays start console)
    (action : RowAction) :
    SelectionStays start (rowStep console action) ↔ ShiftGuard console action := by
  cases action with
  | scroll amount =>
      refine iff_of_true (fun selected => ?_) trivial
      obtain ⟨before, same⟩ := scrollUp_selectedRows positive amount selected
      exact same.trans (stays before)
  | resize width height =>
      obtain ⟨same, rows⟩ := resize_selectedRows positive width height
      unfold SelectionStays
      rw [same]
      refine forall_congr' fun selected => ?_
      rw [← stays selected]
      exact rows

/-- **A selection stays on its rows of the buffer, through any run of scrolls of the whole screen
and resizes, exactly if no resize shifts the rows while text is selected.** -/
theorem selectionStays_iff (console : Console) (positive : 0 < console.grid.buffer.available)
    (actions : List RowAction) :
    Always rowStep (SelectionStays console) console actions
      ↔ Guarded rowStep ShiftGuard console actions := by
  have initial : SelectionStays console console := fun _ => rfl
  exact always_iff_guarded initial positive
    (fun console action positive _ _ => (rowStep_available console action).symm ▸ positive)
    (fun console action positive stays => rowStep_stays_iff positive stays action)

/-- A terminal of two rows that shows `a` and `b`, both of which are selected. -/
def sampleSelected : Console :=
  let term := exec (writeByte samplePlatform) (create sampleMetrics (sampleOptions 2 2))
    [0x61, 0x0A, 0x62]
  { term.toConsole with
    grid := { term.grid with
      selection :=
        { textSelected := true
          selectionCommitted := true
          startRow := 0
          startColumn := 0
          startWidth := 1
          endRow := 1
          endColumn := 1
          endWidth := 1 } } }

theorem sampleSelected_measures :
    sampleSelected.grid.termHeight = 2 ∧ sampleSelected.grid.buffer.available = 1024
      ∧ effectiveBufferLength sampleSelected = 2 := by
  decide +kernel

/-- The selected rows scroll off the screen, which is then made wider. -/
theorem selectionStays_scrolled :
    Always rowStep (SelectionStays sampleSelected) sampleSelected [.scroll 2, .resize 4 2] := by
  obtain ⟨height, available, -⟩ := sampleSelected_measures
  refine (selectionStays_iff sampleSelected (by omega) _).mpr ⟨trivial, fun _ => ?_, trivial⟩
  have height' : (rowStep sampleSelected (.scroll 2)).grid.termHeight = 2 :=
    (scrollUp_keeps ..).termHeight.trans height
  generalize rowStep sampleSelected (.scroll 2) = console at height'
  have none : resizeShift console 2 = 0 := by
    rw [resizeShift, shrinkShift, growShift, height']
    rfl
  rw [none]
  exact Int.dvd_zero _

/-- The bottom row is covered by a resize, which shifts the rows but not the selection. -/
theorem selectionStays_covered :
    ¬ Always rowStep (SelectionStays sampleSelected) sampleSelected [.resize 2 1] := by
  obtain ⟨height, available, length⟩ := sampleSelected_measures
  intro always
  have guarded := ((selectionStays_iff sampleSelected (by omega) _).mp always).1 rfl
  have one : resizeShift sampleSelected 1 = 1 := by
    rw [resizeShift, shrinkShift, growShift, height, length]
    rfl
  rw [one, available] at guarded
  exact absurd guarded (by decide)

end GuacNebula.Terminal
