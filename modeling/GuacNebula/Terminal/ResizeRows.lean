import GuacNebula.Terminal.ScrollRegion

/-! # The rows a resize puts on the screen

A resize moves the rows of the buffer against those of the screen: a lower screen pushes the rows
that its bottom would cover into the scrollback, a higher one pulls rows of the scrollback back
into view. As long as the scrollback holds every height, the rows that are above the screen are
those the screen has no room for, whatever heights came in between. The selection stays where it
is, so it comes to lie on other rows of the buffer.
-/

namespace GuacNebula.Terminal

open Run

/-! ## The shift of a resize -/

/-- What drawing rows of the buffer on the display leaves unchanged. -/
structure Grid.Draws (before after : Grid) : Prop where
  termHeight : after.termHeight = before.termHeight
  top : after.buffer.top = before.buffer.top
  length : after.buffer.length = before.buffer.length
  available : after.buffer.available = before.buffer.available
  selection : after.selection = before.selection

namespace Grid.Draws

variable {first second third : Grid}

theorem refl (grid : Grid) : grid.Draws grid := ⟨rfl, rfl, rfl, rfl, rfl⟩

theorem trans (left : first.Draws second) (right : second.Draws third) : first.Draws third where
  termHeight := right.termHeight.trans left.termHeight
  top := right.top.trans left.top
  length := right.length.trans left.length
  available := right.available.trans left.available
  selection := right.selection.trans left.selection

end Grid.Draws

theorem drawColumns_draws (characters : Int → TerminalChar) (destRow : Int) (remaining : Nat)
    (column : Int) (grid : Grid) :
    grid.Draws (drawColumns characters destRow remaining column grid) := by
  induction remaining generalizing column grid with
  | zero => exact .refl grid
  | succ remaining ih =>
      apply Grid.Draws.trans _ (ih _ _)
      split
      · exact ⟨rfl, rfl, rfl, rfl, rfl⟩
      · exact .refl grid

theorem drawRow_draws (grid : Grid) (row destRow startColumn endColumn stop : Int) :
    grid.Draws (drawRow grid row destRow startColumn endColumn stop) := by
  apply Grid.Draws.trans _ (drawColumns_draws ..)
  exact ⟨rfl, rfl, rfl, rfl, rfl⟩

theorem redrawRect_draws (startCol endCol : Int) (remaining : Nat) (row : Int) (grid : Grid) :
    grid.Draws (redrawRect startCol endCol remaining row grid) := by
  induction remaining generalizing row grid with
  | zero => exact .refl grid
  | succ remaining ih => exact (drawRow_draws ..).trans (ih _ _)

theorem redraw_draws (grid : Grid) (startRow startCol endRow endCol : Int) :
    grid.Draws (redraw grid startRow startCol endRow endCol) :=
  redrawRect_draws ..

theorem Grid.Draws.redraw {before middle : Grid} (draws : before.Draws middle)
    (startRow startCol endRow endCol : Int) :
    before.Draws (redraw middle startRow startCol endRow endCol) :=
  draws.trans (redraw_draws ..)

/-- Before its height changes, a resize shifts the rows of the buffer by some amount, and changes
nothing else that the rows on the screen depend on. -/
structure Console.Shifts (before : Console) (amount : Int) (after : Console) : Prop where
  termHeight : after.grid.termHeight = before.grid.termHeight
  requestedScrollback : after.requestedScrollback = before.requestedScrollback
  maxScrollback : after.maxScrollback = before.maxScrollback
  top : after.grid.buffer.top = before.grid.buffer.top + amount
  length : after.grid.buffer.length = before.grid.buffer.length
  available : after.grid.buffer.available = before.grid.buffer.available
  selection : after.grid.selection = before.grid.selection

namespace Console.Shifts

variable {first second third : Console} {amount more : Int}

theorem refl (console : Console) : console.Shifts 0 console :=
  ⟨rfl, rfl, rfl, (Int.add_zero _).symm, rfl, rfl, rfl⟩

theorem trans (left : first.Shifts amount second) (right : second.Shifts more third) :
    first.Shifts (amount + more) third where
  termHeight := right.termHeight.trans left.termHeight
  requestedScrollback := right.requestedScrollback.trans left.requestedScrollback
  maxScrollback := right.maxScrollback.trans left.maxScrollback
  top := by rw [right.top, left.top, Int.add_assoc]
  length := right.length.trans left.length
  available := right.available.trans left.available
  selection := right.selection.trans left.selection

/-- Drawing on the shifted console shifts it no further. -/
theorem draw (shifts : first.Shifts amount second) {grid : Grid}
    (draws : second.grid.Draws grid) : first.Shifts amount { second with grid := grid } where
  termHeight := draws.termHeight.trans shifts.termHeight
  requestedScrollback := shifts.requestedScrollback
  maxScrollback := shifts.maxScrollback
  top := draws.top.trans shifts.top
  length := draws.length.trans shifts.length
  available := draws.available.trans shifts.available
  selection := draws.selection.trans shifts.selection

theorem effectiveBufferLength (shifts : first.Shifts amount second) :
    effectiveBufferLength second = effectiveBufferLength first := by
  rw [Terminal.effectiveBufferLength, shifts.requestedScrollback, shifts.maxScrollback,
    shifts.termHeight, shifts.length]
  rfl

theorem getAvailableScroll (shifts : first.Shifts amount second) :
    getAvailableScroll second = getAvailableScroll first := by
  rw [Terminal.getAvailableScroll, shifts.effectiveBufferLength, shifts.termHeight]
  rfl

end Console.Shifts

theorem shiftRows_shifts (console : Console) (amount : Int) :
    console.Shifts (-amount) (shiftRows console amount) :=
  ⟨rfl, rfl, rfl, Int.sub_eq_add_neg, rfl, rfl, rfl⟩

/-- The number of rows that the first part of a resize pushes above the screen. -/
def shrinkShift (console : Console) (height : Int) : Int :=
  if height < console.grid.termHeight then
    max (min (effectiveBufferLength console) console.grid.termHeight - height) 0
  else 0

/-- The number of rows that the last part of a resize pulls back onto the screen. -/
def growShift (console : Console) (height : Int) : Int :=
  if height > console.grid.termHeight ∧ getAvailableScroll console > 0 then
    min (height - console.grid.termHeight) (getAvailableScroll console)
  else 0

theorem resizeShrink_shifts (console : Console) (width height : Int) :
    console.Shifts (shrinkShift console height) (resizeShrink console width height) := by
  unfold resizeShrink shrinkShift
  split
  · dsimp only
    generalize min (effectiveBufferLength console) console.grid.termHeight - height = amount
    split
    · rename_i covered
      rw [max_eq_left covered.le]
      have copied : console.Shifts 0
          { console with
            grid := console.grid.displayCall
              (.copyRows amount (console.grid.display.height - 1) (-amount)) } :=
        (Console.Shifts.refl console).draw ⟨rfl, rfl, rfl, rfl, rfl⟩
      have shifted := copied.trans (shiftRows_shifts _ (-amount))
      rw [Int.zero_add, Int.neg_neg] at shifted
      exact shifted.draw (redraw_draws ..)
    · rename_i room
      rw [max_eq_right (not_lt.mp room)]
      exact .refl console
  · exact .refl console

/-- A shift does not change how many rows can be pulled back. -/
theorem Console.Shifts.growShift {first second : Console} {amount : Int}
    (shifts : first.Shifts amount second) (height : Int) :
    growShift second height = growShift first height := by
  rw [Terminal.growShift, shifts.termHeight, shifts.getAvailableScroll]
  rfl

theorem resizeGrow_shifts (console : Console) (width height : Int) :
    console.Shifts (-growShift console height) (resizeGrow console width height) := by
  unfold resizeGrow growShift
  split
  · have shifted := shiftRows_shifts console
      (min (height - console.grid.termHeight) (getAvailableScroll console))
    dsimp only
    generalize shiftRows console
      (min (height - console.grid.termHeight) (getAvailableScroll console)) = after at shifted ⊢
    generalize min (height - console.grid.termHeight) (getAvailableScroll console) = amount
      at shifted ⊢
    split
    · refine shifted.draw (Grid.Draws.redraw ?_ ..)
      exact ⟨rfl, rfl, rfl, rfl, rfl⟩
    · have drawn := redraw_draws after.grid after.grid.termHeight 0
        (after.grid.termHeight + after.grid.scrollOffset - 1) (width - 1)
      split
      · refine shifted.draw (Grid.Draws.redraw (drawn.trans ?_) ..)
        exact ⟨rfl, rfl, rfl, rfl, rfl⟩
      · exact shifted.draw (drawn.trans ⟨rfl, rfl, rfl, rfl, rfl⟩)
  · exact .refl console

/-- The number of rows that a resize to a height moves above the screen, negative if it pulls rows
back onto it. -/
def resizeShift (console : Console) (height : Int) : Int :=
  shrinkShift console height - growShift console height

/-- The console of a resize just before the cursor and the size are set. -/
theorem resizeCells_shifts (console : Console) (width height : Int) :
    ∃ shifted, console.Shifts (resizeShift console height) shifted
      ∧ (resizeCells console width height).grid.buffer = shifted.grid.buffer
      ∧ (resizeCells console width height).grid.selection = shifted.grid.selection
      ∧ (resizeCells console width height).requestedScrollback = shifted.requestedScrollback
      ∧ (resizeCells console width height).maxScrollback = shifted.maxScrollback := by
  have shrunk := resizeShrink_shifts console width height
  unfold resizeCells
  generalize resizeShrink console width height = first at shrunk
  have displayed : console.Shifts (shrinkShift console height)
      { first with grid := resizeDisplay first.grid width height } :=
    shrunk.draw ⟨rfl, rfl, rfl, rfl, rfl⟩
  dsimp only
  generalize resizeDisplay first.grid width height = grid at displayed
  have widened : console.Shifts (shrinkShift console height)
      (if width > grid.termWidth then
        { first with grid := redraw grid 0 (grid.termWidth - 1) (height - 1) (width - 1) }
      else { first with grid := grid }) := by
    split
    · exact displayed.draw (redraw_draws ..)
    · exact displayed
  generalize (if width > grid.termWidth then _ else _ : Console) = second at widened
  have grown := widened.trans (resizeGrow_shifts second width height)
  rw [widened.growShift] at grown
  exact ⟨_, grown, rfl, rfl, rfl, rfl⟩

/-! ## Any number of resizes -/

/-- `__guac_terminal_resize`, for a width and a height. -/
def resizeStep (console : Console) (size : Int × Int) : Console :=
  resizeCells console size.1 size.2

/-- The number of rows in use that a screen of some height has no room for. -/
def rowsAbove (console : Console) (height : Int) : Int :=
  max (min console.grid.buffer.length (min console.requestedScrollback console.maxScrollback)
    - height) 0

/-- If the scrollback holds the height of the screen, it does not depend on that height how much of
the buffer is available. -/
theorem effectiveBufferLength_of_le {console : Console}
    (holds : console.grid.termHeight ≤ console.requestedScrollback) :
    effectiveBufferLength console =
      min console.grid.buffer.length (min console.requestedScrollback console.maxScrollback) := by
  unfold effectiveBufferLength
  rw [if_neg (not_lt.mpr holds)]
  dsimp only
  split_ifs <;> omega

/-- Between heights that the scrollback holds, the rows are shifted by the difference of the rows
that are above the screen. -/
theorem resizeShift_eq {console : Console} {height : Int}
    (holds : console.grid.termHeight ≤ console.requestedScrollback) :
    resizeShift console height
      = rowsAbove console height - rowsAbove console console.grid.termHeight := by
  unfold resizeShift shrinkShift growShift getAvailableScroll rowsAbove
  rw [effectiveBufferLength_of_le holds]
  split_ifs <;> omega

/-- A run of resizes to heights that the scrollback holds. -/
structure Resized (before after : Console) : Prop where
  length : after.grid.buffer.length = before.grid.buffer.length
  available : after.grid.buffer.available = before.grid.buffer.available
  requestedScrollback : after.requestedScrollback = before.requestedScrollback
  maxScrollback : after.maxScrollback = before.maxScrollback
  holds : after.grid.termHeight ≤ after.requestedScrollback
  top : after.grid.buffer.top = before.grid.buffer.top
    + (rowsAbove before after.grid.termHeight - rowsAbove before before.grid.termHeight)

theorem Resized.step {before console : Console} (resized : Resized before console)
    (size : Int × Int) (holds : size.2 ≤ before.requestedScrollback) :
    Resized before (resizeStep console size) := by
  obtain ⟨shifted, shifts, buffer, -, requested, maximum⟩ :=
    resizeCells_shifts console size.1 size.2
  have sameRows (height : Int) : rowsAbove console height = rowsAbove before height := by
    rw [rowsAbove, resized.length, resized.requestedScrollback, resized.maxScrollback]
    rfl
  refine
    { length := (congrArg Buffer.length buffer).trans (shifts.length.trans resized.length)
      available := (congrArg Buffer.available buffer).trans
        (shifts.available.trans resized.available)
      requestedScrollback := requested.trans
        (shifts.requestedScrollback.trans resized.requestedScrollback)
      maxScrollback := maximum.trans (shifts.maxScrollback.trans resized.maxScrollback)
      holds := ?_
      top := ?_ }
  · rw [resizeStep, requested, shifts.requestedScrollback, resized.requestedScrollback]
    exact holds
  · have height : (resizeStep console size).grid.termHeight = size.2 := rfl
    calc (resizeStep console size).grid.buffer.top
      _ = shifted.grid.buffer.top := congrArg Buffer.top buffer
      _ = console.grid.buffer.top + resizeShift console size.2 := shifts.top
      _ = _ := by
        rw [resizeShift_eq resized.holds, sameRows, sameRows, resized.top, height]
        omega

theorem Resized.exec {before console : Console} (resized : Resized before console)
    {sizes : List (Int × Int)} (visited : ∀ size ∈ sizes, size.2 ≤ before.requestedScrollback) :
    Resized before (exec resizeStep console sizes) := by
  induction sizes generalizing console with
  | nil => exact resized
  | cons size sizes ih =>
      obtain ⟨holds, visited⟩ := List.forall_mem_cons.mp visited
      exact ih (resized.step size holds) visited

/-- A console has been resized by no resizes at all. -/
theorem Resized.refl {console : Console}
    (holds : console.grid.termHeight ≤ console.requestedScrollback) : Resized console console where
  length := rfl
  available := rfl
  requestedScrollback := rfl
  maxScrollback := rfl
  holds := holds
  top := by omega

theorem Resized.index {before first second : Console} (left : Resized before first)
    (right : Resized before second)
    (same : first.grid.termHeight = second.grid.termHeight) :
    first.grid.buffer.top = second.grid.buffer.top
      ∧ ∀ row, first.grid.buffer.index row = second.grid.buffer.index row := by
  have top : first.grid.buffer.top = second.grid.buffer.top := by
    rw [left.top, right.top, same]
  refine ⟨top, fun row => ?_⟩
  rw [Buffer.index, Buffer.index, top, left.available, right.available]

/-- **If the scrollback holds every height that is visited, the row of the buffer at the top of the
screen depends only on the last height: returning to a height restores it, and runs to the same
height agree.** -/
theorem resize_roundTrip (console : Console) (sizes : List (Int × Int))
    (holds : console.grid.termHeight ≤ console.requestedScrollback)
    (visited : ∀ size ∈ sizes, size.2 ≤ console.requestedScrollback) :
    ((exec resizeStep console sizes).grid.termHeight = console.grid.termHeight →
      (exec resizeStep console sizes).grid.buffer.top = console.grid.buffer.top
        ∧ ∀ row, (exec resizeStep console sizes).grid.buffer.index row
          = console.grid.buffer.index row)
      ∧ ∀ others : List (Int × Int), (∀ size ∈ others, size.2 ≤ console.requestedScrollback) →
        (exec resizeStep console others).grid.termHeight
          = (exec resizeStep console sizes).grid.termHeight →
        (exec resizeStep console others).grid.buffer.top
          = (exec resizeStep console sizes).grid.buffer.top := by
  have resized := (Resized.refl holds).exec visited
  exact ⟨resized.index (Resized.refl holds), fun others otherwise same =>
    (((Resized.refl holds).exec otherwise).index resized same).1⟩

/-- A terminal of three rows is made lower, narrower and higher. -/
theorem resize_roundTrip_three_rows :
    (exec resizeStep (create sampleMetrics (sampleOptions 3 2)).toConsole
        [(2, 1), (1, 5), (2, 3)]).grid.buffer.top
      = (create sampleMetrics (sampleOptions 3 2)).toConsole.grid.buffer.top := by
  have height : (create sampleMetrics (sampleOptions 3 2)).toConsole.grid.termHeight = 3 :=
    (create_sameSize sampleMetrics (sampleOptions 3 2)).1
  have requested : (create sampleMetrics (sampleOptions 3 2)).toConsole.requestedScrollback = 1000 :=
    rfl
  generalize (create sampleMetrics (sampleOptions 3 2)).toConsole = console at height requested
  refine ((resize_roundTrip console _ ?_ ?_).1 ?_).1
  · rw [height, requested]
    decide
  · rw [requested]
    decide
  · exact height.symm

end GuacNebula.Terminal
