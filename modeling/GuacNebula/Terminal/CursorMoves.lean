import GuacNebula.Terminal.Cursor

/-! # Control sequences that move the cursor

The position that a control sequence asks for is computed in `int` before it is moved to the screen.
A sum with a large parameter wraps around there, so that the cursor is moved to the other side of the
screen.

The main result is `csi_movement_iff`: the cursor is moved to the position on the screen that is
closest to the one asked for if and only if no such sum wraps around (or all columns are the same).
-/

namespace GuacNebula.Terminal

open CInt

/-- The functions that move the cursor by or to parameters. -/
def CsiFunction.isMovement : CsiFunction → Bool
  | .moveUp | .moveDown | .moveRight | .moveLeft | .nextLine | .previousLine | .moveColumn
  | .moveTo | .moveRow => true
  | _ => false

/-- The row and the column that a function asks for: counts and positions that are zero stand for
one, and positions count from one. -/
def requestedPosition (console : Console) (argv : Nat → Int) (function : CsiFunction) : Int × Int :=
  let amount := max (argv 0) 1
  let row := console.cursorRow
  let col := console.cursorCol
  match function with
  | .moveUp => (row - amount, col)
  | .moveDown => (row + amount, col)
  | .moveRight => (row, col + amount)
  | .moveLeft => (row, col - amount)
  | .nextLine => (row + amount, 0)
  | .previousLine => (row - amount, 0)
  | .moveColumn => (row, amount - 1)
  | .moveTo => (amount - 1, max (argv 1) 1 - 1)
  | .moveRow => (amount - 1, col)
  | _ => (row, col)

/-- The value from zero on and below a size that is closest to a position. -/
def clampTo (size position : Int) : Int := max 0 (min position (size - 1))

/-- The position on the screen that is closest to another one. -/
def Console.nearest (console : Console) (position : Int × Int) : Int × Int :=
  (clampTo console.grid.termHeight position.1, clampTo console.grid.termWidth position.2)

/-- The sum that a function computes is a value of `int`, or the screen has one column. -/
def MoveFits (console : Console) (argv : Nat → Int) : CsiFunction → Prop
  | .moveDown | .nextLine => FitsInt (console.cursorRow + max (argv 0) 1)
  | .moveRight => FitsInt (console.cursorCol + max (argv 0) 1) ∨ console.grid.termWidth = 1
  | _ => True

/-- The sizes are values of `int`, and there is a column. -/
structure Console.SizesFit (console : Console) : Prop where
  wide : 0 < console.grid.termWidth
  width : FitsInt console.grid.termWidth
  height : FitsInt console.grid.termHeight

theorem csiAmount_eq {argument : Int} (nonneg : 0 ≤ argument) :
    csiAmount argument = max argument 1 := by
  unfold csiAmount
  split <;> omega

theorem csiPosition_eq {argument : Int} (nonneg : 0 ≤ argument) (fits : FitsInt argument) :
    csiPosition argument = max argument 1 - 1 := by
  unfold csiPosition
  unfold FitsInt at fits
  split
  · rw [toInt_of_fits (by unfold FitsInt; omega)]
    omega
  · omega

variable {console : Console}

/-- The cursor is moved to the nearest position on the screen. -/
theorem moveCursor_nearest (row col : Int) (tall : 0 < console.grid.termHeight)
    (wide : 0 < console.grid.termWidth) :
    ((moveCursor console row col).cursorRow, (moveCursor console row col).cursorCol)
      = console.nearest (row, col) := by
  unfold Console.nearest clampTo
  refine Prod.ext ?_ ?_
  · simp only [moveCursor]
    split_ifs <;> omega
  · simp only [moveCursor]
    split_ifs <;> omega

/-- A sum of a position and a count that wraps around is negative. -/
theorem clampTo_toInt_iff {size position amount : Int} (start : 0 ≤ position)
    (stop : position ≤ size + 1) (sizeFits : FitsInt size) (count : 0 < amount)
    (fits : FitsInt amount) (some : 0 < size) :
    clampTo size (toInt (position + amount)) = clampTo size (position + amount) ↔
      FitsInt (position + amount) ∨ size = 1 := by
  unfold FitsInt at sizeFits fits
  by_cases sum : FitsInt (position + amount)
  · rw [toInt_of_fits sum]
    exact iff_of_true rfl (Or.inl sum)
  · have wrapped : toInt (position + amount) < 0 := by
      unfold FitsInt at sum
      unfold toInt
      omega
    unfold FitsInt at sum ⊢
    unfold clampTo
    omega

theorem nearest_row_iff {row other col : Int} :
    console.nearest (row, col) = console.nearest (other, col) ↔
      clampTo console.grid.termHeight row = clampTo console.grid.termHeight other := by
  simp [Console.nearest]

theorem nearest_col_iff {row col other : Int} :
    console.nearest (row, col) = console.nearest (row, other) ↔
      clampTo console.grid.termWidth col = clampTo console.grid.termWidth other := by
  simp [Console.nearest]

/-- A function moves the cursor to the nearest position exactly if its sum does not wrap around. -/
theorem csiConsole_movement_iff (valid : console.CursorOnScreen) (sizes : console.SizesFit)
    (argc : Nat) (argv : Nat → Int) (privateMode : UInt8) (function : CsiFunction)
    (movement : function.isMovement = true)
    (parameters : ∀ index < 2, 0 ≤ argv index ∧ FitsInt (argv index)) :
    ((csiConsole console argc argv privateMode function).cursorRow,
        (csiConsole console argc argv privateMode function).cursorCol)
      = console.nearest (requestedPosition console argv function) ↔
        MoveFits console argv function := by
  have tall := valid.rows
  obtain ⟨rowStart, rowEnd, colStart, colEnd⟩ := valid
  obtain ⟨wide, width, height⟩ := sizes
  obtain ⟨nonneg, fits⟩ := parameters 0 Nat.two_pos
  have amount := csiAmount_eq nonneg
  have position := csiPosition_eq nonneg fits
  have other := csiPosition_eq (parameters 1 Nat.one_lt_two).1 (parameters 1 Nat.one_lt_two).2
  have count : 0 < max (argv 0) 1 := by omega
  have countFits : FitsInt (max (argv 0) 1) := by
    unfold FitsInt at fits ⊢
    omega
  have rowFits : FitsInt (console.cursorRow - max (argv 0) 1) := by
    unfold FitsInt at fits height ⊢
    omega
  have colFits : FitsInt (console.cursorCol - max (argv 0) 1) := by
    unfold FitsInt at fits width ⊢
    omega
  -- A screen of one row has no room for the cursor from which a sum could wrap around.
  have rowSum : clampTo console.grid.termHeight (toInt (console.cursorRow + max (argv 0) 1))
      = clampTo console.grid.termHeight (console.cursorRow + max (argv 0) 1) ↔
        FitsInt (console.cursorRow + max (argv 0) 1) := by
    rw [clampTo_toInt_iff rowStart (by omega) height count countFits tall]
    unfold FitsInt at countFits ⊢
    omega
  have colSum := clampTo_toInt_iff colStart colEnd width count countFits wide
  cases function with
  | moveUp =>
      rw [csiConsole, moveCursor_nearest _ _ tall wide, amount, toInt_of_fits rowFits]
      exact iff_of_true rfl trivial
  | moveDown =>
      rw [csiConsole, moveCursor_nearest _ _ tall wide, amount, requestedPosition, nearest_row_iff]
      exact rowSum
  | moveRight =>
      rw [csiConsole, moveCursor_nearest _ _ tall wide, amount, requestedPosition, nearest_col_iff]
      exact colSum
  | moveLeft =>
      rw [csiConsole, moveCursor_nearest _ _ tall wide, amount, toInt_of_fits colFits]
      exact iff_of_true rfl trivial
  | nextLine =>
      rw [csiConsole, moveCursor_nearest _ _ tall wide, amount, requestedPosition, nearest_row_iff]
      exact rowSum
  | previousLine =>
      rw [csiConsole, moveCursor_nearest _ _ tall wide, amount, toInt_of_fits rowFits]
      exact iff_of_true rfl trivial
  | moveColumn =>
      rw [csiConsole, moveCursor_nearest _ _ tall wide, position]
      exact iff_of_true rfl trivial
  | moveTo =>
      rw [csiConsole, moveCursor_nearest _ _ tall wide, position, other]
      exact iff_of_true rfl trivial
  | moveRow =>
      rw [csiConsole, moveCursor_nearest _ _ tall wide, position]
      exact iff_of_true rfl trivial
  | _ => exact absurd movement Bool.false_ne_true

/-- The byte that ends a control sequence moves the cursor to the position on the screen that is
nearest to the one asked for if and only if the sum of position and parameter does not wrap around. -/
theorem csi_movement_iff {term : Term} (valid : term.CursorOnScreen) (sizes : term.SizesFit)
    {c : UInt8} (final : 0x40 ≤ c ∧ c ≤ 0x7E) (movement : (csiFunction c).isMovement = true)
    (parameters : ∀ index < 2, 0 ≤ (csiFinishParameter term.statics).argv index
      ∧ FitsInt ((csiFinishParameter term.statics).argv index)) :
    ((csi term c).cursorRow, (csi term c).cursorCol)
      = term.nearest (requestedPosition term.toConsole (csiFinishParameter term.statics).argv
          (csiFunction c)) ↔
        MoveFits term.toConsole (csiFinishParameter term.statics).argv (csiFunction c) := by
  rw [csi_toConsole samplePlatform, csiOperation, if_pos final]
  exact csiConsole_movement_iff valid sizes _ _ _ _ movement parameters

/-- The terminal of three rows of two columns, after the given bytes. -/
def afterBytes (bytes : List UInt8) : Term :=
  bytes.foldl (writeByte samplePlatform) (create sampleMetrics (sampleOptions 3 2))

/-- The cursor is moved down from the first row without a parameter. -/
theorem csi_moves_down :
    ((csi (afterBytes [0x1B, 0x5B]) 0x42).cursorRow, (csi (afterBytes [0x1B, 0x5B]) 0x42).cursorCol)
      = (afterBytes [0x1B, 0x5B]).nearest (requestedPosition (afterBytes [0x1B, 0x5B]).toConsole
          (csiFinishParameter (afterBytes [0x1B, 0x5B]).statics).argv (csiFunction 0x42)) :=
  (csi_movement_iff
    ⟨by decide +kernel, by decide +kernel, by decide +kernel, by decide +kernel⟩
    ⟨by decide +kernel, by decide +kernel, by decide +kernel⟩ (by decide) (by decide)
    (by decide +kernel)).mpr (by decide +kernel : FitsInt _)

/-- From the second row the cursor is moved to the first one by the largest count of rows down. -/
theorem csi_moves_up :
    let before := afterBytes ([0x1B, 0x5B, 0x32, 0x64, 0x1B, 0x5B] ++ bytesOf "2147483647")
    ((csi before 0x42).cursorRow, (csi before 0x42).cursorCol)
      ≠ before.nearest (requestedPosition before.toConsole
          (csiFinishParameter before.statics).argv (csiFunction 0x42)) := by
  decide +kernel

end GuacNebula.Terminal
