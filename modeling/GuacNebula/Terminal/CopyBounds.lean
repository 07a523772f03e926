import GuacNebula.Terminal.State

/-! # The bounds of copies within the display

Both functions that copy pending operations fit the range that is copied to the display, and again
after it has been moved, from where it is moved back. The source may lie outside the display then, and
the number of operations may be negative, which `memmove` takes for a large one.

The main result is `copy_within_iff`: a copy stays within the display if and only if it moves by less
than the size of the display and does not end before it starts.
-/

namespace GuacNebula.Terminal

open CInt

/-- `sizeof(guac_terminal_operation)`. -/
def operationSize : Nat := 44

/-- What a copy does along one direction of the display, whose rows or columns take `unit` bytes: the
range that is copied, where it is copied to, and the number of bytes that `memmove` is given. -/
structure CopyAccess where
  first : Int
  last : Int
  target : Int
  bytes : Nat
  deriving DecidableEq, Repr

/-- The computation that `guac_terminal_display_copy_rows` and `guac_terminal_display_copy_columns`
share. -/
def copyAccess (start stop offset limit : Int) (unit : Nat) : CopyAccess :=
  let start := fitToRange start 0 (limit - 1)
  let stop := fitToRange stop 0 (limit - 1)
  let start := toInt (fitToRange (toInt (start + offset)) 0 (limit - 1) - offset)
  let stop := toInt (fitToRange (toInt (stop + offset)) 0 (limit - 1) - offset)
  { first := start
    last := stop
    target := toInt (start + offset)
    bytes := toSize (toInt (stop - start + 1)) * unit % sizeLimit }

/-- The operations that are read and written lie within the display, and so do the sources that are
recorded by the loop over the range. -/
structure CopyAccess.Within (access : CopyAccess) (limit : Int) (unit : Nat) : Prop where
  read : access.bytes ≠ 0 →
    0 ≤ access.first ∧ access.first * unit + access.bytes ≤ limit * unit
  written : access.bytes ≠ 0 →
    0 ≤ access.target ∧ access.target * unit + access.bytes ≤ limit * unit
  updated : ∀ index, access.first ≤ index → index ≤ access.last →
    0 ≤ access.target + (index - access.first) ∧ access.target + (index - access.first) < limit
  recorded : ∀ index, access.first ≤ index → index ≤ access.last → 0 ≤ index ∧ index < limit

/-- The size of a display whose operations can be counted by `int`, as those of a terminal can. -/
structure DisplaySize where
  width : Int
  height : Int
  wide : 1 ≤ width
  tall : 1 ≤ height
  operations : width * height ≤ 1073741824

/-- The operations that a call copies lie within the display, and so do their sources. -/
def DisplayCall.Within (size : DisplaySize) : DisplayCall → Prop
  | .setColumns _ _ _ _ => True
  | .copyRows startRow endRow offset =>
      (copyAccess startRow endRow offset size.height (operationSize * size.width.toNat)).Within
        size.height (operationSize * size.width.toNat)
  | .copyColumns row startColumn endColumn offset =>
      if row < 0 ∨ row ≥ size.height then True
      else (copyAccess startColumn endColumn offset size.width operationSize).Within size.width
        operationSize

/-- The offset is smaller than the display, and the range, as far as it is within the display, neither
ends before it starts nor does so after it has been moved. The only other range that is safe is the
display of two rows or columns that is moved by the largest offset, where nothing is copied. -/
def CopyFits (start stop offset limit : Int) : Prop :=
  let start := fitToRange start 0 (limit - 1)
  let stop := fitToRange stop 0 (limit - 1)
  (-limit < offset ∧ offset < limit
      ∧ (start ≤ stop + 1 ∨ start + offset ≤ 1 ∨ limit - 2 ≤ stop + offset))
    ∨ (limit = 2 ∧ offset = 2147483647 ∧ start = 0 ∧ stop = 1)

/-- The condition for a call to copy within the display. -/
def DisplayCall.CopyFits (size : DisplaySize) : DisplayCall → Prop
  | .setColumns _ _ _ _ => True
  | .copyRows startRow endRow offset => Terminal.CopyFits startRow endRow offset size.height
  | .copyColumns row startColumn endColumn offset =>
      row < 0 ∨ row ≥ size.height ∨ Terminal.CopyFits startColumn endColumn offset size.width

section

variable {start stop offset limit : Int}

theorem movedBytes_eq (count : Int) (unit : Nat) :
    ((toSize count * unit % sizeLimit : Nat) : Int) = count * unit % 18446744073709551616 := by
  unfold toSize sizeLimit
  rw [Int.natCast_emod, Int.natCast_mul, Int.toNat_of_nonneg (Int.emod_nonneg _ (by decide)),
    Int.mul_emod, Nat.cast_ofNat, Int.emod_emod, ← Int.mul_emod]

/-- A number of rows or columns that is negative is taken for more bytes than there are. -/
theorem movedBytes_cases {count : Int} {unit : Nat} (some : 0 < unit) (low : -limit ≤ count)
    (high : count ≤ limit) (size : limit * unit ≤ 4611686018427387904) :
    (0 ≤ count ∧ ((toSize count * unit % sizeLimit : Nat) : Int) = count * unit)
      ∨ (count < 0 ∧ limit * unit < (toSize count * unit % sizeLimit : Nat)) := by
  have positive : (0 : Int) < unit := Int.natCast_pos.mpr some
  have upper : count * unit ≤ limit * unit := Int.mul_le_mul_of_nonneg_right high positive.le
  have lower : -(limit * unit) ≤ count * unit := by
    rw [← Int.neg_mul]
    exact Int.mul_le_mul_of_nonneg_right low positive.le
  rw [movedBytes_eq]
  by_cases negative : count < 0
  · have product : count * unit < 0 := Int.mul_neg_of_neg_of_pos negative positive
    exact Or.inr ⟨negative, by omega⟩
  · have product : 0 ≤ count * unit := Int.mul_nonneg (Int.not_lt.mp negative) positive.le
    exact Or.inl ⟨Int.not_lt.mp negative, by omega⟩

/-- The copy stays within the display exactly if nothing is copied or the source lies there. -/
theorem within_iff {first last : Int} {unit : Nat} (some : 0 < unit)
    (size : limit * unit ≤ 4611686018427387904) (limitFits : limit ≤ 1073741824)
    (firstIn : 0 ≤ first ∧ first < limit) (lastIn : 0 ≤ last ∧ last < limit)
    (edge : first = last + 1 → toInt (first - offset) ≠ -2147483648) :
    CopyAccess.Within
        { first := toInt (first - offset)
          last := toInt (last - offset)
          target := toInt (toInt (first - offset) + offset)
          bytes := toSize (toInt (toInt (last - offset) - toInt (first - offset) + 1)) * unit
            % sizeLimit } limit unit
      ↔ first = last + 1 ∨ (first ≤ last ∧ 0 ≤ toInt (first - offset)
          ∧ toInt (first - offset) + (last - first) < limit) := by
  have positive : (0 : Int) < unit := Int.natCast_pos.mpr some
  have count : toInt (toInt (last - offset) - toInt (first - offset) + 1) = last - first + 1 := by
    unfold toInt
    omega
  have target : toInt (toInt (first - offset) + offset) = first := by
    unfold toInt
    omega
  have bytes := movedBytes_cases some (by omega : -limit ≤ last - first + 1) (by omega) size
  rw [count, target]
  generalize toSize (last - first + 1) * unit % sizeLimit = moved at bytes ⊢
  constructor
  · rintro ⟨read, written, -, -⟩
    dsimp only at read written
    rcases bytes with ⟨nonneg, bytes⟩ | ⟨negative, bytes⟩
    · by_cases empty : first = last + 1
      · exact Or.inl empty
      · have nonzero : moved ≠ 0 := by
          rintro rfl
          have product : 0 < (last - first + 1) * unit := Int.mul_pos (by omega) positive
          omega
        obtain ⟨low, within⟩ := read nonzero
        rw [bytes, ← Int.add_mul] at within
        have high := Int.le_of_mul_le_mul_right within positive
        exact Or.inr ⟨by omega, low, by omega⟩
    · have size : 0 ≤ limit * unit := Int.mul_nonneg (by omega) positive.le
      obtain ⟨low, within⟩ := written (by omega)
      have product : 0 ≤ first * unit := Int.mul_nonneg low positive.le
      omega
  · rintro (empty | ⟨ordered, low, high⟩)
    · have none : moved = 0 := by
        rcases bytes with ⟨-, bytes⟩ | ⟨negative, -⟩
        · have zero : last - first + 1 = 0 := by omega
          rw [zero, Int.zero_mul] at bytes
          exact Int.natCast_eq_zero.mp bytes
        · omega
      have nowhere : toInt (last - offset) < toInt (first - offset) := by
        have start := edge empty
        unfold toInt at start ⊢
        omega
      exact ⟨fun some => absurd none some, fun some => absurd none some,
        fun index after before => absurd (after.trans before) (not_le.mpr nowhere),
        fun index after before => absurd (after.trans before) (not_le.mpr nowhere)⟩
    · have bytes : (moved : Int) = (last - first + 1) * unit := by
        rcases bytes with ⟨-, bytes⟩ | ⟨negative, -⟩
        · exact bytes
        · omega
      have stop : toInt (last - offset) = toInt (first - offset) + (last - first) := by
        unfold toInt at low high ⊢
        omega
      refine ⟨fun _ => ⟨low, ?_⟩, fun _ => ⟨firstIn.1, ?_⟩, fun index after before => ?_,
        fun index after before => ?_⟩
      · dsimp only
        rw [bytes, ← Int.add_mul]
        exact Int.mul_le_mul_of_nonneg_right (by omega) positive.le
      · dsimp only
        rw [bytes, ← Int.add_mul]
        exact Int.mul_le_mul_of_nonneg_right (by omega) positive.le
      · dsimp only at after before ⊢
        omega
      · dsimp only at after before ⊢
        omega

/-- An end of the range after it has been moved: a sum that wraps around is negative. -/
theorem fitToRange_moved {position : Int} (low : 0 ≤ position) (high : position ≤ limit - 1)
    (limitFits : limit ≤ 1073741824) (offsetFits : FitsInt offset) :
    (2147483648 ≤ position + offset ∧ fitToRange (toInt (position + offset)) 0 (limit - 1) = 0)
      ∨ (position + offset < 2147483648
        ∧ fitToRange (toInt (position + offset)) 0 (limit - 1)
          = max 0 (min (position + offset) (limit - 1))) := by
  unfold FitsInt at offsetFits
  by_cases wraps : 2147483648 ≤ position + offset
  · have negative : toInt (position + offset) < 0 := by
      unfold toInt
      omega
    exact Or.inl ⟨wraps, if_pos negative⟩
  · have fits : FitsInt (position + offset) := by
      unfold FitsInt
      omega
    rw [toInt_of_fits fits]
    refine Or.inr ⟨not_le.mp wraps, ?_⟩
    unfold fitToRange
    omega

section

variable (tall : 1 ≤ limit) (limitFits : limit ≤ 1073741824) (offsetFits : FitsInt offset)
include tall limitFits offsetFits

/-- The range that is copied, after both clampings. -/
theorem copyFits_iff :
    let first := fitToRange (toInt (fitToRange start 0 (limit - 1) + offset)) 0 (limit - 1)
    let last := fitToRange (toInt (fitToRange stop 0 (limit - 1) + offset)) 0 (limit - 1)
    (first = last + 1 ∨ (first ≤ last ∧ 0 ≤ toInt (first - offset)
        ∧ toInt (first - offset) + (last - first) < limit))
      ↔ CopyFits start stop offset limit := by
  unfold CopyFits
  obtain ⟨startLow, startHigh⟩ := fitToRange_bounds start (by omega : 0 ≤ limit - 1)
  obtain ⟨stopLow, stopHigh⟩ := fitToRange_bounds stop (by omega : 0 ≤ limit - 1)
  dsimp only
  generalize fitToRange start 0 (limit - 1) = start at *
  generalize fitToRange stop 0 (limit - 1) = stop at *
  have first := fitToRange_moved startLow startHigh limitFits offsetFits
  have last := fitToRange_moved stopLow stopHigh limitFits offsetFits
  generalize fitToRange (toInt (start + offset)) 0 (limit - 1) = movedStart at *
  generalize fitToRange (toInt (stop + offset)) 0 (limit - 1) = movedStop at *
  unfold FitsInt at offsetFits
  unfold toInt
  rcases first with ⟨wraps, rfl⟩ | ⟨stays, same⟩
  · rcases last with ⟨wrapsToo, rfl⟩ | ⟨staysToo, other⟩ <;> omega
  · rcases last with ⟨wrapsToo, rfl⟩ | ⟨staysToo, other⟩ <;> omega

/-- A range that is empty does not start at the least `int`, behind which it would not end. -/
theorem empty_start_ne :
    let first := fitToRange (toInt (fitToRange start 0 (limit - 1) + offset)) 0 (limit - 1)
    let last := fitToRange (toInt (fitToRange stop 0 (limit - 1) + offset)) 0 (limit - 1)
    first = last + 1 → toInt (first - offset) ≠ -2147483648 := by
  obtain ⟨startLow, startHigh⟩ := fitToRange_bounds start (by omega : 0 ≤ limit - 1)
  have last := fitToRange_bounds (toInt (fitToRange stop 0 (limit - 1) + offset))
    (by omega : 0 ≤ limit - 1)
  dsimp only
  generalize fitToRange start 0 (limit - 1) = start at *
  have first := fitToRange_moved startLow startHigh limitFits offsetFits
  unfold FitsInt at offsetFits
  unfold toInt
  unfold toInt at first last
  omega

end

theorem copyAccess_within_iff {unit : Nat} (some : 0 < unit) (tall : 1 ≤ limit)
    (limitFits : limit ≤ 1073741824) (size : limit * unit ≤ 4611686018427387904)
    (offsetFits : FitsInt offset) :
    (copyAccess start stop offset limit unit).Within limit unit
      ↔ CopyFits start stop offset limit := by
  have first := fitToRange_bounds (toInt (fitToRange start 0 (limit - 1) + offset))
    (by omega : 0 ≤ limit - 1)
  have last := fitToRange_bounds (toInt (fitToRange stop 0 (limit - 1) + offset))
    (by omega : 0 ≤ limit - 1)
  refine Iff.trans ?_ (copyFits_iff tall limitFits offsetFits)
  exact within_iff some size limitFits ⟨first.1, by omega⟩ ⟨last.1, by omega⟩
    (empty_start_ne tall limitFits offsetFits)

/-- For an offset smaller than the display, the range is the one that the operations are moved from. -/
theorem copyAccess_range (tall : 1 ≤ limit) (limitFits : limit ≤ 1073741824)
    (small : -limit < offset ∧ offset < limit) (unit : Nat) :
    ((copyAccess start stop offset limit unit).first, (copyAccess start stop offset limit unit).last)
      = fitRange start stop offset limit := by
  have same : ∀ position, 0 ≤ position ∧ position ≤ limit - 1 →
      toInt (fitToRange (toInt (position + offset)) 0 (limit - 1) - offset)
        = fitToRange (position + offset) 0 (limit - 1) - offset := by
    intro position inside
    have sum : FitsInt (position + offset) := by
      unfold FitsInt
      omega
    have moved := fitToRange_bounds (position + offset) (by omega : 0 ≤ limit - 1)
    rw [toInt_of_fits sum]
    apply toInt_of_fits
    unfold FitsInt
    omega
  have inside := fun position => fitToRange_bounds position (by omega : 0 ≤ limit - 1)
  exact Prod.ext (same _ (inside start)) (same _ (inside stop))

end

/-- The offset of a copy is a value of `int`. -/
def DisplayCall.OffsetFits : DisplayCall → Prop
  | .setColumns _ _ _ _ => True
  | .copyRows _ _ offset => FitsInt offset
  | .copyColumns _ _ _ offset => FitsInt offset

/-- A copy reads, writes and records only operations of the display if and only if its offset is
smaller than the display and its range does not end before it starts. -/
theorem copy_within_iff (size : DisplaySize) (call : DisplayCall) (fits : call.OffsetFits) :
    call.Within size ↔ call.CopyFits size := by
  obtain ⟨width, height, wide, tall, operations⟩ := size
  have narrow : width ≤ 1073741824 := by
    have more := Int.mul_le_mul_of_nonneg_left tall (by omega : 0 ≤ width)
    omega
  have low : height ≤ 1073741824 := by
    have more := Int.mul_le_mul_of_nonneg_right wide (by omega : 0 ≤ height)
    omega
  cases call with
  | setColumns => exact Iff.rfl
  | copyRows startRow endRow offset =>
      have unit : ((operationSize * width.toNat : Nat) : Int) = 44 * width := by
        unfold operationSize
        omega
      have bytes : height * ((operationSize * width.toNat : Nat) : Int) = 44 * (width * height) := by
        rw [unit, Int.mul_left_comm, Int.mul_comm height]
      have some : 0 < operationSize * width.toNat := Int.natCast_pos.mp (by rw [unit]; omega)
      exact copyAccess_within_iff some tall low (by rw [bytes]; omega) fits
  | copyColumns row startColumn endColumn offset =>
      change (if row < 0 ∨ row ≥ height then True
          else (copyAccess startColumn endColumn offset width operationSize).Within width
            operationSize)
        ↔ row < 0 ∨ row ≥ height ∨ Terminal.CopyFits startColumn endColumn offset width
      split_ifs with outside
      · exact iff_of_true trivial (outside.imp_right Or.inl)
      · rw [not_or] at outside
        rw [or_iff_right outside.1, or_iff_right outside.2]
        exact copyAccess_within_iff Nat.succ_pos' wide narrow (by unfold operationSize; omega) fits

/-- The display of a terminal of three rows of two columns. -/
def sampleSize : DisplaySize where
  width := 2
  height := 3
  wide := by decide
  tall := by decide
  operations := by decide

/-- The first two rows are moved down by one. -/
theorem copy_within_down : (DisplayCall.copyRows 0 1 1).Within sampleSize :=
  (copy_within_iff sampleSize (.copyRows 0 1 1) (by decide : FitsInt 1)).mpr
    (Or.inl ⟨by decide, by decide, Or.inl (by decide)⟩)

/-- The call on the display with which `guac_terminal_scroll_down` begins. -/
theorem copyRows_events (grid : Grid) (startRow endRow offset : Int) :
    (copyRows grid startRow endRow offset).display.events
      = .call (.copyRows (startRow + grid.scrollOffset) (endRow + grid.scrollOffset) offset)
        :: grid.display.events := by
  unfold copyRows moveCursorRow
  dsimp only
  split <;> rfl

/-- Five lines are inserted in the first row of a screen of three rows, for which a row above the
display is read. -/
theorem copy_outside_display :
    let grid := (sampleOptions 3 2).grid 3 2
    (copyRows grid 0 (toInt (2 - 5)) 5).display.events
        = .call (.copyRows 0 (-3) 5) :: grid.display.events
      ∧ ¬ (DisplayCall.copyRows 0 (-3) 5).Within sampleSize :=
  ⟨copyRows_events _ _ _ _, fun within => absurd (within.read (by decide)).1 (by decide)⟩

end GuacNebula.Terminal
