import GuacNebula.Terminal.Breaks

/-! # The cells that drawing addresses

`guac_terminal_buffer_get_row` extends a row to the width it is asked for and never shortens it,
and nothing checks a column before the row is indexed with it. Whether only allocated cells are
addressed is thus decided by the columns that a call is given, by the width of its character and by
where the visible cursor is.

The main results are `setColumns_addresses` and `copyColumns_addresses`, to which everything else
that is drawn comes down.
-/

namespace GuacNebula.Terminal

/-- Every cell that an access addresses is allocated. -/
def Access.Within (access : Access) : Prop :=
  access.first ≤ access.last → 0 ≤ access.first ∧ access.last < access.capacity

/-- The number of cells a row has room for after it has been asked for with a width. -/
def Row.roomFor (row : Row) (width : Int) : Int :=
  if width > row.available then width * 2 else row.available

/-- The initialized cells of all rows are allocated, and so are the cells that have been
addressed. -/
structure Buffer.Sound (buffer : Buffer) : Prop where
  nonneg : ∀ index, 0 ≤ (buffer.rows index).length
  allocated : ∀ index, (buffer.rows index).length ≤ (buffer.rows index).available
  accesses : ∀ access ∈ buffer.accesses, access.Within

/-! ## Rows -/

section Rows

variable {row : Row} {width : Int}

theorem Row.available_le_roomFor (nonneg : 0 ≤ row.available) :
    row.available ≤ row.roomFor width := by
  unfold roomFor
  split
  all_goals omega

theorem Row.le_roomFor (nonneg : 0 ≤ row.available) : width ≤ row.roomFor width := by
  unfold roomFor
  split
  all_goals omega

/-- A row that is asked for with a width has room for it. -/
theorem Row.grow_available (defaultCharacter : TerminalChar)
    (allocated : row.length ≤ row.available) :
    (row.grow defaultCharacter width).available = row.roomFor width := by
  unfold grow roomFor
  split
  case isTrue extended => rfl
  case isFalse kept => exact (if_neg (by omega)).symm

end Rows

/-- A row is replaced by one whose initialized cells are allocated. -/
theorem Buffer.Sound.setRow {buffer : Buffer} (sound : buffer.Sound) (row : Int) {value : Row}
    (nonneg : 0 ≤ value.length) (allocated : value.length ≤ value.available) :
    (buffer.setRow row value).Sound := by
  have stored (index : Int) : 0 ≤ ((buffer.setRow row value).rows index).length
      ∧ ((buffer.setRow row value).rows index).length
        ≤ ((buffer.setRow row value).rows index).available := by
    unfold Buffer.setRow
    dsimp only
    by_cases own : index = buffer.index row
    · rw [own, Function.update_self]
      exact ⟨nonneg, allocated⟩
    · rw [Function.update_of_ne own]
      exact ⟨sound.nonneg index, sound.allocated index⟩
  exact ⟨fun index => (stored index).1, fun index => (stored index).2, sound.accesses⟩

theorem Buffer.Sound.available {buffer : Buffer} (sound : buffer.Sound) (row : Int) :
    0 ≤ (buffer.row row).available :=
  (sound.nonneg _).trans (sound.allocated _)

/-- A row is asked for with a width. -/
theorem Buffer.Sound.getRow {buffer : Buffer} (sound : buffer.Sound) (row width : Int) :
    (bufferGetRow buffer row width).Sound := by
  have allocated : (buffer.row row).length ≤ (buffer.row row).available := sound.allocated _
  apply sound.setRow
  · rw [Row.grow_length]
    exact (sound.nonneg _).trans (le_max_left ..)
  · rw [Row.grow_length, Row.grow_available _ allocated]
    exact max_le (allocated.trans (Row.available_le_roomFor (sound.available row)))
      (Row.le_roomFor (sound.available row))

/-! ## Operations on one row -/

theorem Grid.getRow_available {grid : Grid} (sound : grid.buffer.Sound) (row width : Int) :
    ((grid.getRow row width).row row).available = (grid.row row).roomFor width :=
  (congrArg Row.available (Buffer.setRow_row ..)).trans
    (Row.grow_available _ (sound.allocated _))

/-- What an operation on a row does to the memory of the buffer if it addresses allocated cells
only: the row does not shrink, and no other row changes. -/
structure Grid.Addresses (before : Grid) (row : Int) (after : Grid) : Prop where
  sound : after.buffer.Sound
  same : before.buffer.Same after.buffer
  length : (before.row row).length ≤ (after.row row).length
  available : (before.row row).available ≤ (after.row row).available
  others : ∀ index, index ≠ before.buffer.index row →
    after.buffer.rows index = before.buffer.rows index

namespace Grid.Addresses

variable {before middle after grid : Grid} {row : Int}

theorem index (addresses : before.Addresses row after) (other : Int) :
    after.buffer.index other = before.buffer.index other :=
  Buffer.index_congr addresses.same.2.2 addresses.same.1 other

theorem refl (sound : grid.buffer.Sound) (row : Int) : grid.Addresses row grid :=
  ⟨sound, ⟨rfl, rfl, rfl⟩, le_rfl, le_rfl, fun _ _ => rfl⟩

theorem trans (left : before.Addresses row middle) (right : middle.Addresses row after) :
    before.Addresses row after where
  sound := right.sound
  same := left.same.trans right.same
  length := left.length.trans right.length
  available := left.available.trans right.available
  others index other :=
    (right.others index (by rw [left.index]; exact other)).trans (left.others index other)

/-- Cells are addressed. -/
theorem access (sound : grid.buffer.Sound) {first last : Int}
    (within : first ≤ last → 0 ≤ first ∧ last < (grid.row row).available) :
    grid.Addresses row (grid.access row first last) where
  sound := by
    refine ⟨sound.nonneg, sound.allocated, fun access member => ?_⟩
    rcases List.mem_cons.mp member with rfl | earlier
    · exact within
    · exact sound.accesses access earlier
  same := ⟨rfl, rfl, rfl⟩
  length := le_rfl
  available := le_rfl
  others _ _ := rfl

/-- A row is replaced by one that is not smaller. -/
theorem setRow (sound : grid.buffer.Sound) {value : Row}
    (length : (grid.row row).length ≤ value.length) (allocated : value.length ≤ value.available)
    (available : (grid.row row).available ≤ value.available) :
    grid.Addresses row (grid.onBuffer (·.setRow row value)) := by
  have same : (grid.onBuffer (·.setRow row value)).row row = value := Buffer.setRow_row ..
  refine ⟨Buffer.Sound.setRow sound row ((sound.nonneg _).trans length) allocated, ⟨rfl, rfl, rfl⟩,
    ?_, ?_, fun index other => Function.update_of_ne other ..⟩
  · rw [same]
    exact length
  · rw [same]
    exact available

/-- What reads and writes neither rows nor cells adds nothing. -/
theorem of_buffer (addresses : before.Addresses row middle)
    (rows : after.buffer.rows = middle.buffer.rows)
    (accesses : after.buffer.accesses = middle.buffer.accesses)
    (same : middle.buffer.Same after.buffer) : before.Addresses row after := by
  have contents (other : Int) : after.row other = middle.row other := by
    unfold Grid.row Buffer.row
    rw [rows, Buffer.index_congr same.2.2 same.1]
  refine ⟨⟨?_, ?_, ?_⟩, addresses.same.trans same, ?_, ?_, ?_⟩
  · rw [rows]
    exact addresses.sound.nonneg
  · rw [rows]
    exact addresses.sound.allocated
  · rw [accesses]
    exact addresses.sound.accesses
  · rw [contents]
    exact addresses.length
  · rw [contents]
    exact addresses.available
  · rw [rows]
    exact addresses.others

/-- A row is asked for with a width. -/
theorem getRow (sound : grid.buffer.Sound) (row width : Int) :
    grid.Addresses row (grid.getRow row width) := by
  have length : ((grid.getRow row width).row row).length = max (grid.row row).length width :=
    Grid.getRow_length ..
  have available : ((grid.getRow row width).row row).available = (grid.row row).roomFor width :=
    Grid.getRow_available sound ..
  refine ⟨sound.getRow row width, ⟨rfl, rfl, rfl⟩, ?_, ?_,
    fun index other => Function.update_of_ne other ..⟩
  · rw [length]
    exact le_max_left ..
  · rw [available]
    exact Row.available_le_roomFor (sound.available row)

end Grid.Addresses

/-! ## Columns -/

section Columns

variable {grid : Grid} {row : Int}

/-- The buffer after columns have been set: the row is asked for, cells are addressed and the row is
written. -/
theorem setColumnsRaw_buffer (grid : Grid) (row start stop : Int) {character : TerminalChar}
    (positive : character.width ≠ 0) {seen written : Grid}
    (addressed : seen = (grid.getRow row (stop + 1)).access row start
      (lastWritten start stop character.width))
    (set : written = seen.onBuffer (·.setRow row ((seen.row row).set start stop character))) :
    (setColumnsRaw grid row start stop character).buffer.rows = written.buffer.rows
      ∧ (setColumnsRaw grid row start stop character).buffer.accesses = written.buffer.accesses
      ∧ written.buffer.Same (setColumnsRaw grid row start stop character).buffer := by
  subst addressed set
  change (bufferSetColumns grid.buffer row start stop character).rows = _
    ∧ (bufferSetColumns grid.buffer row start stop character).accesses = _
    ∧ Buffer.Same _ (bufferSetColumns grid.buffer row start stop character)
  unfold bufferSetColumns
  rw [if_neg positive]
  dsimp only
  split
  · exact ⟨rfl, rfl, rfl, rfl, rfl⟩
  · exact ⟨rfl, rfl, rfl, rfl, rfl⟩

theorem lastWritten_ordered {start stop : Int} {width : Nat}
    (ordered : start ≤ lastWritten start stop width) : start ≤ stop := by
  unfold lastWritten at ordered
  split at ordered
  case isTrue within => exact within
  case isFalse empty => exact ordered

/-- Columns are set. The last cell written may stand behind the last column. -/
theorem setColumnsRaw_addresses (sound : grid.buffer.Sound) {start stop : Int}
    {character : TerminalChar} (positive : character.width ≠ 0)
    (fits : start ≤ stop → 0 ≤ start ∧
      lastWritten start stop character.width < (grid.row row).roomFor (stop + 1)) :
    grid.Addresses row (setColumnsRaw grid row start stop character)
      ∧ ((setColumnsRaw grid row start stop character).row row).available
        = (grid.row row).roomFor (stop + 1)
      ∧ stop + 1 ≤ ((setColumnsRaw grid row start stop character).row row).length := by
  have grown := Grid.Addresses.getRow sound row (stop + 1)
  have available := Grid.getRow_available sound row (stop + 1)
  have length := Grid.getRow_length grid row (stop + 1)
  have addressed : (grid.getRow row (stop + 1)).Addresses row
      ((grid.getRow row (stop + 1)).access row start (lastWritten start stop character.width)) := by
    apply Grid.Addresses.access grown.sound
    intro ordered
    rw [available]
    exact fits (lastWritten_ordered ordered)
  generalize asked : (grid.getRow row (stop + 1)).access row start
    (lastWritten start stop character.width) = seen at addressed
  have same : seen.row row = (grid.getRow row (stop + 1)).row row := by
    rw [← asked]
    rfl
  rw [← same] at available length
  have written : seen.Addresses row
      (seen.onBuffer (·.setRow row ((seen.row row).set start stop character))) :=
    .setRow addressed.sound le_rfl (addressed.sound.allocated _) le_rfl
  have contents : (seen.onBuffer (·.setRow row ((seen.row row).set start stop character))).row row
      = (seen.row row).set start stop character := Buffer.setRow_row ..
  generalize set : seen.onBuffer (·.setRow row ((seen.row row).set start stop character)) = after
    at written contents
  obtain ⟨rows, accesses, unmoved⟩ :=
    setColumnsRaw_buffer grid row start stop positive asked.symm set.symm
  have stored : (setColumnsRaw grid row start stop character).row row
      = (seen.row row).set start stop character := by
    rw [← contents]
    unfold Grid.row Buffer.row
    rw [rows, Buffer.index_congr unmoved.2.2 unmoved.1]
  refine ⟨((grown.trans addressed).trans written).of_buffer rows accesses unmoved, ?_, ?_⟩
  · rw [stored]
    exact available
  · rw [stored]
    exact (le_max_right ..).trans length.ge

/-- Clearing one side of an edge addresses the cells of what is cut. -/
theorem clearBroken_addresses (sound : grid.buffer.Sound) {start stop : Int} (nonneg : 0 ≤ start)
    (ordered : start ≤ stop) (within : stop < (grid.row row).available) :
    grid.Addresses row (clearBroken grid row start stop) := by
  have first : start ≤ brokenStart (grid.row row).characters start stop
      ∧ brokenStart (grid.row row).characters start stop ≤ stop := by
    unfold brokenStart
    split
    all_goals omega
  have seen : grid.Addresses row (grid.access row start stop) :=
    .access sound fun _ => ⟨nonneg, within⟩
  have again : (grid.access row start stop).Addresses row ((grid.access row start stop).access row
      (brokenStart (grid.row row).characters start stop)
      (brokenStart (grid.row row).characters start stop)) :=
    .access seen.sound fun _ => ⟨nonneg.trans first.1, first.2.trans_lt within⟩
  have read := seen.trans again
  unfold clearBroken
  dsimp only
  split
  case isTrue broken =>
    have room : (grid.row row).available ≤ (grid.row row).roomFor (stop + 1) :=
      Row.available_le_roomFor (sound.available row)
    refine read.trans (setColumnsRaw_addresses read.sound Nat.one_ne_zero fun _ => ?_).1
    refine ⟨nonneg.trans first.1, ?_⟩
    exact (lastWritten_one ..).trans_lt (within.trans_le room)
  case isFalse whole => exact read

theorem forceBreakLeft_addresses (sound : grid.buffer.Sound) {edge : Int}
    (within : edge ≤ (grid.row row).available) :
    grid.Addresses row (forceBreakLeft grid row edge) := by
  unfold forceBreakLeft
  split
  case isTrue positive =>
    have start := (scanStart_spec (grid.row row).characters (edge - 1).toNat).1
    have size := Int.toNat_of_nonneg (Int.le_sub_one_of_lt positive)
    exact clearBroken_addresses sound (Int.natCast_nonneg _) (by omega) (by omega)
  case isFalse outside => exact .refl sound row

theorem forceBreakRight_addresses (sound : grid.buffer.Sound) (row edge : Int) :
    grid.Addresses row (forceBreakRight grid row edge) := by
  have allocated : (grid.row row).length ≤ (grid.row row).available := sound.allocated _
  unfold forceBreakRight
  dsimp only
  split
  case isTrue inside =>
    obtain ⟨start, stop, -⟩ := scanEnd_spec (grid.row row).characters
      ((grid.row row).length - 1 - edge).toNat edge
    have size := Int.toNat_of_nonneg (show 0 ≤ (grid.row row).length - 1 - edge by omega)
    generalize scanEnd (grid.row row).characters ((grid.row row).length - 1 - edge).toNat edge
      = last at start stop ⊢
    have seen : grid.Addresses row
        (grid.access row edge (min (last + 1) ((grid.row row).length - 1))) :=
      .access sound fun _ => ⟨inside.1, by omega⟩
    refine seen.trans (clearBroken_addresses seen.sound inside.1 start ?_)
    exact (show last < (grid.row row).available by omega).trans_le seen.available
  case isFalse outside => exact .refl sound row

/-- A break addresses allocated cells if the cell left of the edge is one of them. -/
theorem forceBreak_addresses (sound : grid.buffer.Sound) {edge : Int}
    (within : edge ≤ (grid.row row).available) :
    grid.Addresses row (forceBreak grid row edge) := by
  have asked := Grid.Addresses.getRow sound row 0
  have left := asked.trans
    (forceBreakLeft_addresses asked.sound (within.trans asked.available))
  exact left.trans (forceBreakRight_addresses left.sound row edge)

theorem forceBreaks_addresses (sound : grid.buffer.Sound) {left right : Int}
    (first : left ≤ (grid.row row).available) (last : right ≤ (grid.row row).available) :
    grid.Addresses row (forceBreaks grid row left right) := by
  have broken := forceBreak_addresses sound first
  exact broken.trans (forceBreak_addresses broken.sound (last.trans broken.available))

/-- The calls that set columns address allocated cells: those that are written are allocated, that
of the visible cursor and what follows it included, and so is the cell left of the first
column. -/
structure Grid.SetFits (grid : Grid) (row start stop : Int) (width : Nat) : Prop where
  written : start ≤ stop → 0 ≤ start ∧
    lastWritten start stop width < (grid.row row).roomFor (stop + 1)
  cursor : grid.CursorIn row start stop →
    grid.visibleCursorCol + width ≤ (grid.row row).roomFor (stop + 1)
  left : start ≤ stop + 1 ∨ start ≤ (grid.row row).roomFor (stop + 1)

theorem setColumnsCursor_addresses (sound : grid.buffer.Sound) {start stop : Int}
    {character : TerminalChar} (positive : character.width ≠ 0)
    (fits : grid.SetFits row start stop character.width) :
    grid.Addresses row (setColumnsCursor grid row start stop character)
      ∧ (grid.row row).roomFor (stop + 1)
        ≤ ((setColumnsCursor grid row start stop character).row row).available
      ∧ stop + 1 ≤ ((setColumnsCursor grid row start stop character).row row).length := by
  obtain ⟨raw, available, length⟩ := setColumnsRaw_addresses sound positive fits.written
  have same : (setColumnsRaw grid row start stop character).CursorIn row start stop
      ↔ grid.CursorIn row start stop := Iff.rfl
  have column : (setColumnsRaw grid row start stop character).visibleCursorCol
      = grid.visibleCursorCol := rfl
  unfold setColumnsCursor
  dsimp only
  generalize setColumnsRaw grid row start stop character = set at raw available length same column ⊢
  split
  case isTrue cursor =>
    have inside := same.mp cursor
    have allocated : (set.row row).length ≤ (set.row row).available := raw.sound.allocated _
    have kept : (set.row row).roomFor (set.visibleCursorCol + 1) = (set.row row).available := by
      unfold Row.roomFor
      rw [if_neg]
      have last := inside.2.2
      omega
    have last : lastWritten set.visibleCursorCol set.visibleCursorCol character.withCursor.width
        = set.visibleCursorCol + character.width - 1 := by
      unfold lastWritten
      rw [if_pos le_rfl, Int.sub_self, Int.zero_emod, Int.sub_zero]
      rfl
    have nonneg : 0 ≤ set.visibleCursorCol := by
      have start := (fits.written (inside.2.1.le.trans inside.2.2)).1
      have after := inside.2.1
      omega
    have room := fits.cursor inside
    have marked : character.withCursor.width ≠ 0 := positive
    have written : set.visibleCursorCol ≤ set.visibleCursorCol → 0 ≤ set.visibleCursorCol ∧
        lastWritten set.visibleCursorCol set.visibleCursorCol character.withCursor.width
          < (set.row row).roomFor (set.visibleCursorCol + 1) :=
      fun _ => ⟨nonneg, by omega⟩
    obtain ⟨again, still, -⟩ := setColumnsRaw_addresses raw.sound marked written
    refine ⟨raw.trans again, ?_, length.trans again.length⟩
    omega
  case isFalse outside => exact ⟨raw, available.ge, length⟩

/-- **Setting columns addresses allocated cells.** -/
theorem setColumns_addresses (sound : grid.buffer.Sound) {start stop : Int}
    {character : TerminalChar} (positive : character.width ≠ 0)
    (fits : grid.SetFits row start stop character.width) :
    grid.Addresses row (setColumns grid row start stop character)
      ∧ (grid.row row).roomFor (stop + 1)
        ≤ ((setColumns grid row start stop character).row row).available
      ∧ stop + 1 ≤ ((setColumns grid row start stop character).row row).length := by
  obtain ⟨set, available, length⟩ := setColumnsCursor_addresses sound positive fits
  have allocated : ((setColumnsCursor grid row start stop character).row row).length
      ≤ ((setColumnsCursor grid row start stop character).row row).available :=
    set.sound.allocated _
  have broken := forceBreaks_addresses set.sound
    (show start ≤ _ from fits.left.elim (fun near => near.trans (length.trans allocated))
      fun within => within.trans available)
    (length.trans allocated)
  exact ⟨set.trans broken, available.trans broken.available, length.trans broken.length⟩

/-- A character that takes no column is not written, but breaks are forced. -/
theorem setColumns_empty_addresses (sound : grid.buffer.Sound) {start stop : Int}
    {character : TerminalChar} (empty : character.width = 0)
    (first : start ≤ (grid.row row).available) (last : stop + 1 ≤ (grid.row row).available) :
    grid.Addresses row (setColumns grid row start stop character) := by
  have none (other : Grid) (column after : Int) (unwritten : TerminalChar)
      (width : unwritten.width = 0) :
      (setColumnsRaw other row column after unwritten).buffer = other.buffer := by
    change bufferSetColumns other.buffer row column after unwritten = _
    unfold bufferSetColumns
    exact if_pos width
  have same : (setColumnsCursor grid row start stop character).buffer = grid.buffer := by
    unfold setColumnsCursor
    dsimp only
    split
    · have narrow : character.withCursor.width = 0 := empty
      exact (none _ _ _ _ narrow).trans (none _ _ _ _ empty)
    · exact none _ _ _ _ empty
  have kept : grid.Addresses row (setColumnsCursor grid row start stop character) := by
    refine (Grid.Addresses.refl sound row).of_buffer ?_ ?_ ?_
    · rw [same]
    · rw [same]
    · rw [same]
      exact ⟨rfl, rfl, rfl⟩
  exact kept.trans (forceBreaks_addresses kept.sound (first.trans kept.available)
    (last.trans kept.available))

/-! ## Copies -/

/-- A range that has been fitted to a row is copied within its memory if it moves by less than the
row is long to the right, and by less than it has room for to the left. -/
theorem Row.copyRange_within {row : Row} (some : 0 < row.length)
    (allocated : row.length ≤ row.available) (start stop : Int) {offset : Int}
    (low : -row.available < offset) (high : offset < row.length) :
    0 ≤ (row.copyRange start stop offset).1 ∧ (row.copyRange start stop offset).2 < row.available
      ∧ 0 ≤ (row.copyRange start stop offset).1 + offset
      ∧ (row.copyRange start stop offset).2 + offset < row.available := by
  have first := fitToRange_bounds start (Int.le_sub_one_of_lt some)
  have last := fitToRange_bounds stop (Int.le_sub_one_of_lt some)
  unfold Row.copyRange
  dsimp only
  generalize fitToRange start 0 (row.length - 1) = start at *
  generalize fitToRange stop 0 (row.length - 1) = stop at *
  unfold fitToRange
  split_ifs
  all_goals omega

/-- A row is copied within its memory. -/
def Row.CopyFits (row : Row) (stop offset : Int) : Prop :=
  0 < max row.length (stop + offset + 1) ∧ -row.roomFor (stop + offset + 1) < offset
    ∧ offset < max row.length (stop + offset + 1)

/-- The grid when the cells that a copy reads and writes have been addressed. -/
def copyRead (grid : Grid) (row start stop offset : Int) : Grid :=
  (grid.access row ((grid.row row).copyRange start stop offset).1
    ((grid.row row).copyRange start stop offset).2).access row
    (((grid.row row).copyRange start stop offset).1 + offset)
    (((grid.row row).copyRange start stop offset).2 + offset)

/-- The row when its columns have been copied. -/
def Row.copied (row : Row) (start stop offset : Int) : Row :=
  row.copy (row.copyRange start stop offset).1 (row.copyRange start stop offset).2 offset

theorem copyColumnsRaw_addresses (sound : grid.buffer.Sound) (start : Int) {stop offset : Int}
    (fits : (grid.row row).CopyFits stop offset) :
    grid.Addresses row (copyColumnsRaw grid row start stop offset)
      ∧ (grid.row row).roomFor (stop + offset + 1)
        ≤ ((copyColumnsRaw grid row start stop offset).row row).available
      ∧ stop + offset + 1 ≤ ((copyColumnsRaw grid row start stop offset).row row).length := by
  obtain ⟨some, low, high⟩ := fits
  have grown := Grid.Addresses.getRow sound row (stop + offset + 1)
  have available := Grid.getRow_available sound row (stop + offset + 1)
  have length := Grid.getRow_length grid row (stop + offset + 1)
  generalize asked : grid.getRow row (stop + offset + 1) = before at grown available length
  rw [← available] at low
  rw [← length] at some high
  obtain ⟨readFirst, readLast, writtenFirst, writtenLast⟩ :=
    Row.copyRange_within some (grown.sound.allocated _) start stop low high
  have first : before.Addresses row (before.access row
      ((before.row row).copyRange start stop offset).1
      ((before.row row).copyRange start stop offset).2) :=
    .access grown.sound fun _ => ⟨readFirst, readLast⟩
  have read : before.Addresses row (copyRead before row start stop offset) :=
    first.trans (.access first.sound fun _ => ⟨writtenFirst, writtenLast⟩)
  have moved : before.Addresses row ((copyRead before row start stop offset).onBuffer
      (·.setRow row ((before.row row).copied start stop offset))) :=
    read.trans (.setRow read.sound le_rfl (grown.sound.allocated _) le_rfl)
  have copied : (copyColumnsRaw grid row start stop offset).buffer =
      ((copyRead before row start stop offset).onBuffer
        (·.setRow row ((before.row row).copied start stop offset))).buffer := by
    subst asked
    rfl
  have contents : (copyColumnsRaw grid row start stop offset).row row
      = (before.row row).copied start stop offset := by
    unfold Grid.row
    rw [copied]
    exact Buffer.setRow_row ..
  refine ⟨(grown.trans moved).of_buffer ?_ ?_ ?_, ?_, ?_⟩
  · rw [copied]
  · rw [copied]
  · rw [copied]
    exact ⟨rfl, rfl, rfl⟩
  · rw [contents]
    exact available.ge
  · rw [contents]
    exact (le_max_right ..).trans length.ge

/-- **Copying columns addresses allocated cells.** -/
theorem copyColumns_addresses (sound : grid.buffer.Sound) {start stop offset : Int}
    (ordered : start ≤ stop + 1) (fits : (grid.row row).CopyFits stop offset) :
    grid.Addresses row (copyColumns grid row start stop offset)
      ∧ (grid.row row).roomFor (stop + offset + 1)
        ≤ ((copyColumns grid row start stop offset).row row).available := by
  obtain ⟨raw, room, length⟩ := copyColumnsRaw_addresses sound start fits
  have moved : (copyColumnsRaw grid row start stop offset).Addresses row
      (moveCursorColumn (copyColumnsRaw grid row start stop offset) row start stop offset) := by
    unfold moveCursorColumn
    split
    all_goals exact (Grid.Addresses.refl raw.sound row).of_buffer rfl rfl ⟨rfl, rfl, rfl⟩
  have within := (length.trans moved.length).trans (moved.sound.allocated _)
  have first : start + offset ≤ stop + offset + 1 := by omega
  have broken := moved.trans (forceBreaks_addresses moved.sound (first.trans within) within)
  exact ⟨raw.trans broken, room.trans broken.available⟩

end Columns

/-! ## Cells outside of a row -/

/-- What has been addressed stays recorded. -/
theorem CellWrites.recorded {first last : Grid} (writes : CellWrites first last) :
    first.buffer.accesses ⊆ last.buffer.accesses := by
  induction writes with
  | refl => exact List.Subset.refl _
  | getRow previous row width ih => exact ih
  | access previous row start stop ih => exact List.Subset.trans ih (List.subset_cons_self ..)
  | @set grid previous row start stop character ih =>
      refine List.Subset.trans ih ?_
      change grid.buffer.accesses ⊆ (bufferSetColumns grid.buffer row start stop character).accesses
      unfold bufferSetColumns
      split
      · exact List.Subset.refl _
      · dsimp only
        split
        · exact List.subset_cons_self ..
        · exact List.subset_cons_self ..

/-- Clearing from a column left of the screen on addresses the cell there. -/
theorem clearColumns_negative (grid : Grid) (row : Int) {start stop : Int} (ordered : start ≤ stop)
    (negative : start < 0) :
    ∃ access ∈ (clearColumns grid row start stop).buffer.accesses, ¬ access.Within := by
  have positive : grid.blank.width ≠ 0 := Nat.one_ne_zero
  have raw := (setColumnsRaw_buffer grid row start stop positive rfl rfl).2.1
  have cursor : CellWrites (setColumnsRaw grid row start stop grid.blank)
      (setColumnsCursor grid row start stop grid.blank) := by
    unfold setColumnsCursor
    exact CellWrites.ite (CellWrites.refl.set ..) .refl
  have recorded := (cursor.trans (forceBreaks_writes _ row start (stop + 1))).recorded
  rw [raw] at recorded
  refine ⟨_, recorded (List.mem_cons_self ..), fun within => ?_⟩
  have last : lastWritten start stop grid.blank.width = stop := lastWritten_one ..
  have bound := (within (last.ge.trans' ordered)).1
  exact absurd bound (not_le.mpr negative)

/-! ## Ranges and rows -/

section Ranges

variable {grid : Grid}

theorem clearColumns_addresses (sound : grid.buffer.Sound) {row start stop : Int}
    (nonneg : start ≤ stop → 0 ≤ start)
    (left : start ≤ stop + 1 ∨ start ≤ (grid.row row).roomFor (stop + 1)) :
    grid.Addresses row (clearColumns grid row start stop) := by
  have room : stop + 1 ≤ (grid.row row).roomFor (stop + 1) :=
    Row.le_roomFor (sound.available row)
  refine (setColumns_addresses sound Nat.one_ne_zero ⟨fun ordered => ?_, fun cursor => ?_, left⟩).1
  · rw [show grid.blank.width = 1 from rfl, lastWritten_one]
    exact ⟨nonneg ordered, by omega⟩
  · have inside := cursor.2.2
    change grid.visibleCursorCol + (1 : Nat) ≤ _
    omega

/-- A row can be cleared from its first column on. -/
theorem clearColumns_first (sound : grid.buffer.Sound) (row stop : Int) :
    (clearColumns grid row 0 stop).buffer.Sound :=
  (clearColumns_addresses sound (fun _ => le_rfl) (.inr ((sound.available row).trans
    (Row.available_le_roomFor (sound.available row))))).sound

theorem clearRows_sound (sound : grid.buffer.Sound) (remaining : Nat) (row : Int) :
    (clearRows remaining row grid).buffer.Sound := by
  induction remaining generalizing row grid with
  | zero => exact sound
  | succ remaining ih => exact ih (clearColumns_first sound ..) _

/-- A range can be cleared if the cell left of its first column, should that stand behind the last
column of the screen, is allocated. -/
theorem clearRange_sound (sound : grid.buffer.Sound) {startRow startCol : Int} (endRow endCol : Int)
    (left : startCol ≤ (grid.row startRow).roomFor grid.termWidth) (nonneg : 0 ≤ startCol) :
    (clearRange grid startRow startCol endRow endCol).buffer.Sound := by
  have begun : (clearFirst grid startRow startCol).buffer.Sound := by
    unfold clearFirst
    split
    · refine (clearColumns_addresses sound (fun _ => nonneg) (.inr ?_)).sound
      rw [Int.sub_add_cancel]
      exact left
    · exact sound
  have ended : (clearLast (clearFirst grid startRow startCol) endRow endCol).buffer.Sound := by
    unfold clearLast
    split
    · exact clearColumns_first begun ..
    · exact begun
  exact clearRows_sound ended ..

/-- Whole rows can be cleared. -/
theorem clearRange_fromFirst (sound : grid.buffer.Sound) (startRow endRow endCol : Int) :
    (clearRange grid startRow 0 endRow endCol).buffer.Sound :=
  clearRange_sound sound endRow endCol ((sound.available startRow).trans
    (Row.available_le_roomFor (sound.available startRow))) le_rfl

/-- A row is copied as a whole, its length included. -/
theorem bufferCopyRow_sound {buffer : Buffer} (sound : buffer.Sound) (row offset : Int) :
    (bufferCopyRow buffer row offset).Sound := by
  have read := sound.getRow row 0
  unfold bufferCopyRow
  dsimp only
  generalize bufferGetRow buffer row 0 = asked at read ⊢
  have nonneg : 0 ≤ (asked.row row).length := read.nonneg _
  have grown := read.getRow (row + offset) (asked.row row).length
  have length : ((bufferGetRow asked (row + offset) (asked.row row).length).row
      (row + offset)).length = max (asked.row (row + offset)).length (asked.row row).length :=
    (congrArg Row.length (Buffer.setRow_row ..)).trans (Row.grow_length ..)
  apply grown.setRow
  · exact nonneg
  · exact (length.ge.trans' (le_max_right ..)).trans (grown.allocated _)

theorem bufferCopyRowsLoop_sound (offset step : Int) (remaining : Nat) (row : Int) {buffer : Buffer}
    (sound : buffer.Sound) : (bufferCopyRowsLoop offset step remaining row buffer).Sound := by
  induction remaining generalizing row buffer with
  | zero => exact sound
  | succ remaining ih => exact ih _ (bufferCopyRow_sound sound ..)

theorem copyRows_sound (sound : grid.buffer.Sound) (startRow endRow offset : Int) :
    (copyRows grid startRow endRow offset).buffer.Sound := by
  have copied : (bufferCopyRows grid.buffer startRow endRow offset).Sound := by
    unfold bufferCopyRows
    split
    all_goals exact bufferCopyRowsLoop_sound _ _ _ _ sound
  unfold copyRows moveCursorRow
  dsimp only
  split
  all_goals exact copied

theorem advance_sound (sound : grid.buffer.Sound) (startRow endRow amount : Int) :
    (advance grid startRow endRow amount).buffer.Sound := by
  unfold advance moveCursorRow
  dsimp only
  split
  all_goals exact ⟨sound.nonneg, sound.allocated, sound.accesses⟩

theorem scrollUp_sound (sound : grid.buffer.Sound) (startRow endRow amount : Int) :
    (scrollUp grid startRow endRow amount).buffer.Sound := by
  unfold scrollUp
  apply clearRange_fromFirst
  split
  · exact advance_sound sound ..
  · exact copyRows_sound sound ..

theorem scrollDown_sound (sound : grid.buffer.Sound) (startRow endRow amount : Int) :
    (scrollDown grid startRow endRow amount).buffer.Sound :=
  clearRange_fromFirst (copyRows_sound sound ..) ..

end Ranges

end GuacNebula.Terminal
