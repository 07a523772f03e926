import GuacNebula.Common.Iconv
import GuacNebula.Lib.Utf8
import GuacNebula.Terminal.SelectionResume
import GuacNebula.Terminal.SelectionTouch

/-! # Copying the selection

The text of each selected row goes to the clipboard through a buffer of 1024 bytes. The outer loop
is to fill that buffer again from where it could hold no more, but the inner one starts from the
first column every time: a row whose text exceeds the buffer is never finished.
-/

namespace GuacNebula.Terminal

open Common

/-! ## The calls -/

/-- The size of the buffer of `guac_terminal_clipboard_append_row`. -/
def rowBufferSize : Nat := 1024

/-- The inner loop of `guac_terminal_clipboard_append_row` over the cells that remain from a column:
the bytes that it has put into the room given, and the column it has stopped at. -/
def convertCells (unicode : Unicode) (characters : Int → TerminalChar) :
    Nat → Int → Nat → List UInt8 × Int
  | 0, column, _ => ([], column)
  | remaining + 1, column, room =>
      let codepoint := (characters column).value
      if codepoint = 0 ∨ codepoint = charContinuation then
        convertCells unicode characters remaining (column + 1) room
      else
        let bytes := unicode.utf8Write codepoint room
        if bytes = [] then ([], column)
        else
          let rest := convertCells unicode characters remaining (column + 1) (room - bytes.length)
          (bytes ++ rest.1, rest.2)

/-- The outer loop, which has no result if it does not end within the given number of turns. -/
def appendRowLoop (unicode : Unicode) (characters : Int → TerminalChar) (start stop : Int) :
    Nat → Int → Clipboard → Option Clipboard
  | 0, column, clipboard => if column ≤ stop then none else some clipboard
  | turns + 1, column, clipboard =>
      if column ≤ stop then
        let converted := convertCells unicode characters (stop - start + 1).toNat start
          rowBufferSize
        appendRowLoop unicode characters start stop turns converted.2
          (clipboard.append converted.1)
      else some clipboard

/-- `guac_terminal_clipboard_append_row`. -/
def clipboardAppendRow (unicode : Unicode) (turns : Nat) (buffer : Buffer) (row start stop : Int)
    (clipboard : Clipboard) : Option Clipboard :=
  let bufferRow := buffer.readRow row
  if start < 0 ∨ start > bufferRow.length - 1 then some clipboard
  else
    let stop := if stop < 0 ∨ stop > bufferRow.length - 1 then bufferRow.length - 1 else stop
    appendRowLoop unicode bufferRow.characters start stop turns start clipboard

/-- The rows between the first and the last one. -/
def appendMiddleRows (unicode : Unicode) (turns : Nat) (buffer : Buffer) :
    Nat → Int → Clipboard → Option Clipboard
  | 0, _, clipboard => some clipboard
  | remaining + 1, row, clipboard =>
      (clipboardAppendRow unicode turns buffer row 0 (-1) (clipboard.append [0x0A])).bind
        (appendMiddleRows unicode turns buffer remaining (row + 1))

/-- What `guac_terminal_select_end` leaves: the selection, the clipboard, and whether that has been
sent to the users. -/
structure SelectEnd where
  selection : Selection
  clipboard : Clipboard
  sent : Bool

/-- `guac_terminal_select_end`. -/
def selectEnd (unicode : Unicode) (turns : Nat) (buffer : Buffer) (disableCopy : Bool)
    (selection : Selection) (clipboard : Clipboard) : Option SelectEnd :=
  if !selection.textSelected then some { selection, clipboard, sent := false }
  else
    let first := selection.normalizedRange.1
    let last := selection.normalizedRange.2
    let clipboard := clipboard.reset (bytesOf "text/plain")
    let copied :=
      if last.1 = first.1 then
        clipboardAppendRow unicode turns buffer first.1 first.2 last.2 clipboard
      else do
        let clipboard ← clipboardAppendRow unicode turns buffer first.1 first.2 (-1) clipboard
        let clipboard ← appendMiddleRows unicode turns buffer (last.1 - first.1 - 1).toNat
          (first.1 + 1) clipboard
        clipboardAppendRow unicode turns buffer last.1 0 last.2 (clipboard.append [0x0A])
    copied.map fun clipboard =>
      { selection := { selection with selectionCommitted := true }
        clipboard
        sent := !disableCopy }

/-! ## The text that is selected -/

/-- The encoding of a cell: nothing for one that is blank or belongs to the character to its left. -/
def cellText (unicode : Unicode) (character : TerminalChar) : List UInt8 :=
  if character.value = 0 ∨ character.value = charContinuation then []
  else unicode.utf8Write character.value 4

/-- The text of the selected cells of a row. -/
def Selection.rowText (unicode : Unicode) (buffer : Buffer) (selection : Selection) (row : Int) :
    List UInt8 :=
  ((List.range (buffer.readRow row).length.toNat).filter fun column : Nat =>
    selection.Covers row column).flatMap fun column : Nat =>
      cellText unicode ((buffer.readRow row).characters column)

/-- The rows that are selected. -/
def Selection.rows (selection : Selection) : List Int :=
  let first := selection.normalizedRange.1.1
  let last := selection.normalizedRange.2.1
  (List.range (last - first + 1).toNat).map fun index : Nat => first + index

/-- The text of the selected cells, row by row. -/
def Selection.text (unicode : Unicode) (buffer : Buffer) (selection : Selection) : List UInt8 :=
  List.intercalate [0x0A] (selection.rows.map (selection.rowText unicode buffer))

/-! ## Rows -/

/-- The text of as many cells from a column. -/
def cellsText (unicode : Unicode) (characters : Int → TerminalChar) : Nat → Int → List UInt8
  | 0, _ => []
  | remaining + 1, column =>
      cellText unicode (characters column) ++ cellsText unicode characters remaining (column + 1)

/-- Nothing is appended for no bytes. -/
theorem clipboard_append_nil (clipboard : Clipboard) : clipboard.append [] = clipboard := by
  obtain ⟨mimetype, buffer, length_le⟩ := clipboard
  simp [Clipboard.append]

section Converting

variable {unicode : Unicode} (lawful : unicode.Lawful) (characters : Int → TerminalChar)
include lawful

/-- Cells whose text fits are all converted. -/
theorem convertCells_fits {remaining : Nat} {column : Int} {room : Nat}
    (fits : (cellsText unicode characters remaining column).length ≤ room) :
    convertCells unicode characters remaining column room =
      (cellsText unicode characters remaining column, column + remaining) := by
  induction remaining generalizing column room with
  | zero => exact Prod.ext rfl (Int.add_zero column).symm
  | succ remaining ih =>
      have place : column + 1 + remaining = column + (remaining + 1 : Nat) := by omega
      rw [cellsText, List.length_append] at fits
      rw [convertCells, cellsText, cellText]
      rw [cellText] at fits
      dsimp only
      split_ifs at fits ⊢ with blank none
      · rw [ih ((Nat.zero_add _).symm.trans_le fits), place]
        rfl
      · rw [lawful.write_eq, if_pos (by omega)] at none
        exact absurd (lawful.write_pos (characters column).value) (by rw [none]; decide)
      · rw [lawful.write_eq, if_pos (by omega), ih (by omega), place]

/-- Cells whose text does not fit are not all converted. -/
theorem convertCells_long {remaining : Nat} {column : Int} {room : Nat}
    (long : room < (cellsText unicode characters remaining column).length) :
    (convertCells unicode characters remaining column room).2 < column + remaining := by
  induction remaining generalizing column room with
  | zero => exact absurd long (Nat.not_lt_zero _)
  | succ remaining ih =>
      rw [cellsText, List.length_append, cellText] at long
      rw [convertCells]
      dsimp only
      split_ifs at long ⊢ with blank none
      · have before := ih (long.trans_eq (Nat.zero_add _))
        omega
      · dsimp only
        omega
      · rw [lawful.write_eq] at none ⊢
        split_ifs at none ⊢ with enough
        · have before := @ih (column + 1)
            (room - (unicode.utf8Write (characters column).value 4).length) (by omega)
          dsimp only
          omega
        · exact absurd rfl none

/-- A row whose text fits into the buffer is appended in one turn. -/
theorem appendRowLoop_fits {start stop : Int} (clipboard : Clipboard) (turns : Nat)
    (fits : (cellsText unicode characters (stop - start + 1).toNat start).length
      ≤ rowBufferSize) :
    appendRowLoop unicode characters start stop (turns + 1) start clipboard =
      some (clipboard.append (cellsText unicode characters (stop - start + 1).toNat start)) := by
  rw [appendRowLoop]
  split_ifs with ordered
  · rw [convertCells_fits lawful characters fits]
    have done : ¬ start + ((stop - start + 1).toNat : Int) ≤ stop := by omega
    cases turns with
    | zero => exact if_neg done
    | succ turns => exact if_neg done
  · have none : (stop - start + 1).toNat = 0 := by omega
    rw [none, cellsText, clipboard_append_nil]

/-- A row whose text does not fit is never finished: every turn starts from its first column. -/
theorem appendRowLoop_long {start stop : Int}
    (long : rowBufferSize < (cellsText unicode characters (stop - start + 1).toNat start).length)
    (turns : Nat) {column : Int} (pending : column ≤ stop) (clipboard : Clipboard) :
    appendRowLoop unicode characters start stop turns column clipboard = none := by
  induction turns generalizing column clipboard with
  | zero => exact if_pos pending
  | succ turns ih =>
      have before := convertCells_long lawful characters long
      have some : (stop - start + 1).toNat ≠ 0 := by
        intro zero
        rw [zero] at long
        exact absurd long (Nat.not_lt_zero _)
      rw [appendRowLoop, if_pos pending]
      exact ih (by omega) _

end Converting

/-- The text that a call of `guac_terminal_clipboard_append_row` is to append. -/
def rangeText (unicode : Unicode) (buffer : Buffer) (row start stop : Int) : List UInt8 :=
  let bufferRow := buffer.readRow row
  if start > bufferRow.length - 1 then []
  else
    let stop := if stop < 0 ∨ stop > bufferRow.length - 1 then bufferRow.length - 1 else stop
    cellsText unicode bufferRow.characters (stop - start + 1).toNat start

section Rows

variable {unicode : Unicode} (lawful : unicode.Lawful) (buffer : Buffer) (row : Int) {start : Int}
  (nonneg : 0 ≤ start) (stop : Int)
include lawful nonneg

theorem clipboardAppendRow_fits
    (fits : (rangeText unicode buffer row start stop).length ≤ rowBufferSize) (turns : Nat)
    (clipboard : Clipboard) :
    clipboardAppendRow unicode (turns + 1) buffer row start stop clipboard =
      some (clipboard.append (rangeText unicode buffer row start stop)) := by
  unfold rangeText at fits ⊢
  unfold clipboardAppendRow
  dsimp only at fits ⊢
  by_cases beyond : start > (buffer.readRow row).length - 1
  · rw [if_pos (.inr beyond), if_pos beyond, clipboard_append_nil]
  · rw [if_neg beyond] at fits ⊢
    rw [if_neg (by omega)]
    exact appendRowLoop_fits lawful _ clipboard turns fits

theorem fits_of_clipboardAppendRow {turns : Nat} {clipboard after : Clipboard}
    (returned : clipboardAppendRow unicode turns buffer row start stop clipboard = some after) :
    (rangeText unicode buffer row start stop).length ≤ rowBufferSize := by
  unfold clipboardAppendRow at returned
  unfold rangeText
  dsimp only at returned ⊢
  by_cases beyond : start > (buffer.readRow row).length - 1
  · rw [if_pos beyond]
    exact Nat.zero_le _
  · rw [if_neg (by omega)] at returned
    rw [if_neg beyond]
    by_contra long
    have text := not_le.mp long
    generalize (if stop < 0 ∨ stop > (buffer.readRow row).length - 1 then
      (buffer.readRow row).length - 1 else stop) = last at returned text
    by_cases pending : start ≤ last
    · rw [appendRowLoop_long lawful _ text turns pending] at returned
      exact absurd returned (by simp)
    · rw [Int.toNat_of_nonpos (by omega)] at text
      exact absurd text (Nat.not_lt_zero _)

end Rows

/-- The clipboard after texts have been appended, each behind a newline. -/
def appendLines (clipboard : Clipboard) (texts : List (List UInt8)) : Clipboard :=
  texts.foldl (fun clipboard text => (clipboard.append [0x0A]).append text) clipboard

/-- The texts of whole rows from a row on. -/
def middleTexts (unicode : Unicode) (buffer : Buffer) (count : Nat) (row : Int) :
    List (List UInt8) :=
  (List.range count).map fun index : Nat => rangeText unicode buffer (row + index) 0 (-1)

theorem middleTexts_succ (unicode : Unicode) (buffer : Buffer) (count : Nat) (row : Int) :
    middleTexts unicode buffer (count + 1) row =
      rangeText unicode buffer row 0 (-1) :: middleTexts unicode buffer count (row + 1) := by
  unfold middleTexts
  rw [List.range_succ_eq_map, List.map_cons, List.map_map, Nat.cast_zero, Int.add_zero]
  congr 2
  funext index
  change rangeText unicode buffer (row + (index + 1 : Nat)) 0 (-1) = _
  rw [Nat.cast_add, Nat.cast_one, Int.add_assoc, Int.add_comm 1]

section Middle

variable {unicode : Unicode} (lawful : unicode.Lawful) (buffer : Buffer)
include lawful

theorem appendMiddleRows_fits {count : Nat} {row : Int}
    (fits : ∀ text ∈ middleTexts unicode buffer count row, text.length ≤ rowBufferSize)
    (turns : Nat) (clipboard : Clipboard) :
    appendMiddleRows unicode (turns + 1) buffer count row clipboard =
      some (appendLines clipboard (middleTexts unicode buffer count row)) := by
  induction count generalizing row clipboard with
  | zero => rfl
  | succ count ih =>
      rw [middleTexts_succ] at fits ⊢
      obtain ⟨first, later⟩ := List.forall_mem_cons.mp fits
      rw [appendMiddleRows, clipboardAppendRow_fits lawful buffer row le_rfl (-1) first,
        Option.bind_some, ih later]
      rfl

theorem fits_of_appendMiddleRows {turns count : Nat} {row : Int} {clipboard after : Clipboard}
    (returned : appendMiddleRows unicode turns buffer count row clipboard = some after) :
    ∀ text ∈ middleTexts unicode buffer count row, text.length ≤ rowBufferSize := by
  induction count generalizing row clipboard with
  | zero => exact fun text member => absurd member List.not_mem_nil
  | succ count ih =>
      obtain ⟨between, first, later⟩ := Option.bind_eq_some_iff.mp returned
      rw [middleTexts_succ]
      exact List.forall_mem_cons.mpr
        ⟨fits_of_clipboardAppendRow lawful buffer row le_rfl (-1) first, ih later⟩

end Middle

/-! ## The selected cells -/

theorem cellsText_eq_flatMap (unicode : Unicode) (characters : Int → TerminalChar)
    (count : Nat) (column : Int) :
    cellsText unicode characters count column =
      (List.range count).flatMap fun index : Nat =>
        cellText unicode (characters (column + index)) := by
  induction count generalizing column with
  | zero => rfl
  | succ count ih =>
      rw [cellsText, ih, List.range_succ_eq_map, List.flatMap_cons, List.flatMap_map,
        Nat.cast_zero, Int.add_zero]
      congr 2
      funext index
      rw [Nat.cast_succ, Int.add_assoc, Int.add_comm 1]

/-- The columns of a range among the first ones. -/
theorem filter_range_between {start stop count : Nat} (within : stop ≤ count) {inside : Nat → Prop}
    [DecidablePred inside]
    (between : ∀ column < count, inside column ↔ start ≤ column ∧ column < stop) :
    (List.range count).filter (inside ·) =
      (List.range (stop - start)).map fun index => start + index := by
  induction count generalizing stop with
  | zero =>
      obtain rfl := Nat.le_zero.mp within
      rw [Nat.zero_sub]
      rfl
  | succ count ih =>
      have last := between count (Nat.lt_succ_self count)
      rw [List.range_succ, List.filter_append]
      by_cases before : stop ≤ count
      · have outside : ¬ inside count := by
          rw [last]
          omega
        rw [ih before fun column least => between column (least.trans (Nat.lt_succ_self count)),
          List.filter_cons_of_neg (by simpa using outside), List.filter_nil, List.append_nil]
      · obtain rfl : stop = count + 1 := by omega
        rw [ih le_rfl fun column least => by
          rw [between column (least.trans (Nat.lt_succ_self count))]
          omega]
        by_cases ordered : start ≤ count
        · have member : inside count := last.mpr ⟨ordered, Nat.lt_succ_self count⟩
          rw [List.filter_cons_of_pos (by simpa using member), List.filter_nil,
            Nat.sub_add_comm ordered, List.range_succ, List.map_append, List.map_singleton,
            Nat.add_sub_cancel' ordered]
        · have outside : ¬ inside count := by
            rw [last]
            omega
          rw [List.filter_cons_of_neg (by simpa using outside), List.filter_nil, List.append_nil,
            Nat.sub_eq_zero_of_le (by omega), Nat.sub_eq_zero_of_le (by omega)]

/-- A row is copied as far as it is selected. -/
theorem rowText_eq (unicode : Unicode) (buffer : Buffer) {selection : Selection} {row start : Int}
    (nonneg : 0 ≤ start) (stop : Int)
    (covers : ∀ column : Int, 0 ≤ column →
      (selection.Covers row column ↔ start ≤ column ∧ (stop < 0 ∨ column ≤ stop))) :
    selection.rowText unicode buffer row = rangeText unicode buffer row start stop := by
  unfold Selection.rowText rangeText
  dsimp only
  generalize (buffer.readRow row).length = length
  by_cases beyond : start > length - 1
  · have none : ((List.range length.toNat).filter fun column : Nat =>
        selection.Covers row column) = [] := by
      refine List.filter_eq_nil_iff.mpr fun column member covered => ?_
      have selected := (covers column (by omega)).mp (of_decide_eq_true covered)
      have least := List.mem_range.mp member
      omega
    rw [if_pos beyond, none, List.flatMap_nil]
  · rw [if_neg beyond]
    generalize same : (if stop < 0 ∨ stop > length - 1 then length - 1 else stop) = last
    have bounds : 0 ≤ last ∧ last ≤ length - 1 := by
      split_ifs at same <;> omega
    have places : ((List.range length.toNat).filter fun column : Nat =>
        selection.Covers row column) =
      (List.range ((last + 1).toNat - start.toNat)).map fun index => start.toNat + index := by
      refine filter_range_between (by omega) fun column least => ?_
      rw [covers column (by omega)]
      split_ifs at same <;> omega
    have count : (last + 1).toNat - start.toNat = (last - start + 1).toNat := by omega
    rw [places, cellsText_eq_flatMap, List.flatMap_map, count]
    congr 1
    funext index
    have column : ((start.toNat + index : Nat) : Int) = start + index := by omega
    rw [column]

/-! ## The clipboard -/

/-- Texts that are appended behind newlines are cut at the capacity. -/
theorem appendLines_buffer (clipboard : Clipboard) (texts : List (List UInt8)) :
    (appendLines clipboard texts).buffer =
      (clipboard.buffer ++ texts.flatMap fun text => 0x0A :: text).take clipboardMaxLength := by
  induction texts generalizing clipboard with
  | nil =>
      rw [List.flatMap_nil, List.append_nil, List.take_of_length_le clipboard.length_le]
      rfl
  | cons text texts ih =>
      change (appendLines ((clipboard.append [0x0A]).append text) texts).buffer = _
      rw [ih, Clipboard.append_buffer, take_append_take, Clipboard.append_buffer, List.append_assoc,
        take_append_take, List.flatMap_cons, List.append_assoc]
      rfl

theorem intercalate_newline (text : List UInt8) (texts : List (List UInt8)) :
    List.intercalate [0x0A] (text :: texts) = text ++ texts.flatMap fun text => 0x0A :: text := by
  induction texts generalizing text with
  | nil => simp [List.intercalate]
  | cons next texts ih =>
      rw [List.flatMap_cons, List.cons_append, ← ih next]
      rfl

/-- Texts that are appended to an empty clipboard are joined by newlines and cut at the capacity. -/
theorem lines_buffer {clipboard : Clipboard} (empty : clipboard.buffer = [])
    (first last : List UInt8) (middle : List (List UInt8)) :
    (((appendLines (clipboard.append first) middle).append [0x0A]).append last).buffer =
      (List.intercalate [0x0A] (first :: (middle ++ [last]))).take clipboardMaxLength := by
  have lines : appendLines (clipboard.append first) (middle ++ [last]) =
      ((appendLines (clipboard.append first) middle).append [0x0A]).append last :=
    List.foldl_append
  rw [← lines, appendLines_buffer, Clipboard.append_buffer, empty, List.nil_append,
    take_append_take, intercalate_newline]

theorem normalizedRange_rows (selection : Selection) :
    selection.normalizedRange.1.1 ≤ selection.normalizedRange.2.1 := by
  unfold Selection.normalizedRange
  split_ifs <;> dsimp only <;> omega

section Texts

variable (unicode : Unicode) (buffer : Buffer) {selection : Selection}
  (firstNonneg : 0 ≤ selection.normalizedRange.1.2)
  (lastNonneg : 0 ≤ selection.normalizedRange.2.2)
include lastNonneg

include firstNonneg in
theorem rowTexts_single
    (single : selection.normalizedRange.2.1 = selection.normalizedRange.1.1) :
    selection.rows.map (selection.rowText unicode buffer) =
      [rangeText unicode buffer selection.normalizedRange.1.1 selection.normalizedRange.1.2
        selection.normalizedRange.2.2] := by
  have rows : selection.rows = [selection.normalizedRange.1.1] := by
    unfold Selection.rows
    dsimp only
    rw [single, Int.sub_self]
    simp
  rw [rows, List.map_singleton, rowText_eq unicode buffer firstNonneg]
  intro column nonneg
  unfold Selection.Covers
  omega

include firstNonneg in
theorem rowTexts_several
    (several : selection.normalizedRange.2.1 ≠ selection.normalizedRange.1.1) :
    selection.rows.map (selection.rowText unicode buffer) =
      rangeText unicode buffer selection.normalizedRange.1.1 selection.normalizedRange.1.2 (-1)
        :: (middleTexts unicode buffer
            (selection.normalizedRange.2.1 - selection.normalizedRange.1.1 - 1).toNat
            (selection.normalizedRange.1.1 + 1)
          ++ [rangeText unicode buffer selection.normalizedRange.2.1 0
            selection.normalizedRange.2.2]) := by
  have ordered := normalizedRange_rows selection
  have first : selection.rowText unicode buffer selection.normalizedRange.1.1 =
      rangeText unicode buffer selection.normalizedRange.1.1 selection.normalizedRange.1.2 (-1) := by
    refine rowText_eq unicode buffer firstNonneg (-1) fun column nonneg => ?_
    unfold Selection.Covers
    omega
  have last : selection.rowText unicode buffer selection.normalizedRange.2.1 =
      rangeText unicode buffer selection.normalizedRange.2.1 0 selection.normalizedRange.2.2 := by
    refine rowText_eq unicode buffer le_rfl _ fun column nonneg => ?_
    unfold Selection.Covers
    omega
  have middle : ∀ row, selection.normalizedRange.1.1 < row → row < selection.normalizedRange.2.1 →
      selection.rowText unicode buffer row = rangeText unicode buffer row 0 (-1) := by
    intro row after before
    refine rowText_eq unicode buffer le_rfl (-1) fun column nonneg => ?_
    unfold Selection.Covers
    omega
  obtain ⟨count, count_eq⟩ : ∃ count : Nat, selection.normalizedRange.2.1 =
      selection.normalizedRange.1.1 + count + 1 :=
    ⟨(selection.normalizedRange.2.1 - selection.normalizedRange.1.1 - 1).toNat, by omega⟩
  have rows : selection.rows = selection.normalizedRange.1.1
      :: ((List.range count).map (fun index : Nat => selection.normalizedRange.1.1 + 1 + index)
        ++ [selection.normalizedRange.2.1]) := by
    have length : (selection.normalizedRange.2.1 - selection.normalizedRange.1.1 + 1).toNat =
        count + 2 := by omega
    unfold Selection.rows
    dsimp only
    rw [length, List.range_succ, List.range_succ_eq_map, List.map_append, List.map_cons,
      List.map_map, List.map_singleton, Nat.cast_zero, Int.add_zero, List.cons_append, count_eq]
    congr 3
    · funext index
      change selection.normalizedRange.1.1 + ((index + 1 : Nat) : Int) = _
      omega
    · omega
  have between : (selection.normalizedRange.2.1 - selection.normalizedRange.1.1 - 1).toNat =
      count := by omega
  rw [rows, List.map_cons, List.map_append, List.map_singleton, first, last, between]
  congr 2
  rw [List.map_map, middleTexts]
  refine List.map_congr_left fun index member => ?_
  have least := List.mem_range.mp member
  exact middle (selection.normalizedRange.1.1 + 1 + index) (by omega) (by omega)

end Texts

/-- A selection is copied if the text of every row of it fits into the buffer. -/
theorem selectEnd_of_fits {unicode : Unicode} (lawful : unicode.Lawful) (buffer : Buffer)
    (disableCopy : Bool) {selection : Selection} (clipboard : Clipboard)
    (selected : selection.textSelected = true)
    (firstNonneg : 0 ≤ selection.normalizedRange.1.2)
    (lastNonneg : 0 ≤ selection.normalizedRange.2.2)
    (fits : ∀ row ∈ selection.rows,
      (selection.rowText unicode buffer row).length ≤ rowBufferSize) :
    ∃ after, selectEnd unicode 1 buffer disableCopy selection clipboard = some after
      ∧ after.clipboard.buffer = (selection.text unicode buffer).take clipboardMaxLength := by
  have texts : ∀ text ∈ selection.rows.map (selection.rowText unicode buffer),
      text.length ≤ rowBufferSize := List.forall_mem_map.mpr fits
  rw [selectEnd, if_neg (by simp [selected]), Selection.text]
  dsimp only
  by_cases single : selection.normalizedRange.2.1 = selection.normalizedRange.1.1
  · rw [rowTexts_single unicode buffer firstNonneg lastNonneg single] at texts ⊢
    have text := texts _ List.mem_cons_self
    rw [if_pos single, clipboardAppendRow_fits lawful buffer _ firstNonneg _ text 0]
    refine ⟨_, rfl, ?_⟩
    rw [List.intercalate_singleton]
    exact Clipboard.append_buffer _ _
  · rw [rowTexts_several unicode buffer firstNonneg lastNonneg single] at texts ⊢
    obtain ⟨first, others⟩ := List.forall_mem_cons.mp texts
    obtain ⟨middle, last⟩ := List.forall_mem_append.mp others
    have lastText := last _ List.mem_cons_self
    rw [if_neg single, clipboardAppendRow_fits lawful buffer _ firstNonneg _ first 0,
      Option.bind_eq_bind, Option.bind_some, appendMiddleRows_fits lawful buffer middle 0,
      Option.bind_some, clipboardAppendRow_fits lawful buffer _ le_rfl _ lastText 0]
    refine ⟨_, rfl, ?_⟩
    exact lines_buffer rfl _ _ _

/-- A selection that is copied has no row whose text does not fit into the buffer. -/
theorem fits_of_selectEnd {unicode : Unicode} (lawful : unicode.Lawful) {turns : Nat}
    {buffer : Buffer} {disableCopy : Bool} {selection : Selection} {clipboard : Clipboard}
    {after : SelectEnd} (selected : selection.textSelected = true)
    (firstNonneg : 0 ≤ selection.normalizedRange.1.2)
    (lastNonneg : 0 ≤ selection.normalizedRange.2.2)
    (returned : selectEnd unicode turns buffer disableCopy selection clipboard = some after) :
    ∀ row ∈ selection.rows, (selection.rowText unicode buffer row).length ≤ rowBufferSize := by
  rw [selectEnd, if_neg (by simp [selected])] at returned
  obtain ⟨copied, ran, -⟩ := Option.map_eq_some_iff.mp returned
  have texts : ∀ text ∈ selection.rows.map (selection.rowText unicode buffer),
      text.length ≤ rowBufferSize := by
    by_cases single : selection.normalizedRange.2.1 = selection.normalizedRange.1.1
    · rw [if_pos single] at ran
      rw [rowTexts_single unicode buffer firstNonneg lastNonneg single]
      exact List.forall_mem_cons.mpr
        ⟨fits_of_clipboardAppendRow lawful buffer _ firstNonneg _ ran, by simp⟩
    · rw [if_neg single] at ran
      obtain ⟨afterFirst, first, rest⟩ := Option.bind_eq_some_iff.mp ran
      obtain ⟨afterMiddle, middle, last⟩ := Option.bind_eq_some_iff.mp rest
      rw [rowTexts_several unicode buffer firstNonneg lastNonneg single]
      refine List.forall_mem_cons.mpr
        ⟨fits_of_clipboardAppendRow lawful buffer _ firstNonneg _ first, ?_⟩
      exact List.forall_mem_append.mpr ⟨fits_of_appendMiddleRows lawful buffer middle,
        List.forall_mem_cons.mpr
          ⟨fits_of_clipboardAppendRow lawful buffer _ le_rfl _ last, by simp⟩⟩
  exact fun row member => texts _ (List.mem_map_of_mem member)

/-- **When the selection is copied.** `guac_terminal_select_end` ends, with the text of the selected
cells on the clipboard, exactly if the text of every selected row fits into the buffer. -/
theorem selectEnd_copies_iff (unicode : Unicode) (lawful : unicode.Lawful) (buffer : Buffer)
    (disableCopy : Bool) (selection : Selection) (clipboard : Clipboard)
    (selected : selection.textSelected = true)
    (firstNonneg : 0 ≤ selection.normalizedRange.1.2)
    (lastNonneg : 0 ≤ selection.normalizedRange.2.2) :
    (∃ turns after, selectEnd unicode turns buffer disableCopy selection clipboard = some after
        ∧ after.clipboard.buffer =
          (selection.text unicode buffer).take clipboardMaxLength) ↔
      ∀ row ∈ selection.rows,
        (selection.rowText unicode buffer row).length ≤ rowBufferSize := by
  constructor
  · rintro ⟨turns, after, returned, -⟩
    exact fits_of_selectEnd lawful selected firstNonneg lastNonneg returned
  · intro fits
    exact ⟨1, selectEnd_of_fits lawful buffer disableCopy clipboard selected firstNonneg lastNonneg
      fits⟩

/-! ## Samples -/

/-- The bytes of a codepoint, a question mark for what is none. -/
def sampleBytes (value : Int) : List UInt8 :=
  if value < 0 then [toByte value]
  else if value < 0x200000 then Utf8.encode value.toNat
  else [0x3F]

theorem sampleBytes_length (value : Int) :
    0 < (sampleBytes value).length ∧ (sampleBytes value).length ≤ 4 := by
  unfold sampleBytes
  split_ifs
  · exact ⟨Nat.one_pos, Nat.le_add_left 1 3⟩
  · rw [Utf8.encode_length]
    exact ⟨Utf8.size_pos _, Utf8.size_le _⟩
  · exact ⟨Nat.one_pos, Nat.le_add_left 1 3⟩

/-- UTF-8 input and output. -/
def utf8Unicode : Unicode where
  utf8Read input :=
    let bytes := (Utf8.decode input).2
    if 0 < input.length ∧ bytes ≤ input.length then
      some ((Utf8.decode (input.take bytes)).1, bytes)
    else none
  utf8Write value remaining :=
    if (sampleBytes value).length ≤ remaining then sampleBytes value else []
  read_pos := by
    intro input value bytes read
    obtain ⟨-, pair⟩ := Option.ite_none_right_eq_some.mp read
    obtain ⟨-, rfl⟩ := Prod.mk.inj (Option.some.inj pair)
    exact Utf8.decode_pos input
  read_le := by
    intro input value bytes read
    obtain ⟨enough, pair⟩ := Option.ite_none_right_eq_some.mp read
    obtain ⟨-, rfl⟩ := Prod.mk.inj (Option.some.inj pair)
    exact enough.2
  write_le := by
    intro value remaining
    split
    · assumption
    · exact Nat.zero_le _

theorem utf8Unicode_write (value : Int) : utf8Unicode.utf8Write value 4 = sampleBytes value :=
  if_pos (sampleBytes_length value).2

theorem utf8Unicode_lawful : utf8Unicode.Lawful where
  read_take := by
    intro input count value bytes
    have positive := Utf8.decode_pos input
    change (if _ then _ else _) = _ ↔ (if _ then _ else _) = _ ∧ _
    rw [Option.ite_none_right_eq_some, Option.ite_none_right_eq_some, List.length_take,
      List.take_take]
    rcases Nat.eq_zero_or_pos count with rfl | some
    · rw [Nat.zero_min]
      constructor
      · rintro ⟨⟨none, -⟩, -⟩
        exact absurd none (Nat.lt_irrefl 0)
      · rintro ⟨⟨-, pair⟩, none⟩
        obtain ⟨-, rfl⟩ := Prod.mk.inj (Option.some.inj pair)
        omega
    · rw [Utf8.decode_take some]
      constructor
      · rintro ⟨enough, pair⟩
        rw [Nat.min_eq_left (by omega)] at pair
        obtain ⟨-, same⟩ := Prod.mk.inj (Option.some.inj pair)
        exact ⟨⟨by omega, pair⟩, by omega⟩
      · rintro ⟨⟨enough, pair⟩, bound⟩
        obtain ⟨-, same⟩ := Prod.mk.inj (Option.some.inj pair)
        exact ⟨by omega, by rw [Nat.min_eq_left (by omega)]; exact pair⟩
  write_pos value := by
    rw [utf8Unicode_write]
    exact (sampleBytes_length value).1
  write_eq value remaining := by
    rw [utf8Unicode_write]
    rfl
  write_ascii value ascii := by
    rw [utf8Unicode_write, sampleBytes, if_neg (by omega), if_pos (by omega), Int.toNat_natCast,
      Utf8.encode, if_pos (by omega)]

/-- Rows of as many horizontal lines, which take three bytes each. -/
def lineBuffer (length : Int) : Buffer where
  defaultCharacter := { value := 0, attributes := default, width := 1 }
  rows _ :=
    { characters _ := { value := 0x2500, attributes := default, width := 1 }
      length := length
      available := 256 }
  top := 0
  length := 2
  available := 100
  accesses := []

/-- A selection from the first column of a row to a column of another one. -/
def lineSelection (endRow endColumn : Int) : Selection where
  textSelected := true
  selectionCommitted := false
  startRow := 0
  startColumn := 0
  startWidth := 1
  endRow := endRow
  endColumn := endColumn
  endWidth := 1

/-- Two rows are copied, the second one in part. -/
theorem selectEnd_copies_lines :
    (lineSelection 1 1).text utf8Unicode (lineBuffer 3) =
        [0xE2, 0x94, 0x80, 0xE2, 0x94, 0x80, 0xE2, 0x94, 0x80, 0x0A, 0xE2, 0x94, 0x80, 0xE2, 0x94,
          0x80]
      ∧ ∃ turns after, selectEnd utf8Unicode turns (lineBuffer 3) false (lineSelection 1 1) .alloc =
          some after
        ∧ after.clipboard.buffer =
          ((lineSelection 1 1).text utf8Unicode (lineBuffer 3)).take clipboardMaxLength :=
  ⟨by decide, (selectEnd_copies_iff utf8Unicode utf8Unicode_lawful (lineBuffer 3) false
    (lineSelection 1 1) .alloc rfl (by decide) (by decide)).mpr (by decide)⟩

theorem cellsText_length {unicode : Unicode} {characters : Int → TerminalChar} {bytes : Nat}
    (every : ∀ column, (cellText unicode (characters column)).length = bytes) (count : Nat)
    (column : Int) : (cellsText unicode characters count column).length = count * bytes := by
  induction count generalizing column with
  | zero => exact (Nat.zero_mul _).symm
  | succ count ih => rw [cellsText, List.length_append, every, ih, Nat.succ_mul, Nat.add_comm]

/-- A row of 342 lines, whose text of 1026 bytes does not fit into the buffer, is copied for ever. -/
theorem long_row_is_copied_forever :
    (lineSelection 0 341).textSelected = true
      ∧ ¬ ∃ turns after, selectEnd utf8Unicode turns (lineBuffer 342) false (lineSelection 0 341)
        .alloc = some after := by
  refine ⟨rfl, ?_⟩
  rintro ⟨turns, after, returned⟩
  have fits := fits_of_selectEnd utf8Unicode_lawful rfl (by decide) (by decide) returned 0
    (by decide)
  have text : (lineSelection 0 341).rowText utf8Unicode (lineBuffer 342) 0 =
      cellsText utf8Unicode (fun _ => { value := 0x2500, attributes := default, width := 1 }) 342
        0 := by
    refine (rowText_eq utf8Unicode (lineBuffer 342) le_rfl 341 fun column nonneg => ?_).trans rfl
    unfold Selection.Covers
    change (0 < 0 ∨ 0 = 0 ∧ 0 ≤ column) ∧ (0 < 0 ∨ 0 = 0 ∧ column ≤ 341) ↔ _
    omega
  have bytes : (cellText utf8Unicode
      { value := 0x2500, attributes := default, width := 1 }).length = 3 := by decide
  rw [text, cellsText_length fun column => bytes] at fits
  exact absurd fits (by decide)

end GuacNebula.Terminal
