import GuacNebula.Lib.CString
import GuacNebula.Rdp.PrintJob
import Mathlib.Data.Nat.Find

/-! # The title of a printed document

The first data of a print job are searched for the PostScript header of a title, which becomes the
name of the file. The search counts its turns up and the bytes that are left down, so the two meet
halfway. A comparison goes on as long as the bytes agree with the header, wherever the data end.

The data are the beginning of a memory that has a byte at every place.
-/

namespace GuacNebula.Rdp

open CString

/-! ## The search -/

/-- The header that a title follows. -/
def titleHeader : CString := ascii "%%Title: "

/-- The bytes of a memory from a place on. -/
def bytesFrom (memory : Nat → UInt8) (place count : Nat) : CString :=
  bytes (fun index => memory (place + index)) count

/-- The number of bytes that `strncmp` reads of the memory, up to the first that differs. -/
def comparedBytes (memory : Nat → UInt8) : CString → Nat → Nat
  | [], _ => 0
  | c :: text, place =>
      if memory place = c then comparedBytes memory text (place + 1) + 1 else 1

/-- The character ends a line. -/
def isEol (c : UInt8) : Bool := c == 13 || c == 10

/-- The memory has the header at a place. -/
def HeaderAt (memory : Nat → UInt8) (place : Nat) : Prop :=
  bytesFrom memory place 9 = titleHeader

instance (memory : Nat → UInt8) (place : Nat) : Decidable (HeaderAt memory place) :=
  inferInstanceAs (Decidable (_ = _))

/-- The number of characters that there is room for in the file name, and that the buffer has behind
the header. -/
def titleRoom (length : Int) : Nat := (min (length - 9) (filenameMaxLength - 5)).toNat

/-- The characters that `guac_rdp_print_job_parse_title_header` copies. -/
def copiedTitle (memory : Nat → UInt8) (place : Nat) (length : Int) : CString :=
  (bytesFrom memory (place + 9) (titleRoom length)).takeWhile fun c => !isEol c

/-- The place behind the last byte that `guac_rdp_print_job_parse_title_header` reads. -/
def parsedEnd (memory : Nat → UInt8) (place : Nat) (length : Int) : Nat :=
  if HeaderAt memory place then
    place + 9 + min ((copiedTitle memory place length).length + 1) (titleRoom length)
  else place + comparedBytes memory titleHeader place

/-- The loop of `guac_rdp_print_job_read_filename`: what is stored as the file name, if anything is,
and the place behind the last byte that is read. -/
def searchTitle (memory : Nat → UInt8) (i length : Int) (place : Nat) : Option CString × Nat :=
  if i < length then
    if HeaderAt memory place then
      (some (copiedTitle memory place length ++ ascii ".pdf"), parsedEnd memory place length)
    else
      let (stored, last) := searchTitle memory (i + 1) (length - 1) (place + 1)
      (stored, max (parsedEnd memory place length) last)
  else (none, 0)
termination_by (length - i).toNat

/-- `guac_rdp_print_job_read_filename`. -/
def storedTitle (memory : Nat → UInt8) (length : Nat) : Option CString × Nat :=
  searchTitle memory 0 (min length titleSearchLength) 0

/-! ## Titles that are detected -/

/-- The header stands within the data, and within the part that is searched. -/
def HeaderWithin (memory : Nat → UInt8) (length start : Nat) : Prop :=
  start + 9 ≤ min length titleSearchLength ∧ HeaderAt memory start

/-- The first header within the data. -/
def FirstHeader (memory : Nat → UInt8) (length start : Nat) : Prop :=
  HeaderWithin memory length start ∧ ∀ earlier < start, ¬HeaderAt memory earlier

/-- The line behind a header. -/
def titleLine (memory : Nat → UInt8) (length start : Nat) : CString :=
  (bytesFrom memory (start + 9) (length - (start + 9))).takeWhile fun c => !isEol c

/-- The title behind the first header becomes the file name, as far as there is room, nothing is
stored if there is no header, and nothing behind the data is read. -/
structure TitleDetected (memory : Nat → UInt8) (length : Nat) : Prop where
  title : ∀ start, FirstHeader memory length start →
    (storedTitle memory length).1 =
      some ((titleLine memory length start).take (filenameMaxLength - 5) ++ ascii ".pdf")
  none : (∀ start, ¬HeaderWithin memory length start) → (storedTitle memory length).1 = none
  inside : (storedTitle memory length).2 ≤ length

/-- The first header stands in the first half of what is searched, and the title does not leave it.
Data without a header do not end, within their first half, in the beginning of one. -/
structure DetectableTitle (memory : Nat → UInt8) (length : Nat) : Prop where
  early : ∀ start, FirstHeader memory length start →
    2 * start < min length titleSearchLength ∧
      start + 9 + min (titleLine memory length start).length (filenameMaxLength - 5) ≤
        titleSearchLength
  whole : (∀ start, ¬HeaderWithin memory length start) → ∀ place, 2 * place < length →
    length < place + 9 →
      bytesFrom memory place (length - place) ≠ titleHeader.take (length - place)

section Search

variable {memory : Nat → UInt8} {size place start : Nat}

/-- The search from a place on, of which as many turns are over. -/
def searchFrom (memory : Nat → UInt8) (size place : Nat) : Option CString × Nat :=
  searchTitle memory place (size - place) place

/-- A place is reached if it lies in the first half. -/
theorem searchFrom_over (beyond : size ≤ 2 * place) : searchFrom memory size place = (none, 0) := by
  rw [searchFrom, searchTitle, if_neg (by omega)]

theorem searchFrom_header (reached : 2 * place < size) (header : HeaderAt memory place) :
    searchFrom memory size place =
      (some (copiedTitle memory place (size - place) ++ ascii ".pdf"),
        parsedEnd memory place (size - place)) := by
  rw [searchFrom, searchTitle, if_pos (by omega), if_pos header]

theorem searchFrom_next (reached : 2 * place < size) (missing : ¬HeaderAt memory place) :
    searchFrom memory size place =
      ((searchFrom memory size (place + 1)).1,
        max (parsedEnd memory place (size - place)) (searchFrom memory size (place + 1)).2) := by
  have step : (size : Int) - place - 1 = size - ((place + 1 : Nat) : Int) := by omega
  rw [searchFrom, searchTitle, if_pos (by omega), if_neg missing, step]
  rfl

/-- A header that is reached before any other is parsed. -/
theorem searchFrom_found (after : place ≤ start) (reached : 2 * start < size)
    (header : HeaderAt memory start)
    (first : ∀ earlier, place ≤ earlier → earlier < start → ¬HeaderAt memory earlier) :
    (searchFrom memory size place).1 =
      some (copiedTitle memory start (size - start) ++ ascii ".pdf") := by
  induction after using Nat.decreasingInduction with
  | self => rw [searchFrom_header reached header]
  | of_succ place before ih =>
      rw [searchFrom_next (by omega) (first place (Nat.le_refl _) before)]
      exact ih fun earlier later => first earlier (by omega)

/-- Nothing is stored if no header is reached. -/
theorem searchFrom_none
    (missing : ∀ start, place ≤ start → 2 * start < size → ¬HeaderAt memory start) :
    (searchFrom memory size place).1 = none := by
  obtain ⟨turns, enough⟩ : ∃ turns, size ≤ place + turns := ⟨size, Nat.le_add_left _ _⟩
  induction turns generalizing place with
  | zero => rw [searchFrom_over (by omega)]
  | succ turns ih =>
      by_cases reached : 2 * place < size
      · rw [searchFrom_next reached (missing place (Nat.le_refl _) reached)]
        exact ih (fun start later => missing start (by omega)) (by omega)
      · rw [searchFrom_over (Nat.le_of_not_lt reached)]

/-- The search stays within a bound exactly if that is so at all places that are reached before a
header is found. -/
theorem searchFrom_end_le_iff (bound : Nat) :
    (searchFrom memory size place).2 ≤ bound ↔
      ∀ start, place ≤ start → 2 * start < size →
        (∀ earlier, place ≤ earlier → earlier < start → ¬HeaderAt memory earlier) →
        parsedEnd memory start (size - start) ≤ bound := by
  obtain ⟨turns, enough⟩ : ∃ turns, size ≤ place + turns := ⟨size, Nat.le_add_left _ _⟩
  induction turns generalizing place with
  | zero =>
      rw [searchFrom_over (by omega)]
      exact iff_of_true (Nat.zero_le _) fun start later reached => absurd reached (by omega)
  | succ turns ih =>
      by_cases reached : 2 * place < size
      · by_cases header : HeaderAt memory place
        · rw [searchFrom_header reached header]
          constructor
          · intro inside start later _ first
            rcases Nat.eq_or_lt_of_le later with rfl | before
            · exact inside
            · exact absurd header (first place (Nat.le_refl _) before)
          · exact fun all => all place (Nat.le_refl _) reached fun earlier later before =>
              absurd before (Nat.not_lt.mpr later)
        · rw [searchFrom_next reached header, Nat.max_le, ih (by omega)]
          constructor
          · rintro ⟨here, next⟩ start later reached first
            rcases Nat.eq_or_lt_of_le later with rfl | before
            · exact here
            · exact next start before reached fun earlier later => first earlier (by omega)
          · intro all
            refine ⟨all place (Nat.le_refl _) reached fun earlier later before =>
              absurd before (Nat.not_lt.mpr later), fun start later reached first => ?_⟩
            refine all start (by omega) reached fun earlier notBefore before => ?_
            rcases Nat.eq_or_lt_of_le notBefore with rfl | behind
            · exact header
            · exact first earlier behind before
      · rw [searchFrom_over (Nat.le_of_not_lt reached)]
        exact iff_of_true (Nat.zero_le _) fun start later near => absurd near (by omega)

theorem storedTitle_eq (memory : Nat → UInt8) (length : Nat) :
    storedTitle memory length = searchFrom memory (min length titleSearchLength) 0 := by
  unfold storedTitle searchFrom
  congr 1
  omega

end Search

/-! ## What a comparison reads -/

section Comparison

variable {memory : Nat → UInt8}

theorem bytesFrom_succ (place count : Nat) :
    bytesFrom memory place (count + 1) = memory place :: bytesFrom memory (place + 1) count := by
  unfold bytesFrom bytes
  rw [List.range_succ_eq_map, List.map_cons, List.map_map, Nat.add_zero]
  refine congrArg (memory place :: ·) (List.map_congr_left fun index _ => ?_)
  exact congrArg memory (by rw [Nat.succ_eq_add_one]; omega)

/-- A comparison goes beyond a number of bytes exactly if all of them agree with the text. -/
theorem comparedBytes_le_iff (text : CString) (place count : Nat) :
    comparedBytes memory text place ≤ count ↔
      text.length ≤ count ∨ bytesFrom memory place count ≠ text.take count := by
  induction text generalizing place count with
  | nil => exact iff_of_true (Nat.zero_le _) (.inl (Nat.zero_le _))
  | cons c text ih =>
      rw [comparedBytes, List.length_cons]
      cases count with
      | zero =>
          refine iff_of_false ?_ ?_
          · split_ifs <;> omega
          · rintro (long | differs)
            · omega
            · exact differs rfl
      | succ count =>
          rw [bytesFrom_succ, List.take_succ_cons, Ne, List.cons_eq_cons, not_and_or,
            Nat.add_le_add_iff_right]
          split_ifs with same
          · rw [Nat.add_le_add_iff_right, ih, or_iff_right (not_not.mpr same)]
          · exact iff_of_true (by omega) (.inr (.inl same))

end Comparison

/-! ## Detection -/

section Detection

variable {memory : Nat → UInt8} {length start place : Nat}

theorem bytesFrom_take (memory : Nat → UInt8) (place : Nat) {count whole : Nat}
    (fewer : count ≤ whole) :
    bytesFrom memory place count = (bytesFrom memory place whole).take count := by
  unfold bytesFrom bytes
  rw [← List.map_take, List.take_range, Nat.min_eq_left fewer]

theorem HeaderAt.bytesFrom (header : HeaderAt memory place) {count : Nat} (fewer : count ≤ 9) :
    bytesFrom memory place count = titleHeader.take count := by
  have whole : Rdp.bytesFrom memory place 9 = titleHeader := header
  rw [bytesFrom_take memory place fewer, whole]

/-- Within the part that is searched, the line is copied up to the end of that part. -/
theorem copiedTitle_eq (inside : start + 9 ≤ min length titleSearchLength) :
    copiedTitle memory start ((min length titleSearchLength : Nat) - start) =
      (titleLine memory length start).take
        (min (min length titleSearchLength - (start + 9)) (filenameMaxLength - 5)) := by
  have size : filenameMaxLength = 1024 := rfl
  have room : titleRoom ((min length titleSearchLength : Nat) - start) =
      min (min length titleSearchLength - (start + 9)) (filenameMaxLength - 5) := by
    unfold titleRoom
    omega
  have fewer : min (min length titleSearchLength - (start + 9)) (filenameMaxLength - 5) ≤
      length - (start + 9) := by
    omega
  unfold copiedTitle titleLine
  rw [room, bytesFrom_take memory (start + 9) fewer, List.take_takeWhile]

theorem titleLine_length_le (memory : Nat → UInt8) (length start : Nat) :
    (titleLine memory length start).length ≤ length - (start + 9) := by
  have shorter := (List.takeWhile_sublist (l := bytesFrom memory (start + 9)
    (length - (start + 9))) fun c => !isEol c).length_le
  rwa [bytesFrom, bytes_length] at shorter

/-- A header that is parsed within the part that is searched leaves that part only if it stands at
its end. -/
theorem parsedEnd_header (header : HeaderAt memory start) (size : Nat) :
    start + 9 ≤ parsedEnd memory start (size - start) ∧
      (start + 9 ≤ size → parsedEnd memory start (size - start) ≤ size) := by
  unfold parsedEnd
  rw [if_pos header]
  refine ⟨Nat.le_add_right _ _, fun inside => ?_⟩
  have room : titleRoom ((size : Int) - start) ≤ size - (start + 9) := by
    unfold titleRoom
    omega
  omega

/-- A header that is found beyond the data begins with their last bytes. -/
theorem DetectableTitle.not_headerAt (detectable : DetectableTitle memory length)
    (missing : ∀ start, ¬HeaderWithin memory length start)
    (reached : 2 * start < min length titleSearchLength) : ¬HeaderAt memory start := by
  intro header
  have size : titleSearchLength = 2048 := rfl
  by_cases within : start + 9 ≤ min length titleSearchLength
  · exact missing start ⟨within, header⟩
  · exact detectable.whole missing start (by omega) (by omega) (header.bytesFrom (by omega))

theorem DetectableTitle.inside (detectable : DetectableTitle memory length) :
    (storedTitle memory length).2 ≤ length := by
  have size : titleSearchLength = 2048 := rfl
  rw [storedTitle_eq, searchFrom_end_le_iff]
  intro start _ reached first
  -- A header within the data would stand behind this place.
  have missing (far : min length titleSearchLength < start + 9) :
      ∀ other, ¬HeaderWithin memory length other := by
    rintro other ⟨within, header⟩
    exact first other (Nat.zero_le _) (by omega) header
  by_cases header : HeaderAt memory start
  · by_cases within : start + 9 ≤ min length titleSearchLength
    · exact Nat.le_trans ((parsedEnd_header header _).2 within) (Nat.min_le_left _ _)
    · exact absurd header (detectable.not_headerAt (missing (by omega)) reached)
  · have compared : comparedBytes memory titleHeader start ≤ length - start := by
      rw [comparedBytes_le_iff]
      by_cases near : start + 9 ≤ length
      · exact .inl (show 9 ≤ length - start by omega)
      · exact .inr (detectable.whole (missing (by omega)) start (by omega) (by omega))
    rw [parsedEnd, if_neg header]
    omega

/-- The place of a comparison that leaves the data is reached, or a header beyond them is. -/
theorem TitleDetected.whole (detected : TitleDetected memory length)
    (missing : ∀ start, ¬HeaderWithin memory length start) (reached : 2 * place < length)
    (near : length < place + 9) :
    bytesFrom memory place (length - place) ≠ titleHeader.take (length - place) := by
  intro same
  have size : titleSearchLength = 2048 := rfl
  have stops : ∃ start, HeaderAt memory start ∨ start = place := ⟨place, .inr rfl⟩
  have before (earlier : Nat) (less : earlier < Nat.find stops) : ¬HeaderAt memory earlier :=
    fun header => Nat.find_min stops less (.inl header)
  have upTo : Nat.find stops ≤ place := Nat.find_min' stops (.inr rfl)
  have inside := detected.inside
  rw [storedTitle_eq, searchFrom_end_le_iff] at inside
  have stopped := inside (Nat.find stops) (Nat.zero_le _) (by omega) fun earlier _ => before earlier
  by_cases header : HeaderAt memory (Nat.find stops)
  · have atLeast := (parsedEnd_header header (min length titleSearchLength)).1
    exact missing _ ⟨by omega, header⟩
  · have here : Nat.find stops = place := (Nat.find_spec stops).resolve_left header
    rw [parsedEnd, if_neg header, here] at stopped
    have compared : comparedBytes memory titleHeader place ≤ length - place := by omega
    rcases (comparedBytes_le_iff titleHeader place _).mp compared with long | differs
    · have count : titleHeader.length = 9 := rfl
      omega
    · exact differs same

end Detection

/-- **A title is detected** behind the first header within the data that are searched, and no byte
behind them is read, exactly if the header stands in the first half of them with its whole title,
and no comparison runs into the end of data without a header. -/
theorem storedTitle_detected_iff (memory : Nat → UInt8) (length : Nat) :
    TitleDetected memory length ↔ DetectableTitle memory length := by
  have size : titleSearchLength = 2048 := rfl
  have room : filenameMaxLength = 1024 := rfl
  constructor
  · intro detected
    refine ⟨fun start first => ?_, fun missing place => detected.whole missing⟩
    have title := detected.title start first
    rw [storedTitle_eq] at title
    by_cases reached : 2 * start < min length titleSearchLength
    · rw [searchFrom_found (Nat.zero_le _) reached first.1.2 fun earlier _ => first.2 earlier,
        copiedTitle_eq first.1.1, Option.some.injEq, List.append_cancel_right_eq] at title
      have lengths := congrArg List.length title
      rw [List.length_take, List.length_take] at lengths
      have line := titleLine_length_le memory length start
      have within := first.1.1
      exact ⟨reached, by omega⟩
    · have nothing : (searchFrom memory (min length titleSearchLength) 0).1 = none :=
        searchFrom_none fun other _ near => first.2 other (by omega)
      rw [nothing] at title
      cases title
  · intro detectable
    refine ⟨fun start first => ?_, fun missing => ?_, detectable.inside⟩
    · obtain ⟨reached, fits⟩ := detectable.early start first
      have within := first.1.1
      rw [storedTitle_eq,
        searchFrom_found (Nat.zero_le _) reached first.1.2 fun earlier _ => first.2 earlier,
        copiedTitle_eq within, Option.some.injEq, List.append_cancel_right_eq,
        List.take_eq_take_iff]
      have line := titleLine_length_le memory length start
      omega
    · rw [storedTitle_eq]
      exact searchFrom_none fun start _ reached => detectable.not_headerAt missing reached

/-- A document whose title stands in its second half. -/
def lateTitle : CString := ascii "%!PS-Adobe-3.0\n%%Title: a\n"

/-- The title of a short document is not found. -/
theorem storedTitle_late : ¬∀ memory length, TitleDetected memory length := by
  intro detected
  have plain : ∀ earlier < 15, ¬HeaderAt (fun place => lateTitle.getD place 0) earlier := by decide
  have header : FirstHeader (fun place => lateTitle.getD place 0) 26 15 :=
    ⟨⟨by decide, by decide⟩, plain⟩
  have title := (detected _ 26).title 15 header
  have nothing : (searchFrom (fun place => lateTitle.getD place 0) 26 0).1 = none :=
    searchFrom_none fun other _ reached => plain other (by omega)
  rw [storedTitle_eq, show min 26 titleSearchLength = 26 from rfl, nothing] at title
  cases title

/-! ## The job -/

section Job

variable {buffer : CString} {place : Nat}

/-- The memory that a buffer is the beginning of, with zeros behind it. -/
def memoryOf (buffer : CString) (place : Nat) : UInt8 := buffer.getD place 0

theorem bytesFrom_memoryOf {count : Nat} (inside : place + count ≤ buffer.length) :
    bytesFrom (memoryOf buffer) place count = (buffer.drop place).take count := by
  refine List.ext_getElem ?_ fun index left right => ?_
  · rw [bytesFrom, bytes_length, List.length_take, List.length_drop]
    omega
  · rw [bytesFrom, bytes_length] at left
    simp only [bytesFrom, bytes, memoryOf, List.getElem_map, List.getElem_range, List.getElem_take,
      List.getElem_drop]
    exact List.getD_eq_getElem _ _ (by omega)

theorem headerAt_memoryOf_iff :
    HeaderAt (memoryOf buffer) place ↔ (buffer.drop place).take 9 = titleHeader := by
  by_cases inside : place + 9 ≤ buffer.length
  · rw [HeaderAt, bytesFrom_memoryOf inside]
  · refine iff_of_false (fun header => ?_) fun same => ?_
    · -- The header does not end in a zero.
      have last := congrArg (fun bytes : CString => bytes.getD 8 0) header
      have zero : memoryOf buffer (place + 8) = 0 := List.getD_eq_default _ _ (by omega)
      have read : (bytesFrom (memoryOf buffer) place 9).getD 8 0 = memoryOf buffer (place + 8) :=
        rfl
      exact absurd ((zero.symm.trans read.symm).trans last) (by decide)
    · have short := congrArg List.length same
      rw [List.length_take, List.length_drop, show titleHeader.length = 9 from rfl] at short
      omega

/-- The filename of the job is what was stored, up to a zero. -/
theorem parseTitleHeader_memoryOf {size : Nat} (fewer : size ≤ buffer.length) :
    parseTitleHeader (buffer.drop place) (size - place) =
      if HeaderAt (memoryOf buffer) place then
        some ((copiedTitle (memoryOf buffer) place (size - place) ++ ascii ".pdf").takeWhile
          (· ≠ 0))
      else none := by
  have eol : (fun c : UInt8 => decide (c ≠ 13 ∧ c ≠ 10)) = fun c => !isEol c := by
    funext c
    rw [isEol, Bool.not_or, Bool.decide_and]
    exact congrArg₂ _ (decide_not ..) (decide_not ..)
  have room : place + 9 + titleRoom (size - place) ≤ buffer.length ∨
      titleRoom (size - place) = 0 := by
    unfold titleRoom
    omega
  have copied : (buffer.drop (place + 9)).take (titleRoom (size - place)) =
      bytesFrom (memoryOf buffer) (place + 9) (titleRoom (size - place)) := by
    rcases room with inside | none
    · exact (bytesFrom_memoryOf inside).symm
    · rw [none]
      rfl
  unfold parseTitleHeader
  by_cases header : HeaderAt (memoryOf buffer) place
  · have same : (buffer.drop place).take 9 = ascii "%%Title: " := headerAt_memoryOf_iff.mp header
    rw [if_pos header, if_pos same, copiedTitle, ← copied, ← eol, List.drop_drop]
    rfl
  · have other : (buffer.drop place).take 9 ≠ ascii "%%Title: " := fun same =>
      header (headerAt_memoryOf_iff.mpr same)
    rw [if_neg header, if_neg other]

/-- The filename that the first data of a job give to it. -/
theorem readFilename_eq (filename buffer : CString) :
    readFilename filename buffer =
      ((storedTitle (memoryOf buffer) buffer.length).1.map fun stored =>
        stored.takeWhile (· ≠ 0)).getD filename := by
  have loop : ∀ steps place, steps = (min buffer.length titleSearchLength + 1) / 2 - place →
      findTitle steps (buffer.drop place) ((min buffer.length titleSearchLength : Nat) - place) =
        (searchFrom (memoryOf buffer) (min buffer.length titleSearchLength) place).1.map
          fun stored => stored.takeWhile (· ≠ 0) := by
    intro steps
    induction steps with
    | zero =>
        intro place none
        rw [searchFrom_over (by omega)]
        rfl
    | succ steps ih =>
        intro place more
        have step : ((min buffer.length titleSearchLength : Nat) : Int) - place - 1 =
            (min buffer.length titleSearchLength : Nat) - ((place + 1 : Nat) : Int) := by omega
        rw [findTitle, parseTitleHeader_memoryOf (Nat.min_le_left _ _), List.drop_drop, step,
          ih (place + 1) (by omega)]
        by_cases header : HeaderAt (memoryOf buffer) place
        · rw [if_pos header, searchFrom_header (by omega) header]
          rfl
        · rw [if_neg header, searchFrom_next (by omega) header, Option.none_or]
  unfold readFilename
  rw [storedTitle_eq, ← loop _ 0 rfl]
  rfl

end Job

end GuacNebula.Rdp
