import GuacNebula.Terminal.CellMarks

/-! # What an edge leaves of characters

A character stands in its own column and in those of the continuations after it. An edge between
two columns cuts it if there are such columns on both sides. `__guac_terminal_force_break` is told
an edge, looks at the columns next to it on either side as far as continuations reach, and blanks
those that do not belong to a whole character.

Nothing is assumed of the contents of the row: there may be continuations without a character, and
characters without all of their continuations.
-/

namespace GuacNebula.Terminal

/-- The cell belongs to the character left of it. -/
def Continued (characters : Int → TerminalChar) (column : Int) : Prop :=
  (characters column).value = charContinuation

/-- The columns from `first` to before `last` have a whole character in them that starts in the
given column. -/
def WholeAt (characters : Int → TerminalChar) (last start : Int) : Prop :=
  ¬ Continued characters start ∧ start + (characters start).width ≤ last
    ∧ ∀ other, start < other → other < start + (characters start).width →
        Continued characters other

/-- The column belongs to a whole character that stands in the columns from `first` to before
`last`. -/
def Held (characters : Int → TerminalChar) (first last column : Int) : Prop :=
  ∃ start, first ≤ start ∧ start ≤ column ∧ column < start + (characters start).width
    ∧ WholeAt characters last start

/-- What is left of a character on the left of an edge: the columns from which continuations reach
to the edge, if they do not belong to a character that ends there or before. -/
def LeftRemains (characters : Int → TerminalChar) (edge column : Int) : Prop :=
  (0 ≤ column ∧ column < edge)
    ∧ (∀ other, column < other → other < edge → Continued characters other)
    ∧ ¬ Held characters 0 edge column

/-- What is left of a character on the right of an edge: the columns to which continuations reach
from the first one, if they do not belong to a character that starts there. -/
def RightRemains (characters : Int → TerminalChar) (length edge column : Int) : Prop :=
  (edge ≤ column ∧ column < length)
    ∧ (∀ other, edge < other → other ≤ column → Continued characters other)
    ∧ ¬ Held characters edge length column

/-- What is left of a character on either side of an edge. -/
def Remains (characters : Int → TerminalChar) (length edge column : Int) : Prop :=
  LeftRemains characters edge column ∨ RightRemains characters length edge column

/-- The column belongs to a whole character that stands on both sides of an edge. -/
def Across (characters : Int → TerminalChar) (length edge column : Int) : Prop :=
  ∃ start, 0 ≤ start ∧ start < edge ∧ edge < start + (characters start).width
    ∧ start ≤ column ∧ column < start + (characters start).width
    ∧ WholeAt characters length start

/-- A space in one column. -/
def TerminalChar.IsBlank (character : TerminalChar) : Prop :=
  character.value = 32 ∧ character.width = 1

/-- Some of the cells of a row have been blanked. -/
structure Blanked (before : Int → TerminalChar) (cut : Int → Prop) (after : Int → TerminalChar) :
    Prop where
  blank : ∀ column, cut column → (after column).IsBlank
  kept : ∀ column, ¬ cut column → after column = before column

/-! ## Where characters start and end -/

section Characters

variable {characters others : Int → TerminalChar} {first last length edge column : Int}

theorem TerminalChar.IsBlank.not_continued (blank : (characters column).IsBlank) :
    ¬ Continued characters column := by
  unfold Continued
  rw [blank.1]
  decide

theorem WholeAt.congr {start : Int}
    (same : ∀ other, start ≤ other → other < start + (characters start).width →
      others other = characters other)
    (here : others start = characters start) (whole : WholeAt characters last start) :
    WholeAt others last start := by
  unfold WholeAt Continued at *
  rw [here]
  refine ⟨whole.1, whole.2.1, fun other after before => ?_⟩
  rw [same other (by omega) before]
  exact whole.2.2 other after before

/-- Whether a column is held depends on what stands among the given columns. -/
theorem Held.congr (held : Held characters first last column)
    (same : ∀ other, first ≤ other → other < last → others other = characters other) :
    Held others first last column := by
  obtain ⟨start, after, before, covers, whole⟩ := held
  have ends := whole.2.1
  have here : others start = characters start := same start after (by omega)
  refine ⟨start, after, before, by rw [here]; exact covers, whole.congr (fun other _ _ => ?_) here⟩
  exact same other (by omega) (by omega)

theorem LeftRemains.congr (remains : LeftRemains characters edge column)
    (same : ∀ other, 0 ≤ other → other < edge → others other = characters other) :
    LeftRemains others edge column := by
  obtain ⟨inside, reaches, loose⟩ := remains
  refine ⟨inside, fun other after before => ?_, fun held => loose (held.congr ?_)⟩
  · rw [Continued, same other (by omega) before]
    exact reaches other after before
  · exact fun other after before => (same other after before).symm

theorem RightRemains.congr (remains : RightRemains characters length edge column)
    (same : ∀ other, edge ≤ other → other < length → others other = characters other) :
    RightRemains others length edge column := by
  obtain ⟨inside, reaches, loose⟩ := remains
  refine ⟨inside, fun other after before => ?_, fun held => loose (held.congr ?_)⟩
  · rw [Continued, same other (by omega) (by omega)]
    exact reaches other after before
  · exact fun other after before => (same other after before).symm

/-- A character that is not in a column that continues another one starts there. -/
theorem Held.start_eq (held : Held characters first last column) {start : Int}
    (ordered : first ≤ start) (before : start ≤ column)
    (continued : ∀ other, start < other → other ≤ column → Continued characters other)
    (head : start = first ∨ ¬ Continued characters start) :
    ¬ Continued characters start ∧ column < start + (characters start).width
      ∧ start + (characters start).width ≤ last := by
  obtain ⟨other, after, below, reaches, solid, ends, inner⟩ := held
  have same : other = start := by
    by_contra apart
    rcases Int.lt_or_gt_of_ne apart with lower | upper
    · rcases head with edge | head
      · omega
      · exact head (inner start lower (by omega))
    · exact solid (continued other upper below)
  subst same
  exact ⟨solid, reaches, ends⟩

/-- What the code tests: the columns `start` to `stop`, all but the first of which are
continuations, less the character that starts in the first of them. -/
theorem broken_iff {start stop : Int} (before : start ≤ column)
    (after : column ≤ stop)
    (continued : ∀ other, start < other → other ≤ stop → Continued characters other) :
    (Broken characters (brokenStart characters start stop) stop
        ∧ brokenStart characters start stop ≤ column) ↔
      ¬ (¬ Continued characters start ∧ column < start + (characters start).width
        ∧ start + (characters start).width ≤ stop + 1) := by
  unfold Continued at continued ⊢
  by_cases complete : (characters start).value ≠ charContinuation
      ∧ ((characters start).width : Int) < stop - start + 1
  · have begins : brokenStart characters start stop = start + (characters start).width :=
      if_pos complete
    rw [begins]
    constructor
    · rintro ⟨_, outside⟩ ⟨_, inside, _⟩
      omega
    · intro outside
      have past : start + (characters start).width ≤ column := by
        by_contra inside
        exact outside ⟨complete.1, by omega, by omega⟩
      refine ⟨?_, past⟩
      by_cases empty : (characters start).width = 0
      · rw [empty, Int.natCast_zero, Int.add_zero]
        right
        rw [empty, Int.natCast_zero]
        omega
      · exact .inl (continued _ (by omega) (by omega))
  · have begins : brokenStart characters start stop = start := if_neg complete
    rw [begins]
    constructor
    · rintro ⟨continuation | width, _⟩ ⟨solid, _, fits⟩
      · exact solid continuation
      · exact complete ⟨solid, by omega⟩
    · intro outside
      refine ⟨?_, before⟩
      by_contra unbroken
      simp only [Broken, not_or, not_not] at unbroken
      exact outside ⟨unbroken.1, by omega, by omega⟩

theorem scanStart_head (characters : Int → TerminalChar) (column : Nat) :
    scanStart characters column = 0 ∨ ¬ Continued characters (scanStart characters column) := by
  induction column with
  | zero => exact .inl rfl
  | succ column ih =>
      rw [scanStart]
      split
      case isTrue continued => exact ih
      case isFalse head => exact .inr head

theorem scanEnd_last (characters : Int → TerminalChar) (remaining : Nat) (column : Int) :
    scanEnd characters remaining column = column + remaining
      ∨ ¬ Continued characters (scanEnd characters remaining column + 1) := by
  induction remaining generalizing column with
  | zero =>
      rw [scanEnd]
      exact .inl (by omega)
  | succ remaining ih =>
      rw [scanEnd]
      split
      case isTrue continued =>
        rcases ih (column + 1) with last | next
        · exact .inl (by omega)
        · exact .inr next
      case isFalse next => exact .inr next

/-- What is blanked on the left of an edge is what is left of a character there. -/
theorem leftRemains_iff (positive : 0 < edge) :
    LeftRemains characters edge column ↔
      (scanStart characters (edge - 1).toNat ≤ column ∧ column ≤ edge - 1)
        ∧ Broken characters
            (brokenStart characters (scanStart characters (edge - 1).toNat) (edge - 1)) (edge - 1)
        ∧ brokenStart characters (scanStart characters (edge - 1).toNat) (edge - 1) ≤ column := by
  have last : ((edge - 1).toNat : Int) = edge - 1 := by omega
  obtain ⟨inside, continued⟩ := scanStart_spec characters (edge - 1).toNat
  have head := scanStart_head characters (edge - 1).toNat
  rw [last] at continued
  generalize scanStart characters (edge - 1).toNat = start at inside continued head ⊢
  constructor
  · rintro ⟨⟨nonneg, before⟩, reaches, loose⟩
    have after : (start : Int) ≤ column := by
      by_contra lower
      rcases head with zero | head
      · omega
      · exact head (reaches start (by omega) (by omega))
    refine ⟨⟨after, by omega⟩, (broken_iff after (by omega) continued).mpr ?_⟩
    rintro ⟨solid, within, fits⟩
    refine loose ⟨start, by omega, after, within, solid, by omega, fun other left right => ?_⟩
    exact continued other left (by omega)
  · rintro ⟨⟨after, before⟩, broken⟩
    refine ⟨by omega, fun other left right => continued other (by omega) (by omega), fun held => ?_⟩
    have begins : (start : Int) = 0 ∨ ¬ Continued characters start := by
      exact head.imp (fun zero => by omega) id
    have covered := held.start_eq (by omega) after
      (fun other left right => continued other left (by omega)) begins
    exact (broken_iff after before continued).mp broken
      ⟨covered.1, covered.2.1, by omega⟩

/-- What is blanked on the right of an edge is what is left of a character there. -/
theorem rightRemains_iff (within : edge < length) :
    RightRemains characters length edge column ↔
      (edge ≤ column ∧ column ≤ scanEnd characters (length - 1 - edge).toNat edge)
        ∧ Broken characters
            (brokenStart characters edge (scanEnd characters (length - 1 - edge).toNat edge))
            (scanEnd characters (length - 1 - edge).toNat edge)
        ∧ brokenStart characters edge (scanEnd characters (length - 1 - edge).toNat edge)
            ≤ column := by
  have left : ((length - 1 - edge).toNat : Int) = length - 1 - edge := by omega
  obtain ⟨first, bound, continued⟩ := scanEnd_spec characters (length - 1 - edge).toNat edge
  have last := scanEnd_last characters (length - 1 - edge).toNat edge
  rw [left] at bound last
  generalize scanEnd characters (length - 1 - edge).toNat edge = stop
    at first bound continued last ⊢
  -- No continuation follows the last column among those of the row.
  have reached : ∀ other, other < length →
      (∀ between, edge < between → between ≤ other → Continued characters between) →
      other ≤ stop := by
    intro other inside reaches
    by_contra further
    rcases last with final | next
    · omega
    · exact next (reaches (stop + 1) (by omega) (by omega))
  constructor
  · rintro ⟨⟨after, inside⟩, reaches, loose⟩
    have before : column ≤ stop := reached column inside reaches
    refine ⟨⟨after, before⟩, (broken_iff after before continued).mpr ?_⟩
    rintro ⟨solid, covers, fits⟩
    refine loose ⟨edge, le_rfl, after, covers, solid, by omega, fun other left right => ?_⟩
    exact continued other left (by omega)
  · rintro ⟨⟨after, before⟩, broken⟩
    refine ⟨⟨after, by omega⟩, fun other left right => continued other left (by omega),
      fun held => ?_⟩
    have covered := held.start_eq le_rfl after
      (fun other left right => continued other left (by omega)) (.inl rfl)
    have inner : edge + (characters edge).width - 1 ≤ stop := by
      obtain ⟨start, low, high, covers, solid, ends, inner⟩ := held
      have same : start = edge := by
        by_contra apart
        exact solid (continued start (by omega) (by omega))
      subst same
      exact reached _ (by omega) fun other left right => inner other left (by omega)
    exact (broken_iff after before continued).mp broken ⟨covered.1, covered.2.1, by omega⟩

/-- In a row of whole characters, what is left at an edge belongs to the character that it cuts. -/
theorem remains_iff_across (nonneg : 0 ≤ edge) (within : edge ≤ length)
    (formed : ∀ other, 0 ≤ other → other < length → Held characters 0 length other) :
    Remains characters length edge column ↔ Across characters length edge column := by
  constructor
  · rintro (⟨inside, _, loose⟩ | ⟨inside, _, loose⟩)
    · obtain ⟨start, first, after, covers, whole⟩ := formed column inside.1 (by omega)
      refine ⟨start, first, by omega, ?_, after, covers, whole⟩
      by_contra before
      exact loose ⟨start, first, after, covers, whole.1, by omega, whole.2.2⟩
    · obtain ⟨start, first, after, covers, whole⟩ := formed column (by omega) inside.2
      have before : start < edge := by
        by_contra right
        exact loose ⟨start, by omega, after, covers, whole⟩
      exact ⟨start, first, before, by omega, after, covers, whole⟩
  · rintro ⟨start, first, before, across, after, covers, solid, ends, inner⟩
    rcases Int.lt_or_le column edge with left | right
    · refine .inl ⟨⟨by omega, left⟩, fun other low high => inner other (by omega) (by omega), ?_⟩
      rintro ⟨other, _, low, reaches, otherSolid, otherEnds, otherInner⟩
      rcases lt_trichotomy other start with lower | rfl | upper
      · exact solid (otherInner start lower (by omega))
      · omega
      · exact otherSolid (inner other upper (by omega))
    · refine .inr ⟨⟨right, by omega⟩, fun other low high => inner other (by omega) (by omega), ?_⟩
      rintro ⟨other, low, high, _, otherSolid, _⟩
      exact otherSolid (inner other (by omega) (by omega))

/-! ## What has been blanked -/

variable {cut : Int → Prop}

theorem Held.mono {earlier later : Int} (held : Held characters first last column)
    (before : earlier ≤ first) (after : last ≤ later) : Held characters earlier later column := by
  obtain ⟨start, low, high, covers, solid, ends, inner⟩ := held
  exact ⟨start, before.trans low, high, covers, solid, ends.trans after, inner⟩

/-- A cell that still continues a character has not been blanked. -/
theorem Blanked.continued (blanked : Blanked characters cut others)
    (continued : Continued others column) : ¬ cut column ∧ Continued characters column := by
  have whole : ¬ cut column := fun cut => (blanked.blank column cut).not_continued continued
  refine ⟨whole, ?_⟩
  rw [Continued, ← blanked.kept column whole]
  exact continued

theorem Blanked.not_continued (blanked : Blanked characters cut others)
    (solid : ¬ Continued characters column) : ¬ Continued others column :=
  fun continued => solid (blanked.continued continued).2

theorem Blanked.isBlank (blanked : Blanked characters cut others)
    (blank : (characters column).IsBlank) : (others column).IsBlank := by
  by_cases cut : cut column
  · exact blanked.blank column cut
  · rw [blanked.kept column cut]
    exact blank

/-- Characters that are not blanked stay whole. -/
theorem Blanked.held (blanked : Blanked characters cut others)
    (spared : ∀ other, Held characters first last other → ¬ cut other)
    (held : Held characters first last column) : Held others first last column := by
  obtain ⟨start, after, before, covers, whole⟩ := held
  have same (other : Int) (low : start ≤ other) (high : other < start + (characters start).width) :
      others other = characters other :=
    blanked.kept other (spared other ⟨start, after, low, high, whole⟩)
  have here : others start = characters start := same start le_rfl (by omega)
  exact ⟨start, after, before, by rw [here]; exact covers, whole.congr same here⟩

/-- A character of one column is a whole character. -/
theorem Held.of_narrow (solid : ¬ Continued characters column)
    (single : (characters column).width = 1) (after : first ≤ column) (before : column < last) :
    Held characters first last column := by
  refine ⟨column, after, le_rfl, ?_, solid, ?_, fun other low high => ?_⟩
  · rw [single]
    omega
  · rw [single]
    omega
  · rw [single] at high
    omega

theorem Held.of_blank (blank : (characters column).IsBlank) (after : first ≤ column)
    (before : column < last) : Held characters first last column :=
  .of_narrow blank.not_continued blank.2 after before

/-- Once a break has been forced, nothing is left to blank on the left of the edge. -/
theorem Blanked.left_done (blanked : Blanked characters (Remains characters length edge) others) :
    ¬ LeftRemains others edge column := by
  rintro ⟨inside, reaches, loose⟩
  have spared (other : Int) (held : Held characters 0 edge other) :
      ¬ Remains characters length edge other := by
    rintro (left | right)
    · exact left.2.2 held
    · obtain ⟨start, _, low, high, _, ends, _⟩ := held
      have := right.1.1
      omega
  by_cases cut : LeftRemains characters edge column
  · exact loose (.of_blank (blanked.blank column (.inl cut)) inside.1 inside.2)
  · have held : Held characters 0 edge column := by
      by_contra free
      exact cut ⟨inside, fun other low high => (blanked.continued (reaches other low high)).2, free⟩
    exact loose (blanked.held spared held)

end Characters

/-! ## Changes to one row -/

theorem bufferSetColumns_rows (buffer : Buffer) (row start stop : Int) {character : TerminalChar}
    (positive : character.width ≠ 0) :
    (bufferSetColumns buffer row start stop character).rows =
      ((bufferGetRow buffer row (stop + 1)).setRow row
        (((buffer.row row).grow buffer.defaultCharacter (stop + 1)).set start stop
          character)).rows := by
  have grown : (bufferGetRow buffer row (stop + 1)).row row
      = (buffer.row row).grow buffer.defaultCharacter (stop + 1) := Buffer.setRow_row ..
  rw [← grown]
  unfold bufferSetColumns
  rw [if_neg positive]
  dsimp only
  split <;> rfl

theorem Row.grow_characters {row : Row} {width : Int} (defaultCharacter : TerminalChar)
    (within : width ≤ row.length) :
    (row.grow defaultCharacter width).characters = row.characters := by
  unfold Row.grow
  split
  case isTrue extended =>
    funext column
    dsimp only
    rw [if_neg (by omega)]
  case isFalse kept => rfl

theorem Grid.getRow_length (grid : Grid) (row width : Int) :
    ((grid.getRow row width).row row).length = max (grid.row row).length width :=
  (congrArg Row.length (Buffer.setRow_row ..)).trans (Row.grow_length ..)

/-- A character of one column is written to every column of a range. -/
theorem Row.set_characters (row : Row) (start stop column : Int) {character : TerminalChar}
    (single : character.width = 1) :
    (row.set start stop character).characters column =
      if start ≤ column ∧ column ≤ stop then character else row.characters column := by
  unfold Row.set
  dsimp only
  rw [single, Int.natCast_one, Int.emod_one, Int.sub_zero, if_pos rfl]

/-- One row of the buffer has been given other contents, and nothing else in it has changed. -/
structure Grid.Rewritten (before : Grid) (row : Int) (characters : Int → TerminalChar)
    (length : Int) (after : Grid) : Prop where
  characters : (after.row row).characters = characters
  length : (after.row row).length = length
  others : ∀ index, index ≠ before.buffer.index row →
    after.buffer.rows index = before.buffer.rows index
  same : before.buffer.Same after.buffer

namespace Grid.Rewritten

variable {before middle after grid : Grid} {row length longer : Int}
  {characters others : Int → TerminalChar}

theorem index (rewritten : before.Rewritten row characters length after) (other : Int) :
    after.buffer.index other = before.buffer.index other :=
  Buffer.index_congr rewritten.same.2.2 rewritten.same.1 other

theorem trans (left : before.Rewritten row characters length middle)
    (right : middle.Rewritten row others longer after) :
    before.Rewritten row others longer after where
  characters := right.characters
  length := right.length
  others index other :=
    (right.others index (by rw [left.index]; exact other)).trans (left.others index other)
  same := left.same.trans right.same

theorem refl (grid : Grid) (row : Int) :
    grid.Rewritten row (grid.row row).characters (grid.row row).length grid :=
  ⟨rfl, rfl, fun _ _ => rfl, rfl, rfl, rfl⟩

theorem congr (rewritten : before.Rewritten row characters length after)
    (same : characters = others) (long : length = longer) :
    before.Rewritten row others longer after :=
  same ▸ long ▸ rewritten

theorem of_rows (rewritten : before.Rewritten row characters length middle)
    (rows : after.buffer.rows = middle.buffer.rows) (same : before.buffer.Same after.buffer) :
    before.Rewritten row characters length after := by
  have contents : after.row row = middle.row row := by
    unfold Grid.row Buffer.row
    rw [rows, rewritten.index, Buffer.index_congr same.2.2 same.1]
  refine ⟨?_, ?_, fun index other => ?_, same⟩
  · rw [contents]
    exact rewritten.characters
  · rw [contents]
    exact rewritten.length
  · rw [rows]
    exact rewritten.others index other

theorem row_other (rewritten : before.Rewritten row characters length after) {other : Int}
    (apart : before.buffer.index other ≠ before.buffer.index row) :
    after.row other = before.row other := by
  unfold Grid.row Buffer.row
  rw [rewritten.index]
  exact rewritten.others _ apart

theorem setRow (grid : Grid) (row : Int) (value : Row) :
    grid.Rewritten row value.characters value.length (grid.onBuffer (·.setRow row value)) where
  characters := congrArg Row.characters (Buffer.setRow_row ..)
  length := congrArg Row.length (Buffer.setRow_row ..)
  others _ other := Function.update_of_ne other ..
  same := ⟨rfl, rfl, rfl⟩

theorem getRow (grid : Grid) (row width : Int) :
    grid.Rewritten row ((grid.row row).grow grid.buffer.defaultCharacter width).characters
      (max (grid.row row).length width) (grid.getRow row width) :=
  (setRow grid row _).congr rfl (Row.grow_length ..)

theorem setColumnsRaw (grid : Grid) (row start stop : Int) {character : TerminalChar}
    (positive : character.width ≠ 0) :
    grid.Rewritten row
      (((grid.row row).grow grid.buffer.defaultCharacter (stop + 1)).set start stop
        character).characters
      (max (grid.row row).length (stop + 1)) (setColumnsRaw grid row start stop character) := by
  have grown := getRow grid row (stop + 1)
  have contents : (grid.getRow row (stop + 1)).row row
      = (grid.row row).grow grid.buffer.defaultCharacter (stop + 1) := Buffer.setRow_row ..
  have written := grown.trans (setRow (grid.getRow row (stop + 1)) row
    (((grid.getRow row (stop + 1)).row row).set start stop character))
  rw [contents] at written
  have long : (((grid.row row).grow grid.buffer.defaultCharacter (stop + 1)).set start stop
      character).length = max (grid.row row).length (stop + 1) := Row.grow_length ..
  rw [long] at written
  exact written.of_rows (bufferSetColumns_rows grid.buffer row start stop positive)
    (bufferSetColumns_same ..)

theorem access (grid : Grid) (row first last : Int) :
    grid.Rewritten row (grid.row row).characters (grid.row row).length
      (grid.access row first last) :=
  ⟨rfl, rfl, fun _ _ => rfl, rfl, rfl, rfl⟩

end Grid.Rewritten

/-! ## Forcing a break -/

section Breaks

variable {characters others : Int → TerminalChar} {cut : Int → Prop} {grid : Grid} {row : Int}

/-- What is broken is blanked. -/
theorem clearBroken_rewritten {start stop : Int} (within : stop < (grid.row row).length)
    (matched : ∀ column, cut column ↔
      (start ≤ column ∧ column ≤ stop)
        ∧ Broken (grid.row row).characters
            (brokenStart (grid.row row).characters start stop) stop
        ∧ brokenStart (grid.row row).characters start stop ≤ column) (ordered : start ≤ stop) :
    ∃ after, Blanked (grid.row row).characters cut after
      ∧ grid.Rewritten row after (grid.row row).length (clearBroken grid row start stop) := by
  have bounds := brokenStart_bounds (grid.row row).characters ordered
  unfold clearBroken
  dsimp only
  generalize brokenStart (grid.row row).characters start stop = first at matched bounds ⊢
  have read := (Grid.Rewritten.access grid row start stop).trans
    (.access (grid.access row start stop) row first first)
  split
  case isFalse whole =>
    refine ⟨_, ⟨fun column cut => ?_, fun _ _ => rfl⟩, read⟩
    exact absurd ((matched column).mp cut).2.1 whole
  case isTrue broken =>
    have positive : ((grid.row row).characters first).cleared.width ≠ 0 := Nat.one_ne_zero
    have written := read.trans
      (.setColumnsRaw ((grid.access row start stop).access row first first) row first stop positive)
    refine ⟨_, ⟨fun column cut => ?_, fun column whole => ?_⟩, written.congr rfl ?_⟩
    · have here := (matched column).mp cut
      rw [Row.set_characters _ _ _ _ rfl, if_pos ⟨here.2.2, here.1.2⟩]
      exact ⟨rfl, rfl⟩
    · have outside : ¬ (first ≤ column ∧ column ≤ stop) := fun inside =>
        whole ((matched column).mpr ⟨⟨by omega, inside.2⟩, broken, inside.1⟩)
      rw [Row.set_characters _ _ _ _ rfl, if_neg outside,
        Row.grow_characters _ (by exact within)]
      rfl
    · exact max_eq_left within

theorem forceBreakLeft_rewritten (grid : Grid) (row : Int) {edge : Int}
    (within : edge ≤ (grid.row row).length) :
    ∃ after, Blanked (grid.row row).characters (LeftRemains (grid.row row).characters edge) after
      ∧ grid.Rewritten row after (grid.row row).length (forceBreakLeft grid row edge) := by
  unfold forceBreakLeft
  split
  case isTrue positive =>
    have bound := (scanStart_spec (grid.row row).characters (edge - 1).toNat).1
    exact clearBroken_rewritten (by omega) (fun column => leftRemains_iff positive) (by omega)
  case isFalse zero =>
    exact ⟨_, ⟨fun column cut => by have := cut.1; omega, fun _ _ => rfl⟩, .refl grid row⟩

theorem forceBreakRight_rewritten (grid : Grid) (row : Int) {edge : Int} (nonneg : 0 ≤ edge) :
    ∃ after,
      Blanked (grid.row row).characters
        (RightRemains (grid.row row).characters (grid.row row).length edge) after
      ∧ grid.Rewritten row after (grid.row row).length (forceBreakRight grid row edge) := by
  unfold forceBreakRight
  dsimp only
  split
  case isTrue inside =>
    have bounds := scanEnd_spec (grid.row row).characters
      ((grid.row row).length - 1 - edge).toNat edge
    generalize min (scanEnd (grid.row row).characters
      ((grid.row row).length - 1 - edge).toNat edge + 1) ((grid.row row).length - 1) = last
    have read := Grid.Rewritten.access grid row edge last
    have stop : scanEnd (grid.row row).characters ((grid.row row).length - 1 - edge).toNat edge
        < ((grid.access row edge last).row row).length := by
      change _ < (grid.row row).length
      omega
    obtain ⟨after, blanked, rewritten⟩ := clearBroken_rewritten stop
      (fun column => rightRemains_iff inside.2) bounds.1
    exact ⟨after, blanked, read.trans rewritten⟩
  case isFalse outside =>
    exact ⟨_, ⟨fun column cut => by have := cut.1; omega, fun _ _ => rfl⟩, .refl grid row⟩

/-- The left side of an edge has nothing to do with the right one. -/
theorem Blanked.both {before middle after : Int → TerminalChar} {length edge : Int}
    (left : Blanked before (LeftRemains before edge) middle)
    (right : Blanked middle (RightRemains middle length edge) after) :
    Blanked before (Remains before length edge) after := by
  have same (other : Int) (inside : edge ≤ other) : middle other = before other :=
    left.kept other fun cut => absurd cut.1.2 (Int.not_lt.mpr inside)
  have rights (column : Int) :
      RightRemains middle length edge column ↔ RightRemains before length edge column :=
    ⟨fun cut => cut.congr fun other inside _ => (same other inside).symm,
      fun cut => cut.congr fun other inside _ => same other inside⟩
  constructor
  · rintro column (cut | cut)
    · rw [right.kept column fun other => absurd cut.1.2 (Int.not_lt.mpr other.1.1)]
      exact left.blank column cut
    · exact right.blank column ((rights column).mpr cut)
  · intro column whole
    rw [right.kept column fun cut => whole (.inr ((rights column).mp cut))]
    exact left.kept column fun cut => whole (.inl cut)

/-- What `__guac_terminal_force_break` does: it blanks what is left of characters on either side of
the edge. -/
theorem forceBreak_rewritten (grid : Grid) (row : Int) {edge : Int} (nonneg : 0 ≤ edge)
    (within : edge ≤ (grid.row row).length) :
    ∃ after,
      Blanked (grid.row row).characters
        (Remains (grid.row row).characters (grid.row row).length edge) after
      ∧ grid.Rewritten row after (grid.row row).length (forceBreak grid row edge) := by
  have read := (Grid.Rewritten.getRow grid row 0).congr
    (Row.grow_characters _ (by omega)) (max_eq_left (nonneg.trans within))
  have reached : edge ≤ ((grid.getRow row 0).row row).length := by
    rw [read.length]
    exact within
  obtain ⟨middle, left, leftWritten⟩ := forceBreakLeft_rewritten (grid.getRow row 0) row reached
  obtain ⟨after, right, rightWritten⟩ :=
    forceBreakRight_rewritten (forceBreakLeft (grid.getRow row 0) row edge) row nonneg
  rw [read.characters] at left
  rw [read.length] at leftWritten
  rw [leftWritten.characters, leftWritten.length] at right
  rw [leftWritten.length] at rightWritten
  exact ⟨after, left.both right, (read.trans leftWritten).trans rightWritten⟩

/-- Breaks are forced at two edges. -/
theorem forceBreaks_rewritten {middle : Grid} {length left right : Int}
    (rewritten : grid.Rewritten row characters length middle) (first : 0 ≤ left)
    (ordered : left ≤ right) (within : right ≤ length) :
    ∃ broken after, Blanked characters (Remains characters length left) broken
      ∧ Blanked broken (Remains broken length right) after
      ∧ grid.Rewritten row after length (forceBreaks middle row left right) := by
  have room : left ≤ (middle.row row).length := by
    rw [rewritten.length]
    omega
  obtain ⟨broken, cutLeft, written⟩ := forceBreak_rewritten middle row first room
  rw [rewritten.characters, rewritten.length] at cutLeft
  rw [rewritten.length] at written
  have roomRight : right ≤ ((forceBreak middle row left).row row).length := by
    rw [written.length]
    exact within
  obtain ⟨after, cutRight, writtenRight⟩ :=
    forceBreak_rewritten (forceBreak middle row left) row (first.trans ordered) roomRight
  rw [written.characters, written.length] at cutRight
  rw [written.length] at writtenRight
  exact ⟨broken, after, cutLeft, cutRight, (rewritten.trans written).trans writtenRight⟩

/-! ## Any edge -/

/-- Nothing but spaces is written when a break is forced, wherever the edge may be. -/
structure Grid.Spaced (before : Grid) (row : Int) (after : Grid) : Prop where
  length : (before.row row).length ≤ (after.row row).length
  cells : ∀ column < (before.row row).length,
    (after.row row).characters column = (before.row row).characters column
      ∨ ((after.row row).characters column).value = 32

namespace Grid.Spaced

variable {first second third : Grid}

theorem trans (left : first.Spaced row second) (right : second.Spaced row third) :
    first.Spaced row third where
  length := left.length.trans right.length
  cells column inside := by
    rcases right.cells column (inside.trans_le left.length) with same | space
    · rw [same]
      exact left.cells column inside
    · exact .inr space

theorem of_same {length : Int} {characters : Int → TerminalChar}
    (rewritten : first.Rewritten row characters length second)
    (same : ∀ column < (first.row row).length,
      characters column = (first.row row).characters column)
    (long : (first.row row).length ≤ length) : first.Spaced row second where
  length := by
    rw [rewritten.length]
    exact long
  cells column inside := by
    rw [rewritten.characters]
    exact .inl (same column inside)

theorem refl (grid : Grid) (row : Int) : grid.Spaced row grid :=
  of_same (.refl grid row) (fun _ _ => rfl) le_rfl

theorem getRow (grid : Grid) (row width : Int) : grid.Spaced row (grid.getRow row width) := by
  refine of_same (.getRow grid row width) (fun column inside => ?_) (le_max_left ..)
  unfold Row.grow
  split
  case isTrue =>
    dsimp only
    rw [if_neg (by omega)]
  case isFalse => rfl

theorem access (grid : Grid) (row first last : Int) :
    grid.Spaced row (grid.access row first last) :=
  of_same (.access grid row first last) (fun _ _ => rfl) le_rfl

theorem setColumnsRaw (grid : Grid) (row start stop : Int) (character : TerminalChar) :
    grid.Spaced row (Terminal.setColumnsRaw grid row start stop character.cleared) := by
  have positive : character.cleared.width ≠ 0 := Nat.one_ne_zero
  have written := Grid.Rewritten.setColumnsRaw grid row start stop positive
  have grown := getRow grid row (stop + 1)
  have contents : (grid.getRow row (stop + 1)).row row
      = (grid.row row).grow grid.buffer.defaultCharacter (stop + 1) := Buffer.setRow_row ..
  refine ⟨?_, fun column inside => ?_⟩
  · rw [written.length]
    exact le_max_left ..
  · rw [written.characters, Row.set_characters _ _ _ _ rfl]
    split
    case isTrue => exact .inr rfl
    case isFalse =>
      rw [← contents]
      exact grown.cells column inside

end Grid.Spaced

theorem clearBroken_spaced (grid : Grid) (row start stop : Int) :
    grid.Spaced row (clearBroken grid row start stop) := by
  have read := (Grid.Spaced.access grid row start stop).trans
    (.access (grid.access row start stop) row
      (brokenStart (grid.row row).characters start stop)
      (brokenStart (grid.row row).characters start stop))
  unfold clearBroken
  dsimp only
  split
  · exact read.trans (.setColumnsRaw ..)
  · exact read

theorem forceBreak_spaced (grid : Grid) (row edge : Int) :
    grid.Spaced row (forceBreak grid row edge) := by
  have left (begun : Grid) : begun.Spaced row (forceBreakLeft begun row edge) := by
    unfold forceBreakLeft
    split
    · exact clearBroken_spaced ..
    · exact .refl ..
  have right (begun : Grid) : begun.Spaced row (forceBreakRight begun row edge) := by
    unfold forceBreakRight
    dsimp only
    split
    · exact (Grid.Spaced.access ..).trans (clearBroken_spaced ..)
    · exact .refl ..
  exact ((Grid.Spaced.getRow grid row 0).trans (left _)).trans (right _)

theorem forceBreaks_spaced (grid : Grid) (row left right : Int) :
    grid.Spaced row (forceBreaks grid row left right) :=
  (forceBreak_spaced ..).trans (forceBreak_spaced ..)

end Breaks

end GuacNebula.Terminal
