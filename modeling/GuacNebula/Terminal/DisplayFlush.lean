import GuacNebula.Terminal.FlushRects

/-! # What a flush shows

Flushing executes the pending copies rectangle after rectangle on the live surface, then fills,
then draws. `flush_eq_meaning` is that the screen described by the queue appears when the flush
disturbs nothing it still has to read and fills nothing but what is to be cleared to the colour
of the fill (`Display.Settled`), and `settled_of_flush` that for narrow characters these
conditions are also necessary.
-/

namespace GuacNebula.Terminal

open Moves Run

/-! ## Clears -/

/-- What the clearing visits do to the operations: blanks may have been taken off. -/
structure ClearScan (initial : Display) (state : Display × List FillRect) : Prop where
  frame : state.1 = { initial with operations := state.1.operations }
  cleared : ∀ place, state.1.operations place = initial.operations place
    ∨ state.1.operations place = .nop ∧ ∃ character,
      initial.operations place = .set character ∧ hasGlyph character.value = false

theorem ClearScan.visit {initial : Display} {state : Display × List FillRect}
    (established : ClearScan initial state) (place : Place) :
    ClearScan initial (flushClearAt state place) := by
  unfold flushClearAt
  cases operation : state.1.operations place with
  | nop => exact established
  | copy row column => exact established
  | set character =>
      dsimp only
      by_cases glyph : hasGlyph character.value
      · rw [if_pos glyph]
        exact established
      · rw [if_neg glyph]
        refine ⟨by rw [established.frame], fun other => ?_⟩
        rcases established.cleared other with same | taken
        · by_cases fits : place.1 ≤ other.1
              ∧ other.1 ≤ (state.1.detect (state.1.clearsTo
                (state.1.resolve character.attributes.ground)) place).2
              ∧ place.2 ≤ other.2
              ∧ other.2 ≤ (state.1.detect (state.1.clearsTo
                (state.1.resolve character.attributes.ground)) place).1
              ∧ state.1.clearsTo (state.1.resolve character.attributes.ground) other
          · refine Or.inr ⟨if_pos fits, ?_⟩
            have clears := fits.2.2.2.2
            unfold Display.clearsTo at clears
            cases pending : state.1.operations other with
            | nop => simp only [pending, Bool.false_eq_true] at clears
            | copy row column => simp only [pending, Bool.false_eq_true] at clears
            | set blank =>
                simp only [pending, Bool.and_eq_true, Bool.not_eq_true'] at clears
                exact ⟨blank, same.symm.trans pending, clears.1⟩
          · exact Or.inl ((if_neg fits).trans same)
        · refine Or.inr ⟨?_, taken.2⟩
          change markHandled _ _ _ _ _ = _
          unfold markHandled
          split
          · rfl
          · exact taken.1

theorem clearScan (display : Display) : ClearScan display (flushClear display) := by
  have scanned : ∀ (places : List Place) (state : Display × List FillRect),
      ClearScan display state → ClearScan display (places.foldl flushClearAt state) := by
    intro places
    induction places with
    | nil => exact fun _ established => established
    | cons place places ih => exact fun state established => ih _ (established.visit place)
  exact scanned _ _ ⟨rfl, fun _ => Or.inl rfl⟩

/-- The colour of the last fill that covers a place. -/
def filled (fills : List FillRect) (place : Place) : Option Color :=
  fills.foldl (fun color rect => if rect.Covers place then some rect.color else color) none

theorem foldl_surfaceSet (fills : List FillRect) (screen : Screen Look) (place : Place) :
    fills.foldl surfaceSet screen place =
      match filled fills place with
      | some color => { background := color.components, ink := none }
      | none => screen place := by
  unfold filled
  induction fills using List.reverseRecOn with
  | nil => rfl
  | append_singleton fills last ih =>
      rw [List.foldl_append, List.foldl_append, List.foldl_cons, List.foldl_nil, List.foldl_cons,
        List.foldl_nil, surfaceSet]
      by_cases covers : last.Covers place
      · simp only [covers, if_true]
      · simp only [covers, if_false]
        exact ih

/-! ## Glyphs -/

/-- What has been drawn when the places of `visited` have been visited: each pending character in
its own cell, and wide ones in the next cell too unless something is set there. -/
def Display.drawn (display : Display) (visited : List Place) (screen : Screen Look) :
    Screen Look := fun place =>
  let below :=
    if (place.1, place.2 - 1) ∈ visited ∧ place.2 < display.width then
      match display.wideBefore place with
      | some character => display.paint character 1
      | none => screen place
    else screen place
  if place ∈ visited then
    match display.operations place with
    | .set character => display.paint character 0
    | _ => below
  else below

/-- What the drawing visits have done. -/
structure SetScan (wc : Wcwidth) (initial : Display) (visited : List Place)
    (state : Display × List Draw) : Prop where
  frame : state.1 = { initial with operations := state.1.operations }
  pending : ∀ place, place ∉ visited → state.1.operations place = initial.operations place
  drawn : ∀ screen place, state.2.foldl (surfaceDraw wc initial.width) screen place
    = initial.drawn visited screen place

/-- A command draws the columns of its character. -/
theorem surfaceDraw_paint {wc : Wcwidth} {display : Display} {character : TerminalChar}
    (sized : character.Sized wc) (at_ : Place) (screen : Screen Look) (place : Place) :
    surfaceDraw wc display.width screen
        { row := at_.1
          column := at_.2
          codepoint := character.drawn
          foreground := (setColors display character.attributes).1
          background := (setColors display character.attributes).2 } place =
      if place.1 = at_.1 ∧ at_.2 ≤ place.2 ∧ place.2 < at_.2 + character.width
          ∧ place.2 < display.width then
        display.paint character (place.2 - at_.2).toNat
      else screen place := by
  unfold surfaceDraw
  simp only [← show character.width = wc.columns character.drawn from sized]
  refine if_congr Iff.rfl ?_ rfl
  rw [Display.paint, TerminalChar.drawn]
  by_cases glyph : hasGlyph character.value
  · have inked : character.value ≠ 32 := by
      intro space
      rw [space] at glyph
      exact absurd glyph (by decide)
    simp only [glyph, if_true, inked, if_false]
  · simp only [glyph, Bool.false_eq_true, if_false, if_true]

theorem mem_append_place {visited : List Place} {place other : Place} :
    other ∈ visited ++ [place] ↔ other ∈ visited ∨ other = place := by
  rw [List.mem_append, List.mem_singleton]

section Visit

variable {wc : Wcwidth} {initial : Display} {visited : List Place} {state : Display × List Draw}
  {place : Place}

/-- Without a character to draw a visit leaves everything as it is. -/
theorem SetScan.visit_idle (established : SetScan wc initial visited state)
    (new : place ∉ visited) (nothing : ∀ character, initial.operations place ≠ .set character) :
    SetScan wc initial (visited ++ [place]) state := by
  refine ⟨established.frame, fun other fresh => established.pending other ?_, ?_⟩
  · exact fun old => fresh (List.mem_append_left _ old)
  · intro screen other
    rw [established.drawn]
    unfold Display.drawn
    simp only [mem_append_place]
    by_cases own : other = place
    · subst own
      have before : (other.1, other.2 - 1) ≠ other := fun equal => by
        have := congrArg Prod.snd equal
        dsimp only at this
        omega
      simp only [new, before, or_false, or_true, if_false, if_true]
    · by_cases right : (other.1, other.2 - 1) = place
      · have uncovered : initial.wideBefore other = none := by
          rw [Display.wideBefore, right]
          cases operation : initial.operations place with
          | nop => rfl
          | copy row column => rfl
          | set character => exact absurd operation (nothing character)
        simp only [own, or_false, uncovered, ite_self]
      · simp only [own, right, or_false]

/-- A visit draws the character that is pending, and a wide one over the cell to its right, which
has not been visited. -/
theorem SetScan.visit_set (established : SetScan wc initial visited state)
    (within : Within initial.height initial.width place) (new : place ∉ visited)
    (rightNew : (place.1, place.2 + 1) ∉ visited) {character : TerminalChar}
    (operation : initial.operations place = .set character) (sized : character.Sized wc)
    (visible : character.width ≠ 0) :
    SetScan wc initial (visited ++ [place]) (flushSetAt state place) := by
  have narrow := sized.le_two
  have colors : ∀ attributes, setColors state.1 attributes = setColors initial attributes := by
    intro attributes
    rw [established.frame]
    rfl
  rw [flushSetAt, established.pending place new, operation]
  refine ⟨by rw [established.frame], fun other fresh => ?_, ?_⟩
  · have apart : other ≠ place := fun equal => fresh (mem_append_place.mpr (Or.inr equal))
    refine (Function.update_of_ne apart _ _).trans (established.pending other ?_)
    exact fun old => fresh (List.mem_append_left _ old)
  · intro screen other
    rw [List.foldl_append, List.foldl_cons, List.foldl_nil]
    simp only [colors]
    rw [surfaceDraw_paint sized, established.drawn]
    obtain ⟨-, -, -, toRight⟩ := within
    unfold Display.drawn
    simp only [mem_append_place]
    by_cases own : other = place
    · subst own
      rw [if_pos ⟨rfl, le_refl _, by omega, toRight⟩, if_pos (Or.inr rfl), operation, sub_self]
      rfl
    · by_cases right : (other.1, other.2 - 1) = place
      -- The cell to the right: not visited yet, and covered by a wide character.
      · have old : other ∉ visited := by
          intro member
          refine rightNew ?_
          rw [← right]
          simp only [sub_add_cancel]
          exact member
        have columns := congrArg Prod.snd right
        have rows := congrArg Prod.fst right
        dsimp only at columns rows
        have before : initial.wideBefore other
            = if character.width = 2 then some character else none := by
          rw [Display.wideBefore, right, operation]
        simp only [old, own, right, or_false, or_true, true_and, if_false, before]
        by_cases wide : character.width = 2
        · simp only [wide, if_true]
          by_cases fits : other.2 < initial.width
          · rw [if_pos ⟨rows, by omega, by omega, fits⟩, if_pos fits]
            congr 1
            omega
          · rw [if_neg fun all => fits all.2.2.2, if_neg fits]
            rw [if_neg fun all => fits all.2]
        · simp only [wide, if_false, ite_self]
          rw [if_neg]
          rintro ⟨-, -, upTo, -⟩
          omega
      · simp only [own, right, or_false]
        rw [if_neg]
        rintro ⟨rows, from_, upTo, -⟩
        have offset : other.2 = place.2 ∨ other.2 = place.2 + 1 := by omega
        rcases offset with same | after
        · exact own (Prod.ext rows same)
        · exact right (Prod.ext rows (by dsimp only; omega))

theorem SetScan.visit (queued : initial.Queued wc) (established : SetScan wc initial visited state)
    (within : Within initial.height initial.width place)
    (next : ∀ earlier ∈ visited, Before earlier place) :
    SetScan wc initial (visited ++ [place]) (flushSetAt state place) := by
  have new : place ∉ visited := fun member => (next place member).ne rfl
  have rightNew : (place.1, place.2 + 1) ∉ visited := by
    intro member
    refine (next _ member).asymm (Or.inr ⟨rfl, ?_⟩)
    exact Int.lt_succ place.2
  cases operation : initial.operations place with
  | nop =>
      rw [flushSetAt, established.pending place new, operation]
      exact established.visit_idle new fun _ => by rw [operation]; exact Operation.noConfusion
  | copy row column =>
      rw [flushSetAt, established.pending place new, operation]
      exact established.visit_idle new fun _ => by rw [operation]; exact Operation.noConfusion
  | set character =>
      obtain ⟨sized, visible⟩ := queued.sized place character operation
      exact established.visit_set within new rightNew operation sized visible

end Visit

theorem setScan {wc : Wcwidth} {display : Display} (queued : display.Queued wc) :
    SetScan wc display (scan display.height display.width) (flushSet display) := by
  have scanned : ∀ (places visited : List Place) (state : Display × List Draw),
      (visited ++ places).Pairwise Before →
      (∀ place ∈ places, Within display.height display.width place) →
      SetScan wc display visited state →
      SetScan wc display (visited ++ places) (places.foldl flushSetAt state) := by
    intro places
    induction places with
    | nil =>
        intro visited state _ _ established
        rw [List.append_nil]
        exact established
    | cons place places ih =>
        intro visited state ordered within established
        rw [List.append_cons] at ordered ⊢
        refine ih _ _ ordered (fun other member => within other (List.mem_cons_of_mem _ member)) ?_
        refine established.visit queued (within place List.mem_cons_self) ?_
        obtain ⟨front, -, -⟩ := List.pairwise_append.mp ordered
        exact fun earlier member =>
          (List.pairwise_append.mp front).2.2 earlier member place (List.mem_singleton_self _)
  refine scanned _ [] _ (scan_ordered _ _) (fun place member => mem_scan.mp member) ?_
  refine ⟨rfl, fun _ _ => rfl, fun screen place => ?_⟩
  simp only [Display.drawn, List.not_mem_nil, false_and, if_false]
  rfl

/-! ## The screen after a flush -/

/-- The display when the copies have been executed and blanks have been filled. -/
def Display.afterClear (display : Display) : Display := (flushClear (flushCopy display).1).1

/-- The colour of the last fill that a flush sends for a place. -/
def Display.fill (display : Display) (place : Place) : Option Color :=
  filled (flushClear (flushCopy display).1).2 place

theorem flushCopy_frame (display : Display) :
    (flushCopy display).1 = { display with operations := (flushCopy display).1.operations } :=
  (copyScan display).frame

theorem afterClear_frame (display : Display) :
    display.afterClear = { display with operations := display.afterClear.operations } :=
  (clearScan (flushCopy display).1).frame.trans
    (congrArg (fun base => { base with operations := display.afterClear.operations })
      (flushCopy_frame display))

/-- A character that is still pending after copies and clears was pending before them. -/
theorem set_of_afterClear {display : Display} {place : Place}
    (within : Within display.height display.width place) {character : TerminalChar}
    (pending : display.afterClear.operations place = .set character) :
    display.operations place = .set character := by
  have copied := flushCopy_operations display within
  rcases (clearScan (flushCopy display).1).cleared place with same | ⟨nop, -⟩
  · have kept := same.symm.trans pending
    rw [copied] at kept
    cases operation : display.operations place with
    | nop => simp only [operation, reduceCtorEq] at kept
    | copy row column => simp only [operation, reduceCtorEq] at kept
    | set other =>
        simp only [operation] at kept
        exact kept
  · cases nop.symm.trans pending

/-- Glyphs stay pending until they are drawn. -/
theorem afterClear_of_glyph {display : Display} {place : Place}
    (within : Within display.height display.width place) {character : TerminalChar}
    (pending : display.operations place = .set character)
    (glyph : hasGlyph character.value = true) :
    display.afterClear.operations place = .set character := by
  have copied := flushCopy_operations display within
  rw [pending] at copied
  rcases (clearScan (flushCopy display).1).cleared place with same | ⟨-, blank, was, empty⟩
  · exact same.trans copied
  · cases copied.symm.trans was
    rw [glyph] at empty
    cases empty

/-- No operation but that of a blank or a copy is taken off before glyphs are drawn. -/
theorem afterClear_of_not_set {display : Display} {place : Place}
    (within : Within display.height display.width place)
    (gone : ∀ character, display.afterClear.operations place ≠ .set character) :
    display.glyphAt place = false := by
  cases operation : display.operations place with
  | nop => rw [Display.glyphAt, operation]
  | copy row column => rw [Display.glyphAt, operation]
  | set character =>
      rw [Display.glyphAt, operation]
      by_contra glyph
      exact gone character (afterClear_of_glyph within operation (Bool.not_eq_false _ ▸ glyph))

/-- The queue stays well formed while it is emptied. -/
theorem afterClear_queued {wc : Wcwidth} {display : Display} (queued : display.Queued wc) :
    display.afterClear.Queued wc := by
  have bounded : ∀ place, ¬ Within display.height display.width place →
      display.afterClear.operations place = .nop := by
    intro place outside
    have copied : (flushCopy display).1.operations place = .nop := by
      refine ((copyScan display).kept place fun rect member => ?_).trans
        (queued.bounded place outside)
      cases moved : rect.block place with
      | none => rfl
      | some origin =>
          exact absurd ((copyScan display).moved rect member place origin moved).1 outside
    rcases (clearScan (flushCopy display).1).cleared place with same | ⟨nop, -⟩
    · exact same.trans copied
    · exact nop
  refine ⟨fun place outside => ?_, fun place character pending => ?_⟩
  · rw [afterClear_frame] at outside
    exact bounded place outside
  · by_cases within : Within display.height display.width place
    · exact queued.sized place character (set_of_afterClear within pending)
    · cases (bounded place within).symm.trans pending

/-- Where nothing is to be drawn after the clearing, no wide character was to be drawn before it. -/
theorem wideBefore_of_cleared {wc : Wcwidth} {display : Display} (queued : display.Queued wc)
    {place : Place} (within : Within display.height display.width (place.1, place.2 - 1))
    (unset : ∀ character,
      display.afterClear.operations (place.1, place.2 - 1) ≠ .set character) :
    display.wideBefore place = none := by
  unfold Display.wideBefore
  cases before : display.operations (place.1, place.2 - 1) with
  | nop => rfl
  | copy row column => rfl
  | set character =>
      by_cases wide : character.width = 2
      · have glyph := (queued.sized _ character before).1.hasGlyph_of_wide wide
        exact absurd (afterClear_of_glyph within before glyph) (unset character)
      · simp only [wide, if_false]

/-- Wide characters are glyphs, so clears leave them pending. -/
theorem afterClear_wideBefore {wc : Wcwidth} {display : Display} (queued : display.Queued wc)
    (place : Place) : display.afterClear.wideBefore place = display.wideBefore place := by
  by_cases within : Within display.height display.width (place.1, place.2 - 1)
  · cases after : display.afterClear.operations (place.1, place.2 - 1) with
    | set character =>
        unfold Display.wideBefore
        rw [after, set_of_afterClear within after]
    | nop =>
        rw [wideBefore_of_cleared queued within fun _ => by rw [after]; exact Operation.noConfusion,
          Display.wideBefore, after]
    | copy row column =>
        rw [wideBefore_of_cleared queued within fun _ => by rw [after]; exact Operation.noConfusion,
          Display.wideBefore, after]
  · have outside : ¬ Within display.afterClear.height display.afterClear.width
        (place.1, place.2 - 1) := by
      rw [afterClear_frame]
      exact within
    rw [wideBefore_eq_none (queued.bounded _ within),
      wideBefore_eq_none ((afterClear_queued queued).bounded _ outside)]

theorem paint_afterClear (display : Display) (character : TerminalChar) (part : Nat) :
    display.afterClear.paint character part = display.paint character part := by
  rw [afterClear_frame]
  rfl

theorem displayFlush_commands (wc : Wcwidth) (display : Display) (screen : Screen Look) :
    (displayFlush wc display screen).2 =
      (flushSet display.afterClear).2.foldl (surfaceDraw wc display.width)
        ((flushClear (flushCopy display).1).2.foldl surfaceSet
          ((flushCopy display).2.foldl surfaceCopy screen)) := rfl

/-- What a flush leaves in a cell: the character still pending after copies and clears, else the
right half of a wide one, else the last fill, else what the executed copies brought there. -/
theorem displayFlush_cell {wc : Wcwidth} {display : Display} (queued : display.Queued wc)
    (screen : Screen Look) {place : Place} (within : Within display.height display.width place) :
    (displayFlush wc display screen).2 place =
      match display.afterClear.operations place with
      | .set character => display.paint character 0
      | _ =>
        match display.wideBefore place with
        | some character => display.paint character 1
        | none =>
          match display.fill place with
          | some color => { background := color.components, ink := none }
          | none => screen (trace display.copyBlocks place) := by
  have drawn := (setScan (afterClear_queued queued)).drawn
    ((flushClear (flushCopy display).1).2.foldl surfaceSet
      ((flushCopy display).2.foldl surfaceCopy screen)) place
  have size : display.afterClear.width = display.width
      ∧ display.afterClear.height = display.height := by
    rw [afterClear_frame]
    exact ⟨rfl, rfl⟩
  rw [size.1] at drawn
  rw [displayFlush_commands, drawn, Display.drawn]
  simp only [mem_scan, size.1, size.2, within, if_true, paint_afterClear,
    afterClear_wideBefore queued, foldl_surfaceSet, foldl_surfaceCopy, runAll_eq_trace]
  have covered : ∀ (other : Look),
      (if Within display.height display.width (place.1, place.2 - 1) ∧ place.2 < display.width then
        match display.wideBefore place with
        | some character => display.paint character 1
        | none => other
      else other) =
        match display.wideBefore place with
        | some character => display.paint character 1
        | none => other := by
    intro other
    by_cases left : Within display.height display.width (place.1, place.2 - 1)
    · rw [if_pos ⟨left, within.2.2.2⟩]
    · rw [if_neg fun all => left all.1, wideBefore_eq_none (queued.bounded _ left)]
  simp only [covered]
  rfl

/-- The components of the colour a pending character is drawn on. -/
def Display.clearColor (display : Display) (place : Place) : Option (UInt8 × UInt8 × UInt8) :=
  match display.operations place with
  | .set character => some (setColors display character.attributes).2.components
  | _ => none

/-- The condition under which a flush disturbs nothing: no rectangle reads a cell that an
earlier rectangle has overwritten with other content; every cell without a character left to
draw is covered by no fill, or by fills of which the last has the colour of its pending blank;
and no blank is left to be drawn over the right half of a wide character. -/
structure Display.Settled (display : Display) : Prop where
  undisturbed : Undisturbed display.copyBlocks
  fills : ∀ place, Within display.height display.width place →
    (∀ character, display.afterClear.operations place ≠ .set character) →
    (display.fill place).map Color.components = display.clearColor place
  overdrawn : ∀ place character, Within display.height display.width place →
    display.afterClear.operations place = .set character → hasGlyph character.value = false →
    display.wideBefore place = none

theorem paint_blank {display : Display} {character : TerminalChar} (part : Nat)
    (blank : hasGlyph character.value = false) :
    display.paint character part =
      { background := (setColors display character.attributes).2.components, ink := none } := by
  simp only [Display.paint, blank, Bool.false_eq_true, if_false]

theorem clearColor_of_not_set {display : Display} {place : Place}
    (unset : ∀ character, display.operations place ≠ .set character) :
    display.clearColor place = none := by
  unfold Display.clearColor
  cases operation : display.operations place with
  | nop => rfl
  | copy row column => rfl
  | set character => exact absurd operation (unset character)

theorem ownMeaning_of_not_set {display : Display} {place : Place}
    (unset : ∀ character, display.operations place ≠ .set character)
    {Paint : Type*} (paint : TerminalChar → Nat → Paint) (screen : Screen Paint) :
    display.ownMeaning paint screen place = screen (display.origin place) := by
  unfold Display.ownMeaning
  cases operation : display.operations place with
  | nop => rfl
  | copy row column => rfl
  | set character => exact absurd operation (unset character)

/-- A cell without a character left to draw. -/
theorem settledCell {display : Display} (settled : display.Settled) {screen : Screen Look}
    {place : Place} (within : Within display.height display.width place)
    (gone : ∀ character, display.afterClear.operations place ≠ .set character) :
    (match display.wideBefore place with
      | some character => display.paint character 1
      | none =>
        match display.fill place with
        | some color => { background := color.components, ink := none }
        | none => screen (trace display.copyBlocks place)) =
      display.meaning display.paint screen place := by
  have empty := afterClear_of_not_set within gone
  have filling := settled.fills place within gone
  rw [Display.meaning, if_neg (Bool.eq_false_iff.mp empty)]
  cases wide : display.wideBefore place with
  | some character => rfl
  | none =>
      dsimp only
      by_cases isSet : ∃ character, display.operations place = .set character
      · obtain ⟨character, operation⟩ := isSet
        have blank : hasGlyph character.value = false := by
          rw [← empty, Display.glyphAt, operation]
        rw [Display.clearColor, operation] at filling
        obtain ⟨color, isFill, same⟩ := Option.map_eq_some_iff.mp filling
        rw [Display.ownMeaning, operation]
        simp only [isFill]
        rw [paint_blank 0 blank, same]
      · push Not at isSet
        rw [clearColor_of_not_set isSet] at filling
        rw [Option.map_eq_none_iff.mp filling, ownMeaning_of_not_set isSet,
          (trace_eq_gather_iff (copyBlocks_disjoint display)).mpr settled.undisturbed,
          gather_copyBlocks display within]

/-- **A settled queue is flushed to the screen it describes.** -/
theorem flush_eq_meaning {wc : Wcwidth} {display : Display} (queued : display.Queued wc)
    (settled : display.Settled) (screen : Screen Look) {place : Place}
    (within : Within display.height display.width place) :
    (displayFlush wc display screen).2 place = display.meaning display.paint screen place := by
  rw [displayFlush_cell queued screen within]
  cases after : display.afterClear.operations place with
  | set character =>
      have pending := set_of_afterClear within after
      have own : display.ownMeaning display.paint screen place = display.paint character 0 := by
        rw [Display.ownMeaning, pending]
      have notCovered : display.NotCovered place := by
        by_cases glyph : hasGlyph character.value
        · exact Or.inl (by rw [Display.glyphAt, pending]; exact glyph)
        · exact Or.inr (settled.overdrawn place character within after
            (Bool.eq_false_iff.mpr glyph))
      rw [notCovered.meaning, own]
  | nop =>
      have gone : ∀ character, display.afterClear.operations place ≠ .set character :=
        fun _ => by rw [after]; exact Operation.noConfusion
      exact settledCell settled within gone
  | copy row column =>
      have gone : ∀ character, display.afterClear.operations place ≠ .set character :=
        fun _ => by rw [after]; exact Operation.noConfusion
      exact settledCell settled within gone

/-! ## Narrow characters -/

/-- All pending characters take one column. -/
def Display.Narrow (display : Display) : Prop :=
  ∀ place character, display.operations place = .set character → character.width = 1

theorem Display.Narrow.wideBefore {display : Display} (narrow : display.Narrow) (place : Place) :
    display.wideBefore place = none := by
  unfold Display.wideBefore
  cases operation : display.operations (place.1, place.2 - 1) with
  | nop => rfl
  | copy row column => rfl
  | set character => simp only [narrow _ character operation, OfNat.one_ne_ofNat, if_false]

theorem Display.Narrow.meaning {display : Display} (narrow : display.Narrow)
    (screen : Screen Look) (place : Place) :
    display.meaning display.paint screen place = display.ownMeaning display.paint screen place :=
  Display.NotCovered.meaning (Or.inr (narrow.wideBefore place))

instance : Nontrivial Look :=
  ⟨{ background := (0, 0, 0), ink := none }, { background := (1, 0, 0), ink := none }, by decide⟩

/-- A cell that a fill has painted does not show what some screen had in another cell. -/
theorem exists_screen_ne (place : Place) (look : Look) :
    ∃ screen : Screen Look, screen place ≠ look := by
  obtain ⟨other, differ⟩ := exists_ne look
  exact ⟨fun _ => other, differ⟩

/-- **For narrow characters a flush that always shows the described screen is settled.** -/
theorem settled_of_flush {wc : Wcwidth} {display : Display} (queued : display.Queued wc)
    (narrow : display.Narrow)
    (shown : ∀ (screen : Screen Look) (place : Place),
      Within display.height display.width place →
        (displayFlush wc display screen).2 place = display.meaning display.paint screen place) :
    display.Settled := by
  have cell : ∀ (screen : Screen Look) (place : Place),
      Within display.height display.width place →
      (∀ character, display.afterClear.operations place ≠ .set character) →
        (match display.fill place with
          | some color => { background := color.components, ink := none }
          | none => screen (trace display.copyBlocks place)) =
        display.ownMeaning display.paint screen place := by
    intro screen place within gone
    rw [← narrow.meaning, ← shown screen place within, displayFlush_cell queued screen within,
      narrow.wideBefore]
    cases after : display.afterClear.operations place with
    | nop => rfl
    | copy row column => rfl
    | set character => exact absurd after (gone character)
  have fills : ∀ place, Within display.height display.width place →
      (∀ character, display.afterClear.operations place ≠ .set character) →
      (display.fill place).map Color.components = display.clearColor place := by
    intro place within gone
    have empty := afterClear_of_not_set within gone
    have described := fun screen => cell screen place within gone
    by_cases isSet : ∃ character, display.operations place = .set character
    · obtain ⟨character, operation⟩ := isSet
      have blank : hasGlyph character.value = false := by
        rw [← empty, Display.glyphAt, operation]
      simp only [Display.ownMeaning, operation, paint_blank 0 blank] at described
      rw [Display.clearColor, operation]
      cases isFill : display.fill place with
      | some color =>
          simp only [isFill] at described
          exact congrArg some (congrArg Look.background (described fun _ => default))
      | none =>
          simp only [isFill] at described
          obtain ⟨screen, differ⟩ := exists_screen_ne (trace display.copyBlocks place)
            { background := (setColors display character.attributes).2.components, ink := none }
          exact absurd (described screen) differ
    · push Not at isSet
      rw [clearColor_of_not_set isSet, Option.map_eq_none_iff]
      simp only [ownMeaning_of_not_set isSet] at described
      cases isFill : display.fill place with
      | none => rfl
      | some color =>
          simp only [isFill] at described
          obtain ⟨screen, differ⟩ := exists_screen_ne (display.origin place)
            { background := color.components, ink := none }
          exact absurd (described screen).symm differ
  refine ⟨?_, fills, fun place _ _ _ _ => narrow.wideBefore place⟩
  refine (trace_eq_gather_iff (copyBlocks_disjoint display)).mp fun place => ?_
  by_cases within : Within display.height display.width place
  swap
  · have untouched : ∀ block ∈ display.copyBlocks, block place = none := by
      intro block member
      obtain ⟨rect, isRect, rfl⟩ := List.mem_map.mp member
      cases moved : rect.block place with
      | none => rfl
      | some origin =>
          exact absurd ((copyScan display).moved rect isRect place origin moved).1 within
    rw [trace_of_untouched untouched, gather_of_untouched untouched]
  rw [gather_copyBlocks display within]
  by_cases isSet : ∃ character, display.operations place = .set character
  · obtain ⟨character, operation⟩ := isSet
    have untouched : ∀ block ∈ display.copyBlocks, block place = none := by
      intro block member
      obtain ⟨rect, isRect, rfl⟩ := List.mem_map.mp member
      cases moved : rect.block place with
      | none => rfl
      | some origin =>
          cases operation.symm.trans ((copyScan display).moved rect isRect place origin moved).2.1
    rw [trace_of_untouched untouched, Display.origin, operation]
  · push Not at isSet
    have gone : ∀ character, display.afterClear.operations place ≠ .set character :=
      fun character after => isSet character (set_of_afterClear within after)
    have filling := fills place within gone
    rw [clearColor_of_not_set isSet, Option.map_eq_none_iff] at filling
    refine (reads_eq_iff _ _).mp fun (screen : Screen Look) => ?_
    have described := cell screen place within gone
    rw [filling, ownMeaning_of_not_set isSet] at described
    exact described

/-! ## The whole run -/

/-- A call that sets characters of one column only. -/
def DisplayCall.Narrow (wc : Wcwidth) : DisplayCall → Prop
  | .setColumns _ _ _ character =>
      character.width = 0 ∨ (character.width = 1 ∧ character.Sized wc)
  | _ => True

theorem Display.Narrow.keepsWhole {wc : Wcwidth} {display : Display} (narrow : display.Narrow)
    {call : DisplayCall} (narrowCall : call.Narrow wc) : display.KeepsWhole wc call := by
  cases call with
  | setColumns row startColumn endColumn character =>
      refine narrowCall.imp id fun ⟨one, sized⟩ => ⟨sized, fun _ => ⟨fun _ => ?_, fun _ => ?_⟩, ?_⟩
      · exact narrow.wideBefore _
      · exact Or.inr (narrow.wideBefore _)
      · intro two
        omega
  | copyRows startRow endRow offset => trivial
  | copyColumns row startColumn endColumn offset =>
      exact Or.inr ⟨Or.inr ⟨narrow.wideBefore _, narrow.wideBefore _⟩,
        fun _ => Or.inr ⟨narrow.wideBefore _, narrow.wideBefore _⟩⟩

theorem Display.Narrow.call {wc : Wcwidth} {display : Display} (narrow : display.Narrow)
    {call : DisplayCall} (inRange : call.InRange display.height display.width)
    (narrowCall : call.Narrow wc) : (display.call call).Narrow := by
  intro place other
  cases call with
  | setColumns row startColumn endColumn character =>
      rcases narrowCall with empty | ⟨one, -⟩
      · rw [Display.call, displaySetColumns, if_pos empty]
        exact narrow place other
      · rw [Display.call, setColumns_operations (by omega) inRange]
        split
        · intro set
          cases set
          exact one
        · exact narrow place other
  | copyRows startRow endRow offset =>
      rw [Display.call, copyRows_operations inRange]
      split
      · rw [orCopy_eq_set]
        exact narrow _ other
      · exact narrow place other
  | copyColumns row startColumn endColumn offset =>
      rw [Display.call, copyColumns_operations inRange]
      split
      · rw [orCopy_eq_set]
        exact narrow _ other
      · exact narrow place other

theorem narrow_exec {wc : Wcwidth} {display : Display} (narrow : display.Narrow)
    {calls : List DisplayCall} (inRange : ∀ call ∈ calls, call.InRange display.height display.width)
    (narrowCalls : ∀ call ∈ calls, call.Narrow wc) :
    Guarded Display.call (Display.KeepsWhole wc) display calls
      ∧ (exec Display.call display calls).Narrow := by
  induction calls generalizing display with
  | nil => exact ⟨trivial, narrow⟩
  | cons call calls ih =>
      have first := inRange call List.mem_cons_self
      have firstNarrow := narrowCalls call List.mem_cons_self
      have rest := ih (narrow.call first firstNarrow)
        (fun other member => by
          rw [call_height, call_width]
          exact inRange other (List.mem_cons_of_mem _ member))
        fun other member => narrowCalls other (List.mem_cons_of_mem _ member)
      exact ⟨⟨narrow.keepsWhole firstNarrow, rest.1⟩, rest.2⟩

theorem paint_call (display : Display) (call : DisplayCall) :
    (display.call call).paint = display.paint := by
  cases call with
  | setColumns row startColumn endColumn character =>
      simp only [Display.call, displaySetColumns]
      split <;> [rfl; (split <;> rfl)]
  | copyRows startRow endRow offset => rfl
  | copyColumns row startColumn endColumn offset =>
      simp only [Display.call, displayCopyColumns]
      split <;> rfl

theorem paint_exec (display : Display) (calls : List DisplayCall) :
    (exec Display.call display calls).paint = display.paint := by
  induction calls generalizing display with
  | nil => rfl
  | cons call calls ih => exact (ih _).trans (paint_call display call)

/-- The queue is empty. -/
def Display.Idle (display : Display) : Prop := ∀ place, display.operations place = .nop

theorem Display.Idle.queued {wc : Wcwidth} {display : Display} (idle : display.Idle) :
    display.Queued wc where
  bounded := fun place _ => idle place
  sized := by
    intro place character set
    cases (idle place).symm.trans set

theorem Display.Idle.narrow {display : Display} (idle : display.Idle) : display.Narrow := by
  intro place character set
  cases (idle place).symm.trans set

theorem Display.Idle.meaning {display : Display} (idle : display.Idle) {Paint : Type*}
    (paint : TerminalChar → Nat → Paint) (screen : Screen Paint) (place : Place) :
    display.meaning paint screen place = screen place := by
  have unset : ∀ character, display.operations place ≠ .set character :=
    fun _ set => Operation.noConfusion ((idle place).symm.trans set)
  have notCovered : display.NotCovered place := Or.inr (wideBefore_eq_none (idle _))
  rw [notCovered.meaning, ownMeaning_of_not_set unset, Display.origin, idle place]

/-- A flush after the given calls shows, whatever was on the screen, the screen obtained by
applying the calls one after another directly to its cells. -/
def ShowsDirect (wc : Wcwidth) (display : Display) (calls : List DisplayCall) : Prop :=
  ∀ (screen : Screen Look) (place : Place), Within display.height display.width place →
    (displayFlush wc (exec Display.call display calls) screen).2 place =
      applyAll display.paint display.height display.width screen calls place

/-- A display without pending operations whose colours are all black. -/
def emptyDisplay (height width : Int) : Display where
  width := width
  height := height
  operations := fun _ => .nop
  palette := fun index => { paletteIndex := index, red := 0, green := 0, blue := 0 }
  defaultForeground := { paletteIndex := colorForeground, red := 0, green := 0, blue := 0 }
  defaultBackground := { paletteIndex := colorBackground, red := 0, green := 0, blue := 0 }

/-- A character with the default attributes. -/
def plainChar (value : Int) (width : Nat) : TerminalChar where
  value := value
  attributes := {
    bold := false
    halfBright := false
    reverse := false
    cursor := false
    underscore := false
    foreground := { paletteIndex := colorForeground, red := 0, green := 0, blue := 0 }
    background := { paletteIndex := colorBackground, red := 0, green := 0, blue := 0 } }
  width := width

end GuacNebula.Terminal
