import GuacNebula.Terminal.ColorSpecs
import GuacNebula.Terminal.OscStrings
import GuacNebula.Terminal.Typescript

/-! # Redefinition of the palette

The command 4 takes pairs of an index and a colour specification. Its handler reads them by turns:
a semicolon, or a terminator, ends the one it reads. The escape character of a terminator is stored
as part of the last specification, where it changes nothing.
-/

namespace GuacNebula.Terminal

open CInt Run

/-- The platform whose colour specifications are those of a table of names. -/
def Platform.withColors (platform : Platform) (table : NamedColors) : Platform :=
  { platform with xparsecolor := terminalXparsecolor table }

/-- A colour for an entry of the palette, with its specification. -/
structure PaletteEntry where
  index : Nat
  spec : List UInt8
  color : Color

/-- The index is in range, and the specification is accepted, as that of this colour. -/
structure PaletteEntry.Accepted (table : NamedColors) (entry : PaletteEntry) : Prop where
  index : entry.index < 256
  string : 0 ∉ entry.spec
  parsed : terminalXparsecolor table entry.spec = some entry.color

/-- The number of bytes that the handler keeps of a specification. -/
def colorSpecCapacity : Nat := 255

/-- The handler has room for the specification, and no byte of it ends it. -/
structure PaletteEntry.Transmittable (entry : PaletteEntry) : Prop where
  length : entry.spec.length ≤ colorSpecCapacity
  bytes : ∀ c ∈ entry.spec, c ≠ 0x3B ∧ isStringTerminator c = false

/-- The pairs of a command. -/
def paletteText : List PaletteEntry → List UInt8
  | [] => []
  | [entry] => decimal entry.index ++ 0x3B :: entry.spec
  | entry :: next :: entries =>
      decimal entry.index ++ 0x3B :: (entry.spec ++ 0x3B :: paletteText (next :: entries))

/-- The console after colours have been assigned, one after the other. -/
def assignColors (console : Console) (entries : List PaletteEntry) : Console :=
  entries.foldl (fun console entry => assignColor console entry.index (some entry.color)) console

/-- A colour of the palette with the components of another one. -/
def Color.withComponents (color components : Color) : Color :=
  { color with red := components.red, green := components.green, blue := components.blue }

/-- The colour that an entry of the palette has been assigned last. -/
def lastColor (entries : List PaletteEntry) (index : Int) : Option Color :=
  (entries.reverse.find? fun entry => (entry.index : Int) = index).map PaletteEntry.color

/-- The terminal while it reads pairs. -/
def Term.inPalette (term : Term) (readColorSpec : Bool) (index : Int) (spec : List UInt8) : Term :=
  { term with
    charHandler := .xtermPalette
    statics := { term.statics with
      readColorSpec := readColorSpec, paletteIndex := index, colorSpec := spec } }

/-- Text is read, and neither a number nor an index is left of a sequence that ended early. -/
structure Term.PaletteReady (term : Term) : Prop where
  echoes : term.charHandler = .echo
  operation : term.statics.operation = 0
  readColorSpec : term.statics.readColorSpec = false
  paletteIndex : term.statics.paletteIndex = 0

section Reading

variable (platform : Platform) (term : Term) (index : Int) (spec : List UInt8)

theorem writeByte_inPalette (readColorSpec : Bool) (c : UInt8) :
    writeByte platform (term.inPalette readColorSpec index spec) c =
      xtermPalette platform (term.inPalette readColorSpec index spec) c := rfl

theorem isDigit_not_terminator {c : UInt8} (digit : isDigit c = true) :
    isStringTerminator c = false := by
  have range : 0x30 ≤ c ∧ c ≤ 0x39 := by simpa [isDigit] using digit
  have others : c ≠ 0x9C ∧ c ≠ 0x5C ∧ c ≠ 0x07 := by
    refine ⟨?_, ?_, ?_⟩ <;> rintro rfl <;> exact absurd range (by decide)
  simp [isStringTerminator, others]

theorem exec_paletteIndex {digits : List UInt8} (number : ∀ c ∈ digits, isDigit c = true) :
    exec (writeByte platform) (term.inPalette false index spec) digits =
      term.inPalette false (readOperation index digits) spec := by
  induction digits generalizing index with
  | nil => rfl
  | cons c digits ih =>
      obtain ⟨digit, later⟩ := List.forall_mem_cons.mp number
      have read : writeByte platform (term.inPalette false index spec) c =
          term.inPalette false (toInt (index * 10 + (c.toNat - 0x30 : Nat))) spec := by
        rw [writeByte_inPalette, xtermPalette, isDigit_not_terminator digit]
        simp only [paletteByte, Term.inPalette, digit, Bool.false_eq_true, if_false, if_true]
      rw [exec_cons, read, ih _ later]
      rfl

theorem writeByte_paletteSeparator :
    writeByte platform (term.inPalette false index spec) 0x3B = term.inPalette true index [] := rfl

theorem exec_paletteSpec {bytes : List UInt8}
    (plain : ∀ c ∈ bytes, c ≠ 0x3B ∧ isStringTerminator c = false)
    (room : spec.length + bytes.length ≤ colorSpecCapacity) :
    exec (writeByte platform) (term.inPalette true index spec) bytes =
      term.inPalette true index (spec ++ bytes) := by
  induction bytes generalizing spec with
  | nil => rw [List.append_nil, exec_nil]
  | cons c bytes ih =>
      obtain ⟨⟨notSeparator, notTerminator⟩, later⟩ := List.forall_mem_cons.mp plain
      rw [List.length_cons] at room
      have below : spec.length < 255 := by
        unfold colorSpecCapacity at room
        omega
      have read : writeByte platform (term.inPalette true index spec) c =
          term.inPalette true index (spec ++ [c]) := by
        rw [writeByte_inPalette, xtermPalette, notTerminator]
        simp only [paletteByte, Term.inPalette, notSeparator, notTerminator, store, below,
          Bool.false_eq_true, if_false, if_true, or_self]
      rw [exec_cons, read, ih _ later (by rw [List.length_append, List.length_singleton]; omega),
        List.append_assoc]
      rfl

/-- The escape character of a terminator is stored, if there is room for it. -/
theorem writeByte_paletteEscape (readColorSpec : Bool) :
    writeByte platform (term.inPalette readColorSpec index spec) 0x1B =
      term.inPalette readColorSpec index
        (if readColorSpec then store spec colorSpecCapacity 0x1B else spec) := by
  cases readColorSpec <;> rfl

/-- A semicolon ends a specification, and its colour is assigned. -/
theorem writeByte_paletteNext :
    writeByte platform (term.inPalette true index spec) 0x3B =
      (term.onConsole (assignColor · index (platform.xparsecolor (terminated spec)))).inPalette
        false 0 spec := rfl

/-- A terminator ends a specification, too, and the command. -/
theorem writeByte_paletteEnds {c : UInt8} (ends : isStringTerminator c = true) :
    writeByte platform (term.inPalette true index spec) c =
      ((term.onConsole (assignColor · index
        (platform.xparsecolor (terminated spec)))).inPalette false 0 spec).handler .echo := by
  rw [writeByte_inPalette, xtermPalette, if_pos ends]
  simp only [paletteByte, Term.inPalette, ends, or_true, if_true]
  rfl

end Reading

/-! ## Pairs -/

section Pairs

variable (platform : Platform) {table : NamedColors} (term : Term) (spec : List UInt8)

theorem decimal_reads {index : Nat} (small : index < 256) :
    (∀ c ∈ decimal index, isDigit c = true) ∧ readOperation 0 (decimal index) = index := by
  have every : ∀ index < 256, (decimal index).all isDigit = true
      ∧ readOperation 0 (decimal index) = index := by decide +kernel
  exact ⟨List.all_eq_true.mp (every index small).1, (every index small).2⟩

/-- The index and the specification of a pair are read. -/
theorem exec_pair {entry : PaletteEntry} (accepted : entry.Accepted table)
    (transmittable : entry.Transmittable) :
    exec (writeByte platform) (term.inPalette false 0 spec)
        (decimal entry.index ++ 0x3B :: entry.spec) =
      term.inPalette true entry.index entry.spec := by
  obtain ⟨digits, value⟩ := decimal_reads accepted.index
  rw [exec_append, exec_paletteIndex platform term 0 spec digits, value, exec_cons,
    writeByte_paletteSeparator,
    exec_paletteSpec platform term entry.index [] transmittable.bytes
      ((Nat.zero_add _).trans_le transmittable.length), List.nil_append]

theorem terminated_string {text : List UInt8} (nonzero : 0 ∉ text) : terminated text = text :=
  terminated_of_ne_zero fun _ member zero => nonzero (zero ▸ member)

/-- An escape character that has been stored behind a specification leaves its colour. -/
theorem parsed_escape {entry : PaletteEntry} (accepted : entry.Accepted table) :
    terminalXparsecolor table (terminated (store entry.spec colorSpecCapacity 0x1B)) =
      some entry.color := by
  unfold store
  split_ifs
  · have nonzero : 0 ∉ entry.spec ++ [0x1B] := by simp [accepted.string]
    rw [terminated_string nonzero, ← accepted.parsed]
    exact terminalXparsecolor_escape table entry.spec
  · rw [terminated_string accepted.string, accepted.parsed]

/-- The last pair of a command, whose terminator ends it. -/
theorem exec_lastPair {entry : PaletteEntry} (accepted : entry.Accepted table)
    (transmittable : entry.Transmittable) {terminator : List UInt8}
    (ends : IsTerminator terminator) :
    ∃ kept, exec (writeByte (platform.withColors table)) (term.inPalette false 0 spec)
        (decimal entry.index ++ 0x3B :: entry.spec ++ terminator) =
      ((term.onConsole (assignColor · entry.index (some entry.color))).inPalette false 0
        kept).handler .echo := by
  rw [exec_append, exec_pair _ term spec accepted transmittable]
  rcases ends with rfl | rfl
  · refine ⟨entry.spec, ?_⟩
    rw [exec_cons, exec_nil, writeByte_paletteEnds _ _ _ _ rfl, terminated_string accepted.string]
    change ((term.onConsole (assignColor · entry.index
      (terminalXparsecolor table entry.spec))).inPalette _ _ _).handler _ = _
    rw [accepted.parsed]
  · refine ⟨store entry.spec colorSpecCapacity 0x1B, ?_⟩
    rw [exec_cons, writeByte_paletteEscape, if_pos rfl, exec_cons, exec_nil,
      writeByte_paletteEnds _ _ _ _ rfl]
    change ((term.onConsole (assignColor · entry.index (terminalXparsecolor table
      (terminated (store entry.spec colorSpecCapacity 0x1B))))).inPalette _ _ _).handler _ = _
    rw [parsed_escape accepted]

/-- The pairs of a command are assigned one after the other. -/
theorem exec_pairs {entries : List PaletteEntry}
    (accepted : ∀ entry ∈ entries, entry.Accepted table)
    (transmittable : ∀ entry ∈ entries, entry.Transmittable) {terminator : List UInt8}
    (ends : IsTerminator terminator) :
    ∃ kept, exec (writeByte (platform.withColors table)) (term.inPalette false 0 spec)
        (paletteText entries ++ terminator) =
      ((term.onConsole (assignColors · entries)).inPalette false 0 kept).handler .echo := by
  induction entries generalizing term spec with
  | nil =>
      refine ⟨spec, ?_⟩
      rcases ends with rfl | rfl <;> rfl
  | cons entry entries ih =>
      obtain ⟨first, later⟩ := List.forall_mem_cons.mp accepted
      obtain ⟨firstSent, laterSent⟩ := List.forall_mem_cons.mp transmittable
      cases entries with
      | nil => exact exec_lastPair platform term spec first firstSent ends
      | cons next entries =>
          have text : paletteText (entry :: next :: entries) ++ terminator =
              (decimal entry.index ++ 0x3B :: entry.spec)
                ++ 0x3B :: (paletteText (next :: entries) ++ terminator) := by
            simp only [paletteText, List.append_assoc, List.cons_append]
          have assigned : writeByte (platform.withColors table)
              (term.inPalette true entry.index entry.spec) 0x3B =
            (term.onConsole (assignColor · entry.index (some entry.color))).inPalette false 0
              entry.spec := by
            rw [writeByte_paletteNext, terminated_string first.string, ← first.parsed]
            rfl
          rw [text, exec_append, exec_pair _ term spec first firstSent, exec_cons, assigned]
          exact ih _ _ later laterSent

end Pairs

/-! ## The palette -/

theorem assignColor_palette (console : Console) {index : Int} (inRange : 0 ≤ index ∧ index < 256)
    (color : Color) :
    (assignColor console index (some color)).grid.display.palette =
      Function.update console.grid.display.palette index
        ((console.grid.display.palette index).withComponents color) := by
  have inside : ¬ (index < 0 ∨ index > 255) := by omega
  change (displayAssignColor console.grid.display index color).palette = _
  rw [displayAssignColor, if_neg inside]
  rfl

/-- An entry of the palette has the components it was assigned last, and the others are kept. -/
theorem assignColors_palette (console : Console) {entries : List PaletteEntry}
    (inRange : ∀ entry ∈ entries, entry.index < 256) (index : Int) :
    (assignColors console entries).grid.display.palette index =
      match lastColor entries index with
      | some color => (console.grid.display.palette index).withComponents color
      | none => console.grid.display.palette index := by
  induction entries using List.reverseRecOn with
  | nil => rfl
  | append_singleton entries entry ih =>
      obtain ⟨before, last⟩ := List.forall_mem_append.mp inRange
      have small := List.forall_mem_singleton.mp last
      have step : assignColors console (entries ++ [entry]) =
          assignColor (assignColors console entries) entry.index (some entry.color) := by
        rw [assignColors, List.foldl_append]
        rfl
      rw [step, assignColor_palette _ ⟨by omega, by omega⟩, lastColor, List.reverse_append,
        List.reverse_singleton, List.singleton_append, List.find?_cons]
      by_cases same : (entry.index : Int) = index
      · subst same
        rw [decide_eq_true rfl, Function.update_self, ih before]
        cases lastColor entries entry.index <;> rfl
      · rw [decide_eq_false same, Function.update_of_ne (Ne.symm same), ih before]
        rfl

/-- The terminal once the number of a command has been read. -/
def Term.afterNumber (term : Term) : Term :=
  { term with
    statics := { term.statics with codepoint := 0x1B, bytesRemaining := 0, operation := 0 } }

/-- No index is left for the handler of pairs. -/
theorem Term.PaletteReady.inPalette {term : Term} (ready : term.PaletteReady) :
    term.afterNumber.handler .xtermPalette =
      term.afterNumber.inPalette false 0 term.statics.colorSpec := by
  have statics : { term.statics with readColorSpec := false, paletteIndex := 0 } = term.statics := by
    rw [← ready.readColorSpec, ← ready.paletteIndex]
  unfold Term.afterNumber Term.inPalette Term.handler
  rw [← statics]

/-- The number 4 and its semicolon leave the handler of pairs in charge. -/
theorem exec_beginsPalette (platform : Platform) {term : Term} (ready : term.PaletteReady) :
    exec (writeByte platform) term (0x1B :: 0x5D :: ([0x34] ++ [0x3B])) =
      term.afterNumber.inPalette false 0 term.statics.colorSpec := by
  have number : readOperation 0 [0x34] = 4 := by decide
  rw [exec_begins platform ready.echoes (List.forall_mem_singleton.mpr rfl), ready.operation,
    number, ← ready.inPalette]
  rfl

/-- **The command 4 assigns its colours to the entries of the palette**, and to no others, the last
one where an entry has several. Text is read again afterwards. -/
theorem paletteCommand_assigns (platform : Platform) (table : NamedColors) (term : Term)
    (ready : term.PaletteReady) (entries : List PaletteEntry)
    (accepted : ∀ entry ∈ entries, entry.Accepted table)
    (transmittable : ∀ entry ∈ entries, entry.Transmittable) (terminator : List UInt8)
    (ends : IsTerminator terminator) :
    let after := exec (writeByte (platform.withColors table)) term
      (oscSequence [0x34] (paletteText entries) terminator)
    after.PaletteReady ∧ after.toConsole = assignColors term.toConsole entries
      ∧ ∀ index, after.grid.display.palette index =
        match lastColor entries index with
        | some color => (term.grid.display.palette index).withComponents color
        | none => term.grid.display.palette index := by
  intro after
  have bytes : oscSequence [0x34] (paletteText entries) terminator =
      (0x1B :: 0x5D :: ([0x34] ++ [0x3B])) ++ (paletteText entries ++ terminator) := rfl
  obtain ⟨kept, ran⟩ := exec_pairs platform term.afterNumber term.statics.colorSpec accepted
    transmittable ends
  have whole : after = ((term.afterNumber.onConsole (assignColors · entries)).inPalette false 0
      kept).handler .echo := by
    rw [← ran, ← exec_beginsPalette (platform.withColors table) ready, ← exec_append, ← bytes]
  have assigned : after.toConsole = assignColors term.toConsole entries := by
    rw [whole]
    rfl
  refine ⟨by rw [whole]; exact ⟨rfl, rfl, rfl, rfl⟩, assigned, fun index => ?_⟩
  rw [assigned, assignColors_palette _ fun entry member => (accepted entry member).index]

/-- A table without names, so that only components are accepted. -/
def noNames : NamedColors where
  colors := []
  names := by simp

/-- The specification `rgb:f/f/f`. -/
def brightSpec : List UInt8 := [0x72, 0x67, 0x62, 0x3A, 0x66, 0x2F, 0x66, 0x2F, 0x66]

/-- The colour that `rgb:f/f/f` specifies. -/
def brightColor : Color where
  paletteIndex := -1
  red := 0xF0
  green := 0xF0
  blue := 0xF0

/-- The specification `rgb:0/0/0`. -/
def darkSpec : List UInt8 := [0x72, 0x67, 0x62, 0x3A, 0x30, 0x2F, 0x30, 0x2F, 0x30]

/-- The colour that `rgb:0/0/0` specifies. -/
def darkColor : Color where
  paletteIndex := -1
  red := 0
  green := 0
  blue := 0

/-- Whether a specification can be transmitted is decided byte by byte. -/
theorem PaletteEntry.transmittable_of_all {entry : PaletteEntry}
    (length : entry.spec.length ≤ colorSpecCapacity)
    (plain : entry.spec.all (fun c => c != 0x3B && !isStringTerminator c) = true) :
    entry.Transmittable := by
  refine ⟨length, fun c member => ?_⟩
  have byte := List.all_eq_true.mp plain c member
  rwa [Bool.and_eq_true, bne_iff_ne, Bool.not_eq_true'] at byte

/-- A new terminal. -/
def paletteTerm : Term :=
  create sampleMetrics (sampleOptions 24 80)

theorem paletteTerm_ready : paletteTerm.PaletteReady := ⟨rfl, rfl, rfl, rfl⟩

/-- The last of two colours for the same entry is kept. -/
theorem paletteCommand_assigns_last :
    let entries := [⟨1, brightSpec, brightColor⟩, ⟨1, darkSpec, darkColor⟩]
    (∀ entry ∈ entries, entry.Accepted noNames ∧ entry.Transmittable)
      ∧ lastColor entries 1 = some darkColor
      ∧ (exec (writeByte (samplePlatform.withColors noNames)) paletteTerm
          (oscSequence [0x34] (paletteText entries) [0x1B, 0x5C])).toConsole =
        assignColors paletteTerm.toConsole entries := by
  intro entries
  have accepted : ∀ entry ∈ entries, entry.Accepted noNames ∧ entry.Transmittable :=
    List.forall_mem_cons.mpr
      ⟨⟨⟨by decide, by decide, by decide⟩, PaletteEntry.transmittable_of_all (by decide) rfl⟩,
        List.forall_mem_singleton.mpr ⟨⟨by decide, by decide, by decide⟩,
          PaletteEntry.transmittable_of_all (by decide) rfl⟩⟩
  refine ⟨accepted, by decide, ?_⟩
  exact (paletteCommand_assigns samplePlatform noNames paletteTerm paletteTerm_ready entries
    (fun entry member => (accepted entry member).1)
    (fun entry member => (accepted entry member).2) [0x1B, 0x5C] (.inr rfl)).2.1

/-- A semicolon behind the components does not end them, yet it ends the specification: the pair
after it is read as another one. -/
theorem specification_with_semicolon_shifts_pairs :
    let entries := [⟨1, brightSpec ++ [0x3B], brightColor⟩, ⟨2, brightSpec, brightColor⟩]
    (∀ entry ∈ entries, entry.Accepted noNames) ∧ paletteTerm.PaletteReady
      ∧ (exec (writeByte (samplePlatform.withColors noNames)) paletteTerm
          (oscSequence [0x34] (paletteText entries) [0x07])).grid.display.palette 2 ≠
        (paletteTerm.grid.display.palette 2).withComponents brightColor := by
  intro entries
  refine ⟨?_, paletteTerm_ready, ?_⟩
  · exact List.forall_mem_cons.mpr ⟨⟨by decide, by decide, by decide⟩,
      List.forall_mem_singleton.mpr ⟨by decide, by decide, by decide⟩⟩
  · decide +kernel

end GuacNebula.Terminal
