import GuacNebula.Lib.Run
import GuacNebula.Lib.Utf8
import GuacNebula.Terminal.ConsoleFrame

/-! # Encoded text and what is displayed of it

The decoder of `guac_terminal_echo` keeps a codepoint and a counter in static variables, and only
the first byte of a character assigns both. So whatever was read before, it reads back every
codepoint that `guac_terminal_encode_utf8` has encoded, and hands it to `guac_terminal_set`, which
leaves out the codepoints that take no column.
-/

namespace GuacNebula.Terminal

open CInt Run

/-! ## Encoding -/

/-- The loop of `guac_terminal_encode_utf8` that adds the trailing bytes, with the bits left of the
codepoint. -/
def encodeTrailing : Nat → Int → List UInt8 → Int × List UInt8
  | 0, codepoint, bytes => (codepoint, bytes)
  | remaining + 1, codepoint, bytes =>
      encodeTrailing remaining (codepoint / 64)
        ((0x80 ||| UInt8.ofNat (codepoint % 64).toNat) :: bytes)

/-- `guac_terminal_encode_utf8`, once the size and the mask of the initial byte are determined. -/
def encodeBytes (mask : UInt8) (bytes : Nat) (codepoint : Int) : List UInt8 :=
  let (codepoint, trailing) := encodeTrailing (bytes - 1) codepoint []
  (mask ||| UInt8.ofNat (codepoint % 256).toNat) :: trailing

/-- `guac_terminal_encode_utf8`. -/
def terminalEncodeUtf8 (codepoint : Int) : List UInt8 :=
  if codepoint ≤ 0x007F then encodeBytes 0x00 1 codepoint
  else if codepoint ≤ 0x7FF then encodeBytes 0xC0 2 codepoint
  else if codepoint ≤ 0xFFFF then encodeBytes 0xE0 3 codepoint
  else if codepoint ≤ 0x1FFFFF then encodeBytes 0xF0 4 codepoint
  else [0x3F]

theorem or_trailing {value : Nat} (small : value < 64) :
    0x80 ||| UInt8.ofNat value = UInt8.ofNat (value + 0x80) := by
  have every : ∀ value < 64, 0x80 ||| UInt8.ofNat value = UInt8.ofNat (value + 0x80) := by decide
  exact every value small

theorem or_initial {value : Nat} :
    (value < 32 → 0xC0 ||| UInt8.ofNat value = UInt8.ofNat (value + 0xC0))
      ∧ (value < 16 → 0xE0 ||| UInt8.ofNat value = UInt8.ofNat (value + 0xE0))
      ∧ (value < 8 → 0xF0 ||| UInt8.ofNat value = UInt8.ofNat (value + 0xF0)) := by
  have two : ∀ value < 32, 0xC0 ||| UInt8.ofNat value = UInt8.ofNat (value + 0xC0) := by decide
  have three : ∀ value < 16, 0xE0 ||| UInt8.ofNat value = UInt8.ofNat (value + 0xE0) := by decide
  have four : ∀ value < 8, 0xF0 ||| UInt8.ofNat value = UInt8.ofNat (value + 0xF0) := by decide
  exact ⟨two value, three value, four value⟩

/-- What the terminal writes for a codepoint is its UTF-8 encoding. -/
theorem terminalEncodeUtf8_eq {code : Nat} (small : code < 0x200000) :
    terminalEncodeUtf8 code = Utf8.encode code := by
  have low : ((code : Int) % 64).toNat = code % 0x40 := by omega
  have middle : ((code : Int) / 64 % 64).toNat = code / 64 % 0x40 := by omega
  have high : ((code : Int) / 64 / 64 % 64).toNat = code / 4096 % 0x40 := by omega
  unfold terminalEncodeUtf8 Utf8.encode
  split_ifs
  any_goals omega
  all_goals simp only [encodeBytes, Nat.reduceSub, encodeTrailing, low, middle, high]
  · rw [show ((code : Int) % 256).toNat = code by omega, UInt8.zero_or]
  · rw [show ((code : Int) / 64 % 256).toNat = code / 64 % 0x20 by omega,
      or_trailing (Nat.mod_lt _ (by decide)), or_initial.1 (Nat.mod_lt _ (by decide))]
  · rw [show ((code : Int) / 64 / 64 % 256).toNat = code / 4096 % 0x10 by omega,
      or_trailing (Nat.mod_lt _ (by decide)), or_trailing (Nat.mod_lt _ (by decide)),
      or_initial.2.1 (Nat.mod_lt _ (by decide))]
  · rw [show ((code : Int) / 64 / 64 / 64 % 256).toNat = code / 262144 % 0x08 by omega,
      or_trailing (Nat.mod_lt _ (by decide)), or_trailing (Nat.mod_lt _ (by decide)),
      or_trailing (Nat.mod_lt _ (by decide)), or_initial.2.2 (Nat.mod_lt _ (by decide))]

/-! ## Decoding -/

/-- The terminal with other values in the static variables of `guac_terminal_echo`. -/
def Term.decoding (term : Term) (codepoint bytesRemaining : Int) : Term :=
  { term with
    statics := { term.statics with codepoint := codepoint, bytesRemaining := bytesRemaining } }

/-- Text is neither mapped nor redirected. -/
structure Term.Plain (term : Term) : Prop where
  unmapped : term.mapping = none
  closed : term.pipeStream.opened = false

/-- The codepoint that an operation hands to `guac_terminal_set`, if any. -/
def ConsoleOp.printed : ConsoleOp → List Int
  | .print codepoint => [codepoint]
  | _ => []

/-- The codepoints that `guac_terminal_echo` hands to `guac_terminal_set` while it is fed bytes. -/
def handedOver (platform : Platform) : Term → List UInt8 → List Int
  | _, [] => []
  | term, c :: bytes =>
      (echoOperation term c).printed ++ handedOver platform (echo platform term c) bytes

/-- The codepoints of these that `guac_terminal_set` displays: those which take no column are left
out. -/
def displayed (platform : Platform) (term : Term) (bytes : List UInt8) : List Int :=
  (handedOver platform term bytes).filter (platform.wc.columns · ≠ 0)

/-- The codepoints that are characters to display, not control characters. -/
def Displayable (code : Nat) : Prop := 0x20 ≤ code ∧ code ≤ 0x10FFFF ∧ ¬ (0x7F ≤ code ∧ code ≤ 0x9F)

section Bytes

variable {value : Nat} (codepoint bytesRemaining : Int)

theorem decodeByte_single (small : value < 0x80) :
    decodeByte false codepoint bytesRemaining (UInt8.ofNat value) = ((value : Int), 0) := by
  have every : ∀ value < 0x80, UInt8.ofNat value &&& 0x80 = 0
      ∧ (UInt8.ofNat value &&& 0x7F).toNat = value := by decide
  obtain ⟨single, bits⟩ := every value small
  rw [decodeByte, if_neg Bool.false_ne_true, if_pos single, bits]

theorem decodeByte_two (small : value < 32) :
    decodeByte false codepoint bytesRemaining (UInt8.ofNat (value + 0xC0)) = ((value : Int), 1) := by
  have every : ∀ value < 32, UInt8.ofNat (value + 0xC0) &&& 0x80 ≠ 0
      ∧ UInt8.ofNat (value + 0xC0) &&& 0xE0 = 0xC0
      ∧ (UInt8.ofNat (value + 0xC0) &&& 0x1F).toNat = value := by decide
  obtain ⟨several, two, bits⟩ := every value small
  rw [decodeByte, if_neg Bool.false_ne_true, if_neg several, if_pos two, bits]

theorem decodeByte_three (small : value < 16) :
    decodeByte false codepoint bytesRemaining (UInt8.ofNat (value + 0xE0)) = ((value : Int), 2) := by
  have every : ∀ value < 16, UInt8.ofNat (value + 0xE0) &&& 0x80 ≠ 0
      ∧ UInt8.ofNat (value + 0xE0) &&& 0xE0 ≠ 0xC0 ∧ UInt8.ofNat (value + 0xE0) &&& 0xF0 = 0xE0
      ∧ (UInt8.ofNat (value + 0xE0) &&& 0x0F).toNat = value := by decide
  obtain ⟨several, more, three, bits⟩ := every value small
  rw [decodeByte, if_neg Bool.false_ne_true, if_neg several, if_neg more, if_pos three, bits]

theorem decodeByte_four (small : value < 8) :
    decodeByte false codepoint bytesRemaining (UInt8.ofNat (value + 0xF0)) = ((value : Int), 3) := by
  have every : ∀ value < 8, UInt8.ofNat (value + 0xF0) &&& 0x80 ≠ 0
      ∧ UInt8.ofNat (value + 0xF0) &&& 0xE0 ≠ 0xC0 ∧ UInt8.ofNat (value + 0xF0) &&& 0xF0 ≠ 0xE0
      ∧ UInt8.ofNat (value + 0xF0) &&& 0xF8 = 0xF0
      ∧ (UInt8.ofNat (value + 0xF0) &&& 0x07).toNat = value := by decide
  obtain ⟨several, more, most, four, bits⟩ := every value small
  rw [decodeByte, if_neg Bool.false_ne_true, if_neg several, if_neg more, if_neg most,
    if_pos four, bits]

/-- A trailing byte adds its bits to those that have been read. -/
theorem decodeByte_trailing (remaining : Nat) {read code : Nat} (small : value < 64)
    (same : read * 64 + value = code) (valid : code < 0x200000) (few : remaining ≤ 2) :
    decodeByte false read (remaining + 1 : Nat) (UInt8.ofNat (value + 0x80)) =
      ((code : Int), (remaining : Int)) := by
  have every : ∀ value < 64, UInt8.ofNat (value + 0x80) &&& 0x80 ≠ 0
      ∧ UInt8.ofNat (value + 0x80) &&& 0xE0 ≠ 0xC0 ∧ UInt8.ofNat (value + 0x80) &&& 0xF0 ≠ 0xE0
      ∧ UInt8.ofNat (value + 0x80) &&& 0xF8 ≠ 0xF0 ∧ UInt8.ofNat (value + 0x80) &&& 0xC0 = 0x80
      ∧ (UInt8.ofNat (value + 0x80) &&& 0x3F).toNat = value := by decide
  obtain ⟨several, two, three, four, trailing, bits⟩ := every value small
  rw [decodeByte, if_neg Bool.false_ne_true, if_neg several, if_neg two, if_neg three,
    if_neg four, if_pos trailing, bits, toInt_of_fits ⟨by omega, by omega⟩,
    toInt_of_fits ⟨by omega, by omega⟩]
  exact Prod.ext (by omega) (by omega)

end Bytes

section Text

variable {platform : Platform} {term : Term} {c : UInt8} {codepoint bytesRemaining : Int}

@[simp] theorem Term.decoding_decoding (first second third fourth : Int) :
    (term.decoding first second).decoding third fourth = term.decoding third fourth := rfl

theorem Term.Plain.decoding (plain : term.Plain) : (term.decoding codepoint bytesRemaining).Plain :=
  ⟨plain.unmapped, plain.closed⟩

theorem Term.Plain.echo_eq (plain : term.Plain) (platform : Platform) :
    echo platform term c = echoByte platform term c ∧ echoOperation term c = byteOperation term c := by
  have piped : ¬ (term.pipeStream.opened ∧ c ≠ 0x1B) := by
    rw [plain.closed]
    exact fun both => Bool.false_ne_true both.1
  unfold echo echoOperation
  simp only [piped, false_and, if_false, and_self]

/-- A byte that does not complete a character only changes the static variables. -/
theorem Term.Plain.echo_partial (plain : term.Plain) (platform : Platform)
    (decoded : decodeByte false term.statics.codepoint term.statics.bytesRemaining c =
      (codepoint, bytesRemaining)) (more : bytesRemaining ≠ 0) (bytes : List UInt8) :
    echo platform term c = term.decoding codepoint bytesRemaining
      ∧ handedOver platform term (c :: bytes) =
        handedOver platform (term.decoding codepoint bytesRemaining) bytes := by
  have echoed : echo platform term c = term.decoding codepoint bytesRemaining := by
    rw [(plain.echo_eq platform).1, echoByte, plain.unmapped]
    simp only [Option.isSome_none, decoded, if_pos more]
    rfl
  have nothing : echoOperation term c = .nothing := by
    rw [(plain.echo_eq platform).2, byteOperation, plain.unmapped]
    simp only [Option.isSome_none, decoded, if_pos more]
  exact ⟨echoed, by rw [handedOver, nothing, echoed]; rfl⟩

/-- The terminal after a codepoint has been read and displayed. -/
def Term.shown (platform : Platform) (term : Term) (code : Nat) : Term :=
  (term.onConsole (printCodepoint platform · code)).decoding code 0

theorem Term.Plain.shown (plain : term.Plain) (code : Nat) : (term.shown platform code).Plain :=
  ⟨plain.unmapped, plain.closed⟩

@[simp] theorem Term.decoding_shown (code : Nat) :
    (term.decoding codepoint bytesRemaining).shown platform code = term.shown platform code := rfl

/-- A byte that completes a displayable character hands it over. -/
theorem Term.Plain.echo_complete (plain : term.Plain) (platform : Platform) {code : Nat} (displayable : Displayable code)
    (decoded : decodeByte false term.statics.codepoint term.statics.bytesRemaining c = ((code : Int), 0))
    (bytes : List UInt8) :
    echo platform term c = term.shown platform code
      ∧ handedOver platform term (c :: bytes) =
        (code : Int) :: handedOver platform (term.shown platform code) bytes := by
  obtain ⟨lower, upper, control⟩ := displayable
  have translated (first second : Int) : (term.decoding first second).translate code = code := by
    unfold Term.translate
    rw [show (term.decoding first second).mapping = none from plain.unmapped]
  have echoed : echo platform term c = term.shown platform code := by
    rw [(plain.echo_eq platform).1, echoByte, plain.unmapped]
    simp only [Option.isSome_none, decoded, ne_eq, not_true_eq_false, if_false]
    have kept := translated code 0
    unfold Term.decoding at kept
    unfold echoCodepoint
    repeat rw [if_neg (by omega)]
    simp only [kept]
    rfl
  have printed : echoOperation term c = .print code := by
    rw [(plain.echo_eq platform).2, byteOperation, plain.unmapped]
    simp only [Option.isSome_none, decoded, ne_eq, not_true_eq_false, if_false]
    unfold codepointOperation
    repeat rw [if_neg (by omega)]
    exact congrArg _ (translated term.statics.codepoint term.statics.bytesRemaining)
  exact ⟨echoed, by rw [handedOver, printed, echoed]; rfl⟩

/-- The bits of trailing bytes added to those that have been read. -/
def withTrailing (read : Nat) (values : List Nat) : Nat :=
  values.foldl (fun read value => read * 64 + value) read

theorem le_withTrailing (read : Nat) (values : List Nat) : read ≤ withTrailing read values := by
  induction values generalizing read with
  | nil => exact Nat.le_refl _
  | cons value values ih => exact Nat.le_trans (by omega) (ih (read * 64 + value))

/-- The trailing bytes of a displayable character complete it. -/
theorem Term.Plain.echo_trailing (plain : term.Plain) (platform : Platform) {code : Nat}
    (displayable : Displayable code) (bytes : List UInt8) {read value : Nat} {values : List Nat}
    (small : ∀ bits ∈ value :: values, bits < 64) (few : values.length ≤ 2)
    (whole : withTrailing read (value :: values) = code) :
    exec (echo platform) (term.decoding read (values.length + 1 : Nat))
        ((value :: values).map fun bits => UInt8.ofNat (bits + 0x80)) = term.shown platform code
      ∧ handedOver platform (term.decoding read (values.length + 1 : Nat))
          (((value :: values).map fun bits => UInt8.ofNat (bits + 0x80)) ++ bytes) =
        (code : Int) :: handedOver platform (term.shown platform code) bytes := by
  have valid : code < 0x200000 := by
    have upper := displayable.2.1
    omega
  induction values generalizing read value with
  | nil =>
      exact plain.decoding.echo_complete platform displayable
        (decodeByte_trailing 0 (small value List.mem_cons_self) whole valid (Nat.zero_le 2))
        bytes
  | cons next values ih =>
      obtain ⟨first, later⟩ := List.forall_mem_cons.mp small
      have below : read * 64 + value < 0x200000 :=
        Nat.lt_of_le_of_lt (whole ▸ le_withTrailing _ _) valid
      obtain ⟨byte, handed⟩ := plain.decoding.echo_partial platform
        (decodeByte_trailing (values.length + 1) first rfl below few)
        (by omega) (((next :: values).map fun bits => UInt8.ofNat (bits + 0x80)) ++ bytes)
      obtain ⟨ran, more⟩ := ih later (Nat.le_of_succ_le few) whole
      exact ⟨(congrArg (exec (echo platform) · _) byte).trans ran, handed.trans more⟩

/-- The bytes of a displayable character hand it over, whatever was read before them. -/
theorem Term.Plain.echo_encode (plain : term.Plain) (platform : Platform) {code : Nat}
    (displayable : Displayable code) (bytes : List UInt8) :
    exec (echo platform) term (Utf8.encode code) = term.shown platform code
      ∧ handedOver platform term (Utf8.encode code ++ bytes) =
        (code : Int) :: handedOver platform (term.shown platform code) bytes := by
  have upper := displayable.2.1
  have low : code % 0x40 < 64 := Nat.mod_lt _ (by decide)
  have middle : code / 64 % 0x40 < 64 := Nat.mod_lt _ (by decide)
  have high : code / 4096 % 0x40 < 64 := Nat.mod_lt _ (by decide)
  -- The first byte assigns both variables, and the trailing ones complete the character.
  have several (values : List Nat) {c : UInt8} {read value : Nat}
      (decoded : decodeByte false term.statics.codepoint term.statics.bytesRemaining c =
        ((read : Int), ((values.length + 1 : Nat) : Int)))
      (small : ∀ bits ∈ value :: values, bits < 64) (few : values.length ≤ 2)
      (whole : withTrailing read (value :: values) = code) := by
    obtain ⟨first, firstHanded⟩ := plain.echo_partial platform decoded (by omega)
      (((value :: values).map fun bits => UInt8.ofNat (bits + 0x80)) ++ bytes)
    obtain ⟨last, handed⟩ := plain.echo_trailing platform displayable bytes small few whole
    exact And.intro ((congrArg (exec (echo platform) · _) first).trans last)
      (firstHanded.trans handed)
  unfold Utf8.encode
  split_ifs with one two three
  · exact plain.echo_complete platform displayable (decodeByte_single _ _ (by omega)) bytes
  · exact several [] (decodeByte_two _ _ (Nat.mod_lt _ (by decide)))
      (List.forall_mem_singleton.mpr low) (Nat.zero_le 2)
      (by simp only [withTrailing, List.foldl]; omega)
  · exact several [code % 0x40] (decodeByte_three _ _ (Nat.mod_lt _ (by decide)))
      (List.forall_mem_cons.mpr ⟨middle, List.forall_mem_singleton.mpr low⟩)
      (Nat.le_succ 1)
      (by simp only [withTrailing, List.foldl]; omega)
  · exact several [code / 64 % 0x40, code % 0x40]
      (decodeByte_four _ _ (Nat.mod_lt _ (by decide)))
      (List.forall_mem_cons.mpr ⟨high,
        List.forall_mem_cons.mpr ⟨middle, List.forall_mem_singleton.mpr low⟩⟩) (Nat.le_refl 2)
      (by simp only [withTrailing, List.foldl]; omega)

/-- The bytes of displayable characters hand them over in their order. -/
theorem Term.Plain.echo_encodeText (plain : term.Plain) (platform : Platform) {codes : List Nat}
    (displayable : ∀ code ∈ codes, Displayable code) :
    handedOver platform term (codes.flatMap Utf8.encode) = codes.map Nat.cast
      ∧ (exec (echo platform) term (codes.flatMap Utf8.encode)).toConsole =
        codes.foldl (fun console code => printCodepoint platform console code) term.toConsole := by
  induction codes generalizing term with
  | nil => exact ⟨rfl, rfl⟩
  | cons code codes ih =>
      obtain ⟨first, later⟩ := List.forall_mem_cons.mp displayable
      obtain ⟨ran, handed⟩ := plain.echo_encode platform first (codes.flatMap Utf8.encode)
      obtain ⟨ihHanded, ihRan⟩ := ih (plain.shown code) later
      rw [List.flatMap_cons, handed, ihHanded, exec_append, ran, ihRan]
      exact ⟨rfl, rfl⟩

end Text

theorem flatMap_terminalEncodeUtf8 {codes : List Nat}
    (displayable : ∀ code ∈ codes, Displayable code) :
    codes.flatMap (fun code : Nat => terminalEncodeUtf8 code) = codes.flatMap Utf8.encode := by
  refine List.flatMap_congr fun code member => terminalEncodeUtf8_eq ?_
  have upper := (displayable code member).2.1
  omega

/-- **Encoded text is decoded to the codepoints it was encoded from.** Whatever was read before,
exactly these are handed to `guac_terminal_set`, in their order, and nothing else happens to the
console. -/
theorem echo_decodes (platform : Platform) (term : Term) (plain : term.Plain) (codes : List Nat)
    (displayable : ∀ code ∈ codes, Displayable code) :
    handedOver platform term (codes.flatMap fun code : Nat => terminalEncodeUtf8 code) =
        codes.map Nat.cast
      ∧ displayed platform term (codes.flatMap fun code : Nat => terminalEncodeUtf8 code) =
        (codes.map Nat.cast).filter (platform.wc.columns · ≠ 0)
      ∧ (exec (echo platform) term
          (codes.flatMap fun code : Nat => terminalEncodeUtf8 code)).toConsole =
        codes.foldl (fun console code => printCodepoint platform console code)
          term.toConsole := by
  obtain ⟨handed, ran⟩ := plain.echo_encodeText platform displayable
  rw [flatMap_terminalEncodeUtf8 displayable]
  exact ⟨handed, congrArg _ handed, ran⟩

/-- Within a line, a codepoint that takes no column leaves the grid as it is. -/
theorem printCodepoint_grid_of_columns_zero (platform : Platform) {console : Console}
    {codepoint : Int} (zero : platform.wc.columns codepoint = 0)
    (within : console.cursorCol < console.grid.termWidth) (overwrite : console.insertMode = false) :
    (printCodepoint platform console codepoint).grid = console.grid := by
  have wrapped : wrapCursor console = console := if_neg (not_le.mpr within)
  have shifted : insertShift console = console := if_neg (by rw [overwrite]; exact Bool.false_ne_true)
  rw [printCodepoint, wrapped, shifted]
  exact if_pos zero

/-- A new terminal whose decoder was left in the middle of a malformed character. -/
def malformedTerm : Term :=
  (create sampleMetrics (sampleOptions 24 80)).decoding 0x1234 (-2)

theorem malformedTerm_plain : malformedTerm.Plain := ⟨rfl, rfl⟩

/-- Characters of two, three and four bytes. -/
theorem echo_decodes_mixed :
    (∀ code ∈ [0xE9, 0x20AC, 0x1F600], Displayable code)
      ∧ handedOver samplePlatform malformedTerm
          ([0xE9, 0x20AC, 0x1F600].flatMap fun code : Nat => terminalEncodeUtf8 code) =
        [0xE9, 0x20AC, 0x1F600] := by
  have displayable : ∀ code ∈ [0xE9, 0x20AC, 0x1F600], Displayable code := by
    simp [Displayable]
  exact ⟨displayable, (echo_decodes samplePlatform malformedTerm malformedTerm_plain _
    displayable).1⟩

/-- The combining acute accent takes no column, and nothing is displayed for it. -/
theorem combining_accent_is_not_displayed :
    Displayable 0x301 ∧ malformedTerm.Plain
      ∧ displayed samplePlatform malformedTerm (terminalEncodeUtf8 0x301) ≠ [0x301]
      ∧ (exec (echo samplePlatform) malformedTerm (terminalEncodeUtf8 0x301)).grid =
        malformedTerm.grid := by
  have displayable : Displayable 0x301 := by simp [Displayable]
  have encoded : terminalEncodeUtf8 0x301 = Utf8.encode 0x301 ++ [] := by decide
  obtain ⟨ran, handed⟩ := malformedTerm_plain.echo_encode samplePlatform displayable []
  refine ⟨displayable, malformedTerm_plain, ?_, ?_⟩
  · rw [displayed, encoded, handed]
    exact by decide
  · have wide : malformedTerm.grid.termWidth = 80 := (resetConsole_sameSize _).termWidth
    rw [encoded, List.append_nil, ran]
    exact printCodepoint_grid_of_columns_zero samplePlatform rfl
      (wide.symm ▸ (by decide : (0 : Int) < 80)) rfl

end GuacNebula.Terminal
