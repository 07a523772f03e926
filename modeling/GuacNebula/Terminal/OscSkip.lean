import GuacNebula.Lib.Run
import GuacNebula.Terminal.Operations

/-! # Operating system commands that are not recognised

A command consists of a number, a semicolon and a text, up to a terminator. The handler of
commands knows the number and the semicolon only: if the number means nothing to it, the text is
read as further numbers, and the first byte that cannot belong to one, be it an ordinary letter or
the escape character of the terminator, ends the command.
-/

namespace GuacNebula.Terminal

open CInt Run

/-- The terminal has not left the command it is reading for another one or for text. -/
def Term.WithinCommand (term : Term) : Prop :=
  term.charHandler = .escape ∨ term.charHandler = .osc

/-- Every byte but the last leaves the terminal within the command. -/
def StaysWithin (platform : Platform) : Term → List UInt8 → Prop
  | _, [] => True
  | _, [_] => True
  | term, c :: next :: rest =>
      (writeByte platform term c).WithinCommand
        ∧ StaysWithin platform (writeByte platform term c) (next :: rest)

/-- A sequence is consumed whole: it is read as one command up to its last byte, and afterwards
nothing has changed but the static variables of the handlers. -/
def ConsumedWhole (platform : Platform) (term : Term) (bytes : List UInt8) : Prop :=
  StaysWithin platform term bytes
    ∧ ∃ statics, exec (writeByte platform) term bytes = { term with statics := statics }

/-- The ways to terminate a command: `BEL`, and `ST` in its 7-bit form. -/
def IsTerminator (terminator : List UInt8) : Prop :=
  terminator = [0x07] ∨ terminator = [0x1B, 0x5C]

/-- `ESC ]`, the number, the semicolon, the text and the terminator of a command. -/
def oscSequence (number payload terminator : List UInt8) : List UInt8 :=
  0x1B :: 0x5D :: (number ++ 0x3B :: (payload ++ terminator))

/-- The bytes are digits and semicolons, and no semicolon ends a number that is recognised. The
number before the first semicolon is read on from `operation`, modulo the range of `int`. -/
def SkipsCommand : Int → List UInt8 → Prop
  | _, [] => True
  | operation, c :: rest =>
      if isDigit c then SkipsCommand (toInt (operation * 10 + (c.toNat - 0x30 : Nat))) rest
      else c = 0x3B ∧ oscHandler operation = none ∧ SkipsCommand 0 rest

instance SkipsCommand.decidable :
    ∀ operation bytes, Decidable (SkipsCommand operation bytes)
  | _, [] => isTrue trivial
  | operation, c :: rest =>
      have := SkipsCommand.decidable (toInt (operation * 10 + (c.toNat - 0x30 : Nat))) rest
      have := SkipsCommand.decidable 0 rest
      inferInstanceAs (Decidable (if isDigit c then _ else _))

/-- The terminal while it reads the number of a command. -/
def Term.inOsc (term : Term) (statics : HandlerStatics) : Term :=
  { term with charHandler := .osc, statics := statics }

section Skip

variable (platform : Platform) (term : Term)

theorem oscHandler_leaves {operation : Int} {handler : CharHandler}
    (recognised : oscHandler operation = some handler) : handler ≠ .escape ∧ handler ≠ .osc := by
  unfold oscHandler at recognised
  split_ifs at recognised
  all_goals
    cases recognised
    exact ⟨nofun, nofun⟩

theorem inOsc_within (statics : HandlerStatics) : (term.inOsc statics).WithinCommand :=
  Or.inr rfl

/-- What the command handler does with a byte, by the kind of the byte. -/
theorem writeByte_inOsc (statics : HandlerStatics) (c : UInt8) :
    writeByte platform (term.inOsc statics) c =
      if isDigit c then
        term.inOsc { statics with
          operation := toInt (statics.operation * 10 + (c.toNat - 0x30 : Nat)) }
      else if c = 0x3B then
        { term.inOsc { statics with operation := 0 } with
          charHandler := (oscHandler statics.operation).getD .osc }
      else { term with charHandler := .echo, statics := statics } := by
  change osc (term.inOsc statics) c = _
  unfold osc
  split
  · rfl
  · split
    · dsimp only [Term.inOsc]
      cases oscHandler statics.operation <;> rfl
    · rfl

/-- The escape character begins a sequence whatever text was read before, also while output is
redirected. -/
theorem writeByte_escape (echoes : term.charHandler = .echo) :
    writeByte platform term 0x1B =
      { term with
        charHandler := .escape
        statics := { term.statics with codepoint := 0x1B, bytesRemaining := 0 } } := by
  have notPiped : ¬ (term.pipeStream.opened ∧ (0x1B : UInt8) ≠ 0x1B) := fun piped => piped.2 rfl
  have decoded : decodeByte term.mapping.isSome term.statics.codepoint
      term.statics.bytesRemaining 0x1B = (0x1B, 0) := by
    cases term.mapping.isSome <;> rfl
  unfold writeByte
  rw [echoes]
  change echo platform term 0x1B = _
  unfold echo
  dsimp only
  rw [if_neg notPiped, if_neg (fun both => notPiped both.1)]
  unfold echoByte
  rw [decoded]
  rfl

/-- The bytes after the beginning of a command, as its handler reads them: the command ends with
its terminator exactly if this is `BEL` and all bytes before it are skipped. -/
theorem inOsc_consumed_iff {terminator : List UInt8} (ends : IsTerminator terminator)
    (bytes : List UInt8) (statics : HandlerStatics) :
    (StaysWithin platform (term.inOsc statics) (bytes ++ terminator)
        ∧ ∃ after, exec (writeByte platform) (term.inOsc statics) (bytes ++ terminator)
          = { term with charHandler := .echo, statics := after })
      ↔ terminator = [0x07] ∧ SkipsCommand statics.operation bytes := by
  induction bytes generalizing statics with
  | nil =>
      rcases ends with rfl | rfl
      · exact ⟨fun _ => ⟨rfl, trivial⟩, fun _ => ⟨trivial, statics, rfl⟩⟩
      · constructor
        · rintro ⟨⟨within, _⟩, _⟩
          rcases within with within | within <;> cases within
        · rintro ⟨bell, _⟩
          cases bell
  | cons c bytes ih =>
      obtain ⟨next, rest, more⟩ : ∃ next rest, bytes ++ terminator = next :: rest := by
        rcases ends with rfl | rfl <;> cases bytes <;> exact ⟨_, _, rfl⟩
      rw [more] at ih
      rw [List.cons_append, more]
      simp only [StaysWithin, exec_cons (writeByte platform) _ c, SkipsCommand]
      rw [writeByte_inOsc]
      by_cases digit : isDigit c
      · rw [if_pos digit, if_pos digit]
        exact (and_congr_left' (and_iff_right (inOsc_within ..))).trans (ih _)
      rw [if_neg digit, if_neg digit]
      by_cases separator : c = 0x3B
      · rw [if_pos separator, and_iff_right separator]
        cases recognised : oscHandler statics.operation with
        | none =>
            rw [Option.getD_none, and_iff_right rfl]
            exact (and_congr_left' (and_iff_right (inOsc_within ..))).trans (ih _)
        | some handler =>
            obtain ⟨notEscape, notOsc⟩ := oscHandler_leaves recognised
            constructor
            · rintro ⟨⟨within, _⟩, _⟩
              exact absurd within (not_or.mpr ⟨notEscape, notOsc⟩)
            · rintro ⟨_, unrecognised, _⟩
              cases unrecognised
      · rw [if_neg separator]
        constructor
        · rintro ⟨⟨within, _⟩, _⟩
          rcases within with within | within <;> cases within
        · exact fun skips => absurd skips.2.1 separator

/-- **A command that is not recognised is consumed whole exactly if its terminator is `BEL` and
its text consists of further numbers that are not recognised either.** -/
theorem osc_consumed_iff (echoes : term.charHandler = .echo) (number payload : List UInt8)
    {terminator : List UInt8} (ends : IsTerminator terminator) :
    ConsumedWhole platform term (oscSequence number payload terminator)
      ↔ terminator = [0x07] ∧ SkipsCommand term.statics.operation (number ++ 0x3B :: payload) := by
  obtain ⟨next, rest, more⟩ : ∃ next rest,
      number ++ 0x3B :: (payload ++ terminator) = next :: rest := by
    cases number <;> exact ⟨_, _, rfl⟩
  have bytes : number ++ 0x3B :: (payload ++ terminator)
      = (number ++ 0x3B :: payload) ++ terminator := by
    rw [List.append_assoc, List.cons_append]
  have begun : writeByte platform (writeByte platform term 0x1B) 0x5D =
      term.inOsc { term.statics with codepoint := 0x1B, bytesRemaining := 0 } := by
    rw [writeByte_escape platform term echoes]
    rfl
  rw [← inOsc_consumed_iff platform term ends _
    { term.statics with codepoint := 0x1B, bytesRemaining := 0 }, ← begun, ← bytes]
  have escaping : (writeByte platform term 0x1B).WithinCommand := by
    rw [writeByte_escape platform term echoes]
    exact Or.inl rfl
  have started : (writeByte platform (writeByte platform term 0x1B) 0x5D).WithinCommand := by
    rw [begun]
    exact inOsc_within ..
  have same (statics : HandlerStatics) :
      { term with statics := statics } = { term with charHandler := .echo, statics := statics } := by
    rw [← echoes]
  unfold ConsumedWhole oscSequence
  simp only [more, StaysWithin, exec_cons (writeByte platform) _ 0x1B,
    exec_cons (writeByte platform) _ 0x5D, escaping, started, true_and, same]

end Skip

/-- The text `1;3` of command 9 reads as numbers. -/
theorem osc_consumed_numbers :
    ConsumedWhole samplePlatform (create sampleMetrics (sampleOptions 1 3))
      (oscSequence [0x39] [0x31, 0x3B, 0x33] [0x07]) :=
  (osc_consumed_iff samplePlatform (create sampleMetrics (sampleOptions 1 3)) rfl [0x39]
    [0x31, 0x3B, 0x33] (Or.inl rfl)).mpr ⟨rfl, by decide⟩

/-- The second letter of the text `hi` of command 9 is printed. -/
theorem osc_prints_text :
    ¬ ConsumedWhole samplePlatform (create sampleMetrics (sampleOptions 1 3))
      (oscSequence [0x39] [0x68, 0x69] [0x07]) := by
  rintro ⟨_, statics, same⟩
  have col : (exec (writeByte samplePlatform) (create sampleMetrics (sampleOptions 1 3))
      (oscSequence [0x39] [0x68, 0x69] [0x07])).cursorCol = 0 :=
    congrArg (fun term : Term => term.cursorCol) same
  exact absurd col (by decide +kernel)

end GuacNebula.Terminal
