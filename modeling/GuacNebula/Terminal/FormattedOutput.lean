import GuacNebula.Lib.CString
import GuacNebula.Lib.Run
import GuacNebula.Terminal.Handlers

/-! # Formatted output

`guac_terminal_printf` and `guac_terminal_sendf` format their arguments into a local buffer and
hand on as many bytes of it as the formatted text has. Only texts that the buffer holds are handed
on as they are: of a longer text, the end of the string and whatever lies behind it is handed on,
too.
-/

namespace GuacNebula.Terminal

open CString Run

/-- The size that both functions tell `vsnprintf`: that of the buffer less one. -/
def formatSize : Nat := 1023

/-- The number of bytes of a text that the buffer holds, besides the end of the string. -/
def formatCapacity : Nat := formatSize - 1

/-- The bytes that are handed on after `vsnprintf` has stored a text in the buffer, if it was
formatted without an error: as many as the text has. -/
def formattedBytes (memory : Nat → UInt8) (text : Option (List UInt8)) : Option (List UInt8) :=
  text.map fun text => bytes (put memory 0 (formatted formatSize text)) text.length

/-- `guac_terminal_write`. -/
def terminalWrite (platform : Platform) (term : Term) (buffer : List UInt8) : Term :=
  exec (writeByte platform) term buffer

/-- `guac_terminal_printf`, with what it returns. -/
def terminalPrintf (platform : Platform) (term : Term) (memory : Nat → UInt8)
    (text : Option (List UInt8)) : Term × Int :=
  match formattedBytes memory text with
  | none => (term, -1)
  | some buffer => (terminalWrite platform term buffer, buffer.length)

/-- The bytes that `guac_terminal_sendf` hands on: none while a stream provides the input. -/
def sentBytes (term : Term) (memory : Nat → UInt8) (text : Option (List UInt8)) :
    Option (List UInt8) :=
  if term.inputStream then none else formattedBytes memory text

/-- `guac_terminal_sendf`, with what it returns. -/
def terminalSendf (term : Term) (memory : Nat → UInt8) (text : Option (List UInt8)) : Term × Int :=
  match sentBytes term memory text with
  | none => (term, if term.inputStream then 0 else -1)
  | some buffer => ({ term with output := .stdin buffer :: term.output }, buffer.length)

/-- All that is handed on are the bytes of the text that the buffer holds. -/
def HandsOnStored (text handed : Option (List UInt8)) : Prop :=
  ∀ buffer ∈ handed, ∃ whole ∈ text, buffer = whole.take (min whole.length formatCapacity)

section Handing

variable (memory : Nat → UInt8) (text : Option (List UInt8))

/-- As many bytes are handed on as the text has. -/
theorem formattedBytes_length {whole buffer : List UInt8}
    (handed : formattedBytes memory (some whole) = some buffer) :
    buffer.length = whole.length := by
  rw [← Option.some.inj handed, bytes_length]

theorem formattedBytes_iff :
    HandsOnStored text (formattedBytes memory text) ↔
      ∀ whole ∈ text, whole.length ≤ formatCapacity := by
  cases text with
  | none => exact iff_of_true nofun nofun
  | some whole =>
      constructor
      · intro stored other same
        obtain ⟨source, present, taken⟩ := stored _ rfl
        obtain rfl := Option.some.inj present
        obtain rfl := Option.some.inj same
        have length := congrArg List.length taken
        rw [formattedBytes_length memory rfl, List.length_take] at length
        omega
      · intro short buffer handed
        have fits : whole.length ≤ formatCapacity := short whole rfl
        have cut : formatted formatSize whole = whole ++ [0] :=
          congrArg (· ++ [0]) (List.take_of_length_le fits)
        have kept : bytes (put memory 0 (formatted formatSize whole)) whole.length = whole := by
          rw [cut, bytes_put, List.take_left' rfl, List.drop_of_length_le (by simp), List.append_nil]
        refine ⟨whole, rfl, ?_⟩
        rw [Nat.min_eq_left fits, List.take_length]
        exact (Option.some.inj handed).symm.trans kept

end Handing

/-- **Formatted text is handed on as it was stored exactly if the buffer holds it**, to the terminal
by `guac_terminal_printf`, and by `guac_terminal_sendf` to the standard input unless a stream
provides the input. -/
theorem formatted_output_iff (platform : Platform) (term : Term) (memory : Nat → UInt8)
    (text : Option (List UInt8)) :
    (HandsOnStored text (formattedBytes memory text) ↔
        ∀ whole ∈ text, whole.length ≤ formatCapacity)
      ∧ (HandsOnStored text (sentBytes term memory text) ↔
        term.inputStream = true ∨ ∀ whole ∈ text, whole.length ≤ formatCapacity)
      ∧ (∀ buffer ∈ formattedBytes memory text,
        terminalPrintf platform term memory text =
          (exec (writeByte platform) term buffer, (buffer.length : Int)))
      ∧ ∀ buffer ∈ sentBytes term memory text,
        terminalSendf term memory text =
          ({ term with output := .stdin buffer :: term.output }, (buffer.length : Int)) := by
  refine ⟨formattedBytes_iff memory text, ?_, fun buffer handed => ?_, fun buffer handed => ?_⟩
  · unfold sentBytes
    by_cases streamed : term.inputStream = true
    · rw [if_pos streamed]
      exact iff_of_true nofun (.inl streamed)
    · rw [if_neg streamed, formattedBytes_iff]
      exact (or_iff_right streamed).symm
  · unfold terminalPrintf
    rw [Option.mem_def.mp handed]
    rfl
  · unfold terminalSendf
    rw [Option.mem_def.mp handed]

/-- Of 1023 bytes of text, the last one that is handed on is the end of the string. -/
theorem formatted_text_overruns :
    ¬ HandsOnStored (some (List.replicate 1023 0x61))
      (formattedBytes (fun _ => 0xFF) (some (List.replicate 1023 0x61))) := by
  rw [formattedBytes_iff]
  intro short
  have length := short _ rfl
  rw [List.length_replicate] at length
  exact absurd length (by decide)

end GuacNebula.Terminal
