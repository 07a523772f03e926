import GuacNebula.Terminal.State
import Mathlib.Data.List.Forall2

/-! # Prompts

`guac_terminal_prompt` reads what is typed up to a carriage return and edits it on the way. What has
been stored is the answer. If the prompt is not to echo, each byte is printed as a star, and then
the terminal shows nothing of the answer but its length.
-/

namespace GuacNebula.Terminal

/-- The number of bytes that the buffer of a prompt holds, besides the end of the string. -/
def promptCapacity : Nat := 1023

/-- A prompt: the bytes that are stored, and the texts that have been printed. -/
structure Prompt where
  stored : List UInt8 := []
  printed : List (List UInt8)

/-- What `guac_terminal_prompt` returns and prints, and the input that it leaves. -/
structure PromptResult where
  answer : List UInt8
  printed : List (List UInt8)
  rest : List UInt8

namespace Prompt

/-- The effect of a byte that does not end the input. -/
def enter (echo : Bool) (prompt : Prompt) (inByte : UInt8) : Prompt :=
  if inByte = 0x7F then
    if 0 < prompt.stored.length then
      { stored := prompt.stored.dropLast
        printed := prompt.printed ++ [[0x08, 0x20, 0x08]] }
    else prompt
  else if prompt.stored.length < promptCapacity then
    { stored := prompt.stored ++ [inByte]
      printed := prompt.printed ++ [if echo then [inByte] else [0x2A]] }
  else prompt

/-- The loop, which a carriage return or the end of the input ends. -/
def read (echo : Bool) : Prompt → List UInt8 → Prompt × List UInt8
  | prompt, [] => (prompt, [])
  | prompt, inByte :: rest =>
      if inByte = 0x0D then ({ prompt with printed := prompt.printed ++ [[0x0D, 0x0A]] }, rest)
      else read echo (prompt.enter echo inByte) rest

end Prompt

/-- `guac_terminal_prompt`. The answer is a copy of a string, which ends before the first zero. -/
def terminalPrompt (title : List UInt8) (echo : Bool) (input : List UInt8) : PromptResult :=
  let (prompt, rest) := Prompt.read echo { printed := [title] } input
  { answer := prompt.stored.takeWhile (· ≠ 0)
    printed := prompt.printed
    rest := rest }

/-! ## Editing -/

/-- The text that is left when each delete has removed what was typed before it. -/
def edited (typed : List UInt8) : List UInt8 :=
  typed.foldl (fun text byte => if byte = 0x7F then text.dropLast else text ++ [byte]) []

/-- At no time there is more text than the buffer holds. -/
def FitsPrompt (typed : List UInt8) : Prop :=
  ∀ count, (edited (typed.take count)).length ≤ promptCapacity

/-- Bytes that a prompt does not tell apart. -/
def Alike (first second : UInt8) : Prop :=
  (first = 0x7F ↔ second = 0x7F) ∧ (first = 0x0D ↔ second = 0x0D)

instance (first second : UInt8) : Decidable (Alike first second) :=
  inferInstanceAs (Decidable (_ ∧ _))

theorem edited_append (typed : List UInt8) (byte : UInt8) :
    edited (typed ++ [byte]) =
      if byte = 0x7F then (edited typed).dropLast else edited typed ++ [byte] := by
  unfold edited
  rw [List.foldl_append, List.foldl_cons, List.foldl_nil]

theorem edited_length_le (typed : List UInt8) : (edited typed).length ≤ typed.length := by
  induction typed using List.reverseRecOn with
  | nil => exact Nat.le_refl 0
  | append_singleton typed byte ih =>
      rw [edited_append, List.length_append, List.length_singleton]
      split
      · rw [List.length_dropLast]
        omega
      · rw [List.length_append, List.length_singleton]
        omega

/-- Every text that is not longer than the buffer fits, however it is corrected. -/
theorem FitsPrompt.of_length {typed : List UInt8} (short : typed.length ≤ promptCapacity) :
    FitsPrompt typed := by
  intro count
  have part := List.length_take_le' count typed
  exact (edited_length_le _).trans (part.trans short)

namespace Prompt

variable {echo : Bool} {prompt first second : Prompt}

theorem read_append {typed : List UInt8} (rest : List UInt8) (unended : 0x0D ∉ typed) :
    read echo prompt (typed ++ 0x0D :: rest) =
      ({ typed.foldl (enter echo) prompt with
          printed := (typed.foldl (enter echo) prompt).printed ++ [[0x0D, 0x0A]] }, rest) := by
  induction typed generalizing prompt with
  | nil => rfl
  | cons byte typed ih =>
      have here : byte ≠ 0x0D := fun same => unended (same ▸ List.mem_cons_self ..)
      have later : 0x0D ∉ typed := fun member => unended (List.mem_cons_of_mem _ member)
      rw [List.cons_append, read, if_neg here, ih later]
      rfl

/-- While there is room, what is stored is the text that has been edited. -/
theorem stored_eq {typed : List UInt8} (fits : FitsPrompt typed) (empty : prompt.stored = []) :
    (typed.foldl (enter echo) prompt).stored = edited typed := by
  induction typed using List.reverseRecOn with
  | nil => exact empty
  | append_singleton typed byte ih =>
      have before : FitsPrompt typed := by
        intro count
        have part := fits (min count typed.length)
        rwa [List.take_append_of_le_length (Nat.min_le_right ..), ← List.take_eq_take_min] at part
      have whole := fits (typed.length + 1)
      rw [List.take_of_length_le (by simp), edited_append] at whole
      have stored := ih before
      rw [List.foldl_append, List.foldl_cons, List.foldl_nil, edited_append]
      generalize typed.foldl (enter echo) prompt = state at stored
      unfold enter
      rw [stored]
      by_cases delete : byte = 0x7F
      · rw [if_pos delete, if_pos delete]
        split
        · rfl
        · rename_i none
          rw [stored, List.eq_nil_of_length_eq_zero (Nat.eq_zero_of_not_pos none)]
          rfl
      · rw [if_neg delete, List.length_append, List.length_singleton] at whole
        rw [if_neg delete, if_neg delete, if_pos (Nat.lt_of_succ_le whole)]

/-- Prompts that show the same and have stored as much. -/
structure ShowsAlike (first second : Prompt) : Prop where
  stored : first.stored.length = second.stored.length
  printed : first.printed = second.printed

theorem ShowsAlike.enter (alike : first.ShowsAlike second) {byte other : UInt8}
    (same : Alike byte other) :
    (first.enter false byte).ShowsAlike (second.enter false other) := by
  unfold Prompt.enter
  rw [← alike.stored]
  by_cases delete : byte = 0x7F
  · rw [if_pos delete, if_pos (same.1.mp delete)]
    split
    · exact ⟨by rw [List.length_dropLast, List.length_dropLast, alike.stored],
        congrArg (· ++ _) alike.printed⟩
    · exact alike
  · rw [if_neg delete, if_neg fun too => delete (same.1.mpr too)]
    split
    · exact ⟨by rw [List.length_append, List.length_append, alike.stored]; rfl,
        congrArg (· ++ _) alike.printed⟩
    · exact alike

/-- Without an echo, inputs that are alike are shown in the same way. -/
theorem ShowsAlike.foldl (alike : first.ShowsAlike second) {typed other : List UInt8}
    (same : List.Forall₂ Alike typed other) :
    (typed.foldl (Prompt.enter false) first).ShowsAlike
      (other.foldl (Prompt.enter false) second) := by
  induction same generalizing first second with
  | nil => exact alike
  | cons here _ ih => exact ih (alike.enter here)

end Prompt

theorem Alike.unended {typed other : List UInt8} (same : List.Forall₂ Alike typed other)
    (unended : 0x0D ∉ typed) : 0x0D ∉ other := by
  induction same with
  | nil => exact List.not_mem_nil
  | cons here _ ih =>
      intro member
      rcases List.mem_cons.mp member with now | later
      · exact unended ((here.2.mpr now.symm).symm ▸ List.mem_cons_self ..)
      · exact ih (fun before => unended (List.mem_cons_of_mem _ before)) later

/-- A prompt returns what has been typed up to the carriage return, with the corrections that were
made, as far as a string goes. Without an echo it prints the same for all inputs that are corrected
at the same places, so it shows nothing of the answer but its length. -/
theorem prompt_hides_answer (title : List UInt8) {typed other : List UInt8}
    (rest behind : List UInt8) (unended : 0x0D ∉ typed)
    (alike : List.Forall₂ Alike typed other) :
    (terminalPrompt title false (typed ++ 0x0D :: rest)).printed =
        (terminalPrompt title false (other ++ 0x0D :: behind)).printed ∧
      (FitsPrompt typed → ∀ echo,
        (terminalPrompt title echo (typed ++ 0x0D :: rest)).answer =
            (edited typed).takeWhile (· ≠ 0) ∧
          (terminalPrompt title echo (typed ++ 0x0D :: rest)).rest = rest) := by
  have start : Prompt.ShowsAlike { printed := [title] } { printed := [title] } := ⟨rfl, rfl⟩
  have shown := start.foldl alike
  unfold terminalPrompt
  rw [Prompt.read_append rest unended, Prompt.read_append behind (Alike.unended alike unended)]
  refine ⟨congrArg (· ++ _) shown.printed, fun fits echo => ?_⟩
  rw [Prompt.read_append rest unended]
  dsimp only
  rw [Prompt.stored_eq fits rfl]
  exact ⟨rfl, rfl⟩

/-- Two passwords, of which a byte has been corrected. -/
theorem prompt_hides_answer_corrected :
    (terminalPrompt [] false ([0x61, 0x62, 0x7F, 0x63] ++ 0x0D :: [])).printed =
        (terminalPrompt [] false ([0x78, 0x79, 0x7F, 0x7A] ++ 0x0D :: [])).printed ∧
      (FitsPrompt [0x61, 0x62, 0x7F, 0x63] → ∀ echo,
        (terminalPrompt [] echo ([0x61, 0x62, 0x7F, 0x63] ++ 0x0D :: [])).answer =
            (edited [0x61, 0x62, 0x7F, 0x63]).takeWhile (· ≠ 0) ∧
          (terminalPrompt [] echo ([0x61, 0x62, 0x7F, 0x63] ++ 0x0D :: [])).rest = []) :=
  prompt_hides_answer [] [] [] (by decide) <| .cons (by decide) <| .cons (by decide) <|
    .cons (by decide) <| .cons (by decide) .nil

end GuacNebula.Terminal
