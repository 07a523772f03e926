import GuacNebula.Lib.CString
import Mathlib.Logic.Function.Basic

/-! # Splitting strings

A first pass counts the delimiters of a string and sizes the array, a second pass cuts the tokens. A
string is given by the bytes from its start on, and a byte that is zero or the end of the bytes
terminates it. Sizes of what is in memory do not overflow, and memory is allocated with whatever it
held before.
-/

namespace GuacNebula.Common

/-- `guac_count_occurrences`, from a count on. -/
def countOccurrences (c : UInt8) (count : Nat) : List UInt8 → Nat
  | [] => count
  | byte :: string =>
    if byte = 0 then count
    else countOccurrences c (if byte = c then count + 1 else count) string

/-- A token that has been allocated. -/
structure Token where
  size : Nat
  buffer : CString.Buffer

/-- An element of the array of tokens. -/
inductive Entry
  | unset
  | null
  | token (token : Token)

/-- The array of tokens. It is noted when an element is stored outside of it. -/
structure TokenArray where
  size : Nat
  entries : Nat → Entry := fun _ => .unset
  outside : Bool := false

/-- An element is stored. -/
def TokenArray.store (array : TokenArray) (index : Nat) (entry : Entry) : TokenArray :=
  { array with
    entries := Function.update array.entries index entry
    outside := array.outside || decide (array.size ≤ index) }

/-- The token is allocated, copied and terminated. -/
def copyToken (memory : Nat → UInt8) (text : List UInt8) : Token :=
  let size := text.length + 1
  let copied := CString.Buffer.store size { memory := memory } 0 text
  { size := size, buffer := copied.store size text.length [0] }

/-- The bytes in front of the end of a token. -/
def nextToken (delim : UInt8) (string : List UInt8) : List UInt8 :=
  string.takeWhile fun byte => byte ≠ 0 ∧ byte ≠ delim

/-- The second pass of `guac_split`: the array, and the index behind the last token. -/
def splitTokens (allocated : Nat → Nat → UInt8) (delim : UInt8) (tokenCount : Nat)
    (string : List UInt8) (i : Nat) (tokens : TokenArray) : TokenArray × Nat :=
  let token := nextToken delim string
  let string := string.drop token.length
  let tokens := tokens.store i (.token (copyToken (allocated i) token))
  if string.headD 0 = 0 then (tokens, i + 1)
  else if i + 1 < tokenCount then
    splitTokens allocated delim tokenCount string.tail (i + 1) tokens
  else (tokens, i + 1)
  termination_by tokenCount - i

/-- `guac_split`, with what the memory of each token holds when it is allocated. -/
def guacSplit (allocated : Nat → Nat → UInt8) (string : List UInt8) (delim : UInt8) : TokenArray :=
  let tokenCount := countOccurrences delim 0 string + 1
  let (tokens, i) := splitTokens allocated delim tokenCount string 0 { size := tokenCount + 1 }
  tokens.store i .null

/-! ## Tokens of a string -/

/-- The string is cut at each of its delimiters. -/
inductive Cut (delim : UInt8) : List UInt8 → List (List UInt8) → Prop
  | last {token} (free : delim ∉ token) : Cut delim token [token]
  | next {token string tokens} (free : delim ∉ token) (cut : Cut delim string tokens) :
    Cut delim (token ++ delim :: string) (token :: tokens)

namespace Cut

variable {delim : UInt8} {string : List UInt8} {tokens : List (List UInt8)}

theorem length (cut : Cut delim string tokens) : tokens.length = string.count delim + 1 := by
  induction cut with
  | last free => rw [List.count_eq_zero.mpr free, List.length_singleton]
  | next free cut same =>
    rw [List.count_append, List.count_eq_zero.mpr free, List.count_cons_self, List.length_cons,
      same, Nat.zero_add]

theorem delim_not_mem (cut : Cut delim string tokens) : ∀ token ∈ tokens, delim ∉ token := by
  induction cut with
  | last free => exact List.forall_mem_singleton.mpr free
  | next free cut others => exact List.forall_mem_cons.mpr ⟨free, others⟩

/-- The tokens joined by the delimiter are the string. -/
theorem intercalate (cut : Cut delim string tokens) : [delim].intercalate tokens = string := by
  induction cut with
  | last free => exact List.intercalate_singleton
  | next free cut joined =>
    rw [List.intercalate_cons_of_ne_nil (by cases cut <;> exact List.cons_ne_nil _ _), joined,
      List.append_assoc, List.singleton_append]

end Cut

/-! ## The passes -/

section Passes

variable {allocated : Nat → Nat → UInt8} {delim : UInt8}

/-- The string that a memory starts with. -/
def stringIn (memory : List UInt8) : List UInt8 := memory.takeWhile (· ≠ 0)

theorem stringIn_cons_zero (memory : List UInt8) : stringIn (0 :: memory) = [] :=
  List.takeWhile_cons_of_neg (by decide)

theorem stringIn_cons {byte : UInt8} (nonzero : byte ≠ 0) (memory : List UInt8) :
    stringIn (byte :: memory) = byte :: stringIn memory :=
  List.takeWhile_cons_of_pos (decide_eq_true nonzero)

theorem countOccurrences_eq (count : Nat) (memory : List UInt8) :
    countOccurrences delim count memory = count + (stringIn memory).count delim := by
  induction memory generalizing count with
  | nil => rfl
  | cons byte memory counted =>
    rw [countOccurrences]
    by_cases zero : byte = 0
    · rw [if_pos zero, zero, stringIn_cons_zero, List.count_nil, Nat.add_zero]
    · rw [if_neg zero, counted, stringIn_cons zero, List.count_cons]
      simp only [beq_iff_eq]
      split <;> omega

/-- A token ends with the string or in front of a delimiter. -/
theorem stringIn_token (delim : UInt8) (memory : List UInt8) :
    let token := nextToken delim memory
    let behind := memory.drop token.length
    0 ∉ token ∧ delim ∉ token ∧ (behind.headD 0 = 0 → stringIn memory = token) ∧
      (behind.headD 0 ≠ 0 → stringIn memory = token ++ delim :: stringIn behind.tail) := by
  induction memory with
  | nil => exact ⟨List.not_mem_nil, List.not_mem_nil, fun _ => rfl, fun wrong => absurd rfl wrong⟩
  | cons byte memory cut =>
    by_cases zero : byte = 0
    · subst zero
      rw [nextToken, List.takeWhile_cons_of_neg (by simp), stringIn_cons_zero]
      exact ⟨List.not_mem_nil, List.not_mem_nil, fun _ => rfl, fun wrong => absurd rfl wrong⟩
    · by_cases delimiter : byte = delim
      · subst delimiter
        rw [nextToken, List.takeWhile_cons_of_neg (by simp), stringIn_cons zero]
        exact ⟨List.not_mem_nil, List.not_mem_nil, fun wrong => absurd wrong zero, fun _ => rfl⟩
      · rw [nextToken, List.takeWhile_cons_of_pos (by simp [zero, delimiter]), stringIn_cons zero]
        obtain ⟨nonzero, free, last, next⟩ := cut
        refine ⟨List.not_mem_cons_of_ne_of_not_mem (Ne.symm zero) nonzero,
          List.not_mem_cons_of_ne_of_not_mem (Ne.symm delimiter) free, fun ends => ?_,
          fun continues => ?_⟩
        · exact congrArg (byte :: ·) (last ends)
        · exact congrArg (byte :: ·) (next continues)

/-- What the token holds is a text, and nothing was stored outside of it. -/
def Token.Holds (token : Token) (text : List UInt8) : Prop :=
  token.size = text.length + 1 ∧ token.buffer.outside = false ∧
    CString.string token.buffer.memory token.size = text

theorem copyToken_holds (memory : Nat → UInt8) {text : List UInt8} (nonzero : 0 ∉ text) :
    (copyToken memory text).Holds text := by
  have start : CString.Buffer.Written (text.length + 1) memory ([] ++ []) { memory := memory } :=
    .start _ memory
  have room : (0 : Int) + text.length ≤ (text.length + 1 : Nat) := by omega
  have copied := start.store text rfl room
  rw [List.nil_append, List.drop_nil] at copied
  have fits : (text.length : Int) + [(0 : UInt8)].length ≤ (text.length + 1 : Nat) := by
    rw [List.length_singleton]
    omega
  have ended := copied.store [0] rfl fits
  exact ⟨rfl, ended.inside, ended.string nonzero⟩

/-- The array starts with tokens for the texts, and nothing was stored outside of it. -/
structure Filled (size : Nat) (texts : List (List UInt8)) (array : TokenArray) : Prop where
  size : array.size = size
  inside : array.outside = false
  tokens : ∀ index (bound : index < texts.length),
    ∃ token, array.entries index = .token token ∧ token.Holds texts[index]

theorem TokenArray.store_inside {array : TokenArray} {index : Nat} (entry : Entry)
    (inside : array.outside = false) (room : index < array.size) :
    (array.store index entry).outside = false := by
  rw [TokenArray.store, inside, decide_eq_false (Nat.not_le.mpr room), Bool.or_false]

section Filled

variable {size : Nat} {texts : List (List UInt8)} {array : TokenArray}

/-- Storing behind the tokens keeps them. -/
theorem Filled.store (filled : Filled size texts array) (room : texts.length < size)
    (entry : Entry) : Filled size texts (array.store texts.length entry) where
  size := filled.size
  inside := TokenArray.store_inside entry filled.inside (filled.size ▸ room)
  tokens := by
    intro index bound
    obtain ⟨token, same, holds⟩ := filled.tokens index bound
    exact ⟨token, (Function.update_of_ne (Nat.ne_of_lt bound) ..).trans same, holds⟩

theorem Filled.push {token : Token} {text : List UInt8} (filled : Filled size texts array)
    (room : texts.length < size) (holds : token.Holds text) :
    Filled size (texts ++ [text]) (array.store texts.length (.token token)) where
  size := filled.size
  inside := (filled.store room _).inside
  tokens := by
    intro index bound
    rw [List.length_append, List.length_singleton] at bound
    by_cases last : index = texts.length
    · subst last
      refine ⟨token, Function.update_self .., ?_⟩
      rwa [List.getElem_concat_length rfl]
    · have before : index < texts.length := by omega
      rw [List.getElem_append_left before]
      exact (filled.store room _).tokens index before

end Filled

variable (allocated) in
/-- If as many tokens are left as the first pass counted, the second pass cuts the string. -/
theorem splitTokens_filled {tokenCount size : Nat} (string : List UInt8)
    {texts : List (List UInt8)} {array : TokenArray} (filled : Filled size texts array)
    (counted : tokenCount = texts.length + (stringIn string).count delim + 1)
    (sized : tokenCount ≤ size) :
    ∃ tokens, Cut delim (stringIn string) tokens ∧
      let split := splitTokens allocated delim tokenCount string texts.length array
      split.2 = tokenCount ∧ Filled size (texts ++ tokens) split.1 := by
  obtain ⟨nonzero, free, last, next⟩ := stringIn_token delim string
  have stored := filled.push (by omega) (copyToken_holds (allocated texts.length) nonzero)
  rw [splitTokens]
  split
  case isTrue ends =>
    have cut : Cut delim (stringIn string) [nextToken delim string] := by
      rw [last ends]
      exact .last free
    have count := cut.length
    rw [List.length_singleton] at count
    exact ⟨_, cut, by omega, stored⟩
  case isFalse continues =>
    have rest := next continues
    have count := congrArg (List.count delim) rest
    rw [List.count_append, List.count_eq_zero.mpr free, List.count_cons_self] at count
    rw [if_pos (by omega)]
    obtain ⟨tokens, cut, ends, all⟩ := splitTokens_filled
      (string.drop (nextToken delim string).length).tail stored
      (by rw [List.length_append, List.length_singleton]; omega) sized
    rw [List.length_append, List.length_singleton] at ends all
    rw [List.append_assoc, List.singleton_append] at all
    exact ⟨_, rest ▸ .next free cut, ends, all⟩
  termination_by tokenCount - texts.length
  decreasing_by
    rw [List.length_append, List.length_singleton]
    omega

end Passes

/-- The tokens of every string lie between its delimiters, and the array ends behind them. -/
theorem guacSplit_tokens (allocated : Nat → Nat → UInt8) (memory : List UInt8) (delim : UInt8) :
    ∃ tokens : List (List UInt8),
      tokens.length = (stringIn memory).count delim + 1 ∧ (∀ token ∈ tokens, delim ∉ token) ∧
      [delim].intercalate tokens = stringIn memory ∧
      let array := guacSplit allocated memory delim
      array.outside = false ∧ array.entries tokens.length = .null ∧
        ∀ index (bound : index < tokens.length),
          ∃ token, array.entries index = .token token ∧ token.Holds tokens[index] := by
  let tokenCount := countOccurrences delim 0 memory + 1
  have start : Filled (tokenCount + 1) [] { size := tokenCount + 1 } :=
    { size := rfl, inside := rfl, tokens := fun _ wrong => absurd wrong (Nat.not_lt_zero _) }
  have counted : tokenCount =
      ([] : List (List UInt8)).length + (stringIn memory).count delim + 1 := by
    rw [← countOccurrences_eq]
    rfl
  obtain ⟨tokens, cut, ends, filled⟩ :=
    splitTokens_filled allocated memory start counted (Nat.le_succ _)
  have count : tokens.length = tokenCount := by
    rw [cut.length, counted, List.length_nil, Nat.zero_add]
  rw [List.nil_append] at filled
  have ended := filled.store (by omega) .null
  have returned : guacSplit allocated memory delim = TokenArray.store _ tokens.length .null :=
    congrArg (TokenArray.store _ · .null) (ends.trans count.symm)
  refine ⟨tokens, cut.length, cut.delim_not_mem, cut.intercalate, ?_⟩
  rw [returned]
  exact ⟨ended.inside, Function.update_self .., ended.tokens⟩

end GuacNebula.Common
