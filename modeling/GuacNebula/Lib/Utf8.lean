import Mathlib.Data.List.Basic

/-! # UTF-8

The encoding of a number as a sequence of bytes, of which the first one tells how many there are.
It is defined for every number of up to 21 bits, and on those of characters it is the encoding of
Lean's strings.
-/

namespace GuacNebula.Utf8

/-- The bytes of a codepoint. -/
def encode (code : Nat) : List UInt8 :=
  if code ≤ 0x7f then [UInt8.ofNat code]
  else if code ≤ 0x7ff then
    [UInt8.ofNat (code / 64 % 0x20 + 0xc0), UInt8.ofNat (code % 0x40 + 0x80)]
  else if code ≤ 0xffff then
    [UInt8.ofNat (code / 4096 % 0x10 + 0xe0), UInt8.ofNat (code / 64 % 0x40 + 0x80),
      UInt8.ofNat (code % 0x40 + 0x80)]
  else
    [UInt8.ofNat (code / 262144 % 0x08 + 0xf0), UInt8.ofNat (code / 4096 % 0x40 + 0x80),
      UInt8.ofNat (code / 64 % 0x40 + 0x80), UInt8.ofNat (code % 0x40 + 0x80)]

theorem encode_char (char : Char) : encode char.toNat = String.utf8EncodeChar char := rfl

/-- The number of bytes of a codepoint. -/
def size (code : Nat) : Nat :=
  if code ≤ 0x7f then 1 else if code ≤ 0x7ff then 2 else if code ≤ 0xffff then 3 else 4

@[simp] theorem encode_length (code : Nat) : (encode code).length = size code := by
  unfold encode size
  split_ifs <;> rfl

theorem size_pos (code : Nat) : 0 < size code := by
  unfold size
  split_ifs <;> decide

theorem size_le (code : Nat) : size code ≤ 4 := by
  unfold size
  split_ifs <;> decide

theorem size_mono {first second : Nat} (ordered : first ≤ second) : size first ≤ size second := by
  unfold size
  split_ifs <;> omega

theorem size_eq_four {code : Nat} : size code = 4 ↔ 0x10000 ≤ code := by
  unfold size
  split_ifs <;> omega

theorem toNat_ofNat {value : Nat} (small : value < 256) : (UInt8.ofNat value).toNat = value :=
  UInt8.toNat_ofNat_of_lt' small

/-- Only the codepoint zero has a byte that is zero. -/
theorem zero_not_mem_encode {code : Nat} (nonzero : code ≠ 0) : (0 : UInt8) ∉ encode code := by
  have byte {value : Nat} (positive : 0 < value) (small : value < 256) :
      (0 : UInt8) ≠ UInt8.ofNat value := by
    intro same
    have values := congrArg UInt8.toNat same
    rw [toNat_ofNat small] at values
    exact absurd values (Nat.ne_of_lt positive)
  unfold encode
  split_ifs
  all_goals simp only [List.mem_cons, List.not_mem_nil, or_false, not_or]
  · exact byte (by omega) (by omega)
  · exact ⟨byte (by omega) (by omega), byte (by omega) (by omega)⟩
  · exact ⟨byte (by omega) (by omega), byte (by omega) (by omega), byte (by omega) (by omega)⟩
  · exact ⟨byte (by omega) (by omega), byte (by omega) (by omega), byte (by omega) (by omega),
      byte (by omega) (by omega)⟩

/-- The codepoint that bytes begin with, and the number of its bytes. -/
def decode (bytes : List UInt8) : Nat × Nat :=
  let byte (index : Nat) := (bytes.getD index 0).toNat
  if byte 0 < 0x80 then (byte 0, 1)
  else if byte 0 < 0xe0 then (byte 0 % 0x20 * 64 + byte 1 % 0x40, 2)
  else if byte 0 < 0xf0 then (byte 0 % 0x10 * 4096 + byte 1 % 0x40 * 64 + byte 2 % 0x40, 3)
  else
    (byte 0 % 0x08 * 262144 + byte 1 % 0x40 * 4096 + byte 2 % 0x40 * 64 + byte 3 % 0x40, 4)

/-- The number of bytes of a codepoint follows from the first one. -/
theorem decode_bytes (input : List UInt8) :
    (decode input).2 =
      if (input.getD 0 0).toNat < 0x80 then 1
      else if (input.getD 0 0).toNat < 0xe0 then 2
      else if (input.getD 0 0).toNat < 0xf0 then 3
      else 4 := by
  unfold decode
  dsimp only
  split_ifs <;> rfl

theorem decode_pos (input : List UInt8) : 0 < (decode input).2 := by
  rw [decode_bytes]
  split_ifs <;> decide

theorem decode_lt (input : List UInt8) : (decode input).1 < 0x200000 := by
  unfold decode
  dsimp only
  split_ifs <;> dsimp only <;> omega

theorem decode_take {input : List UInt8} {count : Nat} (positive : 0 < count) :
    (decode (input.take count)).2 = (decode input).2 := by
  have first : (input.take count).getD 0 0 = input.getD 0 0 := by
    rw [List.getD_eq_getElem?_getD, List.getElem?_take_of_lt positive, List.getD_eq_getElem?_getD]
  rw [decode_bytes, decode_bytes, first]

/-- A codepoint is read back from its bytes, whatever follows them. -/
theorem decode_encode {code : Nat} (small : code < 0x200000) (rest : List UInt8) :
    decode (encode code ++ rest) = (code, size code) := by
  have low : code % 0x40 + 0x80 < 256 := by omega
  have middle : code / 64 % 0x40 + 0x80 < 256 := by omega
  have high : code / 4096 % 0x40 + 0x80 < 256 := by omega
  unfold encode size
  split_ifs
  · have first : code < 256 := by omega
    simp only [decode, List.cons_append, List.getD_cons_zero, toNat_ofNat first]
    rw [if_pos (by omega)]
  · have first : code / 64 % 0x20 + 0xc0 < 256 := by omega
    simp only [decode, List.cons_append, List.getD_cons_zero, List.getD_cons_succ,
      toNat_ofNat first, toNat_ofNat low]
    rw [if_neg (by omega), if_pos (by omega)]
    exact congrArg (·, 2) (by omega)
  · have first : code / 4096 % 0x10 + 0xe0 < 256 := by omega
    simp only [decode, List.cons_append, List.getD_cons_zero, List.getD_cons_succ,
      toNat_ofNat first, toNat_ofNat middle, toNat_ofNat low]
    rw [if_neg (by omega), if_neg (by omega), if_pos (by omega)]
    exact congrArg (·, 3) (by omega)
  · have first : code / 262144 % 0x08 + 0xf0 < 256 := by omega
    simp only [decode, List.cons_append, List.getD_cons_zero, List.getD_cons_succ,
      toNat_ofNat first, toNat_ofNat high, toNat_ofNat middle, toNat_ofNat low]
    rw [if_neg (by omega), if_neg (by omega), if_neg (by omega)]
    exact congrArg (·, 4) (by omega)

/-! ## Texts -/

/-- The bytes of a text. -/
def encodeText (codes : List Nat) : List UInt8 := codes.flatMap encode

@[simp] theorem encodeText_nil : encodeText [] = [] := rfl

@[simp] theorem encodeText_cons (code : Nat) (codes : List Nat) :
    encodeText (code :: codes) = encode code ++ encodeText codes := rfl

@[simp] theorem encodeText_append (front back : List Nat) :
    encodeText (front ++ back) = encodeText front ++ encodeText back :=
  List.flatMap_append ..

theorem length_le_encodeText (codes : List Nat) : codes.length ≤ (encodeText codes).length := by
  induction codes with
  | nil => exact Nat.le_refl _
  | cons code codes ih =>
      have positive := size_pos code
      rw [encodeText_cons, List.length_append, encode_length, List.length_cons]
      omega

theorem zero_not_mem_encodeText {codes : List Nat} (nonzero : 0 ∉ codes) :
    (0 : UInt8) ∉ encodeText codes := by
  intro member
  obtain ⟨code, inside, byte⟩ := List.mem_flatMap.mp member
  exact zero_not_mem_encode (fun zero => nonzero (zero ▸ inside)) byte

/-- The number of codepoints in bytes, of which there are at most so many. -/
def count : Nat → List UInt8 → Nat
  | 0, _ => 0
  | _ + 1, [] => 0
  | most + 1, byte :: bytes => count most ((byte :: bytes).drop (decode (byte :: bytes)).2) + 1

theorem count_encodeText {codes : List Nat} (small : ∀ code ∈ codes, code < 0x200000) {most : Nat}
    (enough : codes.length ≤ most) : count most (encodeText codes) = codes.length := by
  induction codes generalizing most with
  | nil => cases most <;> rfl
  | cons code codes ih =>
      cases most with
      | zero => exact absurd enough (Nat.not_succ_le_zero _)
      | succ most =>
          have read := decode_encode (small code List.mem_cons_self) (encodeText codes)
          have size := encode_length code
          rw [encodeText_cons]
          cases bytes : encode code ++ encodeText codes with
          | nil =>
              have positive := size_pos code
              have empty := congrArg List.length bytes
              rw [List.length_append, size, List.length_nil] at empty
              omega
          | cons byte rest =>
              rw [count, ← bytes, read, List.drop_left' size,
                ih (fun later member => small later (List.mem_cons_of_mem _ member))
                  (Nat.le_of_succ_le_succ enough), List.length_cons]

end GuacNebula.Utf8
