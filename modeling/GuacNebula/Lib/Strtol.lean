import GuacNebula.Lib.CInt

/-! # Numbers in C strings

What `strtol` reads from a string in base 10, for a `long` of 64 bits.
-/

namespace GuacNebula.Strtol

/-- `isspace`, in the C locale. -/
def space (byte : UInt8) : Bool := byte = 0x20 || (0x09 ≤ byte && byte ≤ 0x0D)

/-- `isdigit`. -/
def digit (byte : UInt8) : Bool := 0x30 ≤ byte && byte ≤ 0x39

/-- The value of digits. -/
def magnitude (digits : List UInt8) : Nat :=
  digits.foldl (fun value byte => value * 10 + (byte.toNat - 0x30)) 0

/-- A sign is skipped, and tells whether the number is negative. -/
def sign : List UInt8 → Bool × List UInt8
  | 0x2D :: text => (true, text)
  | 0x2B :: text => (false, text)
  | text => (false, text)

/-- A `long`, the text behind it, and whether the number was out of range, which is told by
`ERANGE`. -/
structure Number where
  value : Int
  rest : List UInt8
  outOfRange : Bool

/-- `strtol`. Without any digit the number is zero, and nothing is skipped. -/
def strtol (text : List UInt8) : Number :=
  let signed := sign (text.dropWhile space)
  let digits := signed.2.takeWhile digit
  let exact : Int := if signed.1 then -magnitude digits else magnitude digits
  if digits.isEmpty then { value := 0, rest := text, outOfRange := false }
  else
    { value := max (-9223372036854775808) (min exact 9223372036854775807)
      rest := signed.2.dropWhile digit
      outOfRange := exact < -9223372036854775808 ∨ 9223372036854775807 < exact }

theorem sign_length_le (text : List UInt8) : (sign text).2.length ≤ text.length := by
  unfold sign
  split <;> simp only [List.length_cons] <;> omega

/-- Nothing is put in front of what is left. -/
theorem strtol_rest_length (text : List UInt8) : (strtol text).rest.length ≤ text.length := by
  have trimmed := (List.dropWhile_sublist (p := space) (l := text)).length_le
  have unsigned := sign_length_le (text.dropWhile space)
  have last := (List.dropWhile_sublist (p := digit)
    (l := (sign (text.dropWhile space)).2)).length_le
  unfold strtol
  dsimp only
  split
  · exact Nat.le_refl _
  · exact Nat.le_trans (Nat.le_trans last unsigned) trimmed

end GuacNebula.Strtol
