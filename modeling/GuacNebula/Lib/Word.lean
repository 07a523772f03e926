import Mathlib.Data.UInt

/-! # Words of four bytes

A word of 32 bits and the values of its four bytes.
-/

namespace GuacNebula.Word

theorem toNat_byte (word shift : UInt32) (small : shift.toNat < 32) :
    ((word >>> shift) &&& 0xFF).toNat = word.toNat / 2 ^ shift.toNat % 0x100 := by
  rw [UInt32.toNat_and, UInt32.toNat_shiftRight, Nat.mod_eq_of_lt small, Nat.shiftRight_eq_div_pow]
  exact Nat.and_two_pow_sub_one_eq_mod _ 8

/-- A word is made of its bytes. -/
theorem toNat_bytes {first second third fourth : UInt32} (firstBound : first.toNat < 0x100)
    (secondBound : second.toNat < 0x100) (thirdBound : third.toNat < 0x100)
    (fourthBound : fourth.toNat < 0x100) :
    (first <<< 24 ||| second <<< 16 ||| third <<< 8 ||| fourth).toNat =
      first.toNat * 0x1000000 + second.toNat * 0x10000 + third.toNat * 0x100 + fourth.toNat := by
  have shifted {value shift : UInt32} {bits : Nat} (amount : shift.toNat = bits) (few : bits ≤ 24)
      (bound : value.toNat < 0x100) : (value <<< shift).toNat = 2 ^ bits * value.toNat := by
    have within : value.toNat * 2 ^ bits < 2 ^ 32 :=
      calc value.toNat * 2 ^ bits < 2 ^ 8 * 2 ^ bits :=
            Nat.mul_lt_mul_of_pos_right bound (Nat.two_pow_pos _)
        _ = 2 ^ (8 + bits) := (Nat.pow_add 2 8 bits).symm
        _ ≤ 2 ^ 32 := Nat.pow_le_pow_right (by decide) (by omega)
    rw [UInt32.toNat_shiftLeft, amount, Nat.mod_eq_of_lt (a := bits) (by omega), Nat.shiftLeft_eq,
      Nat.mod_eq_of_lt within, Nat.mul_comm]
  have upper : 2 ^ 24 * first.toNat ||| 2 ^ 16 * second.toNat =
      2 ^ 16 * (2 ^ 8 * first.toNat + second.toNat) := by
    rw [← Nat.two_pow_add_eq_or_of_lt (by omega)]
    omega
  have most : 2 ^ 16 * (2 ^ 8 * first.toNat + second.toNat) ||| 2 ^ 8 * third.toNat =
      2 ^ 8 * (2 ^ 16 * first.toNat + 2 ^ 8 * second.toNat + third.toNat) := by
    rw [← Nat.two_pow_add_eq_or_of_lt (by omega)]
    omega
  rw [UInt32.toNat_or, UInt32.toNat_or, UInt32.toNat_or, shifted rfl (by decide) firstBound,
    shifted rfl (by decide) secondBound, shifted rfl (by decide) thirdBound]
  change 2 ^ 24 * first.toNat ||| 2 ^ 16 * second.toNat ||| 2 ^ 8 * third.toNat ||| fourth.toNat = _
  rw [upper, most, ← Nat.two_pow_add_eq_or_of_lt (by omega)]
  omega

end GuacNebula.Word
