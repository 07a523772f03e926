import Mathlib.Tactic.TypeStar

/-! # C integers

The conversions and the arithmetic of `int` and `size_t` on a platform with 32-bit `int` and
64-bit `size_t`. Values of both types are mathematical integers, and an operation that may
leave the range of its type is followed by the conversion to it. Signed overflow wraps
around.
-/

namespace GuacNebula.CInt

/-- The value lies in the range of `int`. -/
def FitsInt (value : Int) : Prop := -2147483648 ≤ value ∧ value < 2147483648

instance (value : Int) : Decidable (FitsInt value) :=
  inferInstanceAs (Decidable (_ ∧ _))

/-- The conversion to `int`. -/
def toInt (value : Int) : Int := (value + 2147483648) % 4294967296 - 2147483648

/-- The conversion to `size_t`. -/
def toSize (value : Int) : Nat := (value % 18446744073709551616).toNat

/-- The conversion of a floating-point value, given by its integral part, to `int`. It is
undefined out of range, where the processor yields the least `int`. -/
def truncToInt (value : Int) : Int := if FitsInt value then value else -2147483648

/-- The quotient of two values of `int`. There is none for a divisor of zero, nor where it is out of
range, and the processor traps. -/
def divInt (dividend divisor : Int) : Option Int :=
  if divisor ≠ 0 ∧ FitsInt (dividend.tdiv divisor) then some (dividend.tdiv divisor) else none

theorem divInt_zero (dividend : Int) : divInt dividend 0 = none := if_neg fun both => both.1 rfl

theorem divInt_eq_some {dividend divisor quotient : Int} :
    divInt dividend divisor = some quotient ↔
      divisor ≠ 0 ∧ FitsInt (dividend.tdiv divisor) ∧ dividend.tdiv divisor = quotient := by
  unfold divInt
  by_cases defined : divisor ≠ 0 ∧ FitsInt (dividend.tdiv divisor)
  · rw [if_pos defined, Option.some.injEq, ← and_assoc, and_iff_right defined]
  · rw [if_neg defined, ← and_assoc]
    exact iff_of_false (fun none => absurd none.symm (Option.some_ne_none _))
      fun all => defined all.1

theorem toInt_fits (value : Int) : FitsInt (toInt value) := by
  unfold FitsInt toInt
  omega

theorem toInt_of_fits {value : Int} (fits : FitsInt value) : toInt value = value := by
  unfold FitsInt at fits
  unfold toInt
  omega

theorem toInt_toInt_add (left right : Int) : toInt (toInt left + right) = toInt (left + right) := by
  unfold toInt
  omega

theorem toInt_eq_emod_add (value : Int) : ∃ turns, toInt value = value + turns * 4294967296 :=
  ⟨-((value + 2147483648) / 4294967296), by unfold toInt; omega⟩

theorem toInt_toInt_mul_sub (factor other right : Int) :
    toInt (toInt factor * other - right) = toInt (factor * other - right) := by
  obtain ⟨turns, same⟩ := toInt_eq_emod_add factor
  have shifted : toInt factor * other - right =
      factor * other - right + turns * other * 4294967296 := by
    rw [same, Int.add_mul, Int.mul_right_comm, Int.sub_eq_add_neg, Int.sub_eq_add_neg,
      Int.add_right_comm]
  rw [shifted]
  unfold toInt
  omega

theorem toSize_of_nonneg {value : Int} (nonneg : 0 ≤ value) (fits : value < 2147483648) :
    (toSize value : Int) = value := by
  unfold toSize
  omega

/-- A quotient is no less than a number below zero if the dividend is not too low. -/
theorem neg_le_tdiv_iff (dividend : Int) {divisor bound : Int} (positive : 0 < divisor)
    (nonneg : 0 ≤ bound) :
    -bound ≤ dividend.tdiv divisor ↔ -((bound + 1) * divisor) < dividend := by
  rcases Int.lt_or_le dividend 0 with sign | sign
  · obtain ⟨opposite, rfl⟩ : ∃ opposite, dividend = -opposite := ⟨-dividend, by omega⟩
    rw [Int.neg_tdiv, Int.tdiv_eq_ediv_of_nonneg (by omega), Int.neg_le_neg_iff,
      ← Int.lt_add_one_iff, Int.ediv_lt_iff_lt_mul positive, Int.neg_lt_neg_iff]
  · have quotient : 0 ≤ dividend.tdiv divisor := Int.tdiv_nonneg sign (Int.le_of_lt positive)
    have product : 0 < (bound + 1) * divisor := Int.mul_pos (by omega) positive
    omega

/-- A quotient of a product that may have wrapped around is no greater than that of the product,
and no less than an `int`. -/
theorem tdiv_toInt_bounds {product divisor bound : Int} (positive : 0 < divisor)
    (nonneg : 0 ≤ product) (le : product ≤ divisor * bound) :
    -2147483648 ≤ (toInt product).tdiv divisor ∧ (toInt product).tdiv divisor ≤ bound := by
  have fits := toInt_fits product
  unfold FitsInt at fits
  have least := (neg_le_tdiv_iff (toInt product) positive (by decide : (0 : Int) ≤ 2147483648)).mpr
    (by omega)
  refine ⟨least, ?_⟩
  rcases Int.lt_or_le (toInt product) 0 with wrapped | wrapped
  · have opposite : 0 ≤ (-toInt product).tdiv divisor :=
      Int.tdiv_nonneg (by omega) (Int.le_of_lt positive)
    have boundNonneg : 0 ≤ bound :=
      Int.le_of_mul_le_mul_left (by rw [Int.mul_zero]; omega) positive
    rw [Int.neg_tdiv] at opposite
    omega
  · have below : toInt product ≤ product := by
      unfold toInt
      omega
    rw [Int.tdiv_eq_ediv_of_nonneg wrapped]
    exact Int.ediv_le_of_le_mul positive (by rw [Int.mul_comm]; omega)

theorem truncToInt_of_fits {value : Int} (fits : FitsInt value) : truncToInt value = value :=
  if_pos fits

/-- One past the largest `size_t`. -/
def sizeLimit : Nat := 18446744073709551616

/-- A `size_t` result that the checked operations of libguac accept, or abort on. -/
def checkedSize (value : Nat) : Option Nat := if value < sizeLimit then some value else none

/-- A product continued from the left, checked after every factor. -/
def checkedMulFrom (product : Nat) : List Nat → Option Nat
  | [] => some product
  | factor :: rest =>
      (checkedSize (product * factor)).bind fun product => checkedMulFrom product rest

/-- `guac_mem_ckd_mul_or_die`. -/
def checkedMul (factors : List Nat) : Option Nat := checkedMulFrom 1 factors

/-- `guac_mem_ckd_add_or_die` of two terms. -/
def checkedAdd (left right : Nat) : Option Nat := checkedSize (left + right)

/-- `guac_mem_ckd_sub_or_die` of two terms. -/
def checkedSub (left right : Nat) : Option Nat := if right ≤ left then some (left - right) else none

end GuacNebula.CInt
