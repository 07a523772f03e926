import GuacNebula.Lib.CInt
import Mathlib.Tactic.SplitIfs

/-! # The size of the display

A size that the user asks for is fitted into the limits of the display update channel: the width
first, then the height, and each time the other dimension is scaled along.

The limits are applied to the dimension that is scaled on one side only. So the sign of a dimension
is kept, a dimension of zero is divided by, and a large one overflows when it is scaled.
-/

namespace GuacNebula.Rdp

open CInt

/-- `GUAC_RDP_DISP_MIN_SIZE`. -/
def dispMinSize : Int := 200

/-- `GUAC_RDP_DISP_MAX_SIZE`. -/
def dispMaxSize : Int := 8192

/-- `guac_rdp_disp_fit`: both dimensions afterwards, unless the division traps. -/
def dispFit (a b : Int) : Option (Int × Int) :=
  if a < dispMinSize then
    (divInt (toInt (b * dispMinSize)) a).map fun adjusted =>
      (dispMinSize, if adjusted > dispMaxSize then dispMaxSize else adjusted)
  else if a > dispMaxSize then
    (divInt (toInt (b * dispMaxSize)) a).map fun adjusted =>
      (dispMaxSize, if adjusted < dispMinSize then dispMinSize else adjusted)
  else some (a, b)

/-- `guac_rdp_disp`: the size that is requested next. -/
structure Disp where
  requestedWidth : Int
  requestedHeight : Int
  deriving DecidableEq, Repr

/-- The size that is stored once it is fitted: the width must be even. -/
def storedSize (width height : Int) : Disp where
  requestedWidth := if width.tmod 2 = 1 then toInt (width - 1) else width
  requestedHeight := height

/-- `guac_rdp_disp_set_size`, up to the update of the size on the server. -/
def dispSetSize (width height : Int) : Option Disp :=
  (dispFit width height).bind fun (width, height) =>
    (dispFit height width).map fun (height, width) => storedSize width height

/-! ## Sizes that are fitted -/

/-- The size lies within the limits. -/
def WithinDispSize (size : Int) : Prop := dispMinSize ≤ size ∧ size ≤ dispMaxSize

instance (size : Int) : Decidable (WithinDispSize size) := inferInstanceAs (Decidable (_ ∧ _))

/-- The product that a fit computes, if it computes one, does not overflow. -/
structure FitProductFits (a b : Int) : Prop where
  low : a < dispMinSize → FitsInt (b * dispMinSize)
  high : a > dispMaxSize → FitsInt (b * dispMaxSize)

/-- The size is within the limits, and the width is even. -/
structure DispSizeAllowed (disp : Disp) : Prop where
  width : WithinDispSize disp.requestedWidth
  height : WithinDispSize disp.requestedHeight
  even : 2 ∣ disp.requestedWidth

/-- A size that is allowed is stored, without a division by zero or an overflow on the way. -/
def SizeFitted (width height : Int) : Prop :=
  FitProductFits width height ∧
    ∃ width' height', dispFit width height = some (width', height') ∧
      FitProductFits height' width' ∧
      ∃ disp, dispSetSize width height = some disp ∧ DispSizeAllowed disp

/-- The sizes that can be fitted: a width below the limits needs a height of its sign, and below
zero one that is long enough to be scaled to a pixel at least, a width within the limits needs a
height above zero, and outside of the limits the height must not overflow. -/
def FittableSize (width height : Int) : Prop :=
  (0 < width ∧ width < 200 ∧ 0 < height ∧ height ≤ 10737418) ∨
    (200 ≤ width ∧ width ≤ 8192 ∧ 0 < height) ∨
    (8192 < width ∧ -262144 ≤ height ∧ height < 262144) ∨
    (width < 0 ∧ -10737418 ≤ height ∧ height * 200 ≤ width)

section Fit

variable {a b : Int}

/-- Where the product fits, a dimension below the limits is raised by an exact quotient. -/
theorem dispFit_low (low : a < 200) (nonzero : a ≠ 0) (fits : FitsInt (b * 200)) :
    dispFit a b = some (200, min ((b * 200).tdiv a) 8192) := by
  have magnitude := Int.natAbs_tdiv_le_natAbs (b * 200) a
  have inside : FitsInt ((b * 200).tdiv a) := by
    -- The one quotient out of range is that of a dividend that is no multiple of 200.
    unfold FitsInt at fits ⊢
    omega
  have quotient : divInt (toInt (b * 200)) a = some ((b * 200).tdiv a) := by
    rw [toInt_of_fits fits]
    exact divInt_eq_some.mpr ⟨nonzero, inside, rfl⟩
  unfold dispFit
  rw [show dispMinSize = 200 from rfl, show dispMaxSize = 8192 from rfl, if_pos low, quotient,
    Option.map_some]
  congr 2
  split_ifs <;> omega

theorem dispFit_high (high : 8192 < a) (fits : FitsInt (b * 8192)) :
    dispFit a b = some (8192, max ((b * 8192).tdiv a) 200) := by
  have magnitude := Int.natAbs_tdiv_le_natAbs (b * 8192) a
  have smaller : ((b * 8192).tdiv a).natAbs ≤ b.natAbs := by
    rw [Int.natAbs_tdiv, Int.natAbs_mul]
    refine Nat.div_le_of_le_mul ?_
    rw [Nat.mul_comm]
    exact Nat.mul_le_mul_right _ (by omega)
  have inside : FitsInt ((b * 8192).tdiv a) := by
    unfold FitsInt at fits ⊢
    omega
  have quotient : divInt (toInt (b * 8192)) a = some ((b * 8192).tdiv a) := by
    rw [toInt_of_fits fits]
    exact divInt_eq_some.mpr ⟨by omega, inside, rfl⟩
  unfold dispFit
  rw [show dispMinSize = 200 from rfl, show dispMaxSize = 8192 from rfl, if_neg (by omega),
    if_pos high, quotient, Option.map_some]
  congr 2
  split_ifs <;> omega

theorem dispFit_within (within : WithinDispSize a) : dispFit a b = some (a, b) := by
  unfold WithinDispSize at within
  unfold dispFit
  rw [if_neg (by omega), if_neg (by omega)]

theorem dispFit_zero (b : Int) : dispFit 0 b = none := by
  unfold dispFit
  rw [if_pos (by decide), divInt_zero, Option.map_none]

end Fit

/-! ## The two passes -/

/-- A quotient is above zero if the dividend reaches the divisor. -/
theorem tdiv_pos_iff (dividend : Int) {divisor : Int} (positive : 0 < divisor) :
    0 < dividend.tdiv divisor ↔ divisor ≤ dividend := by
  rcases Int.lt_or_le dividend divisor with less | enough
  · refine iff_of_false ?_ (Int.not_le.mpr less)
    rcases Int.lt_or_le dividend 0 with sign | sign
    · have opposite : 0 ≤ (-dividend).tdiv divisor :=
        Int.tdiv_nonneg (by omega) (Int.le_of_lt positive)
      rw [Int.neg_tdiv] at opposite
      omega
    · rw [Int.tdiv_eq_zero_of_lt sign less]
      decide
  · exact iff_of_true (Int.le_tdiv_of_mul_le positive (by omega)) enough

/-- The first pass leaves a width within the limits, and a height that can be fitted if it is above
zero, exactly for the sizes that can be fitted. -/
theorem dispFit_width_iff (width height : Int) :
    (FitProductFits width height ∧
        ∃ width' height', dispFit width height = some (width', height') ∧ WithinDispSize width' ∧
          0 < height') ↔
      FittableSize width height := by
  unfold FittableSize
  by_cases low : width < 200
  · by_cases zero : width = 0
    · subst zero
      refine iff_of_false ?_ (by omega)
      rintro ⟨_, _, _, fitted, _⟩
      rw [dispFit_zero] at fitted
      cases fitted
    · have positive : 0 < min ((height * 200).tdiv width) 8192 ↔
          0 < width ∧ width ≤ height * 200 ∨ width < 0 ∧ height * 200 ≤ width := by
        rcases Int.lt_or_gt_of_ne zero with negative | positive
        · have turned := tdiv_pos_iff (-(height * 200)) (show 0 < -width by omega)
          rw [Int.neg_tdiv_neg] at turned
          omega
        · have same := tdiv_pos_iff (height * 200) positive
          omega
      constructor
      · rintro ⟨products, _, _, fitted, _, above⟩
        have fits : FitsInt (height * 200) := products.low low
        rw [dispFit_low low zero fits] at fitted
        cases fitted
        have signs := positive.mp above
        unfold FitsInt at fits
        omega
      · intro fittable
        have fits : FitsInt (height * 200) := by
          unfold FitsInt
          omega
        refine ⟨⟨fun _ => fits, fun high => ?_⟩, _, _, dispFit_low low zero fits, by decide,
          positive.mpr (by omega)⟩
        unfold dispMaxSize at high
        omega
  · by_cases high : 8192 < width
    · constructor
      · rintro ⟨products, _⟩
        have fits : FitsInt (height * 8192) := products.high high
        unfold FitsInt at fits
        omega
      · intro fittable
        have fits : FitsInt (height * 8192) := by
          unfold FitsInt
          omega
        refine ⟨⟨fun below => ?_, fun _ => fits⟩, _, _, dispFit_high high fits, by decide, by omega⟩
        unfold dispMinSize at below
        omega
    · have within : WithinDispSize width := ⟨Int.not_lt.mp low, Int.not_lt.mp high⟩
      rw [dispFit_within within]
      constructor
      · rintro ⟨_, _, _, fitted, _, above⟩
        cases fitted
        omega
      · intro fittable
        exact ⟨⟨fun below => absurd below low, fun above => absurd above high⟩, _, _, rfl, within,
          by omega⟩

theorem storedSize_allowed {width height : Int} (widthWithin : WithinDispSize width)
    (heightWithin : WithinDispSize height) : DispSizeAllowed (storedSize width height) := by
  have bounds : 200 ≤ width ∧ width ≤ 8192 := widthWithin
  have parity : width.tmod 2 = width % 2 := Int.tmod_eq_emod_of_nonneg (by omega)
  have less : toInt (width - 1) = width - 1 := by
    unfold toInt
    omega
  refine ⟨?_, heightWithin, ?_⟩
  · unfold storedSize WithinDispSize dispMinSize dispMaxSize
    dsimp only
    rw [parity, less]
    split_ifs <;> omega
  · unfold storedSize
    dsimp only
    rw [parity, less]
    split_ifs <;> omega

/-- A width that is not above zero is not stored as it should be. -/
theorem not_allowed_of_nonpos {width height : Int} (nonpos : width ≤ 0) :
    ¬ DispSizeAllowed (storedSize width height) := by
  intro stored
  have low : (200 : Int) ≤ if width.tmod 2 = 1 then toInt (width - 1) else width := stored.width.1
  split_ifs at low with odd
  · -- The remainder of such a width is not above zero either.
    have sign : (-width).tmod 2 = (-width) % 2 := Int.tmod_eq_emod_of_nonneg (by omega)
    rw [Int.neg_tmod] at sign
    omega
  · omega

/-- The second pass finishes a width within the limits exactly if the height is above zero. -/
theorem dispFit_height_iff {width : Int} (within : WithinDispSize width) (height : Int) :
    (FitProductFits height width ∧
        ∃ height' width', dispFit height width = some (height', width') ∧
          DispSizeAllowed (storedSize width' height')) ↔
      0 < height := by
  have bounds : 200 ≤ width ∧ width ≤ 8192 := within
  have lowFits : FitsInt (width * 200) := by
    unfold FitsInt
    omega
  have highFits : FitsInt (width * 8192) := by
    unfold FitsInt
    omega
  have products : FitProductFits height width := ⟨fun _ => lowFits, fun _ => highFits⟩
  rw [and_iff_right products]
  by_cases low : height < 200
  · rcases Int.lt_trichotomy height 0 with negative | rfl | positive
    · refine iff_of_false ?_ (by omega)
      rintro ⟨_, _, fitted, stored⟩
      rw [dispFit_low low (by omega) lowFits] at fitted
      cases fitted
      have quotient := Int.tdiv_nonpos_of_nonneg_of_nonpos (a := width * 200) (b := height)
        (by omega) (by omega)
      exact not_allowed_of_nonpos (by omega) stored
    · refine iff_of_false ?_ (by decide)
      rintro ⟨_, _, fitted, _⟩
      rw [dispFit_zero] at fitted
      cases fitted
    · refine iff_of_true ⟨_, _, dispFit_low low (by omega) lowFits, ?_⟩ positive
      have larger : width ≤ (width * 200).tdiv height :=
        Int.le_tdiv_of_mul_le positive (Int.mul_le_mul_of_nonneg_left (by omega) (by omega))
      refine storedSize_allowed ⟨?_, ?_⟩ (by decide)
      · unfold dispMinSize
        omega
      · unfold dispMaxSize
        omega
  · by_cases high : 8192 < height
    · refine iff_of_true ⟨_, _, dispFit_high high highFits, ?_⟩ (by omega)
      have smaller : (width * 8192).tdiv height ≤ width := by
        rw [Int.tdiv_eq_ediv_of_nonneg (by omega)]
        exact Int.ediv_le_of_le_mul (by omega)
          (Int.mul_le_mul_of_nonneg_left (by omega) (by omega))
      refine storedSize_allowed ⟨?_, ?_⟩ (by decide)
      · unfold dispMinSize
        omega
      · unfold dispMaxSize
        omega
    · have inside : WithinDispSize height := ⟨Int.not_lt.mp low, Int.not_lt.mp high⟩
      exact iff_of_true ⟨_, _, dispFit_within inside, storedSize_allowed within inside⟩ (by omega)

/-- The first pass always leaves a width within the limits. -/
theorem dispFit_width_within {width height width' height' : Int}
    (fitted : dispFit width height = some (width', height')) : WithinDispSize width' := by
  unfold dispFit at fitted
  split_ifs at fitted with low high
  · obtain ⟨_, _, same⟩ := Option.map_eq_some_iff.mp fitted
    cases same
    decide
  · obtain ⟨_, _, same⟩ := Option.map_eq_some_iff.mp fitted
    cases same
    decide
  · cases fitted
    exact ⟨Int.not_lt.mp low, Int.not_lt.mp high⟩

/-- **Setting the size of the display** stores a size within the limits and of even width, without
dividing by zero or overflowing, exactly for the sizes that can be fitted. -/
theorem dispSetSize_fitted_iff (width height : Int) :
    SizeFitted width height ↔ FittableSize width height := by
  rw [← dispFit_width_iff]
  refine and_congr_right fun _ => exists_congr fun width' => exists_congr fun height' =>
    and_congr_right fun first => ?_
  have within := dispFit_width_within first
  rw [and_iff_right within, ← dispFit_height_iff within]
  refine and_congr_right fun _ => ?_
  unfold dispSetSize
  rw [first, Option.bind_some]
  dsimp only
  constructor
  · rintro ⟨disp, set, allowed⟩
    obtain ⟨⟨height', width'⟩, second, rfl⟩ := Option.map_eq_some_iff.mp set
    exact ⟨height', width', second, allowed⟩
  · rintro ⟨height', width', second, allowed⟩
    exact ⟨_, Option.map_eq_some_iff.mpr ⟨_, second, rfl⟩, allowed⟩

/-- A width of zero is divided by. -/
theorem dispSetSize_width_zero : ¬∀ width height, SizeFitted width height := by
  intro fitted
  obtain ⟨_, _, _, first, _⟩ := fitted 0 480
  rw [dispFit_zero] at first
  cases first

end GuacNebula.Rdp
