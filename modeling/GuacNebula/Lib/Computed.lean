import GuacNebula.Lib.CInt

/-! # Computations that may fail

A computation with `int` and `size_t` ends with a value, with the end of the process at a check that
guards it, or with a fault: a division by zero, or a result that its type does not have. Where a
computation is sound, it may stop, but it has no fault.
-/

namespace GuacNebula.CInt

/-- What a computation ends with. -/
inductive Computed (α : Type)
  | value (result : α)
  | stopped
  | fault

namespace Computed

variable {α β : Type}

/-- A computation that goes on with the value of another one. -/
protected def bind : Computed α → (α → Computed β) → Computed β
  | .value result, next => next result
  | .stopped, _ => .stopped
  | .fault, _ => .fault

instance : Monad Computed where
  pure := .value
  bind := Computed.bind

/-- There is no fault. -/
def Sound (computed : Computed α) : Prop := computed ≠ .fault

/-- A result of type `int`. -/
def int (result : Int) : Computed Int := if FitsInt result then .value result else .fault

/-- A quotient of type `int`. -/
def quotient (dividend divisor : Int) : Computed Int :=
  match divInt dividend divisor with
  | some result => .value result
  | none => .fault

/-- A result of type `size_t`. -/
def size (result : Nat) : Computed Nat := if result < sizeLimit then .value result else .fault

/-- A quotient of type `size_t`. -/
def sizeQuotient (dividend divisor : Nat) : Computed Nat :=
  if divisor = 0 then .fault else .value (dividend / divisor)

/-- A result that is checked, and ends the process if there is none. -/
def guarded : Option α → Computed α
  | some result => .value result
  | none => .stopped

variable {computed : Computed α} {next : α → Computed β}

theorem bind_eq_value {result : β} :
    computed >>= next = .value result ↔
      ∃ first, computed = .value first ∧ next first = .value result := by
  cases computed with
  | value first =>
      constructor
      · intro last
        exact ⟨first, rfl, last⟩
      · rintro ⟨_, same, last⟩
        cases same
        exact last
  | stopped =>
      refine iff_of_false (fun same => ?_) ?_
      · cases same
      · rintro ⟨_, same, _⟩
        cases same
  | fault =>
      refine iff_of_false (fun same => ?_) ?_
      · cases same
      · rintro ⟨_, same, _⟩
        cases same

theorem bind_bind {γ : Type} (computed : Computed α) (next : α → Computed β)
    (last : β → Computed γ) :
    computed >>= next >>= last = computed >>= fun first => next first >>= last := by
  cases computed <;> rfl

theorem sound_value (result : α) : (value result).Sound := fun same => by cases same

/-- A computation is sound if its parts are, the second one for the value of the first one. -/
theorem sound_bind :
    (computed >>= next).Sound ↔
      computed.Sound ∧ ∀ first, computed = .value first → (next first).Sound := by
  cases computed with
  | value first =>
      refine ⟨fun sound => ⟨sound_value first, fun _ same => ?_⟩, fun both => both.2 first rfl⟩
      cases same
      exact sound
  | stopped =>
      refine iff_of_true (fun same => ?_) ⟨fun same => ?_, fun _ same => ?_⟩ <;> cases same
  | fault => exact iff_of_false (fun sound => sound rfl) fun both => both.1 rfl

theorem sound_pure (result : α) : (pure result : Computed α).Sound := sound_value result

theorem sound_guarded (checked : Option α) : (guarded checked).Sound := by
  cases checked <;> exact fun same => by cases same

/-- What is checked has no fault, and its value is that of the check. -/
theorem sound_guarded_bind {checked : Option α} :
    (guarded checked >>= next).Sound ↔ ∀ result, checked = some result → (next result).Sound := by
  cases checked with
  | some result =>
      refine ⟨fun sound _ same => ?_, fun all => all result rfl⟩
      cases same
      exact sound
  | none => refine iff_of_true (fun same => ?_) fun _ same => ?_ <;> cases same

theorem guarded_eq_value {checked : Option α} {result : α} :
    guarded checked = .value result ↔ checked = some result := by
  cases checked with
  | some defined => rw [guarded, value.injEq, Option.some.injEq]
  | none => refine iff_of_false (fun same => ?_) fun same => ?_ <;> cases same

theorem int_of_fits {result : Int} (fits : FitsInt result) : int result = .value result :=
  if_pos fits

theorem int_eq_value {result same : Int} :
    int result = .value same ↔ FitsInt result ∧ result = same := by
  unfold int
  split
  next fits => rw [value.injEq, and_iff_right fits]
  next wide => exact iff_of_false (fun same => by cases same) fun both => wide both.1

theorem sound_int_bind {result : Int} {next : Int → Computed β} :
    (int result >>= next).Sound ↔ FitsInt result ∧ (next result).Sound := by
  unfold int
  split
  next fits => exact (and_iff_right fits).symm
  next wide => exact iff_of_false (fun sound => sound rfl) fun both => wide both.1

theorem sound_quotient {dividend divisor : Int} :
    (quotient dividend divisor).Sound ↔ divisor ≠ 0 ∧ FitsInt (dividend.tdiv divisor) := by
  unfold quotient divInt
  split
  next defined same =>
    split at same
    next both => exact iff_of_true (sound_value _) both
    next => cases same
  next same =>
    split at same
    next => cases same
    next undefined => exact iff_of_false (fun sound => sound rfl) undefined

theorem quotient_eq_value {dividend divisor result : Int} :
    quotient dividend divisor = .value result ↔
      divisor ≠ 0 ∧ FitsInt (dividend.tdiv divisor) ∧ dividend.tdiv divisor = result := by
  unfold quotient
  rw [← divInt_eq_some]
  cases divInt dividend divisor with
  | some defined => rw [value.injEq, Option.some.injEq]
  | none => refine iff_of_false (fun same => ?_) fun same => ?_ <;> cases same

theorem sound_quotient_bind {dividend divisor : Int} {next : Int → Computed β} :
    (quotient dividend divisor >>= next).Sound ↔
      divisor ≠ 0 ∧ FitsInt (dividend.tdiv divisor) ∧ (next (dividend.tdiv divisor)).Sound := by
  rw [← and_assoc]
  unfold quotient divInt
  by_cases defined : divisor ≠ 0 ∧ FitsInt (dividend.tdiv divisor)
  · rw [if_pos defined]
    exact (and_iff_right defined).symm
  · rw [if_neg defined]
    exact iff_of_false (fun sound => sound rfl) fun both => defined both.1

theorem sound_size_bind {result : Nat} {next : Nat → Computed β} :
    (size result >>= next).Sound ↔ result < sizeLimit ∧ (next result).Sound := by
  unfold size
  split
  next fits => exact (and_iff_right fits).symm
  next wide => exact iff_of_false (fun sound => sound rfl) fun both => wide both.1

theorem sound_sizeQuotient_bind {dividend divisor : Nat} {next : Nat → Computed β} :
    (sizeQuotient dividend divisor >>= next).Sound ↔
      divisor ≠ 0 ∧ (next (dividend / divisor)).Sound := by
  unfold sizeQuotient
  split
  next zero => exact iff_of_false (fun sound => sound rfl) fun both => both.1 zero
  next nonzero => exact (and_iff_right nonzero).symm

theorem sizeQuotient_eq_value {dividend divisor result : Nat} :
    sizeQuotient dividend divisor = .value result ↔ divisor ≠ 0 ∧ dividend / divisor = result := by
  unfold sizeQuotient
  split
  next zero => exact iff_of_false (fun same => by cases same) fun both => both.1 zero
  next nonzero => rw [value.injEq, and_iff_right nonzero]

end Computed

end GuacNebula.CInt
