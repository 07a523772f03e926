import Mathlib.Logic.Basic

/-! # Resources that are closed

Something that is opened once, used, and closed: a file descriptor, a handle of a library, memory.
What was done to it is counted, so that a second `close`, or a use that comes too late, can be told
from the proper order.
-/

namespace GuacNebula

/-- How often a resource has been closed, and whether it has been used after that. -/
structure Resource where
  closes : Nat := 0
  usedClosed : Bool := false
  deriving DecidableEq, Repr

namespace Resource

/-- The resource is closed. -/
def close (resource : Resource) : Resource := { resource with closes := resource.closes + 1 }

/-- The resource is used. -/
def use (resource : Resource) : Resource :=
  { resource with usedClosed := resource.usedClosed || 0 < resource.closes }

/-- The resource has been closed at most once, and not used after that. -/
def Safe (resource : Resource) : Prop := resource.closes ≤ 1 ∧ resource.usedClosed = false

instance (resource : Resource) : Decidable resource.Safe := inferInstanceAs (Decidable (_ ∧ _))

@[simp] theorem close_closes (resource : Resource) :
    resource.close.closes = resource.closes + 1 := rfl

@[simp] theorem use_closes (resource : Resource) : resource.use.closes = resource.closes := rfl

theorem close_safe_iff {resource : Resource} (safe : resource.Safe) :
    resource.close.Safe ↔ resource.closes = 0 := by
  obtain ⟨once, unused⟩ := safe
  simp [Safe, close, unused]

theorem use_safe_iff {resource : Resource} (safe : resource.Safe) :
    resource.use.Safe ↔ resource.closes = 0 := by
  obtain ⟨once, unused⟩ := safe
  simp [Safe, use, unused, once]

end Resource

end GuacNebula
