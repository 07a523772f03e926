import Mathlib.Algebra.BigOperators.Group.Finset.Piecewise
import Mathlib.Data.List.Induction

/-! # Openings and closings

In a history of events some open and some close, and every closing is to have an opening before it
that is its own. A history in which as much was closed as was opened then ends, as far as these
events go, with a closing. What is open is often held by a family of slots, one of which changes at
a time.
-/

namespace GuacNebula.Matching

variable {Event : Type*} {opens closes : Event → Bool} {history : List Event}

/-- No early part of a history has more closings than openings. -/
def Matched (opens closes : Event → Bool) (history : List Event) : Prop :=
  ∀ early, early <+: history → early.countP closes ≤ early.countP opens

theorem matched_nil : Matched opens closes [] := by
  intro early start
  rw [List.prefix_nil.mp start]
  exact Nat.le_refl _

/-- A history is matched up to its last event, and as a whole. -/
theorem matched_concat {event : Event} :
    Matched opens closes (history ++ [event]) ↔
      Matched opens closes history
        ∧ (history ++ [event]).countP closes ≤ (history ++ [event]).countP opens := by
  constructor
  · intro matched
    exact ⟨fun early start => matched early (start.trans (List.prefix_append _ _)),
      matched _ (List.prefix_refl _)⟩
  · rintro ⟨matched, whole⟩ early start
    rcases List.prefix_concat_iff.mp start with rfl | before
    · exact whole
    · exact matched early before

/-- When everything that was opened has been closed, the last of these events is a closing. -/
theorem Matched.closes_getLast (matched : Matched opens closes history)
    (settled : history.countP opens = history.countP closes) {last : Event}
    (isLast : (history.filter fun event => opens event || closes event).getLast? = some last) :
    closes last := by
  induction history using List.reverseRecOn with
  | nil => cases isLast
  | append_singleton history event ih =>
      obtain ⟨before, whole⟩ := matched_concat.mp matched
      rw [List.filter_append] at isLast
      rw [List.countP_append, List.countP_append, List.countP_singleton,
        List.countP_singleton] at settled
      by_cases closing : closes event
      · rw [List.filter_cons_of_pos (by rw [closing, Bool.or_true]), List.filter_nil,
          List.getLast?_concat] at isLast
        rw [← Option.some.inj isLast]
        exact closing
      rw [if_neg closing] at settled
      by_cases opening : opens event
      · -- More would have been closed before than was open then.
        rw [if_pos opening] at settled
        have early := before history (List.prefix_refl _)
        omega
      · rw [if_neg opening] at settled
        rw [List.filter_cons_of_neg (by simp [opening, closing]), List.filter_nil,
          List.append_nil] at isLast
        exact ih before settled isLast

/-- A sum over slots, one of which is changed. -/
theorem sum_update {Slot : Type*} (weight : Slot → Nat) (slots : Nat → Slot) {n i : Nat}
    (inside : i < n) (slot : Slot) :
    (∑ j ∈ Finset.range n, weight (Function.update slots i slot j)) + weight (slots i)
      = (∑ j ∈ Finset.range n, weight (slots j)) + weight slot := by
  have member : i ∈ Finset.range n := Finset.mem_range.mpr inside
  have changed : ∀ j, weight (Function.update slots i slot j)
      = Function.update (fun j => weight (slots j)) i (weight slot) j := by
    intro j
    by_cases same : j = i
    · rw [same, Function.update_self, Function.update_self]
    · rw [Function.update_of_ne same, Function.update_of_ne same]
  rw [Finset.sum_congr rfl fun j _ => changed j, Finset.sum_update_of_mem member,
    ← Finset.sum_sdiff (Finset.singleton_subset_iff.mpr member), Finset.sum_singleton]
  omega

end GuacNebula.Matching
