import Mathlib.Data.List.Infix

/-! # Writing all of a buffer

A write may take only a part of what it is given, and the rest is to be written again. A result that
is not positive ends the attempt. Whatever the parts are, what has been taken at the end is the
beginning of the buffer, and all of it exactly if the attempt has not failed.
-/

namespace GuacNebula

/-- Something that takes bytes. A write returns the number of bytes it has taken, or an error. -/
structure Sink (State : Type*) where
  write : State → List UInt8 → Int × State
  taken : State → List UInt8
  write_le : ∀ state data, (write state data).1 ≤ data.length
  taken_write : ∀ state data,
    taken (write state data).2 = taken state ++ data.take (write state data).1.toNat

namespace Sink

variable {State : Type*} (sink : Sink State)

/-- Write until nothing remains or a write fails. -/
def writeAll (state : State) (data : List UInt8) : Bool × State :=
  if data = [] then (true, state)
  else if (sink.write state data).1 ≤ 0 then (false, (sink.write state data).2)
  else writeAll (sink.write state data).2 (data.drop (sink.write state data).1.toNat)
termination_by data.length
decreasing_by
  have remains : 0 < data.length := List.length_pos_iff.mpr ‹_›
  rw [List.length_drop]
  omega

theorem writeAll_nil (state : State) : sink.writeAll state [] = (true, state) := by
  rw [writeAll, if_pos rfl]

/-- What has been taken is a first part of the data, which is all of it if no write has failed. -/
theorem writeAll_taken (state : State) (data : List UInt8) :
    ∃ part, part <+: data ∧ sink.taken (sink.writeAll state data).2 = sink.taken state ++ part ∧
      ((sink.writeAll state data).1 = true ↔ part = data) := by
  fun_induction writeAll with
  | case1 => exact ⟨[], List.nil_prefix, (List.append_nil _).symm, iff_of_true rfl rfl⟩
  | case2 state data remains failed =>
      refine ⟨[], List.nil_prefix, ?_, iff_of_false nofun fun all => remains all.symm⟩
      rw [sink.taken_write, Int.toNat_of_nonpos failed, List.take_zero]
  | case3 state data remains failed ih =>
      obtain ⟨part, first, taken, all⟩ := ih
      set count := (sink.write state data).1.toNat
      have whole : data.take count ++ data.drop count = data := List.take_append_drop ..
      refine ⟨data.take count ++ part, ?_, ?_, ?_⟩
      · have joined := (List.prefix_append_right_inj (data.take count)).mpr first
        rwa [whole] at joined
      · rw [taken, sink.taken_write, List.append_assoc]
      · rw [all]
        refine ⟨fun same => same ▸ whole, fun same => ?_⟩
        exact List.append_cancel_left (same.trans whole.symm)

/-- Something that takes whatever it is given. -/
structure Unlimited : Prop where
  write_eq : ∀ state data, (sink.write state data).1 = data.length

variable {sink}

theorem Unlimited.writeAll_taken (unlimited : sink.Unlimited) (state : State) (data : List UInt8) :
    sink.taken (sink.writeAll state data).2 = sink.taken state ++ data := by
  obtain ⟨part, _, taken, all⟩ := sink.writeAll_taken state data
  have whole : (sink.writeAll state data).1 = true := by
    rw [writeAll]
    split_ifs with empty failed
    · rfl
    · rw [unlimited.write_eq] at failed
      have remains := List.length_pos_iff.mpr empty
      omega
    · rw [unlimited.write_eq, Int.toNat_natCast, List.drop_length, sink.writeAll_nil]
  rw [taken, all.mp whole]

/-- A buffer that all bytes are appended to. -/
def appending : Sink (List UInt8) where
  write state data := (data.length, state ++ data)
  taken := id
  write_le _ data := Int.le_refl data.length
  taken_write state _ := congrArg (state ++ ·) (List.take_length).symm

theorem appending_unlimited : appending.Unlimited where
  write_eq _ _ := rfl

/-- A buffer of limited size: a write takes what there is room for, and fails if there is none. -/
def limited (capacity : Nat) : Sink (List UInt8) where
  write state data :=
    if state.length < capacity then
      ((min (capacity - state.length) data.length : Nat),
        state ++ data.take (min (capacity - state.length) data.length))
    else (-1, state)
  taken := id
  write_le state data := by
    split_ifs
    · exact Int.ofNat_le.mpr (Nat.min_le_right ..)
    · exact (by omega : (-1 : Int) ≤ data.length)
  taken_write state data := by
    split_ifs
    · rfl
    · exact (List.append_nil state).symm

end Sink

end GuacNebula
