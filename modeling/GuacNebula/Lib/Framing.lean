import Mathlib.Tactic.TypeStar

/-! # Frames of a stream

A stream is a sequence of frames, each a header of fixed size and as many bytes behind it as the
header says. What follows the last frame that is complete is the beginning of a frame, or nothing.
Where a stream is cut does not matter: a reader that keeps `Parsed` has taken the frames of the
stream and nothing else.
-/

namespace GuacNebula

/-- Headers, and the number of bytes that follow a header. -/
structure Framing (Byte : Type*) where
  header : Nat
  size : List Byte → Nat
  positive : 0 < header

namespace Framing

variable {Byte : Type*} (framing : Framing Byte)

/-- The number of bytes of the frame that a stream starts with, as soon as its header is there. -/
def extent (stream : List Byte) : Nat :=
  framing.header + framing.size (stream.take framing.header)

/-- What follows the headers of the frames of a stream. -/
def payloads (stream : List Byte) : List (List Byte) :=
  if _ : framing.extent stream ≤ stream.length then
    (stream.take (framing.extent stream)).drop framing.header ::
      payloads (stream.drop (framing.extent stream))
  else []
  termination_by stream.length
  decreasing_by
    have positive := framing.positive
    have least : framing.header ≤ framing.extent stream := Nat.le_add_right ..
    rw [List.length_drop]
    omega

/-- A stream without a complete frame. -/
theorem payloads_eq_nil {stream : List Byte} :
    framing.payloads stream = [] ↔ stream.length < framing.extent stream := by
  rw [payloads]
  split
  case isTrue complete => exact iff_of_false (List.cons_ne_nil _ _) (Nat.not_lt.mpr complete)
  case isFalse incomplete => exact iff_of_true rfl (Nat.not_le.mp incomplete)

/-- The frames of a stream have been taken, and the rest is left. -/
inductive Parsed : List Byte → List (List Byte) → List Byte → Prop
  | nil (rest : List Byte) : Parsed rest [] rest
  | cons {header payload stream : List Byte} {payloads : List (List Byte)} {rest : List Byte}
    (fixed : header.length = framing.header) (sized : framing.size header = payload.length)
    (parsed : Parsed stream payloads rest) :
    Parsed (header ++ payload ++ stream) (payload :: payloads) rest

namespace Parsed

variable {framing} {stream rest : List Byte} {taken : List (List Byte)}

/-- Frames have been taken in order, and those of the rest are left. -/
theorem payloads_eq (parsed : framing.Parsed stream taken rest) :
    framing.payloads stream = taken ++ framing.payloads rest := by
  induction parsed with
  | nil rest => rfl
  | @cons header payload stream taken rest fixed sized parsed same =>
    have extent : framing.extent (header ++ payload ++ stream) = (header ++ payload).length := by
      rw [Framing.extent, List.append_assoc, ← fixed, List.take_left, sized, List.length_append]
    have complete := (List.prefix_append (header ++ payload) stream).length_le
    rw [← extent] at complete
    rw [Framing.payloads, dif_pos complete, extent, List.take_left, List.drop_left, ← fixed,
      List.drop_left, same, List.cons_append]

/-- More of the stream arrives. -/
theorem append (parsed : framing.Parsed stream taken rest) (more : List Byte) :
    framing.Parsed (stream ++ more) taken (rest ++ more) := by
  induction parsed with
  | nil rest => exact .nil _
  | cons fixed sized parsed longer =>
    rw [List.append_assoc _ _ more]
    exact .cons fixed sized longer

/-- The next frame is taken. -/
theorem next {header payload : List Byte}
    (parsed : framing.Parsed stream taken (header ++ payload ++ rest))
    (fixed : header.length = framing.header) (sized : framing.size header = payload.length) :
    framing.Parsed stream (taken ++ [payload]) rest := by
  generalize start : header ++ payload ++ rest = before at parsed
  induction parsed with
  | nil _ => exact start ▸ .cons fixed sized (.nil rest)
  | cons earlier long _ longer => exact .cons earlier long (longer start)

end Parsed

end Framing

end GuacNebula
