import GuacNebula.Rdp.FileNames

/-! # Paths converted to UTF-8

The paths that the server sends in UTF-16 are converted into a buffer, codepoint by codepoint. A
codepoint that does not fit is left out, but the conversion goes on with those behind it, and the
terminator is stored whether there is room for it or not.
-/

namespace GuacNebula.Rdp

section Stored

variable {σ : Type*} (platform : RdpdrPlatform σ)

/-- The bytes that `guac_rdp_utf16_to_utf8` stores, from the start of its buffer on. -/
def storedUtf8 (utf16 : List UInt8) (length : Nat) (size : Int) : List UInt8 :=
  utf16Codepoints platform length utf16 size ++ [0]

/-- The string in the buffer ends before the first zero that is stored. -/
theorem utf16ToUtf8_eq (utf16 : List UInt8) (length : Nat) (size : Int) :
    utf16ToUtf8 platform utf16 length size =
      (storedUtf8 platform utf16 length size).takeWhile (· ≠ 0) := by
  unfold utf16ToUtf8 storedUtf8
  rw [List.takeWhile_append]
  split_ifs with whole
  · exact ((List.takeWhile_prefix _).eq_of_length whole).trans (List.append_nil _).symm
  · rfl

end Stored

/-- The codepoints of code units, as they are read. -/
def codeUnits (units : List Nat) : List Nat := units.map codeUnit

/-- A conversion stores no more bytes than its buffer has, and they are the encoding of the
beginning of the input and a terminator. -/
structure ConvertsWithin (units : List Nat) (size : Nat) (stored : List UInt8) : Prop where
  inside : stored.length ≤ size
  text : ∃ count, stored = Utf8.encodeText (codeUnits (units.take count)) ++ [0]

/-- The beginning of the input leaves a byte for the terminator, and no code unit behind it fits
into what is left. -/
def CutsOff (units : List Nat) (size : Nat) : Prop :=
  ∃ count, (Utf8.encodeText (codeUnits (units.take count))).length < size ∧
    ∀ code ∈ codeUnits (units.drop count),
      size < (Utf8.encodeText (codeUnits (units.take count))).length + Utf8.size code

section Conversion

variable {σ : Type*} {platform : RdpdrPlatform σ} {units : List Nat}

/-- A code unit is stored as far as there is room for it. -/
theorem utf16Codepoints_cons (laws : platform.Utf8Laws) (unit : Nat) (units : List Nat)
    (rest : List UInt8) (room : Int) :
    utf16Codepoints platform (unit :: units).length (utf16Bytes (unit :: units) ++ rest) room =
      if (Utf8.size (codeUnit unit) : Int) ≤ room then
        Utf8.encode (codeUnit unit) ++
          utf16Codepoints platform units.length (utf16Bytes units ++ rest)
            (room - Utf8.size (codeUnit unit))
      else utf16Codepoints platform units.length (utf16Bytes units ++ rest) room := by
  have small := codeUnit_lt unit
  have written := laws.write (codeUnit unit) (by omega) room
  rw [List.length_cons, utf16Codepoints, readUInt_utf16Bytes, drop_utf16Bytes, written]
  split_ifs
  · rw [Utf8.encode_length]
  · rw [List.length_nil, List.nil_append, Int.natCast_zero, Int.sub_zero]

/-- The beginning of the input is stored whole if it fits. -/
theorem utf16Codepoints_append (laws : platform.Utf8Laws) (front back : List Nat)
    (rest : List UInt8) {room : Int}
    (fits : ((Utf8.encodeText (codeUnits front)).length : Int) ≤ room) :
    utf16Codepoints platform (front ++ back).length (utf16Bytes (front ++ back) ++ rest) room =
      Utf8.encodeText (codeUnits front) ++
        utf16Codepoints platform back.length (utf16Bytes back ++ rest)
          (room - (Utf8.encodeText (codeUnits front)).length) := by
  induction front generalizing room with
  | nil =>
      rw [List.nil_append]
      change _ = utf16Codepoints platform back.length (utf16Bytes back ++ rest) (room - 0)
      rw [Int.sub_zero]
  | cons unit front ih =>
      have whole : Utf8.encodeText (codeUnits (unit :: front)) =
          Utf8.encode (codeUnit unit) ++ Utf8.encodeText (codeUnits front) := rfl
      rw [whole, List.length_append, Utf8.encode_length] at fits
      rw [List.cons_append, utf16Codepoints_cons laws, if_pos (by omega), ih (by omega), whole,
        List.append_assoc, List.length_append, Utf8.encode_length, Int.natCast_add, Int.sub_sub]

/-- Nothing is stored exactly if no code unit fits. -/
theorem utf16Codepoints_eq_nil_iff (laws : platform.Utf8Laws) (rest : List UInt8) (room : Int) :
    utf16Codepoints platform units.length (utf16Bytes units ++ rest) room = [] ↔
      ∀ code ∈ codeUnits units, room < Utf8.size code := by
  induction units with
  | nil => exact iff_of_true rfl (List.forall_mem_nil _)
  | cons unit units ih =>
      rw [utf16Codepoints_cons laws, codeUnits, List.map_cons, List.forall_mem_cons]
      split_ifs with fits
      · refine iff_of_false (fun none => ?_) fun all => absurd all.1 (Int.not_lt.mpr fits)
        have length := congrArg List.length (List.append_eq_nil_iff.mp none).1
        have positive := Utf8.size_pos (codeUnit unit)
        rw [Utf8.encode_length, List.length_nil] at length
        omega
      · rw [ih, and_iff_right (Int.not_le.mp fits)]
        rfl

end Conversion

end GuacNebula.Rdp
