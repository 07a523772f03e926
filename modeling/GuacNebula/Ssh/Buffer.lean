import GuacNebula.Lib.CInt
import GuacNebula.Lib.Codec
import GuacNebula.Lib.Word

/-! # SSH buffers

Bytes, numbers of 32 bits and strings are written into a buffer behind one another, the numbers with
their highest byte first, the strings behind their length. A buffer is a memory, and a pointer into
it is a place. None of the functions knows the size of the buffer.

The main result is `buffer_round_trip`: what was written is read back, and the pointer of the reads
ends where that of the writes did.
-/

namespace GuacNebula.Ssh

open CInt Codec

/-- A memory and a pointer into it. -/
abbrev Cursor := (Int → UInt8) × Int

/-- The bytes of a number, the highest first. -/
def uint32Bytes (value : UInt32) : List UInt8 :=
  [((value &&& 0xFF000000) >>> 24).toUInt8, ((value &&& 0x00FF0000) >>> 16).toUInt8,
    ((value &&& 0x0000FF00) >>> 8).toUInt8, (value &&& 0x000000FF).toUInt8]

namespace Cursor

variable (cursor : Cursor)

/-- `guac_common_ssh_buffer_write_byte`. -/
def bufferWriteByte (value : UInt8) : Cursor := (store cursor.1 cursor.2 [value], cursor.2 + 1)

/-- `guac_common_ssh_buffer_write_uint32`. -/
def bufferWriteUint32 (value : UInt32) : Cursor :=
  (store cursor.1 cursor.2 (uint32Bytes value), cursor.2 + 4)

/-- `guac_common_ssh_buffer_write_data`, with the bytes that the data starts with. -/
def bufferWriteData (data : List UInt8) (length : Int) : Cursor :=
  (store cursor.1 cursor.2 (data.take length.toNat), cursor.2 + length)

/-- `guac_common_ssh_buffer_write_string`. The length is converted to an unsigned number. -/
def bufferWriteString (string : List UInt8) (length : Int) : Cursor :=
  (cursor.bufferWriteUint32 (.ofInt length)).bufferWriteData string length

end Cursor

/-- `guac_common_ssh_buffer_read_byte`: the value, and the pointer afterwards. -/
def bufferReadByte (memory : Int → UInt8) (place : Int) : UInt8 × Int := (memory place, place + 1)

/-- `guac_common_ssh_buffer_read_uint32`. -/
def bufferReadUint32 (memory : Int → UInt8) (place : Int) : UInt32 × Int :=
  ((memory place).toUInt32 <<< 24 ||| (memory (place + 1)).toUInt32 <<< 16
      ||| (memory (place + 2)).toUInt32 <<< 8 ||| (memory (place + 3)).toUInt32,
    place + 4)

/-- What is read of a string: a pointer to its bytes, its length, and the pointer afterwards. -/
structure StringRead where
  value : Int
  length : Int
  place : Int
  deriving DecidableEq, Repr

/-- `guac_common_ssh_buffer_read_string`. The length is converted to a signed number. -/
def bufferReadString (memory : Int → UInt8) (place : Int) : StringRead :=
  let length := bufferReadUint32 memory place
  { value := length.2
    length := toInt length.1.toNat
    place := length.2 + toInt length.1.toNat }

/-! ## Values -/

/-- A string whose length is an `int`. -/
@[ext] structure BufferString where
  bytes : List UInt8
  fits : bytes.length < 2147483648
  deriving DecidableEq

inductive BufferValue
  | byte (value : UInt8)
  | uint32 (value : UInt32)
  | string (value : BufferString)
  deriving DecidableEq

inductive ValueKind
  | byte | uint32 | string
  deriving DecidableEq, Repr

def BufferValue.kind : BufferValue → ValueKind
  | .byte _ => .byte
  | .uint32 _ => .uint32
  | .string _ => .string

/-- A value is written with the function for its kind. -/
def Cursor.write (cursor : Cursor) : BufferValue → Cursor
  | .byte value => cursor.bufferWriteByte value
  | .uint32 value => cursor.bufferWriteUint32 value
  | .string value => cursor.bufferWriteString value.bytes value.bytes.length

theorem bufferReadString_length (memory : Int → UInt8) (place : Int) :
    (bufferReadString memory place).length.toNat < 2147483648 := by
  have range := toInt_fits (bufferReadUint32 memory place).1.toNat
  unfold FitsInt at range
  unfold bufferReadString
  dsimp only
  omega

/-- The string that a read points to. -/
def stringAt (memory : Int → UInt8) (place : Int) : BufferString where
  bytes := load memory (bufferReadString memory place).value
    (bufferReadString memory place).length.toNat
  fits := (load_length ..).trans_lt (bufferReadString_length memory place)

/-- A value is read with the function for its kind. -/
def readValue (kind : ValueKind) (memory : Int → UInt8) (place : Int) : BufferValue × Int :=
  match kind with
  | .byte =>
      let read := bufferReadByte memory place
      (.byte read.1, read.2)
  | .uint32 =>
      let read := bufferReadUint32 memory place
      (.uint32 read.1, read.2)
  | .string => (.string (stringAt memory place), (bufferReadString memory place).place)

/-! ## Numbers -/

theorem bufferReadUint32_toNat (memory : Int → UInt8) (place : Int) :
    (bufferReadUint32 memory place).1.toNat =
      (memory place).toNat * 0x1000000 + (memory (place + 1)).toNat * 0x10000
        + (memory (place + 2)).toNat * 0x100 + (memory (place + 3)).toNat :=
  Word.toNat_bytes (UInt8.toNat_lt _) (UInt8.toNat_lt _) (UInt8.toNat_lt _) (UInt8.toNat_lt _)

/-- A byte of a number is what is left of it under its mask. -/
theorem toNat_masked (value : UInt32) :
    (uint32Bytes value).map UInt8.toNat =
      [value.toNat / 0x1000000 % 0x100, value.toNat / 0x10000 % 0x100,
        value.toNat / 0x100 % 0x100, value.toNat % 0x100] := by
  have byte {shift mask : UInt32} (small : shift.toNat < 32) (masked : mask >>> shift = 0xFF) :
      ((value &&& mask) >>> shift).toUInt8.toNat = value.toNat / 2 ^ shift.toNat % 0x100 := by
    rw [UInt32.toNat_toUInt8, UInt32.shiftRight_and, masked, Word.toNat_byte _ _ small]
    exact Nat.mod_mod ..
  have last := @byte 0 0xFF (by decide) (by decide)
  rw [UInt32.shiftRight_zero] at last
  unfold uint32Bytes
  rw [List.map_cons, List.map_cons, List.map_cons, List.map_cons, List.map_nil,
    byte (by decide) (by decide), byte (by decide) (by decide), byte (by decide) (by decide), last]
  simp

/-- A number is read back where its bytes are. -/
theorem bufferReadUint32_eq {memory : Int → UInt8} {place : Int} {value : UInt32}
    (holds : HoldsAt memory place (uint32Bytes value)) :
    bufferReadUint32 memory place = (value, place + 4) := by
  have bytes := toNat_masked value
  rw [← holds.load_eq] at bytes
  obtain ⟨first, second, third, fourth⟩ : (memory place).toNat = value.toNat / 0x1000000 % 0x100
      ∧ (memory (place + 1)).toNat = value.toNat / 0x10000 % 0x100
      ∧ (memory (place + 2)).toNat = value.toNat / 0x100 % 0x100
      ∧ (memory (place + 3)).toNat = value.toNat % 0x100 := by
    simpa [load, uint32Bytes, List.range_succ] using bytes
  have bound := value.toNat_lt
  refine Prod.ext (UInt32.toNat_inj.mp ?_) rfl
  rw [bufferReadUint32_toNat, first, second, third, fourth]
  dsimp only
  omega

/-- A string is read where its length and its bytes are. -/
theorem bufferReadString_eq {memory : Int → UInt8} {place : Int} (string : BufferString)
    (holds : HoldsAt memory place (uint32Bytes (.ofInt string.bytes.length))) :
    bufferReadString memory place =
      ⟨place + 4, string.bytes.length, place + 4 + string.bytes.length⟩ := by
  have fits := string.fits
  have length : (UInt32.ofInt string.bytes.length).toNat = string.bytes.length := by
    unfold UInt32.ofInt
    rw [UInt32.toNat_ofNat']
    omega
  have same : toInt string.bytes.length = string.bytes.length := toInt_of_fits ⟨by omega, by omega⟩
  unfold bufferReadString
  rw [bufferReadUint32_eq holds]
  dsimp only
  rw [length, same]

/-! ## Sequences -/

/-- The bytes that a value is written as. -/
def BufferValue.encode : BufferValue → List UInt8
  | .byte value => [value]
  | .uint32 value => uint32Bytes value
  | .string value => uint32Bytes (.ofInt value.bytes.length) ++ value.bytes

theorem write_writes : Writes Cursor.write BufferValue.encode := by
  intro memory place value
  cases value with
  | byte value => rfl
  | uint32 value => rfl
  | string value =>
      have stored := store_store memory place (uint32Bytes (.ofInt value.bytes.length)) value.bytes
      unfold Cursor.write Cursor.bufferWriteString Cursor.bufferWriteData
        Cursor.bufferWriteUint32 BufferValue.encode
      dsimp only
      rw [Int.toNat_natCast, List.take_length, List.length_append, Int.natCast_add, ← Int.add_assoc,
        ← stored]
      rfl

theorem readValue_inverts : Inverts readValue BufferValue.encode BufferValue.kind := by
  intro memory place value holds
  cases value with
  | byte value =>
      have held := holds 0 Nat.one_pos
      rw [Int.natCast_zero, Int.add_zero] at held
      exact Prod.ext (congrArg BufferValue.byte held) rfl
  | uint32 value =>
      have read := bufferReadUint32_eq holds
      change ((BufferValue.uint32 (bufferReadUint32 memory place).1,
        (bufferReadUint32 memory place).2) : BufferValue × Int) = _
      rw [read]
      rfl
  | string value =>
      obtain ⟨header, data⟩ := holdsAt_append.mp holds
      have read := bufferReadString_eq value header
      refine Prod.ext (congrArg BufferValue.string (BufferString.ext ?_)) ?_
      · unfold stringAt
        dsimp only
        rw [read]
        exact data.load_eq
      · change (bufferReadString memory place).place = _
        unfold BufferValue.encode
        rw [read, List.length_append, Int.natCast_add, ← Int.add_assoc]
        rfl

/-- Whatever sequence of values is written, the same values are read back in the same order, and the
reads end where the writes did. -/
theorem buffer_round_trip (memory : Int → UInt8) (place : Int) (values : List BufferValue) :
    readAll readValue (values.foldl Cursor.write (memory, place)).1
        (values.map BufferValue.kind) place =
      (values, (values.foldl Cursor.write (memory, place)).2) :=
  readAll_foldl write_writes readValue_inverts memory place values

end GuacNebula.Ssh
