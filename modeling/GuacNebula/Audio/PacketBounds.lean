import GuacNebula.Audio.Buffer

/-! # The bounds of the packet buffer

`guac_rdp_audio_buffer_write` cuts a blob to the space left in the packet buffer as if every
byte received became one byte sent. `inBounds_of_roomForSamples` says what keeps the stores
inside the buffer: the samples that a blob turns into, not its bytes, have to fit.
-/

namespace GuacNebula.Audio

open GuacNebula.CInt

/-- The packet is no longer than its buffer, and all samples were stored inside it. -/
structure InBounds (buffer : AudioBuffer) : Prop where
  nonneg : 0 ≤ buffer.bytesWritten
  bounded : buffer.bytesWritten ≤ buffer.packetBufferSize
  fits : FitsInt buffer.bytesWritten
  sent : FitsInt buffer.totalBytesSent
  stores : ∀ store ∈ buffer.stores, 0 ≤ store.start ∧ store.start + store.size ≤ store.capacity

/-- The output sample with index `index` from the current one on is taken from the blob. -/
def Emits (buffer : AudioBuffer) (length : Int) (index : Nat) : Prop :=
  ∃ offset, readSample buffer.inFormat buffer.outFormat
    (toInt (buffer.totalBytesSent + index * buffer.outFormat.bps)) buffer.totalBytesReceived
      length = .sample offset

/-- Some output sample that would still lie within the packet buffer, or at its end, is not
taken from the blob. -/
def SamplesFit (buffer : AudioBuffer) (length : Int) : Prop :=
  ∃ count : Nat, buffer.bytesWritten + count * buffer.outFormat.bps ≤ buffer.packetBufferSize ∧
    buffer.bytesWritten + count * buffer.outFormat.bps < 2147483648 ∧ ¬ Emits buffer length count

/-- A blob that is not dropped turns into no more samples than the packet buffer has room
for. -/
def RoomForSamples (buffer : AudioBuffer) : AudioAction → Prop
  | .write _ length => buffer.packet.isSome → buffer.packetBufferSize ≠ 0 →
      (buffer.outFormat.bps = 2 ∨ buffer.outFormat.bps = 1) →
        SamplesFit buffer (truncatedLength buffer length)
  | _ => True

theorem InBounds.halt {buffer : AudioBuffer} (inside : InBounds buffer) :
    InBounds buffer.halt := ⟨inside.nonneg, inside.bounded, inside.fits, inside.sent, inside.stores⟩

theorem InBounds.noteRead {buffer : AudioBuffer} (inside : InBounds buffer)
    (offset blobLength : Int) (returned : Bool) :
    InBounds (buffer.noteRead offset blobLength returned) :=
  ⟨inside.nonneg, inside.bounded, inside.fits, inside.sent, inside.stores⟩

/-- A sample for which there is room is stored inside the buffer. -/
theorem InBounds.emit {buffer : AudioBuffer} (inside : InBounds buffer) (sample : UInt16)
    (outBps : buffer.outFormat.bps = 2 ∨ buffer.outFormat.bps = 1)
    (room : buffer.bytesWritten + buffer.outFormat.bps ≤ buffer.packetBufferSize)
    (small : buffer.bytesWritten + buffer.outFormat.bps < 2147483648) :
    (buffer.emit sample).bytesWritten = buffer.bytesWritten + buffer.outFormat.bps ∧
      InBounds (buffer.emit sample) := by
  have nonneg := inside.nonneg
  have fits : FitsInt (buffer.bytesWritten + buffer.outFormat.bps) := ⟨by omega, small⟩
  have written : (buffer.emit sample).bytesWritten =
      buffer.bytesWritten + buffer.outFormat.bps := toInt_of_fits fits
  refine ⟨written, ?_, ?_, ?_, toInt_fits _, fun store member => ?_⟩
  · rw [written]
    omega
  · rw [written]
    exact room
  · rw [written]
    exact fits
  · rcases List.mem_cons.mp member with rfl | earlier
    · exact ⟨nonneg, room⟩
    · exact inside.stores store earlier

/-- The step of the loop: an emitted sample leaves one sample less to be emitted. -/
theorem emits_emit (buffer : AudioBuffer) (sample : UInt16) (length : Int) (index : Nat) :
    Emits (buffer.emit sample) length index ↔ Emits buffer length (index + 1) := by
  have position : toInt ((buffer.emit sample).totalBytesSent + index * buffer.outFormat.bps) =
      toInt (buffer.totalBytesSent + (index + 1 : Nat) * buffer.outFormat.bps) := by
    rw [AudioBuffer.emit, toInt_toInt_add, Int.natCast_succ, Int.add_mul, Int.one_mul,
      Int.add_comm (_ * _), Int.add_assoc]
  unfold Emits
  rw [← position]
  rfl

/-- The loop stays inside the buffer as long as it stops early enough. -/
theorem writeLoop_inBounds (blob : Blob) (blobLength length : Int) (fuel : Nat)
    (buffer : AudioBuffer) (inside : InBounds buffer)
    (fit : buffer.outFormat.bps = 2 ∨ buffer.outFormat.bps = 1 → SamplesFit buffer length) :
    InBounds (writeLoop blob blobLength length fuel buffer) := by
  induction fuel generalizing buffer with
  | zero => exact inside.halt
  | succ fuel ih =>
      rw [writeLoop]
      cases result : readSample buffer.inFormat buffer.outFormat buffer.totalBytesSent
          buffer.totalBytesReceived length with
      | divisionByZero => exact inside.halt
      | negative offset => exact (inside.noteRead ..).halt
      | nothing offset => exact inside.noteRead ..
      | sample offset =>
          dsimp only
          split
          · rename_i stored
            have outBps : buffer.outFormat.bps = 2 ∨ buffer.outFormat.bps = 1 := stored
            have noted := inside.noteRead offset blobLength true
            obtain ⟨count, room, small, stops⟩ := fit outBps
            cases count with
            | zero =>
                refine (stops ⟨offset, ?_⟩).elim
                rw [Int.natCast_zero, Int.zero_mul, Int.add_zero, toInt_of_fits inside.sent, result]
            | succ count =>
                rw [Int.natCast_succ, Int.add_mul, Int.one_mul] at room small
                have forward : 0 ≤ (count : Int) * buffer.outFormat.bps := by
                  rcases outBps with two | one
                  · rw [two]
                    omega
                  · rw [one]
                    omega
                obtain ⟨written, emitted⟩ := noted.emit
                  (sampleAt blob buffer.inFormat.bps offset) outBps
                  (by simp only [AudioBuffer.noteRead]; omega)
                  (by simp only [AudioBuffer.noteRead]; omega)
                have further : ((buffer.noteRead offset blobLength true).emit
                    (sampleAt blob buffer.inFormat.bps offset)).bytesWritten +
                      count * buffer.outFormat.bps =
                    buffer.bytesWritten +
                      (count * buffer.outFormat.bps + buffer.outFormat.bps) := by
                  rw [written]
                  simp only [AudioBuffer.noteRead]
                  omega
                exact ih _ emitted fun _ => ⟨count, further ▸ room, further ▸ small,
                  fun emits => stops ((emits_emit buffer (sampleAt blob buffer.inFormat.bps offset) length count).mp emits)⟩
          · exact (inside.noteRead ..).halt

theorem write_inBounds (fuel : Nat) (buffer : AudioBuffer) (blob : Blob) (length : Nat)
    (inside : InBounds buffer) (room : RoomForSamples buffer (.write blob length)) :
    InBounds (write fuel buffer blob length) := by
  unfold write
  split
  · exact inside.halt
  split
  · exact inside
  rename_i present
  rw [not_or] at present
  have kept := writeLoop_inBounds blob length (truncatedLength buffer length) fuel buffer inside
    (room (Option.isSome_iff_ne_none.mpr (by simpa using present.2)) present.1)
  dsimp only
  split
  · exact kept
  · exact ⟨kept.nonneg, kept.bounded, kept.fits, kept.sent, kept.stores⟩

/-- Only a buffer that holds a complete packet is flushed. -/
theorem packetSize_le_of_mayFlush {buffer : AudioBuffer} (nonneg : 0 ≤ buffer.bytesWritten)
    (small : buffer.bytesWritten < 2147483648) (due : mayFlush buffer = true) :
    (buffer.packetSize : Int) ≤ buffer.bytesWritten := by
  simp only [mayFlush, Bool.and_eq_true, decide_eq_true_eq] at due
  have size := toSize_of_nonneg nonneg small
  omega

/-- A flush takes one packet out of at least one. -/
theorem flush_inBounds (buffer : AudioBuffer) (inside : InBounds buffer) :
    InBounds (flush buffer) := by
  unfold flush
  split
  · exact inside
  rename_i due
  split
  · exact inside.halt
  have nonneg := inside.nonneg
  have bounded := inside.bounded
  have small := inside.fits.2
  have packet := packetSize_le_of_mayFlush nonneg small (by simpa using due)
  have fits : FitsInt (buffer.bytesWritten - buffer.packetSize) := ⟨by omega, by omega⟩
  rw [toInt_of_fits fits]
  exact ⟨by dsimp only; omega, by dsimp only; omega, fits, inside.sent, inside.stores⟩

/-- Every action keeps the packet inside its buffer, a write if its samples fit. -/
theorem audioStep_inBounds (fuel : Nat) (buffer : AudioBuffer) (action : AudioAction)
    (inside : InBounds buffer) (room : RoomForSamples buffer action) :
    InBounds (audioStep fuel buffer action) := by
  have empty : FitsInt 0 := by decide
  unfold audioStep
  split
  · exact inside
  cases action with
  | setStream format =>
      exact ⟨inside.nonneg, inside.bounded, inside.fits, inside.sent, inside.stores⟩
  | setOutput format =>
      exact ⟨inside.nonneg, inside.bounded, inside.fits, inside.sent, inside.stores⟩
  | begin_ packetFrames memory =>
      simp only [begin_]
      split
      · exact inside.halt
      · exact ⟨Int.le_refl 0, Int.natCast_nonneg _, empty, inside.sent, inside.stores⟩
  | write blob length => exact write_inBounds fuel buffer blob length inside room
  | flush => exact flush_inBounds buffer inside
  | end_ =>
      simp only [end_]
      split
      · exact inside
      · exact ⟨Int.le_refl 0, Int.le_refl 0, empty, empty, inside.stores⟩

theorem alloc_inBounds : InBounds .alloc :=
  ⟨Int.le_refl 0, Int.le_refl 0, by decide, by decide, nofun⟩

/-- A blob of zeros. -/
def silence : Blob := fun _ => 0

/-- A stream of 8-bit samples recorded for a 16-bit output of the same rate. -/
def widening (length : Nat) : List AudioAction :=
  [.setStream ⟨8, 1, 1⟩, .setOutput ⟨8, 1, 2⟩, .begin_ 1 (some silence), .write silence length]

end GuacNebula.Audio
