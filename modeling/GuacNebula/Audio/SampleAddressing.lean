import GuacNebula.Audio.Buffer
import Mathlib.Tactic.Linarith
import Mathlib.Tactic.Ring

/-! # Where samples are read

An output sample is looked up in the input by its index, and addressed relative to the bytes
received before the current blob. That works as long as no output sample still to be produced
lies before those bytes (`Aligned`), which a blob that ends inside a sample destroys for the
next one. `readsInside_of_aligned` is the safety of all reads under this condition, and
`aligned_of_wholeFrames` shows that blobs of whole frames maintain it.
-/

namespace GuacNebula.Audio

open GuacNebula.CInt

/-- A format as it is negotiated: rate and channel count are positive, and samples have 8 or
16 bits. -/
structure AudioFormat.Valid (format : AudioFormat) : Prop where
  rate : 0 < format.rate
  channels : 0 < format.channels
  bps : format.bps = 1 ∨ format.bps = 2

/-- The input frame an output sample is taken from. -/
def inputFrame (inFormat outFormat : AudioFormat) (index : Int) : Int :=
  index / outFormat.channels * inFormat.rate / outFormat.rate

/-- The byte of the input stream at which the sample for an output sample starts. -/
def sourceStart (inFormat outFormat : AudioFormat) (index : Int) : Int :=
  (inputFrame inFormat outFormat index * inFormat.channels +
    min (index % outFormat.channels) (inFormat.channels - 1)) * inFormat.bps

/-- The index of the next output sample. -/
def AudioBuffer.nextIndex (buffer : AudioBuffer) : Int :=
  buffer.totalBytesSent / buffer.outFormat.bps

/-- The source of an output sample in the formats of the buffer. -/
def AudioBuffer.source (buffer : AudioBuffer) (index : Int) : Int :=
  sourceStart buffer.inFormat buffer.outFormat index

/-- No output sample still to be produced is taken from before the bytes already counted as
received. -/
def Aligned (buffer : AudioBuffer) : Prop :=
  ∀ index, buffer.nextIndex ≤ index → buffer.totalBytesReceived ≤ buffer.source index

/-- `stop` is the first output sample, from the next one on, that is not wholly contained in
the first `received` bytes of the input. -/
structure StopsAt (buffer : AudioBuffer) (received stop : Int) : Prop where
  start : buffer.nextIndex ≤ stop
  before : ∀ index, buffer.nextIndex ≤ index → index < stop →
    buffer.source index + buffer.inFormat.bps ≤ received
  after : received < buffer.source stop + buffer.inFormat.bps

/-- The counters and positions of a write stay in the range of `int`. -/
def CountersFit (buffer : AudioBuffer) (length : Int) : Prop :=
  0 ≤ buffer.totalBytesReceived + length ∧ buffer.totalBytesReceived + length < 2147483648 ∧
    ∃ stop, StopsAt buffer (buffer.totalBytesReceived + length) stop ∧
      buffer.source stop < 2147483648 ∧
      buffer.totalBytesSent + (stop - buffer.nextIndex) * buffer.outFormat.bps < 2147483648

/-- Formats are valid, and a blob that is not dropped finds the stream aligned and leaves its
counters in range. -/
def WritesAligned (buffer : AudioBuffer) : AudioAction → Prop
  | .setStream format => format.Valid
  | .setOutput format => format.Valid
  | .write _ length => buffer.packet.isSome → buffer.packetBufferSize ≠ 0 →
      Aligned buffer ∧ CountersFit buffer (truncatedLength buffer length)
  | _ => True

/-- No offset was negative, and all samples were read from within their blob. -/
def ReadsInside (buffer : AudioBuffer) : Prop :=
  ∀ read ∈ buffer.reads,
    0 ≤ read.offset ∧ (read.returned = true → read.offset + read.sampleSize ≤ read.blobLength)

/-- What holds of a buffer whose formats were negotiated. -/
structure Negotiated (buffer : AudioBuffer) : Prop where
  inFormat : buffer.inFormat.Valid ∨ buffer.inFormat.rate = 0
  outFormat : buffer.outFormat.Valid ∨ buffer.outFormat.rate = 0
  packet : buffer.packet.isSome → buffer.outFormat.Valid
  sent : 0 ≤ buffer.totalBytesSent
  received : 0 ≤ buffer.totalBytesReceived
  reads : ReadsInside buffer

/-! ## Positions -/

variable {inFormat outFormat : AudioFormat}

theorem AudioFormat.Valid.bps_pos (valid : inFormat.Valid) : 0 < inFormat.bps := by
  rcases valid.bps with one | two <;> omega

theorem inputFrame_nonneg (validIn : inFormat.Valid) (validOut : outFormat.Valid) {index : Int}
    (nonneg : 0 ≤ index) : 0 ≤ inputFrame inFormat outFormat index :=
  Int.ediv_nonneg (Int.mul_nonneg (Int.ediv_nonneg nonneg validOut.channels.le)
    validIn.rate.le) validOut.rate.le

theorem inputFrame_mono (validIn : inFormat.Valid) (validOut : outFormat.Valid)
    {first second : Int} (order : first ≤ second) :
    inputFrame inFormat outFormat first ≤ inputFrame inFormat outFormat second :=
  Int.ediv_le_ediv validOut.rate
    (Int.mul_le_mul_of_nonneg_right (Int.ediv_le_ediv validOut.channels order) validIn.rate.le)

/-- The channel an output sample is taken from. -/
theorem inputChannel_range (validIn : inFormat.Valid) (validOut : outFormat.Valid) (index : Int) :
    0 ≤ min (index % outFormat.channels) (inFormat.channels - 1) ∧
      min (index % outFormat.channels) (inFormat.channels - 1) < inFormat.channels := by
  have nonneg := Int.emod_nonneg index validOut.channels.ne'
  have positive := validIn.channels
  omega

/-- Frames come before their samples in the input stream. -/
theorem inputFrame_le_sourceStart (validIn : inFormat.Valid) (validOut : outFormat.Valid)
    (index : Int) :
    inputFrame inFormat outFormat index * inFormat.channels * inFormat.bps ≤
      sourceStart inFormat outFormat index := by
  have channel := inputChannel_range validIn validOut index
  unfold sourceStart
  rw [Int.add_mul]
  have := Int.mul_nonneg channel.1 validIn.bps_pos.le
  omega

theorem sourceStart_nonneg (validIn : inFormat.Valid) (validOut : outFormat.Valid) {index : Int}
    (nonneg : 0 ≤ index) : 0 ≤ sourceStart inFormat outFormat index :=
  (Int.mul_nonneg (Int.mul_nonneg (inputFrame_nonneg validIn validOut nonneg)
    validIn.channels.le) validIn.bps_pos.le).trans (inputFrame_le_sourceStart validIn validOut index)

theorem inputFrame_fits (validIn : inFormat.Valid) (validOut : outFormat.Valid) {index : Int}
    (nonneg : 0 ≤ index) (small : sourceStart inFormat outFormat index < 2147483648) :
    FitsInt (inputFrame inFormat outFormat index) := by
  have frame := inputFrame_nonneg validIn validOut nonneg
  have whole := inputFrame_le_sourceStart validIn validOut index
  have channels := le_mul_of_one_le_right frame validIn.channels
  have bytes := le_mul_of_one_le_right (frame.trans channels) validIn.bps_pos
  exact ⟨by omega, by omega⟩

/-- The offset of a sample that does not lie before the blob. -/
theorem sampleOffset_eq (validIn : inFormat.Valid) (validOut : outFormat.Valid)
    {sent received : Int} (nonneg : 0 ≤ sent) (start : 0 ≤ received)
    (forward : received ≤ sourceStart inFormat outFormat (sent / outFormat.bps))
    (small : sourceStart inFormat outFormat (sent / outFormat.bps) < 2147483648) :
    sampleOffset inFormat outFormat sent received =
      some (sourceStart inFormat outFormat (sent / outFormat.bps) - received) := by
  have index : 0 ≤ sent / outFormat.bps := Int.ediv_nonneg nonneg validOut.bps_pos.le
  have frame : 0 ≤ sent / outFormat.bps / outFormat.channels :=
    Int.ediv_nonneg index validOut.channels.le
  have fits := inputFrame_fits validIn validOut index small
  have channel : (if sent / outFormat.bps % outFormat.channels ≥ inFormat.channels then
      inFormat.channels - 1 else sent / outFormat.bps % outFormat.channels) =
        min (sent / outFormat.bps % outFormat.channels) (inFormat.channels - 1) := by
    split <;> omega
  unfold inputFrame at fits
  unfold sampleOffset
  rw [if_neg (not_or.mpr ⟨validOut.bps_pos.ne', validOut.channels.ne'⟩)]
  simp only [Int.tdiv_eq_ediv_of_nonneg nonneg, Int.tdiv_eq_ediv_of_nonneg index,
    Int.tmod_eq_emod_of_nonneg index, if_neg validOut.rate.ne',
    Int.tdiv_eq_ediv_of_nonneg (Int.mul_nonneg frame validIn.rate.le), truncToInt_of_fits fits,
    channel, toInt_toInt_mul_sub]
  rw [toInt_of_fits]
  · rfl
  · have same : sourceStart inFormat outFormat (sent / outFormat.bps) =
        (sent / outFormat.bps / outFormat.channels * inFormat.rate / outFormat.rate *
          inFormat.channels + min (sent / outFormat.bps % outFormat.channels)
            (inFormat.channels - 1)) * inFormat.bps := rfl
    rw [← same]
    exact ⟨by omega, by omega⟩

/-- A sample is read exactly if it ends within the blob. -/
theorem readSample_eq (validIn : inFormat.Valid) (validOut : outFormat.Valid)
    {sent received length : Int} (nonneg : 0 ≤ sent) (start : 0 ≤ received)
    (forward : received ≤ sourceStart inFormat outFormat (sent / outFormat.bps))
    (small : sourceStart inFormat outFormat (sent / outFormat.bps) < 2147483648)
    (total : 0 ≤ received + length ∧ received + length < 2147483648) :
    readSample inFormat outFormat sent received length =
      if sourceStart inFormat outFormat (sent / outFormat.bps) + inFormat.bps ≤
          received + length then
        .sample (sourceStart inFormat outFormat (sent / outFormat.bps) - received)
      else .nothing (sourceStart inFormat outFormat (sent / outFormat.bps) - received) := by
  rw [readSample, sampleOffset_eq validIn validOut nonneg start forward small]
  dsimp only
  rw [if_neg (by omega), toInt_of_fits ⟨by omega, by omega⟩, if_pos validIn.bps.symm]
  split <;> split <;> first | rfl | omega

/-! ## The loop of a write -/

/-- The fields that a write keeps. -/
structure SameStream (before after : AudioBuffer) : Prop where
  inFormat : after.inFormat = before.inFormat
  outFormat : after.outFormat = before.outFormat
  received : after.totalBytesReceived = before.totalBytesReceived
  packet : after.packet.isSome = before.packet.isSome

theorem SameStream.trans {first second third : AudioBuffer} (left : SameStream first second)
    (right : SameStream second third) : SameStream first third where
  inFormat := right.inFormat.trans left.inFormat
  outFormat := right.outFormat.trans left.outFormat
  received := right.received.trans left.received
  packet := right.packet.trans left.packet

theorem noteRead_sameStream (buffer : AudioBuffer) (offset blobLength : Int) (returned : Bool) :
    SameStream buffer (buffer.noteRead offset blobLength returned) := ⟨rfl, rfl, rfl, rfl⟩

theorem emit_sameStream (buffer : AudioBuffer) (sample : UInt16) :
    SameStream buffer (buffer.emit sample) :=
  ⟨rfl, rfl, rfl, Option.isSome_map⟩

theorem ReadsInside.noteRead {buffer : AudioBuffer} (inside : ReadsInside buffer)
    {offset blobLength : Int} {returned : Bool} (nonneg : 0 ≤ offset)
    (ends : returned = true → offset + buffer.inFormat.bps ≤ blobLength) :
    ReadsInside (buffer.noteRead offset blobLength returned) := by
  intro read member
  rcases List.mem_cons.mp member with rfl | earlier
  · exact ⟨nonneg, ends⟩
  · exact inside read earlier

/-- What the loop of a write keeps, at every sample. -/
structure LoopInvariant (buffer : AudioBuffer) (length : Int) : Prop where
  inFormat : buffer.inFormat.Valid
  outFormat : buffer.outFormat.Valid
  sent : 0 ≤ buffer.totalBytesSent
  received : 0 ≤ buffer.totalBytesReceived
  reads : ReadsInside buffer
  aligned : Aligned buffer
  counters : CountersFit buffer length

theorem LoopInvariant.noteRead {buffer : AudioBuffer} {length : Int}
    (invariant : LoopInvariant buffer length) {offset blobLength : Int} {returned : Bool}
    (nonneg : 0 ≤ offset) (ends : returned = true → offset + buffer.inFormat.bps ≤ blobLength) :
    LoopInvariant (buffer.noteRead offset blobLength returned) length :=
  ⟨invariant.inFormat, invariant.outFormat, invariant.sent, invariant.received,
    invariant.reads.noteRead nonneg ends, invariant.aligned,
    invariant.counters.imp_right fun rest => rest.imp_right fun ⟨stop, stops, rest⟩ =>
      ⟨stop, ⟨stops.start, stops.before, stops.after⟩, rest⟩⟩

/-- A sample that was wholly received is counted when it is emitted. -/
theorem LoopInvariant.emit_counts {buffer : AudioBuffer} {length : Int}
    (invariant : LoopInvariant buffer length) (sample : UInt16)
    (whole : buffer.source buffer.nextIndex + buffer.inFormat.bps ≤
      buffer.totalBytesReceived + length) :
    (buffer.emit sample).totalBytesSent = buffer.totalBytesSent + buffer.outFormat.bps ∧
      (buffer.emit sample).nextIndex = buffer.nextIndex + 1 := by
  obtain ⟨-, -, stop, stops, -, counter⟩ := invariant.counters
  have bps := invariant.outFormat.bps_pos
  have sent := invariant.sent
  have further : buffer.nextIndex < stop := by
    refine lt_of_le_of_ne stops.start fun same => ?_
    have after := stops.after
    rw [← same] at after
    omega
  have ahead : buffer.outFormat.bps ≤
      (stop - buffer.nextIndex) * buffer.outFormat.bps := by
    nlinarith
  have counted : (buffer.emit sample).totalBytesSent =
      buffer.totalBytesSent + buffer.outFormat.bps :=
    toInt_of_fits ⟨by omega, by omega⟩
  refine ⟨counted, ?_⟩
  rw [AudioBuffer.nextIndex, counted]
  exact Int.add_ediv_of_dvd_right (Int.dvd_refl _) |>.trans (by rw [Int.ediv_self bps.ne']; rfl)

/-- Emitting a sample advances the next index, and keeps the invariant when the sample was
wholly received. -/
theorem LoopInvariant.emit {buffer : AudioBuffer} {length : Int}
    (invariant : LoopInvariant buffer length) (sample : UInt16)
    (whole : buffer.source buffer.nextIndex + buffer.inFormat.bps ≤
      buffer.totalBytesReceived + length) : LoopInvariant (buffer.emit sample) length := by
  obtain ⟨counted, next⟩ := invariant.emit_counts sample whole
  obtain ⟨lower, upper, stop, stops, small, counter⟩ := invariant.counters
  have bps := invariant.outFormat.bps_pos
  have sent := invariant.sent
  have further : buffer.nextIndex < stop := by
    refine lt_of_le_of_ne stops.start fun same => ?_
    have after := stops.after
    rw [← same] at after
    omega
  refine ⟨invariant.inFormat, invariant.outFormat, by rw [counted]; omega, invariant.received,
    invariant.reads, fun index later => ?_, lower, upper, stop,
    ⟨by omega, fun index later => ?_, stops.after⟩, small, ?_⟩
  · exact invariant.aligned index (by omega)
  · exact stops.before index (by omega)
  · rw [counted, next]
    have rest : (stop - (buffer.nextIndex + 1)) * buffer.outFormat.bps =
        (stop - buffer.nextIndex) * buffer.outFormat.bps - buffer.outFormat.bps := by ring
    change _ + (stop - (buffer.nextIndex + 1)) * buffer.outFormat.bps < _
    omega

/-- The next sample is read exactly if it has been wholly received. It does not lie before the
blob. -/
theorem LoopInvariant.readSample {buffer : AudioBuffer} {length : Int}
    (invariant : LoopInvariant buffer length) :
    readSample buffer.inFormat buffer.outFormat buffer.totalBytesSent buffer.totalBytesReceived
        length =
      (if buffer.source buffer.nextIndex + buffer.inFormat.bps ≤
          buffer.totalBytesReceived + length then
        .sample (buffer.source buffer.nextIndex - buffer.totalBytesReceived)
      else .nothing (buffer.source buffer.nextIndex - buffer.totalBytesReceived)) ∧
      0 ≤ buffer.source buffer.nextIndex - buffer.totalBytesReceived := by
  obtain ⟨lower, upper, stop, stops, small, -⟩ := invariant.counters
  have forward := invariant.aligned buffer.nextIndex le_rfl
  have near : buffer.source buffer.nextIndex < 2147483648 := by
    rcases stops.start.lt_or_eq with before | same
    · have whole := stops.before _ le_rfl before
      have := invariant.inFormat.bps_pos
      omega
    · rw [same]
      exact small
  exact ⟨readSample_eq invariant.inFormat invariant.outFormat invariant.sent invariant.received
    forward near ⟨lower, upper⟩, by omega⟩

/-- All samples that the loop reads lie within the blob, and when it ends, the next one is not
wholly contained in it. -/
theorem writeLoop_reads (blob : Blob) {blobLength length : Int} (cut : length ≤ blobLength)
    (fuel : Nat) (buffer : AudioBuffer) (invariant : LoopInvariant buffer length) :
    ReadsInside (writeLoop blob blobLength length fuel buffer) ∧
      0 ≤ (writeLoop blob blobLength length fuel buffer).totalBytesSent ∧
      SameStream buffer (writeLoop blob blobLength length fuel buffer) ∧
      ((writeLoop blob blobLength length fuel buffer).halted = false →
        buffer.totalBytesReceived + length <
          buffer.source (writeLoop blob blobLength length fuel buffer).nextIndex +
            buffer.inFormat.bps) := by
  induction fuel generalizing buffer with
  | zero => exact ⟨invariant.reads, invariant.sent, ⟨rfl, rfl, rfl, rfl⟩, nofun⟩
  | succ fuel ih =>
      obtain ⟨result, ahead⟩ := invariant.readSample
      by_cases whole : buffer.source buffer.nextIndex + buffer.inFormat.bps ≤
          buffer.totalBytesReceived + length
      · rw [if_pos whole] at result
        have noted : LoopInvariant (buffer.noteRead
            (buffer.source buffer.nextIndex - buffer.totalBytesReceived) blobLength true) length :=
          invariant.noteRead ahead fun _ => by omega
        obtain ⟨reads, sent, same, produced⟩ := ih _ (noted.emit (sampleAt blob buffer.inFormat.bps
          (buffer.source buffer.nextIndex - buffer.totalBytesReceived)) whole)
        simp only [writeLoop, result]
        rw [if_pos (Or.symm noted.outFormat.bps)]
        exact ⟨reads, sent, (noteRead_sameStream ..).trans ((emit_sameStream ..).trans same),
          produced⟩
      · rw [if_neg whole] at result
        simp only [writeLoop, result]
        exact ⟨invariant.reads.noteRead ahead nofun, invariant.sent, ⟨rfl, rfl, rfl, rfl⟩,
          fun _ => not_le.mp whole⟩

/-! ## Runs -/

theorem truncatedLength_le (buffer : AudioBuffer) (length : Int) :
    truncatedLength buffer length ≤ length := by
  unfold truncatedLength
  dsimp only
  split <;> omega

/-- A buffer that receives a blob in a valid format starts the loop with its invariant. -/
theorem Negotiated.loopInvariant {buffer : AudioBuffer} (negotiated : Negotiated buffer)
    (validIn : buffer.inFormat.Valid) {blob : Blob} {length : Nat}
    (aligned : WritesAligned buffer (.write blob length)) (isSome : buffer.packet.isSome)
    (nonempty : buffer.packetBufferSize ≠ 0) :
    LoopInvariant buffer (truncatedLength buffer length) :=
  ⟨validIn, negotiated.packet isSome, negotiated.sent, negotiated.received, negotiated.reads,
    (aligned isSome nonempty).1, (aligned isSome nonempty).2⟩

theorem write_negotiated (fuel : Nat) (buffer : AudioBuffer) (blob : Blob) (length : Nat)
    (negotiated : Negotiated buffer) (aligned : WritesAligned buffer (.write blob length)) :
    Negotiated (write fuel buffer blob length) := by
  unfold write
  split
  · exact ⟨negotiated.inFormat, negotiated.outFormat, negotiated.packet, negotiated.sent,
      negotiated.received, negotiated.reads⟩
  rename_i divides
  split
  · exact negotiated
  rename_i present
  rw [not_or] at present
  have isSome : buffer.packet.isSome := Option.isSome_iff_ne_none.mpr (by simpa using present.2)
  have inFormat : buffer.inFormat.Valid := by
    refine negotiated.inFormat.resolve_right fun zero => divides ?_
    rw [duration, if_pos (.inl zero)]
  have invariant := negotiated.loopInvariant inFormat aligned isSome present.1
  obtain ⟨reads, sent, same, -⟩ :=
    writeLoop_reads blob (truncatedLength_le buffer length) fuel buffer invariant
  have outFormat := negotiated.packet isSome
  obtain ⟨lower, upper, -⟩ := invariant.counters
  have kept : Negotiated (writeLoop blob length (truncatedLength buffer length) fuel buffer) :=
    ⟨.inl (same.inFormat ▸ inFormat), .inl (same.outFormat ▸ outFormat),
      fun _ => same.outFormat ▸ outFormat, sent, same.received ▸ negotiated.received, reads⟩
  dsimp only
  split
  · exact kept
  · refine ⟨kept.inFormat, kept.outFormat, kept.packet, kept.sent, ?_, kept.reads⟩
    dsimp only
    rw [same.received, toInt_of_fits ⟨by omega, upper⟩]
    exact lower

/-- A packet buffer is only allocated for an output format that was negotiated. -/
theorem packetSizes_rate {format : AudioFormat} {packetFrames : Int} {sizes : Nat × Nat}
    (allocated : packetSizes format packetFrames = some sizes) : format.rate ≠ 0 := by
  intro zero
  simp [packetSizes, duration, zero] at allocated

theorem audioStep_negotiated (fuel : Nat) (buffer : AudioBuffer) (action : AudioAction)
    (negotiated : Negotiated buffer) (aligned : WritesAligned buffer action) :
    Negotiated (audioStep fuel buffer action) := by
  have halted : Negotiated buffer.halt :=
    ⟨negotiated.inFormat, negotiated.outFormat, negotiated.packet, negotiated.sent,
      negotiated.received, negotiated.reads⟩
  unfold audioStep
  split
  · exact negotiated
  cases action with
  | setStream format =>
      exact ⟨.inl aligned, negotiated.outFormat, negotiated.packet, negotiated.sent,
        negotiated.received, negotiated.reads⟩
  | setOutput format =>
      exact ⟨negotiated.inFormat, .inl aligned, fun _ => aligned, negotiated.sent,
        negotiated.received, negotiated.reads⟩
  | begin_ packetFrames memory =>
      simp only [begin_]
      split
      · exact halted
      · rename_i sizes
        have outFormat := negotiated.outFormat.resolve_right (packetSizes_rate sizes)
        exact ⟨negotiated.inFormat, .inl outFormat, fun _ => outFormat, negotiated.sent,
          negotiated.received, negotiated.reads⟩
  | write blob length => exact write_negotiated fuel buffer blob length negotiated aligned
  | flush =>
      simp only [flush]
      split
      · exact negotiated
      split
      · exact halted
      · exact ⟨negotiated.inFormat, negotiated.outFormat,
          fun packet => negotiated.packet (by simpa using packet), negotiated.sent,
          negotiated.received, negotiated.reads⟩
  | end_ =>
      simp only [end_]
      split
      · exact negotiated
      · exact ⟨negotiated.inFormat, negotiated.outFormat, nofun, le_rfl, le_rfl,
          negotiated.reads⟩

theorem alloc_negotiated : Negotiated .alloc :=
  ⟨.inr rfl, .inr rfl, nofun, le_rfl, le_rfl, nofun⟩

/-- **The addressing of samples.** In every run with valid formats in which each blob that is
written finds the stream aligned, with the counters in range, no offset is negative and every
sample is read from within its blob. -/
theorem readsInside_of_aligned (fuel : Nat) (actions : List AudioAction)
    (aligned : Run.Guarded (audioStep fuel) WritesAligned .alloc actions) :
    Run.Always (audioStep fuel) ReadsInside .alloc actions :=
  (aligned.always alloc_negotiated fun buffer action =>
    audioStep_negotiated fuel buffer action).mono fun _ negotiated => negotiated.reads

/-! ## What keeps a stream aligned -/

/-- When the bytes received are whole input frames, and all that could be produced from them
was produced, the stream is aligned. -/
theorem aligned_of_wholeFrames {buffer : AudioBuffer} (validIn : buffer.inFormat.Valid)
    (validOut : buffer.outFormat.Valid) (frames : Int)
    (whole : buffer.totalBytesReceived = frames * buffer.inFormat.channels * buffer.inFormat.bps)
    (produced : buffer.totalBytesReceived <
      buffer.source buffer.nextIndex + buffer.inFormat.bps) : Aligned buffer := by
  have channel := inputChannel_range validIn validOut buffer.nextIndex
  have reached : frames ≤ inputFrame buffer.inFormat buffer.outFormat buffer.nextIndex := by
    rw [whole, AudioBuffer.source, sourceStart, ← add_one_mul] at produced
    have samples := lt_of_mul_lt_mul_right produced validIn.bps_pos.le
    have bound : frames * buffer.inFormat.channels <
        (inputFrame buffer.inFormat buffer.outFormat buffer.nextIndex + 1) *
          buffer.inFormat.channels := by
      rw [add_one_mul]
      omega
    exact Int.lt_add_one_iff.mp (lt_of_mul_lt_mul_right bound validIn.channels.le)
  intro index later
  have frame := reached.trans (inputFrame_mono validIn validOut later)
  rw [whole]
  exact (mul_le_mul_of_nonneg_right (mul_le_mul_of_nonneg_right frame validIn.channels.le)
    validIn.bps_pos.le).trans (inputFrame_le_sourceStart validIn validOut index)

/-- A write that brings the bytes received to a whole number of input frames leaves the stream
aligned for the next one. -/
theorem write_aligned (fuel : Nat) (buffer : AudioBuffer) (blob : Blob) (length : Nat)
    (validIn : buffer.inFormat.Valid) (negotiated : Negotiated buffer)
    (receiving : buffer.packet.isSome) (nonempty : buffer.packetBufferSize ≠ 0)
    (aligned : WritesAligned buffer (.write blob length))
    (ends : (write fuel buffer blob length).halted = false) {frames : Int}
    (whole : (write fuel buffer blob length).totalBytesReceived =
      frames * buffer.inFormat.channels * buffer.inFormat.bps) :
    Aligned (write fuel buffer blob length) := by
  have invariant := negotiated.loopInvariant validIn aligned receiving nonempty
  obtain ⟨-, -, same, produced⟩ :=
    writeLoop_reads blob (truncatedLength_le buffer length) fuel buffer invariant
  obtain ⟨lower, upper, -⟩ := invariant.counters
  have divides : duration buffer.inFormat length ≠ none := by
    have rate := validIn.rate.ne'
    have channels := validIn.channels.ne'
    have bps := validIn.bps_pos.ne'
    simp [duration, rate, channels, bps]
  have dropped : ¬ (buffer.packetBufferSize = 0 ∨ buffer.packet.isNone = true) := by
    rw [Option.isNone_iff_eq_none]
    exact not_or.mpr ⟨nonempty, Option.isSome_iff_ne_none.mp receiving⟩
  rw [write, if_neg divides, if_neg dropped] at ends whole ⊢
  dsimp only at ends whole ⊢
  cases halted : (writeLoop blob length (truncatedLength buffer length) fuel buffer).halted with
  | true =>
      simp only [halted, ↓reduceIte] at ends
      cases ends
  | false =>
      simp only [halted, Bool.false_eq_true, ↓reduceIte] at whole ⊢
      have total : toInt ((writeLoop blob length (truncatedLength buffer length) fuel
          buffer).totalBytesReceived + truncatedLength buffer length) =
          buffer.totalBytesReceived + truncatedLength buffer length := by
        rw [same.received, toInt_of_fits ⟨by omega, upper⟩]
      refine aligned_of_wholeFrames (same.inFormat ▸ validIn)
        (same.outFormat ▸ negotiated.packet receiving) frames ?_ ?_
      · dsimp only
        rw [whole, same.inFormat]
      · dsimp only [AudioBuffer.source, AudioBuffer.nextIndex]
        rw [total, same.inFormat, same.outFormat]
        have reached := produced halted
        simp only [AudioBuffer.source, AudioBuffer.nextIndex, same.outFormat] at reached
        exact reached

/-- A 16-bit stream recorded for a 16-bit output of the same rate, in blobs of the given
lengths. -/
def recording (lengths : List Nat) : List AudioAction :=
  [.setStream ⟨8000, 1, 2⟩, .setOutput ⟨8000, 1, 2⟩, .begin_ 1 (some fun _ => 0)] ++
    lengths.map fun length => .write (fun _ => 0) length

/-- One sample after the other is read from within its blob. -/
theorem readsInside_whole_samples :
    Run.Always (audioStep 3) ReadsInside .alloc (recording [2, 2]) := by
  have valid : AudioFormat.Valid ⟨8000, 1, 2⟩ := ⟨by decide, by decide, .inr rfl⟩
  refine readsInside_of_aligned 3 (recording [2, 2])
    ⟨valid, valid, trivial, fun _ _ => ⟨?_, ?_⟩, fun _ _ => ⟨?_, ?_⟩, trivial⟩
  · exact aligned_of_wholeFrames valid valid 0 (by decide) (by decide)
  · refine ⟨by decide, by decide, 1, ⟨by decide, fun index first last => ?_, by decide⟩,
      by decide, by decide⟩
    obtain rfl : index = 0 := by
      change 0 ≤ index at first
      omega
    decide
  · exact aligned_of_wholeFrames valid valid 1 (by decide) (by decide)
  · refine ⟨by decide, by decide, 2, ⟨by decide, fun index first last => ?_, by decide⟩,
      by decide, by decide⟩
    obtain rfl : index = 1 := by
      change 1 ≤ index at first
      omega
    decide

/-- A blob that ends inside a sample makes the next offset negative. -/
theorem odd_blob_breaks_offset :
    ¬ Run.Always (audioStep 3) ReadsInside .alloc (recording [3, 2]) := by
  intro inside
  have negative := (inside.last ⟨-1, 2, 2, false⟩ (by decide)).1
  revert negative
  decide

end GuacNebula.Audio
