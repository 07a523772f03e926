import GuacNebula.Audio.PacketBounds
import GuacNebula.Audio.SampleAddressing
import Mathlib.Data.List.Basic
import Mathlib.Data.List.GetD

/-! # Resampling

The output of the audio buffer is the stream that was received, with each output sample taken from
the input frame at its time or the last one before it. Neither the blobs in which the stream arrives
nor the flushes in between make a difference, unless a blob is cut short.
-/

namespace GuacNebula.Audio

open CInt Run

/-! ## The resampled stream -/

/-- The bytes of a stream by their addresses. -/
def bytesAt (stream : List UInt8) : Blob := fun address => stream.getD address.toNat 0

/-- The bytes of a sample in the output. -/
def encodeSample (bps : Int) (sample : UInt16) : List UInt8 :=
  if bps = 2 then [sample.toUInt8, (sample >>> 8).toUInt8] else [(sample >>> 8).toUInt8]

/-- The sample of a frame and a channel of the input. -/
def inputSample (format : AudioFormat) (stream : List UInt8) (frame channel : Int) : UInt16 :=
  sampleAt (bytesAt stream) format.bps ((frame * format.channels + channel) * format.bps)

/-- The number of output frames whose times lie before the end of the input frames. -/
def outputFrames (inFormat outFormat : AudioFormat) (inputFrames : Int) : Int :=
  (inputFrames * outFormat.rate + inFormat.rate - 1) / inFormat.rate

/-- The stream with each output frame taken from the nearest previous input frame. Channels that
the input does not have repeat its last one. -/
def resample (inFormat outFormat : AudioFormat) (stream : List UInt8) : List UInt8 :=
  let inputFrames := (stream.length : Int) / (inFormat.channels * inFormat.bps)
  (List.range (outputFrames inFormat outFormat inputFrames).toNat).flatMap fun frame : Nat =>
    (List.range outFormat.channels.toNat).flatMap fun channel : Nat =>
      encodeSample outFormat.bps (inputSample inFormat stream
        (frame * inFormat.rate / outFormat.rate) (min channel (inFormat.channels - 1)))

/-! ## Streams -/

/-- A buffer with the bytes that have been sent to it. -/
structure AudioSession where
  buffer : AudioBuffer
  received : List UInt8 := []

/-- The bytes that an action brings. -/
def AudioAction.bytes : AudioAction → List UInt8
  | .write blob length => (List.range length).map fun address : Nat => blob address
  | _ => []

/-- The session after an action. -/
def sessionStep (fuel : Nat) (session : AudioSession) (action : AudioAction) : AudioSession where
  buffer := audioStep fuel session.buffer action
  received := session.received ++ action.bytes

/-- The bytes in the packet buffer. -/
def AudioBuffer.pending (buffer : AudioBuffer) : List UInt8 :=
  match buffer.packet with
  | some packet => (List.range buffer.bytesWritten.toNat).map fun address : Nat => packet address
  | none => []

/-- All output: the packets that were sent, and what is still in the buffer. -/
def AudioBuffer.output (buffer : AudioBuffer) : List UInt8 :=
  buffer.packetsSent.flatten ++ buffer.pending

/-- The output is the stream resampled, and what was sent of it are complete packets. -/
def Resamples (inFormat outFormat : AudioFormat) (session : AudioSession) : Prop :=
  session.buffer.halted = false
    ∧ session.buffer.output = resample inFormat outFormat session.received
    ∧ ∀ packet ∈ session.buffer.packetsSent, packet.length = session.buffer.packetSize

/-- A buffer that is ready for a stream: the formats are valid, there is a packet buffer, and
nothing has been received. -/
structure Ready (buffer : AudioBuffer) : Prop where
  inFormat : buffer.inFormat.Valid
  outFormat : buffer.outFormat.Valid
  packet : buffer.packet.isSome
  packetSize : 0 < buffer.packetSize
  packetBufferSize : buffer.packetBufferSize ≠ 0
  flushHandler : buffer.flushHandler = true
  bytesWritten : buffer.bytesWritten = 0
  totalBytesReceived : buffer.totalBytesReceived = 0
  totalBytesSent : buffer.totalBytesSent = 0
  packetsSent : buffer.packetsSent = []
  reads : buffer.reads = []
  halted : buffer.halted = false

/-- Blobs of whole frames arrive, whose samples fit into the packet buffer, and packets are flushed.
The counters stay in the range of `int`. -/
def Streams (session : AudioSession) : AudioAction → Prop
  | .write _ length =>
      (∃ frames : Nat, (length : Int) =
          frames * session.buffer.inFormat.channels * session.buffer.inFormat.bps)
        ∧ SamplesFit session.buffer length ∧ CountersFit session.buffer length
  | .flush => True
  | _ => False

/-- A blob has no more bytes than there is space for in the packet buffer. -/
def NotCut (session : AudioSession) : AudioAction → Prop
  | .write _ length =>
      (length : Int) ≤ toInt (session.buffer.packetBufferSize - session.buffer.bytesWritten)
  | _ => True

/-! ## Positions in the output -/

/-- Pairs of an index below `count` and one below `size` are enumerated as the indices below
`count * size`. -/
theorem flatMap_range_mul {Value : Type} (count : Nat) {size : Nat} (values : Nat → List Value) :
    ((List.range count).flatMap fun outer =>
      (List.range size).flatMap fun inner => values (outer * size + inner)) =
        (List.range (count * size)).flatMap values := by
  induction count with
  | zero => simp
  | succ count ih =>
      rw [List.range_succ, List.flatMap_append, ih, Nat.succ_mul, List.range_add,
        List.flatMap_append, List.flatMap_map]
      simp

section Positions

variable {inFormat outFormat : AudioFormat}

/-- The input frame at the time of an output frame or before lies before the end of the input
exactly if the time itself does. -/
theorem nearestFrame_lt_iff (validIn : inFormat.Valid) (validOut : outFormat.Valid)
    (frame inputFrames : Int) :
    frame * inFormat.rate / outFormat.rate < inputFrames ↔
      frame < outputFrames inFormat outFormat inputFrames := by
  have rate := validIn.rate
  rw [Int.ediv_lt_iff_lt_mul validOut.rate, outputFrames, ← Int.add_one_le_iff (a := frame),
    Int.le_ediv_iff_mul_le rate, Int.add_mul]
  omega

theorem outputFrames_nonneg (validIn : inFormat.Valid) (validOut : outFormat.Valid)
    {inputFrames : Int} (nonneg : 0 ≤ inputFrames) :
    0 ≤ outputFrames inFormat outFormat inputFrames := by
  have rate := validIn.rate
  have product := Int.mul_nonneg nonneg validOut.rate.le
  exact Int.ediv_nonneg (by omega) rate.le

/-- An output sample is wholly contained in a number of input frames exactly if it belongs to the
output frames for them. -/
theorem source_whole_iff (validIn : inFormat.Valid) (validOut : outFormat.Valid)
    (inputFrames index : Int) :
    sourceStart inFormat outFormat index + inFormat.bps ≤
        inputFrames * inFormat.channels * inFormat.bps ↔
      index < outputFrames inFormat outFormat inputFrames * outFormat.channels := by
  have channel := inputChannel_range validIn validOut index
  have bps := validIn.bps_pos
  rw [← Int.ediv_lt_iff_lt_mul validOut.channels, ← nearestFrame_lt_iff validIn validOut]
  change (inputFrame inFormat outFormat index * inFormat.channels
    + min (index % outFormat.channels) (inFormat.channels - 1)) * inFormat.bps + inFormat.bps ≤ _
      ↔ inputFrame inFormat outFormat index < inputFrames
  rw [← add_one_mul, mul_le_mul_iff_left₀ bps]
  generalize inputFrame inFormat outFormat index = frame at *
  generalize min (index % outFormat.channels) (inFormat.channels - 1) = channel' at *
  constructor
  · intro whole
    refine lt_of_mul_lt_mul_right (a := inFormat.channels) ?_ validIn.channels.le
    omega
  · intro before
    have next := Int.mul_le_mul_of_nonneg_right (Int.add_one_le_iff.mpr before)
      validIn.channels.le
    rw [Int.add_mul] at next
    omega

/-- The sample behind the output frames is not contained in the input frames. -/
theorem lt_source_behind (validIn : inFormat.Valid) (validOut : outFormat.Valid)
    (inputFrames : Int) : inputFrames * inFormat.channels * inFormat.bps <
      sourceStart inFormat outFormat
        (outputFrames inFormat outFormat inputFrames * outFormat.channels) + inFormat.bps :=
  not_le.mp fun whole => lt_irrefl _ ((source_whole_iff validIn validOut inputFrames _).mp whole)

/-- The bytes of an output sample. -/
def outputSample (inFormat outFormat : AudioFormat) (blob : Blob) (start : Int) : List UInt8 :=
  encodeSample outFormat.bps (sampleAt blob inFormat.bps start)

/-- The output samples in their order. -/
theorem resample_eq (validIn : inFormat.Valid) (validOut : outFormat.Valid) {stream : List UInt8}
    {frames : Int} (whole : (stream.length : Int) = frames * inFormat.channels * inFormat.bps) :
    resample inFormat outFormat stream =
      (List.range (outputFrames inFormat outFormat frames * outFormat.channels).toNat).flatMap
        fun index : Nat =>
          outputSample inFormat outFormat (bytesAt stream) (sourceStart inFormat outFormat index) := by
  have channels := validOut.channels
  have size : (0 : Int) < inFormat.channels * inFormat.bps :=
    Int.mul_pos validIn.channels validIn.bps_pos
  have all : (stream.length : Int) / (inFormat.channels * inFormat.bps) = frames := by
    rw [whole, Int.mul_assoc, Int.mul_ediv_cancel _ size.ne']
  have nonneg : 0 ≤ frames := by
    rw [← all]
    exact Int.ediv_nonneg (Int.natCast_nonneg _) size.le
  have count : (outputFrames inFormat outFormat frames * outFormat.channels).toNat =
      (outputFrames inFormat outFormat frames).toNat * outFormat.channels.toNat :=
    Int.toNat_mul (outputFrames_nonneg validIn validOut nonneg) channels.le
  rw [count, ← flatMap_range_mul, resample, all]
  refine List.flatMap_congr fun frame _ => List.flatMap_congr fun channel inside => ?_
  have below : (channel : Int) < outFormat.channels := by
    rw [List.mem_range] at inside
    omega
  have position : ((frame * outFormat.channels.toNat + channel : Nat) : Int) =
      channel + frame * outFormat.channels := by
    push_cast
    rw [Int.toNat_of_nonneg channels.le, Int.add_comm]
  unfold outputSample sourceStart inputFrame inputSample
  rw [position, Int.add_mul_ediv_right _ _ channels.ne', Int.add_mul_emod_self_right,
    Int.ediv_eq_zero_of_lt (Int.natCast_nonneg _) below, Int.zero_add,
    Int.emod_eq_of_lt (Int.natCast_nonneg _) below]

/-- A sample is found where its bytes are. -/
theorem sampleAt_congr {first second : Blob} {bps start shift : Int} (valid : bps = 1 ∨ bps = 2)
    (same : ∀ address, start ≤ address → address < start + bps →
      first address = second (address - shift)) :
    sampleAt first bps start = sampleAt second bps (start - shift) := by
  have here := same start le_rfl (by omega)
  unfold sampleAt
  rcases valid with rfl | rfl
  · simp only [here, Int.reduceEq, if_false]
  · have next := same (start + 1) (by omega) (by omega)
    rw [show start + 1 - shift = start - shift + 1 by omega] at next
    simp only [here, next, if_true]

/-- A sample that has been received stays the same. -/
theorem sampleAt_append_left {stream more : List UInt8} {bps start : Int}
    (valid : bps = 1 ∨ bps = 2) (nonneg : 0 ≤ start) (inside : start + bps ≤ stream.length) :
    sampleAt (bytesAt (stream ++ more)) bps start = sampleAt (bytesAt stream) bps start := by
  have same : sampleAt (bytesAt (stream ++ more)) bps start =
      sampleAt (bytesAt stream) bps (start - 0) := by
    refine sampleAt_congr valid fun address first last => ?_
    rw [bytesAt, bytesAt, Int.sub_zero, List.getD_append]
    omega
  rwa [Int.sub_zero] at same

/-- A sample that lies in the last blob. -/
theorem sampleAt_append_right {stream : List UInt8} {blob : Blob} {length : Nat} {bps start : Int}
    (valid : bps = 1 ∨ bps = 2) (after : stream.length ≤ start)
    (inside : start + bps ≤ stream.length + length) :
    sampleAt (bytesAt (stream ++ AudioAction.bytes (.write blob length))) bps start =
      sampleAt blob bps (start - stream.length) := by
  refine sampleAt_congr valid fun address first last => ?_
  have index : address.toNat - stream.length < length := by omega
  rw [bytesAt, List.getD_append_right _ _ _ _ (by omega), AudioAction.bytes,
    List.getD_eq_getElem _ _ (by simpa using index)]
  simp only [List.getElem_map, List.getElem_range]
  congr 1
  omega

/-- The samples of the output frames behind a number of input frames lie behind these. -/
theorem le_source (validIn : inFormat.Valid) (validOut : outFormat.Valid) {frames index : Int}
    (later : outputFrames inFormat outFormat frames * outFormat.channels ≤ index) :
    frames * inFormat.channels * inFormat.bps ≤ sourceStart inFormat outFormat index := by
  have frame : frames ≤ inputFrame inFormat outFormat index := by
    refine not_lt.mp fun before => absurd later (not_le.mpr ?_)
    exact (Int.ediv_lt_iff_lt_mul validOut.channels).mp
      ((nearestFrame_lt_iff validIn validOut _ _).mp before)
  exact (mul_le_mul_of_nonneg_right (mul_le_mul_of_nonneg_right frame validIn.channels.le)
    validIn.bps_pos.le).trans (inputFrame_le_sourceStart validIn validOut index)

theorem outputFrames_mono (validIn : inFormat.Valid) (validOut : outFormat.Valid)
    {fewer more : Int} (order : fewer ≤ more) :
    outputFrames inFormat outFormat fewer ≤ outputFrames inFormat outFormat more := by
  have product := Int.mul_le_mul_of_nonneg_right order validOut.rate.le
  exact Int.ediv_le_ediv validIn.rate (by omega)

/-- What a blob of whole frames adds to the output. -/
theorem resample_append (validIn : inFormat.Valid) (validOut : outFormat.Valid)
    {stream : List UInt8} (blob : Blob) {length frames more : Nat}
    (whole : (stream.length : Int) = frames * inFormat.channels * inFormat.bps)
    (added : (length : Int) = more * inFormat.channels * inFormat.bps) :
    let old := outputFrames inFormat outFormat frames * outFormat.channels
    let new := outputFrames inFormat outFormat (frames + more : Nat) * outFormat.channels
    resample inFormat outFormat (stream ++ AudioAction.bytes (.write blob length)) =
      resample inFormat outFormat stream ++
        (List.range (new - old).toNat).flatMap fun index : Nat =>
          outputSample inFormat outFormat blob
            (sourceStart inFormat outFormat (old + index) - stream.length) := by
  intro old new
  have total : ((stream ++ AudioAction.bytes (.write blob length)).length : Int) =
      (frames + more : Nat) * inFormat.channels * inFormat.bps := by
    rw [List.length_append, AudioAction.bytes, List.length_map, List.length_range]
    push_cast
    rw [whole, added]
    ring
  have nonneg : 0 ≤ old := Int.mul_nonneg
    (outputFrames_nonneg validIn validOut (Int.natCast_nonneg _)) validOut.channels.le
  have order : old ≤ new := Int.mul_le_mul_of_nonneg_right
    (outputFrames_mono validIn validOut (by omega)) validOut.channels.le
  have count : new.toNat = old.toNat + (new - old).toNat := by omega
  rw [resample_eq validIn validOut whole, resample_eq validIn validOut total]
  change (List.range new.toNat).flatMap _ = (List.range old.toNat).flatMap _ ++ _
  rw [count, List.range_add, List.flatMap_append, List.flatMap_map]
  congr 1
  · refine List.flatMap_congr fun index inside => ?_
    have before : (index : Int) < old := by
      rw [List.mem_range] at inside
      omega
    have received := (source_whole_iff validIn validOut frames index).mpr before
    rw [← whole] at received
    unfold outputSample
    rw [sampleAt_append_left validIn.bps
      (sourceStart_nonneg validIn validOut (Int.natCast_nonneg _)) received]
  · refine List.flatMap_congr fun index inside => ?_
    have position : ((old.toNat + index : Nat) : Int) = old + index := by omega
    have before : old + (index : Int) < new := by
      rw [List.mem_range] at inside
      omega
    have after : frames * inFormat.channels * inFormat.bps ≤
        sourceStart inFormat outFormat (old + index) :=
      le_source validIn validOut (by change old ≤ _; omega)
    have received := (source_whole_iff validIn validOut _ _).mpr before
    rw [← total, List.length_append, AudioAction.bytes, List.length_map, List.length_range]
      at received
    unfold outputSample
    rw [position, sampleAt_append_right validIn.bps (whole ▸ after) (by omega)]

end Positions

/-! ## The loop of a write -/

/-- A sample that is stored behind the bytes in the packet buffer. -/
theorem map_storeSample (packet : Int → UInt8) (written : Nat) (sample : UInt16) {bps : Int}
    (valid : bps = 1 ∨ bps = 2) :
    ((List.range (written + bps.toNat)).map fun address : Nat =>
        storeSample packet written bps sample address) =
      ((List.range written).map fun address : Nat => packet address) ++ encodeSample bps sample := by
  have before (address : Nat) (inside : address ∈ List.range written) :
      storeSample packet written bps sample address = packet address := by
    rw [List.mem_range] at inside
    have here : (address : Int) ≠ written := by omega
    have next : (address : Int) ≠ written + 1 := by omega
    unfold storeSample
    split
    · rw [Function.update_of_ne next, Function.update_of_ne here]
    · rw [Function.update_of_ne here]
  rw [List.range_add, List.map_append, List.map_congr_left before, List.append_cancel_left_eq]
  rcases valid with rfl | rfl
  · simp [storeSample, encodeSample]
  · simp [storeSample, encodeSample, List.range_succ]

/-- A sample that is emitted is added to the bytes in the packet buffer. -/
theorem pending_emit (buffer : AudioBuffer) (packet : buffer.packet.isSome)
    (outFormat : buffer.outFormat.Valid) (nonneg : 0 ≤ buffer.bytesWritten)
    (small : buffer.bytesWritten + buffer.outFormat.bps < 2147483648) (sample : UInt16) :
    (buffer.emit sample).pending =
      buffer.pending ++ encodeSample buffer.outFormat.bps sample := by
  have bps := outFormat.bps_pos
  obtain ⟨bytes, filled⟩ := Option.isSome_iff_exists.mp packet
  obtain ⟨written, start⟩ := Int.eq_ofNat_of_zero_le nonneg
  rw [start] at small
  have size : (toInt (written + buffer.outFormat.bps)).toNat =
      written + buffer.outFormat.bps.toNat := by
    rw [toInt_of_fits ⟨by omega, small⟩]
    omega
  simp only [AudioBuffer.pending, AudioBuffer.emit, filled, Option.map_some, start, size,
    Int.toNat_natCast]
  exact map_storeSample bytes written sample outFormat.bps

/-- What the loop has done when it ends: it has stored the samples up to `stop`, and changed nothing
else of what counts. -/
structure LoopResult (buffer after : AudioBuffer) (blob : Blob) (count : Nat) : Prop where
  same : SameStream buffer after
  halted : after.halted = buffer.halted
  packetSize : after.packetSize = buffer.packetSize
  packetBufferSize : after.packetBufferSize = buffer.packetBufferSize
  flushHandler : after.flushHandler = buffer.flushHandler
  packetsSent : after.packetsSent = buffer.packetsSent
  reads : ReadsInside after
  totalBytesSent : after.totalBytesSent = buffer.totalBytesSent + count * buffer.outFormat.bps
  bytesWritten : after.bytesWritten = buffer.bytesWritten + count * buffer.outFormat.bps
  pending : after.pending = buffer.pending ++ (List.range count).flatMap fun index : Nat =>
    outputSample buffer.inFormat buffer.outFormat blob
      (buffer.source (buffer.nextIndex + index) - buffer.totalBytesReceived)

/-- The samples that are stored behind a first one. -/
theorem LoopResult.of_emitted {buffer emitted after : AudioBuffer} {blob : Blob} {count : Nat}
    {offset blobLength : Int} {sample : UInt16} (rest : LoopResult emitted after blob count)
    (isEmitted : emitted = (buffer.noteRead offset blobLength true).emit sample)
    (isOffset : offset = buffer.source buffer.nextIndex - buffer.totalBytesReceived)
    (sent : emitted.totalBytesSent = buffer.totalBytesSent + buffer.outFormat.bps)
    (next : emitted.nextIndex = buffer.nextIndex + 1)
    (written : emitted.bytesWritten = buffer.bytesWritten + buffer.outFormat.bps)
    (stored : emitted.pending =
      buffer.pending ++ outputSample buffer.inFormat buffer.outFormat blob offset) :
    LoopResult buffer after blob (count + 1) := by
  subst isEmitted isOffset
  have more : ((count + 1 : Nat) : Int) * buffer.outFormat.bps =
      buffer.outFormat.bps + count * buffer.outFormat.bps := by
    push_cast
    ring
  refine
    { same := ((noteRead_sameStream ..).trans (emit_sameStream ..)).trans rest.same
      halted := rest.halted
      packetSize := rest.packetSize
      packetBufferSize := rest.packetBufferSize
      flushHandler := rest.flushHandler
      packetsSent := rest.packetsSent
      reads := rest.reads
      totalBytesSent := ?_
      bytesWritten := ?_
      pending := ?_ }
  · rw [rest.totalBytesSent, sent, more, Int.add_assoc]
    rfl
  · rw [rest.bytesWritten, written, more, Int.add_assoc]
    rfl
  · rw [rest.pending, stored, List.range_succ_eq_map, List.flatMap_cons, List.flatMap_map,
      List.append_assoc, next]
    congr 2
    · simp
    · refine List.flatMap_congr fun index _ => ?_
      have later : buffer.nextIndex + 1 + (index : Int) =
          buffer.nextIndex + (index.succ : Nat) := by
        omega
      rw [later]
      rfl

theorem writeLoop_result (blob : Blob) {blobLength length : Int} (cut : length ≤ blobLength)
    (count fuel : Nat) (buffer : AudioBuffer) (invariant : LoopInvariant buffer length)
    (packet : buffer.packet.isSome) (nonneg : 0 ≤ buffer.bytesWritten)
    (small : buffer.bytesWritten + count * buffer.outFormat.bps < 2147483648)
    (stops : StopsAt buffer (buffer.totalBytesReceived + length) (buffer.nextIndex + count))
    (more : count < fuel) :
    LoopResult buffer (writeLoop blob blobLength length fuel buffer) blob count := by
  induction count generalizing fuel buffer with
  | zero =>
      obtain ⟨fuel, rfl⟩ := Nat.exists_eq_add_one_of_ne_zero more.ne'
      obtain ⟨result, ahead⟩ := invariant.readSample
      have ends := stops.after
      rw [Int.natCast_zero, Int.add_zero] at ends
      rw [if_neg (not_le.mpr ends)] at result
      simp only [writeLoop, result]
      exact
        { same := ⟨rfl, rfl, rfl, rfl⟩
          halted := rfl
          packetSize := rfl
          packetBufferSize := rfl
          flushHandler := rfl
          packetsSent := rfl
          reads := invariant.reads.noteRead ahead fun read => absurd read Bool.false_ne_true
          totalBytesSent := by simp [AudioBuffer.noteRead]
          bytesWritten := by simp [AudioBuffer.noteRead]
          pending := by simp [AudioBuffer.noteRead, AudioBuffer.pending] }
  | succ count ih =>
      obtain ⟨fuel, rfl⟩ := Nat.exists_eq_add_one_of_ne_zero (Nat.ne_zero_of_lt more)
      obtain ⟨result, ahead⟩ := invariant.readSample
      have bps := invariant.outFormat.bps_pos
      have whole := stops.before buffer.nextIndex le_rfl (by omega)
      rw [if_pos whole] at result
      let offset := buffer.source buffer.nextIndex - buffer.totalBytesReceived
      let sample := sampleAt blob buffer.inFormat.bps offset
      let emitted := (buffer.noteRead offset blobLength true).emit sample
      have read : LoopInvariant (buffer.noteRead offset blobLength true) length :=
        invariant.noteRead ahead fun _ => by omega
      obtain ⟨sent, next⟩ : emitted.totalBytesSent = buffer.totalBytesSent + buffer.outFormat.bps ∧
          emitted.nextIndex = buffer.nextIndex + 1 := read.emit_counts sample whole
      have more' : ((count + 1 : Nat) : Int) * buffer.outFormat.bps =
          buffer.outFormat.bps + count * buffer.outFormat.bps := by
        push_cast
        ring
      have forward : 0 ≤ (count : Int) * buffer.outFormat.bps :=
        Int.mul_nonneg (Int.natCast_nonneg _) bps.le
      rw [more'] at small
      have written : emitted.bytesWritten = buffer.bytesWritten + buffer.outFormat.bps :=
        toInt_of_fits ⟨show -2147483648 ≤ buffer.bytesWritten + buffer.outFormat.bps by omega,
          show buffer.bytesWritten + buffer.outFormat.bps < 2147483648 by omega⟩
      have target : emitted.nextIndex + count = buffer.nextIndex + (count + 1 : Nat) := by omega
      have rest : LoopResult emitted (writeLoop blob blobLength length fuel emitted) blob count := by
        refine ih fuel emitted (read.emit sample whole) (Option.isSome_map.trans packet)
          (by omega) ?_ ?_ (by omega)
        · rw [written]
          change _ + count * buffer.outFormat.bps < _
          omega
        · rw [target]
          exact ⟨by omega, fun index later => stops.before index (by omega), stops.after⟩
      have step : writeLoop blob blobLength length (fuel + 1) buffer =
          writeLoop blob blobLength length fuel emitted := by
        simp only [writeLoop, result]
        exact if_pos invariant.outFormat.bps.symm
      have stored : emitted.pending =
          buffer.pending ++ outputSample buffer.inFormat buffer.outFormat blob offset :=
        pending_emit (buffer.noteRead offset blobLength true) packet invariant.outFormat
          nonneg (show buffer.bytesWritten + buffer.outFormat.bps < _ by omega) sample
      rw [step]
      exact rest.of_emitted rfl rfl sent next written stored

/-! ## Steps -/

/-- What holds of a session between two actions: the stream ends with a frame, all that could be
produced from it was produced, and what has not been sent of that is in the packet buffer. -/
structure InStep (inFormat outFormat : AudioFormat) (session : AudioSession) : Prop where
  sameInput : session.buffer.inFormat = inFormat
  sameOutput : session.buffer.outFormat = outFormat
  packet : session.buffer.packet.isSome
  packetSize : 0 < session.buffer.packetSize
  packetBufferSize : session.buffer.packetBufferSize ≠ 0
  flushHandler : session.buffer.flushHandler = true
  reads : ReadsInside session.buffer
  received : session.buffer.totalBytesReceived = session.received.length
  frames : ∃ frames : Nat,
    (session.received.length : Int) = frames * inFormat.channels * inFormat.bps
      ∧ session.buffer.totalBytesSent =
        outputFrames inFormat outFormat frames * outFormat.channels * outFormat.bps
  sent : session.buffer.totalBytesSent < 2147483648
  written : 0 ≤ session.buffer.bytesWritten
    ∧ session.buffer.bytesWritten ≤ session.buffer.totalBytesSent
  resamples : Resamples inFormat outFormat session

section Steps

variable {session : AudioSession} {inFormat outFormat : AudioFormat}

/-- A buffer that is ready begins in step. -/
theorem Ready.inStep {buffer : AudioBuffer} (ready : Ready buffer) :
    InStep buffer.inFormat buffer.outFormat { buffer } := by
  have rate := ready.inFormat.rate
  have none : outputFrames buffer.inFormat buffer.outFormat 0 = 0 := by
    rw [outputFrames, Int.zero_mul]
    exact Int.ediv_eq_zero_of_lt (by omega) (by omega)
  have empty : buffer.output = [] := by
    obtain ⟨packet, allocated⟩ := Option.isSome_iff_exists.mp ready.packet
    simp [AudioBuffer.output, AudioBuffer.pending, allocated, ready.packetsSent,
      ready.bytesWritten]
  refine
    { sameInput := rfl
      sameOutput := rfl
      packet := ready.packet
      packetSize := ready.packetSize
      packetBufferSize := ready.packetBufferSize
      flushHandler := ready.flushHandler
      reads := fun read member => ?_
      received := ready.totalBytesReceived
      frames := ⟨0, by simp, ?_⟩
      sent := ?_
      written := ?_
      resamples := ⟨ready.halted, ?_, fun packet member => ?_⟩ }
  · rw [ready.reads] at member
    cases member
  · simp [ready.totalBytesSent, none]
  · rw [ready.totalBytesSent]
    decide
  · rw [ready.bytesWritten, ready.totalBytesSent]
    exact ⟨le_rfl, le_rfl⟩
  · have whole : (([] : List UInt8).length : Int) =
        0 * buffer.inFormat.channels * buffer.inFormat.bps := by simp
    rw [empty, resample_eq ready.inFormat ready.outFormat whole, none]
    simp
  · rw [ready.packetsSent] at member
    cases member

theorem duration_ne_none (valid : inFormat.Valid) (length : Int) :
    duration inFormat length ≠ none := by
  have rate := valid.rate.ne'
  have channels := valid.channels.ne'
  have bps := valid.bps_pos.ne'
  simp [duration, rate, channels, bps]

/-- The first samples that are not contained are the same. -/
theorem StopsAt.unique {buffer : AudioBuffer} {received first second : Int}
    (left : StopsAt buffer received first) (right : StopsAt buffer received second) :
    first = second := by
  rcases lt_trichotomy first second with before | same | after
  · exact absurd (right.before first left.start before) (not_le.mpr left.after)
  · exact same
  · exact absurd (left.before second right.start after) (not_le.mpr right.after)

/-- A blob that is not cut short. -/
theorem write_eq {buffer : AudioBuffer} {fuel : Nat} {blob : Blob} {length : Nat}
    (valid : buffer.inFormat.Valid) (packet : buffer.packet.isSome)
    (packetBufferSize : buffer.packetBufferSize ≠ 0)
    (notCut : (length : Int) ≤ toInt (buffer.packetBufferSize - buffer.bytesWritten))
    (ends : (writeLoop blob length length fuel buffer).halted = false) :
    write fuel buffer blob length =
      { writeLoop blob length length fuel buffer with
        totalBytesReceived :=
          toInt ((writeLoop blob length length fuel buffer).totalBytesReceived + length) } := by
  have present : ¬ (buffer.packetBufferSize = 0 ∨ buffer.packet.isNone = true) := by
    rw [Option.isNone_iff_eq_none]
    exact not_or.mpr ⟨packetBufferSize, Option.isSome_iff_ne_none.mp packet⟩
  have whole : truncatedLength buffer length = length := if_neg (not_lt.mpr notCut)
  rw [write, if_neg (duration_ne_none valid length), if_neg present]
  simp only [whole, ends]
  rfl

/-- A blob of whole frames that is not cut short adds what it stands for to the output. -/
theorem InStep.write (inStep : InStep inFormat outFormat session) (validIn : inFormat.Valid)
    (validOut : outFormat.Valid) {fuel : Nat} (enough : 2147483648 ≤ fuel) {blob : Blob}
    {length : Nat} (streams : Streams session (.write blob length))
    (notCut : NotCut session (.write blob length)) :
    InStep inFormat outFormat (sessionStep fuel session (.write blob length)) := by
  obtain ⟨rfl, rfl⟩ := And.intro inStep.sameInput inStep.sameOutput
  obtain ⟨⟨more, added⟩, -, counters⟩ := streams
  obtain ⟨frames, whole, sent⟩ := inStep.frames
  obtain ⟨running, output, packets⟩ := inStep.resamples
  have bps := validOut.bps_pos
  have append := resample_append validIn validOut blob whole added
  have wholeIff := source_whole_iff validIn validOut
  have nonneg : 0 ≤ outputFrames session.buffer.inFormat session.buffer.outFormat frames :=
    outputFrames_nonneg validIn validOut (Int.natCast_nonneg _)
  have mono : outputFrames session.buffer.inFormat session.buffer.outFormat frames ≤
      outputFrames session.buffer.inFormat session.buffer.outFormat (frames + more : Nat) :=
    outputFrames_mono validIn validOut (by omega)
  have order := Int.mul_le_mul_of_nonneg_right mono validOut.channels.le
  have behind := lt_source_behind validIn validOut frames
  have behindAll := lt_source_behind validIn validOut (frames + more : Nat)
  have start := Int.mul_nonneg nonneg validOut.channels.le
  have total : session.buffer.totalBytesReceived + length =
      (frames + more : Nat) * session.buffer.inFormat.channels * session.buffer.inFormat.bps := by
    rw [inStep.received, whole, added]
    push_cast
    ring
  generalize isOld : outputFrames session.buffer.inFormat session.buffer.outFormat frames
    * session.buffer.outFormat.channels = old at *
  generalize isNew : outputFrames session.buffer.inFormat session.buffer.outFormat
    (frames + more : Nat) * session.buffer.outFormat.channels = new at *
  obtain ⟨count, isCount⟩ := Int.eq_ofNat_of_zero_le (Int.sub_nonneg_of_le order)
  have next : session.buffer.nextIndex = old := by
    rw [AudioBuffer.nextIndex, sent, Int.mul_ediv_cancel _ bps.ne']
  have stops : StopsAt session.buffer (session.buffer.totalBytesReceived + length) new := by
    rw [total]
    refine ⟨by omega, fun index _ before => (wholeIff _ index).mpr ?_, behindAll⟩
    rwa [isNew]
  obtain ⟨lower, upper, stop, found, small, fits⟩ := counters
  obtain rfl : stop = new := found.unique stops
  rw [next, isCount] at fits
  have countNonneg : (0 : Int) ≤ count * session.buffer.outFormat.bps :=
    Int.mul_nonneg (Int.natCast_nonneg _) bps.le
  have countFits : (count : Int) ≤ count * session.buffer.outFormat.bps :=
    le_mul_of_one_le_right (Int.natCast_nonneg _) bps
  have sentNonneg : 0 ≤ session.buffer.totalBytesSent := sent ▸ Int.mul_nonneg start bps.le
  have written := inStep.written
  have receivedNonneg : 0 ≤ session.buffer.totalBytesReceived := by
    rw [inStep.received]
    exact Int.natCast_nonneg _
  have aligned : Aligned session.buffer := by
    refine aligned_of_wholeFrames validIn validOut frames (inStep.received.trans whole) ?_
    rw [inStep.received, whole, next]
    exact behind
  have invariant : LoopInvariant session.buffer length :=
    ⟨validIn, validOut, sentNonneg, receivedNonneg, inStep.reads, aligned,
      ⟨lower, upper, stop, found, small, by rwa [next, isCount]⟩⟩
  have loop := writeLoop_result blob (le_refl (length : Int)) count fuel session.buffer invariant
    inStep.packet written.1 (by omega)
    (by rwa [next, show old + (count : Int) = stop by omega]) (by omega)
  have step : sessionStep fuel session (.write blob length) =
      { buffer :=
          { writeLoop blob length length fuel session.buffer with
            totalBytesReceived := session.buffer.totalBytesReceived + length }
        received := session.received ++ AudioAction.bytes (.write blob length) } := by
    have written := write_eq validIn inStep.packet inStep.packetBufferSize notCut
      (loop.halted.trans running)
    rw [loop.same.received, toInt_of_fits ⟨by omega, upper⟩] at written
    simp only [sessionStep, audioStep, running, Bool.false_eq_true, if_false, written]
  rw [step]
  have length' : ((session.received ++ AudioAction.bytes (.write blob length)).length : Int) =
      session.received.length + length := by
    rw [List.length_append, AudioAction.bytes, List.length_map, List.length_range]
    rfl
  exact
    { sameInput := loop.same.inFormat
      sameOutput := loop.same.outFormat
      packet := loop.same.packet.trans inStep.packet
      packetSize := loop.packetSize ▸ inStep.packetSize
      packetBufferSize := loop.packetBufferSize ▸ inStep.packetBufferSize
      flushHandler := loop.flushHandler.trans inStep.flushHandler
      reads := loop.reads
      received := by rw [length', ← inStep.received]
      frames := by
        refine ⟨frames + more, ?_, ?_⟩
        · rw [length', ← inStep.received, total]
        · dsimp only
          rw [isNew, loop.totalBytesSent, sent, ← Int.add_mul]
          congr 1
          omega
      sent := by
        dsimp only
        rw [loop.totalBytesSent]
        exact fits
      written := by
        dsimp only
        rw [loop.bytesWritten, loop.totalBytesSent]
        omega
      resamples := by
        refine ⟨loop.halted.trans running, ?_, ?_⟩
        · change (writeLoop blob length length fuel session.buffer).packetsSent.flatten
            ++ (writeLoop blob length length fuel session.buffer).pending = _
          rw [loop.packetsSent, loop.pending, ← List.append_assoc, append, isCount, next,
            inStep.received, ← output]
          rfl
        · intro packet member
          dsimp only at member ⊢
          rw [loop.packetsSent] at member
          rw [loop.packetSize]
          exact packets packet member }

/-- The bytes of a packet buffer from which the first packet has been removed. -/
theorem map_shiftPacket (packet : Int → UInt8) (size remaining : Nat) :
    ((List.range (size + remaining)).map fun address : Nat => packet address) =
      ((List.range size).map fun address : Nat => packet address) ++
        (List.range remaining).map fun address : Nat =>
          shiftPacket packet size remaining address := by
  rw [List.range_add, List.map_append, List.map_map]
  congr 1
  refine List.map_congr_left fun address inside => ?_
  rw [List.mem_range] at inside
  rw [shiftPacket, if_pos (by omega), Function.comp_apply]
  congr 1
  omega

/-- A flush sends the first packet of what is in the buffer, and keeps the rest. -/
theorem InStep.flush (inStep : InStep inFormat outFormat session) (validOut : outFormat.Valid)
    (fuel : Nat) : InStep inFormat outFormat (sessionStep fuel session .flush) := by
  obtain ⟨running, output, packets⟩ := inStep.resamples
  obtain ⟨nonneg, bounded⟩ := inStep.written
  have small := inStep.sent
  obtain ⟨packet, allocated⟩ := Option.isSome_iff_exists.mp inStep.packet
  have flushed : (sessionStep fuel session .flush) =
      { session with buffer := Audio.flush session.buffer } := by
    simp [sessionStep, audioStep, running, AudioAction.bytes]
  rw [flushed]
  cases due : mayFlush session.buffer with
  | false =>
      rw [Audio.flush, due]
      exact inStep
  | true =>
      have size := packetSize_le_of_mayFlush nonneg (by omega) due
      obtain ⟨remaining, rest⟩ := Int.eq_ofNat_of_zero_le (Int.sub_nonneg_of_le size)
      have shorter : toInt (session.buffer.bytesWritten - session.buffer.packetSize) =
          (remaining : Int) := by
        rw [rest, toInt_of_fits ⟨by omega, by omega⟩]
      have step : Audio.flush session.buffer =
          { session.buffer with
            packetsSent := session.buffer.packetsSent ++
              [(List.range session.buffer.packetSize).map fun address : Nat => packet address]
            bytesWritten := remaining
            packet := some (shiftPacket packet session.buffer.packetSize remaining) } := by
        have ratio := duration_ne_none validOut session.buffer.bytesWritten
        rw [← inStep.sameOutput] at ratio
        simp only [Audio.flush, due, ratio, Bool.not_true, Bool.false_eq_true, if_false, shorter,
          inStep.flushHandler, allocated, Option.map_some]
      rw [step]
      refine
        { sameInput := inStep.sameInput
          sameOutput := inStep.sameOutput
          packet := rfl
          packetSize := inStep.packetSize
          packetBufferSize := inStep.packetBufferSize
          flushHandler := inStep.flushHandler
          reads := inStep.reads
          received := inStep.received
          frames := inStep.frames
          sent := inStep.sent
          written := ⟨Int.natCast_nonneg _, ?_⟩
          resamples := ⟨running, ?_, fun sent member => ?_⟩ }
      · dsimp only
        omega
      · have bytes : session.buffer.bytesWritten.toNat =
            session.buffer.packetSize + remaining := by omega
        rw [← output]
        simp only [AudioBuffer.output, AudioBuffer.pending, allocated, bytes, map_shiftPacket,
          List.flatten_append, List.flatten_singleton, List.append_assoc, Int.toNat_natCast]
      · rcases List.mem_append.mp member with earlier | now
        · exact packets sent earlier
        · rw [List.mem_singleton.mp now, List.length_map, List.length_range]

/-- An action of a stream that is not cut short keeps the session in step. -/
theorem InStep.step (inStep : InStep inFormat outFormat session) (validIn : inFormat.Valid)
    (validOut : outFormat.Valid) {fuel : Nat} (enough : 2147483648 ≤ fuel) {action : AudioAction}
    (streams : Streams session action) (notCut : NotCut session action) :
    InStep inFormat outFormat (sessionStep fuel session action) := by
  cases action with
  | write blob length => exact inStep.write validIn validOut enough streams notCut
  | flush => exact inStep.flush validOut fuel
  | setStream | setOutput | begin_ | end_ => exact streams.elim

end Steps

/-- Every run that brings the stream in blobs which are not cut short leads to the same output. -/
theorem always_resamples {fuel : Nat} (enough : 2147483648 ≤ fuel) {buffer : AudioBuffer}
    (ready : Ready buffer) {actions : List AudioAction}
    (streams : Guarded (sessionStep fuel) (fun session action =>
      Streams session action ∧ NotCut session action) { buffer } actions) :
    Always (sessionStep fuel) (Resamples buffer.inFormat buffer.outFormat) { buffer } actions :=
  (streams.always ready.inStep fun _ _ inStep both =>
    inStep.step ready.inFormat ready.outFormat enough both.1 both.2).mono
      fun _ inStep => inStep.resamples

/-- **The output is the stream resampled as a whole, whatever the blobs in which it arrives and
whenever packets are flushed, if no blob has more bytes than there is space for. Two ways to send
the same stream have the same output.** -/
theorem stream_resampled (fuel : Nat) (enough : 2147483648 ≤ fuel) (buffer : AudioBuffer)
    (ready : Ready buffer) (actions : List AudioAction)
    (streams : Guarded (sessionStep fuel) (fun session action =>
      Streams session action ∧ NotCut session action) { buffer } actions) :
    Always (sessionStep fuel) (Resamples buffer.inFormat buffer.outFormat) { buffer } actions ∧
      ∀ others, Guarded (sessionStep fuel) (fun session action =>
          Streams session action ∧ NotCut session action) { buffer } others →
        (exec (sessionStep fuel) { buffer } others).received =
          (exec (sessionStep fuel) { buffer } actions).received →
        (exec (sessionStep fuel) { buffer } others).buffer.output =
          (exec (sessionStep fuel) { buffer } actions).buffer.output := by
  have resampled := always_resamples enough ready streams
  refine ⟨resampled, fun others also same => ?_⟩
  rw [(always_resamples enough ready also).last.2.1, resampled.last.2.1, same]

/-- A buffer with room for four bytes, for 16-bit samples that are sent as 8-bit ones. -/
def narrowing : AudioBuffer :=
  exec (audioStep 0) .alloc
    [.setStream ⟨16, 1, 2⟩, .setOutput ⟨16, 1, 1⟩, .begin_ 1 (some fun _ => 0)]

theorem narrowing_ready : Ready narrowing where
  inFormat := ⟨by decide, by decide, .inr rfl⟩
  outFormat := ⟨by decide, by decide, .inl rfl⟩
  packet := rfl
  packetSize := by decide
  packetBufferSize := by decide
  flushHandler := rfl
  bytesWritten := rfl
  totalBytesReceived := rfl
  totalBytesSent := rfl
  packetsSent := rfl
  reads := rfl
  halted := rfl

theorem narrowing_source (index : Int) : narrowing.source index = index * 2 := by
  change (index / 1 * 16 / 16 * 1 + min (index % 1) (1 - 1)) * 2 = index * 2
  omega

/-- A blob whose samples leave room in the buffer. -/
theorem narrowing_streams (count : Nat) (few : count ≤ 3) (blob : Blob)
    (stops : readSample ⟨16, 1, 2⟩ ⟨16, 1, 1⟩ (toInt (0 + (count : Int) * 1)) 0 (2 * count : Nat) =
      .nothing (count * 2)) :
    Streams { buffer := narrowing } (.write blob (2 * count)) := by
  have empty : narrowing.bytesWritten = 0 ∧ narrowing.totalBytesReceived = 0
      ∧ narrowing.totalBytesSent = 0 ∧ narrowing.nextIndex = 0 := ⟨rfl, rfl, rfl, rfl⟩
  have formats : narrowing.inFormat.bps = 2 ∧ narrowing.inFormat.channels = 1
      ∧ narrowing.outFormat.bps = 1 ∧ narrowing.packetBufferSize = 4 := ⟨rfl, rfl, rfl, rfl⟩
  refine ⟨⟨count, ?_⟩, ⟨count, ?_, ?_, ?_⟩, ?_, ?_, count, ⟨?_, fun index _ before => ?_, ?_⟩, ?_, ?_⟩
  · simp only [formats]
    omega
  · simp only [empty, formats]
    omega
  · simp only [empty, formats]
    omega
  · rintro ⟨offset, read⟩
    cases stops.symm.trans read
  all_goals
    simp only [empty, formats, narrowing_source]
    omega

/-- Two samples are sent one after the other. -/
theorem stream_resampled_two :
    Always (sessionStep 2147483648) (Resamples narrowing.inFormat narrowing.outFormat)
      { buffer := narrowing } [.write (bytesAt [1, 2, 3, 4]) 4, .flush] := by
  refine (stream_resampled 2147483648 le_rfl narrowing narrowing_ready _ ?_).1
  have streams := narrowing_streams 2 (by decide) (bytesAt [1, 2, 3, 4]) (by decide)
  have room : (4 : Int) ≤ toInt (narrowing.packetBufferSize - narrowing.bytesWritten) := by decide
  exact ⟨⟨streams, room⟩, ⟨trivial, trivial⟩, trivial⟩

/-- Three samples are six bytes, of which only four are taken, although there is room for the three
bytes that they are sent as. -/
theorem stream_cut_short :
    Guarded (sessionStep 9) Streams { buffer := narrowing }
        [.write (bytesAt [1, 2, 3, 4, 5, 6]) 6] ∧
      ¬ Always (sessionStep 9) (Resamples narrowing.inFormat narrowing.outFormat)
        { buffer := narrowing } [.write (bytesAt [1, 2, 3, 4, 5, 6]) 6] := by
  refine ⟨⟨narrowing_streams 3 (by decide) _ (by decide), trivial⟩, fun always => ?_⟩
  have output := always.last.2.1
  revert output
  decide

end GuacNebula.Audio
