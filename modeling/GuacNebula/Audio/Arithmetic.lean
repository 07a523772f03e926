import GuacNebula.Lib.Computed
import GuacNebula.Audio.SampleAddressing
import Mathlib.Algebra.Order.BigOperators.GroupWithZero.List

/-! # The arithmetic of the audio buffer

The buffer computes durations, sizes, times and positions from the two formats, which come from two
remote parties. Sizes are products that are checked, and end the process if they overflow. All else
is computed in `int` and `uint64_t` as it is. Each computation here is one of the source's, with
every operation that may fault, and has a condition on its input that is necessary and enough for it
to be sound.
-/

namespace GuacNebula.Audio

open GuacNebula.CInt Computed

/-! ## The computations -/

/-- The number of nanoseconds in one second. -/
def nanosPerSecond : Nat := 1000000000

/-- `struct timespec`. A clock is far from the end of `time_t`, and its seconds are not limited. -/
structure Timespec where
  sec : Int
  nsec : Nat
  nsec_lt : nsec < nanosPerSecond

/-- `guac_rdp_audio_buffer_duration`. -/
def computeDuration (format : AudioFormat) (length : Int) : Computed Int := do
  let product ← int (length * 1000)
  let frames ← quotient product format.rate
  let samples ← quotient frames format.bps
  quotient samples format.channels

/-- `guac_rdp_audio_buffer_length`. -/
def computeLength (format : AudioFormat) (milliseconds : Int) : Computed Nat := do
  let product ← guarded (checkedMul [toSize milliseconds, toSize format.rate, toSize format.bps,
    toSize format.channels])
  sizeQuotient product 1000

/-- The sizes of `guac_rdp_audio_buffer_begin`. -/
def computeBegin (format : AudioFormat) (packetFrames : Int) : Computed (Nat × Nat) := do
  let packetSize ←
    guarded (checkedMul [toSize packetFrames, toSize format.channels, toSize format.bps])
  let idealSize ← computeLength format minDuration
  let sum ← guarded (checkedAdd idealSize packetSize)
  let rounded ← guarded (checkedSub sum 1)
  let idealPackets ← sizeQuotient rounded packetSize
  let packetBufferSize ← guarded (checkedMul [idealPackets, packetSize])
  let _ ← computeDuration format (toInt packetBufferSize)
  return (packetSize, packetBufferSize)

/-- The delay that `guac_rdp_audio_buffer_schedule_flush` amortizes. -/
def amortize (delta : Nat) (packetsRemaining : Int) : Computed Nat :=
  if packetsRemaining > 1 then do
    let product ← size (delta * toSize (packetsRemaining - 1))
    sizeQuotient product (toSize packetsRemaining)
  else return delta

/-- `guac_rdp_audio_buffer_schedule_flush`, at a time. -/
def computeScheduleFlush (format : AudioFormat) (packetSize : Nat) (bytesWritten : Int)
    (now : Timespec) : Computed Timespec := do
  let nanos ← size (packetSize * nanosPerSecond)
  let frames ← sizeQuotient nanos (toSize format.rate)
  let samples ← sizeQuotient frames (toSize format.bps)
  let delta ← sizeQuotient samples (toSize format.channels)
  let packets ← sizeQuotient (toSize bytesWritten) packetSize
  let delta ← amortize delta (toInt packets)
  let nsecs ← size (now.nsec + delta)
  return {
    sec := now.sec + (nsecs / nanosPerSecond : Nat)
    nsec := nsecs % nanosPerSecond
    nsec_lt := Nat.mod_lt _ (by decide) }

/-- A frame of the output as one of the input. The ratio of the rates is an exact rational. -/
def scaleFrame (frame inRate outRate : Int) : Computed Int :=
  if outRate = 0 then .fault else int ((frame * inRate).tdiv outRate)

/-- An output channel as one of the input. -/
def clampChannel (channel channels : Int) : Computed Int :=
  if channel ≥ channels then int (channels - 1) else return channel

/-- The end of `guac_rdp_audio_buffer_read_sample`, which stops where its assertion fails. -/
def readAt (inFormat : AudioFormat) (length offset : Int) : Computed ReadResult :=
  if offset < 0 then .stopped
  else do
    let rest ← int (length - offset)
    return if rest < inFormat.bps then .nothing offset
      else if inFormat.bps = 2 ∨ inFormat.bps = 1 then .sample offset
      else .nothing offset

/-- `guac_rdp_audio_buffer_read_sample`. -/
def computeReadSample (inFormat outFormat : AudioFormat)
    (totalBytesSent totalBytesReceived length : Int) : Computed ReadResult := do
  let outSample ← quotient totalBytesSent outFormat.bps
  let outFrame ← quotient outSample outFormat.channels
  let channel ← clampChannel (outSample.tmod outFormat.channels) inFormat.channels
  let frame ← scaleFrame outFrame inFormat.rate outFormat.rate
  let product ← int (frame * inFormat.channels)
  let sample ← int (product + channel)
  let bytes ← int (sample * inFormat.bps)
  let offset ← int (bytes - totalBytesReceived)
  readAt inFormat length offset

/-! ## Their conditions -/

/-- The length can be multiplied, and all that it is divided by is not zero. -/
structure DurationFits (format : AudioFormat) (length : Int) : Prop where
  product : FitsInt (length * 1000)
  rate : format.rate ≠ 0
  bps : format.bps ≠ 0
  channels : format.channels ≠ 0

/-- The bytes of a packet. -/
def packetBytes (format : AudioFormat) (packetFrames : Int) : Nat :=
  toSize packetFrames * toSize format.channels * toSize format.bps

/-- A thousand times the bytes of as much audio as the buffer has room for at least. -/
def idealProduct (format : AudioFormat) : Nat :=
  250 * toSize format.rate * toSize format.bps * toSize format.channels

/-- The bytes of the whole packets that have room for this. -/
def wholePackets (format : AudioFormat) (packetFrames : Int) : Nat :=
  (idealProduct format / 1000 + packetBytes format packetFrames - 1)
    / packetBytes format packetFrames * packetBytes format packetFrames

/-- A check ends the process: a size is too large, or there is nothing to be stored. -/
def BeginStops (format : AudioFormat) (packetFrames : Int) : Prop :=
  sizeLimit ≤ packetBytes format packetFrames ∨ sizeLimit ≤ idealProduct format ∨
    sizeLimit ≤ idealProduct format / 1000 + packetBytes format packetFrames ∨
    idealProduct format / 1000 + packetBytes format packetFrames = 0

/-- A check ends the process, or packets are not empty, and the buffer for them has a duration. -/
def BeginFits (format : AudioFormat) (packetFrames : Int) : Prop :=
  BeginStops format packetFrames ∨
    packetBytes format packetFrames ≠ 0 ∧
      DurationFits format (toInt (wholePackets format packetFrames))

/-- All that a delay is divided by is not zero. -/
structure Divides (format : AudioFormat) : Prop where
  rate : toSize format.rate ≠ 0
  bps : toSize format.bps ≠ 0
  channels : toSize format.channels ≠ 0

/-- The nanoseconds that a packet lasts. -/
def packetNanos (format : AudioFormat) (packetSize : Nat) : Nat :=
  packetSize * nanosPerSecond / toSize format.rate / toSize format.bps / toSize format.channels

/-- The number of packets that have been written. -/
def packetsWritten (packetSize : Nat) (bytesWritten : Int) : Int :=
  toInt (toSize bytesWritten / packetSize : Nat)

/-- The nanoseconds that a packet lasts, as many times as there are packets behind it. -/
def nanosBehind (format : AudioFormat) (packetSize : Nat) (bytesWritten : Int) : Nat :=
  packetNanos format packetSize * (packetsWritten packetSize bytesWritten - 1).toNat

/-- The time until the next flush. -/
def flushDelay (format : AudioFormat) (packetSize : Nat) (bytesWritten : Int) : Nat :=
  if 1 < packetsWritten packetSize bytesWritten then
    nanosBehind format packetSize bytesWritten / (packetsWritten packetSize bytesWritten).toNat
  else packetNanos format packetSize

/-- A flush can be scheduled: besides the divisors, the products and the sum are within 64 bits, as
they are unless the bytes that have been written are negative. -/
structure ScheduleFits (format : AudioFormat) (packetSize : Nat) (bytesWritten : Int)
    (now : Timespec) : Prop where
  divides : Divides format
  packet : packetSize ≠ 0
  nanos : packetSize * nanosPerSecond < sizeLimit
  behind : nanosBehind format packetSize bytesWritten < sizeLimit
  sum : now.nsec + flushDelay format packetSize bytesWritten < sizeLimit

/-- The input frame of the next output sample. -/
def readFrame (inFormat outFormat : AudioFormat) (totalBytesSent : Int) : Int :=
  ((totalBytesSent.tdiv outFormat.bps).tdiv outFormat.channels * inFormat.rate).tdiv outFormat.rate

/-- The input channel of the next output sample. -/
def readChannel (inFormat outFormat : AudioFormat) (totalBytesSent : Int) : Int :=
  min ((totalBytesSent.tdiv outFormat.bps).tmod outFormat.channels) (inFormat.channels - 1)

/-- The input sample of the next output sample. -/
def readIndex (inFormat outFormat : AudioFormat) (totalBytesSent : Int) : Int :=
  readFrame inFormat outFormat totalBytesSent * inFormat.channels +
    readChannel inFormat outFormat totalBytesSent

/-- A sample can be looked up: the divisors are not zero, and all numbers on the way to the offset
are those of an `int`. -/
structure ReadFits (inFormat outFormat : AudioFormat)
    (totalBytesSent totalBytesReceived length : Int) : Prop where
  bps : outFormat.bps ≠ 0
  channels : outFormat.channels ≠ 0
  rate : outFormat.rate ≠ 0
  channel : FitsInt (readChannel inFormat outFormat totalBytesSent)
  frame : FitsInt (readFrame inFormat outFormat totalBytesSent)
  product : FitsInt (readFrame inFormat outFormat totalBytesSent * inFormat.channels)
  sample : FitsInt (readIndex inFormat outFormat totalBytesSent)
  position : FitsInt (readIndex inFormat outFormat totalBytesSent * inFormat.bps)
  offset : FitsInt
    (readIndex inFormat outFormat totalBytesSent * inFormat.bps - totalBytesReceived)
  rest : totalBytesReceived ≤ readIndex inFormat outFormat totalBytesSent * inFormat.bps →
    FitsInt (length -
      (readIndex inFormat outFormat totalBytesSent * inFormat.bps - totalBytesReceived))

/-! ## Durations and sizes -/

section Sizes

variable {format : AudioFormat}

/-- A quotient is no further from zero than what is divided. -/
theorem tdiv_within {dividend : Int} (within : dividend.natAbs ≤ 2147483647) (divisor : Int) :
    (dividend.tdiv divisor).natAbs ≤ 2147483647 ∧ FitsInt (dividend.tdiv divisor) := by
  have less := Int.natAbs_tdiv_le_natAbs dividend divisor
  exact ⟨by omega, by omega, by omega⟩

/-- A thousand times a length is never the least `int`, so that no quotient overflows. -/
theorem computeDuration_sound (format : AudioFormat) (length : Int) :
    (computeDuration format length).Sound ↔ DurationFits format length := by
  unfold computeDuration
  rw [sound_int_bind, sound_quotient_bind, sound_quotient_bind, sound_quotient]
  constructor
  · rintro ⟨product, rate, _, bps, _, channels, _⟩
    exact ⟨product, rate, bps, channels⟩
  · rintro ⟨product, rate, bps, channels⟩
    have within : (length * 1000).natAbs ≤ 2147483647 := by
      unfold FitsInt at product
      omega
    have frames := tdiv_within within format.rate
    have samples := tdiv_within frames.1 format.bps
    have quotients := tdiv_within samples.1 format.channels
    exact ⟨product, rate, frames.2, bps, samples.2, channels, quotients.2⟩

/-- What is computed without a fault is what the model of the buffer computes. -/
theorem computeDuration_eq {length milliseconds : Int}
    (computed : computeDuration format length = .value milliseconds) :
    duration format length = some milliseconds := by
  have fits := (computeDuration_sound format length).mp (by rw [computed]; exact sound_value _)
  unfold computeDuration at computed
  obtain ⟨product, first, computed⟩ := bind_eq_value.mp computed
  obtain ⟨frames, second, computed⟩ := bind_eq_value.mp computed
  obtain ⟨samples, third, last⟩ := bind_eq_value.mp computed
  rw [int_of_fits fits.product] at first
  cases first
  rw [quotient_eq_value] at second third last
  rw [duration, if_neg (not_or.mpr ⟨fits.rate, not_or.mpr ⟨fits.bps, fits.channels⟩⟩),
    toInt_of_fits fits.product, second.2.2, third.2.2, last.2.2]

theorem toSize_lt (value : Int) : toSize value < sizeLimit := by
  unfold toSize sizeLimit
  omega

/-- A product is checked after each factor, and no less than the factors before a zero. -/
theorem checkedMulFrom_eq_some {factors : List Nat} {product result : Nat} :
    checkedMulFrom product factors = some result →
      result = product * factors.prod ∧ (factors ≠ [] → result < sizeLimit) := by
  induction factors generalizing product with
  | nil =>
      intro same
      cases same
      exact ⟨(Nat.mul_one _).symm, fun nonempty => absurd rfl nonempty⟩
  | cons factor factors ih =>
      intro computed
      rw [checkedMulFrom, checkedSize] at computed
      split at computed
      next small =>
        obtain ⟨same, below⟩ := ih computed
        refine ⟨by rw [same, List.prod_cons, Nat.mul_assoc], fun _ => ?_⟩
        cases factors with
        | nil => rwa [same, List.prod_nil, Nat.mul_one]
        | cons => exact below (List.cons_ne_nil _ _)
      next => cases computed

theorem checkedMulFrom_of_lt (product : Nat) {factors : List Nat}
    (positive : ∀ factor ∈ factors, 0 < factor) (small : product * factors.prod < sizeLimit) :
    checkedMulFrom product factors = some (product * factors.prod) := by
  induction factors generalizing product with
  | nil => rw [checkedMulFrom, List.prod_nil, Nat.mul_one]
  | cons factor factors ih =>
      rw [List.prod_cons, ← Nat.mul_assoc] at small ⊢
      have rest := (List.forall_mem_cons.mp positive).2
      have least : 0 < factors.prod := List.prod_pos rest
      have part : product * factor ≤ product * factor * factors.prod :=
        Nat.le_mul_of_pos_right _ least
      rw [checkedMulFrom, checkedSize, if_pos (by omega)]
      exact ih _ rest small

/-- A thousandth of a product has no fault. -/
theorem computeLength_eq (format : AudioFormat) (milliseconds : Int) :
    computeLength format milliseconds = guarded (bufferLength format milliseconds) := by
  unfold computeLength bufferLength
  cases checkedMul [toSize milliseconds, toSize format.rate, toSize format.bps,
    toSize format.channels] <;> rfl

/-- Where no check ends the process, the number of channels and the size of a sample are not zero,
since there would be nothing to be stored. -/
theorem channels_pos_of_not_stops {packetFrames : Int} (goes : ¬BeginStops format packetFrames) :
    0 < toSize format.channels ∧ 0 < toSize format.bps := by
  unfold BeginStops packetBytes idealProduct at goes
  constructor <;> refine Nat.pos_of_ne_zero fun zero => goes ?_ <;> rw [zero] <;>
    simp only [Nat.mul_zero, Nat.zero_mul, Nat.zero_div, or_true]

theorem packetSize_eq {packetFrames : Int} (goes : ¬BeginStops format packetFrames) :
    checkedMul [toSize packetFrames, toSize format.channels, toSize format.bps] =
      some (packetBytes format packetFrames) := by
  obtain ⟨channels, bps⟩ := channels_pos_of_not_stops goes
  have small : packetBytes format packetFrames < sizeLimit :=
    Nat.lt_of_not_le fun wide => goes (Or.inl wide)
  have first := toSize_lt packetFrames
  unfold packetBytes at small ⊢
  have positive : ∀ factor ∈ [toSize format.channels, toSize format.bps], 0 < factor :=
    List.forall_mem_cons.mpr ⟨channels, List.forall_mem_singleton.mpr bps⟩
  rw [Nat.mul_assoc] at small ⊢
  rw [checkedMul, checkedMulFrom, checkedSize, Nat.one_mul, if_pos first]
  have product := checkedMulFrom_of_lt (toSize packetFrames) positive
  simp only [List.prod_cons, List.prod_nil, Nat.mul_one] at product
  exact product small

theorem idealSize_eq {packetFrames : Int} (goes : ¬BeginStops format packetFrames) :
    bufferLength format minDuration = some (idealProduct format / 1000) := by
  obtain ⟨channels, bps⟩ := channels_pos_of_not_stops goes
  have small : idealProduct format < sizeLimit :=
    Nat.lt_of_not_le fun wide => goes (Or.inr (Or.inl wide))
  unfold idealProduct at small ⊢
  have positive : ∀ factor ∈ [toSize format.bps, toSize format.channels], 0 < factor :=
    List.forall_mem_cons.mpr ⟨bps, List.forall_mem_singleton.mpr channels⟩
  have product := checkedMulFrom_of_lt (250 * toSize format.rate) positive
  simp only [List.prod_cons, List.prod_nil, Nat.mul_one, ← Nat.mul_assoc] at product
  have part : 250 * toSize format.rate ≤
      250 * toSize format.rate * toSize format.bps * toSize format.channels :=
    Nat.le_trans (Nat.le_mul_of_pos_right _ bps) (Nat.le_mul_of_pos_right _ channels)
  have duration : checkedSize 250 = some 250 := by decide
  rw [bufferLength, checkedMul, checkedMulFrom, Nat.one_mul, show toSize minDuration = 250 from rfl,
    duration, Option.bind_some, checkedMulFrom, checkedSize, if_pos (by omega), Option.bind_some,
    product small, Option.map_some]

/-- Whole packets are no longer than what is rounded up to them. -/
theorem wholePackets_lt {packetFrames : Int} (goes : ¬BeginStops format packetFrames) :
    wholePackets format packetFrames < sizeLimit := by
  have sum : idealProduct format / 1000 + packetBytes format packetFrames < sizeLimit :=
    Nat.lt_of_not_le fun wide => goes (Or.inr (Or.inr (Or.inl wide)))
  have rounded := Nat.div_mul_le_self
    (idealProduct format / 1000 + packetBytes format packetFrames - 1)
    (packetBytes format packetFrames)
  unfold wholePackets
  omega

theorem bufferSize_eq {packetFrames : Int} (goes : ¬BeginStops format packetFrames)
    (filled : packetBytes format packetFrames ≠ 0) :
    checkedMul [(idealProduct format / 1000 + packetBytes format packetFrames - 1)
        / packetBytes format packetFrames, packetBytes format packetFrames] =
      some (wholePackets format packetFrames) := by
  have small := wholePackets_lt goes
  unfold wholePackets at small ⊢
  generalize (idealProduct format / 1000 + packetBytes format packetFrames - 1)
    / packetBytes format packetFrames = packets at *
  have part := Nat.le_mul_of_pos_right packets (Nat.pos_of_ne_zero filled)
  have product := checkedMulFrom_of_lt packets
    (List.forall_mem_singleton.mpr (Nat.pos_of_ne_zero filled))
  rw [List.prod_singleton] at product
  rw [checkedMul, checkedMulFrom, checkedSize, Nat.one_mul, if_pos (by omega), Option.bind_some,
    product small]

/-- Where a check ends the process, it is reached before any division. -/
theorem stops_of_beginStops {packetFrames : Int} (stops : BeginStops format packetFrames)
    {packetSize idealSize sum rounded : Nat}
    (packet : checkedMul [toSize packetFrames, toSize format.channels, toSize format.bps] =
      some packetSize)
    (ideal : bufferLength format minDuration = some idealSize)
    (total : checkedAdd idealSize packetSize = some sum) (less : checkedSub sum 1 = some rounded) :
    False := by
  obtain ⟨samePacket, smallPacket⟩ := checkedMulFrom_eq_some packet
  obtain ⟨product, checked, rfl⟩ := Option.map_eq_some_iff.mp ideal
  obtain ⟨sameIdeal, smallIdeal⟩ := checkedMulFrom_eq_some checked
  simp only [List.prod_cons, List.prod_nil, Nat.mul_one, Nat.one_mul, ← Nat.mul_assoc]
    at samePacket sameIdeal
  have bounded := smallPacket (List.cons_ne_nil _ _)
  have within := smallIdeal (List.cons_ne_nil _ _)
  rw [samePacket] at bounded total
  rw [sameIdeal] at within total
  unfold checkedAdd checkedSize at total
  unfold checkedSub at less
  split at total
  next small =>
    cases total
    split at less
    next one =>
      unfold BeginStops packetBytes idealProduct at stops
      change _ ∨ sizeLimit ≤ toSize minDuration * _ * _ * _ ∨
        sizeLimit ≤ toSize minDuration * _ * _ * _ / 1000 + _ ∨
        toSize minDuration * _ * _ * _ / 1000 + _ = 0 at stops
      omega
    next => cases less
  next => cases total

/-- The sizes are computed without a fault if a check ends the process before, or packets are not
empty and the buffer that they are put into has a duration. -/
theorem computeBegin_sound (format : AudioFormat) (packetFrames : Int) :
    (computeBegin format packetFrames).Sound ↔ BeginFits format packetFrames := by
  unfold computeBegin
  simp only [computeLength_eq, sound_guarded_bind, sound_sizeQuotient_bind]
  by_cases stops : BeginStops format packetFrames
  · exact iff_of_true (fun _ packet _ ideal _ total _ less =>
      (stops_of_beginStops stops packet ideal total less).elim) (Or.inl stops)
  · have goes := stops
    unfold BeginStops at goes
    obtain ⟨_, _, small, nonzero⟩ := by simpa only [not_or, Nat.not_le] using goes
    have whole := wholePackets_lt stops
    rw [packetSize_eq stops, idealSize_eq stops, BeginFits, or_iff_right stops]
    simp only [Option.some.injEq, forall_eq', checkedAdd, checkedSize, if_pos small, checkedSub]
    rw [if_pos (Nat.one_le_iff_ne_zero.mpr nonzero)]
    simp only [Option.some.injEq, forall_eq']
    refine and_congr_right fun filled => ?_
    rw [bufferSize_eq stops filled, ← computeDuration_sound]
    simp only [Option.some.injEq, forall_eq', sound_bind]
    exact and_iff_left fun _ _ => sound_pure _

/-- The sizes that are computed are those of the model of the buffer. -/
theorem computeBegin_eq {packetFrames : Int} {sizes : Nat × Nat}
    (computed : computeBegin format packetFrames = .value sizes) :
    packetSizes format packetFrames = some sizes := by
  unfold computeBegin at computed
  obtain ⟨packet, first, computed⟩ := bind_eq_value.mp computed
  obtain ⟨ideal, second, computed⟩ := bind_eq_value.mp computed
  obtain ⟨sum, third, computed⟩ := bind_eq_value.mp computed
  obtain ⟨rounded, fourth, computed⟩ := bind_eq_value.mp computed
  obtain ⟨packets, fifth, computed⟩ := bind_eq_value.mp computed
  obtain ⟨buffer, sixth, computed⟩ := bind_eq_value.mp computed
  obtain ⟨milliseconds, seventh, last⟩ := bind_eq_value.mp computed
  rw [computeLength_eq] at second
  rw [guarded_eq_value] at first second third fourth sixth
  obtain ⟨filled, rfl⟩ := sizeQuotient_eq_value.mp fifth
  cases last
  simp only [packetSizes, first, second, third, fourth, Option.bind_eq_bind, Option.bind_some,
    if_neg filled, sixth, computeDuration_eq seventh]
  rfl

end Sizes

/-! ## Times -/

section Times

variable {format : AudioFormat}

theorem amortize_sound_bind {β : Type} {delta : Nat} {packets : Int} (fits : FitsInt packets)
    {next : Nat → Computed β} :
    (amortize delta packets >>= next).Sound ↔
      delta * (packets - 1).toNat < sizeLimit ∧
        (next (if 1 < packets then delta * (packets - 1).toNat / packets.toNat
          else delta)).Sound := by
  unfold FitsInt at fits
  unfold amortize
  split
  next several =>
    have first : toSize (packets - 1) = (packets - 1).toNat := by
      unfold toSize
      omega
    have all : toSize packets = packets.toNat := by
      unfold toSize
      omega
    have nonzero : packets.toNat ≠ 0 := by omega
    rw [bind_bind, sound_size_bind, sound_sizeQuotient_bind, first, all]
    exact and_congr_right fun _ => and_iff_right nonzero
  next few =>
    have none : (packets - 1).toNat = 0 := by omega
    rw [none, Nat.mul_zero]
    exact (and_iff_right (by decide)).symm

theorem computeScheduleFlush_sound (format : AudioFormat) (packetSize : Nat) (bytesWritten : Int)
    (now : Timespec) :
    (computeScheduleFlush format packetSize bytesWritten now).Sound ↔
      ScheduleFits format packetSize bytesWritten now := by
  unfold computeScheduleFlush
  rw [sound_size_bind]
  simp only [sound_sizeQuotient_bind, amortize_sound_bind (toInt_fits _), sound_size_bind]
  constructor
  · rintro ⟨nanos, rate, bps, channels, packet, behind, sum, _⟩
    exact ⟨⟨rate, bps, channels⟩, packet, nanos, behind, sum⟩
  · rintro ⟨⟨rate, bps, channels⟩, packet, nanos, behind, sum⟩
    exact ⟨nanos, rate, bps, channels, packet, behind, sum, sound_pure _⟩

/-- No more than what has been written is delayed, which is far from 64 bits. -/
theorem scheduleFits_of_nonneg (divides : Divides format) {packetSize : Nat} {bytesWritten : Int}
    (nonneg : 0 ≤ bytesWritten) (small : bytesWritten < 2147483648) (packet : packetSize ≠ 0)
    (due : packetSize ≤ toSize bytesWritten) (now : Timespec) :
    ScheduleFits format packetSize bytesWritten now := by
  have second : nanosPerSecond = 1000000000 := rfl
  have limit : sizeLimit = 18446744073709551616 := rfl
  have written := toSize_of_nonneg nonneg small
  have subsecond := now.nsec_lt
  have lasts : packetNanos format packetSize ≤ packetSize * nanosPerSecond :=
    ((Nat.div_le_self _ _).trans (Nat.div_le_self _ _)).trans (Nat.div_le_self _ _)
  have fewer : toSize bytesWritten / packetSize ≤ toSize bytesWritten := Nat.div_le_self _ _
  have behind : nanosBehind format packetSize bytesWritten ≤
      toSize bytesWritten * nanosPerSecond := by
    have product := Nat.mul_div_le (toSize bytesWritten) packetSize
    unfold nanosBehind packetsWritten
    generalize toSize bytesWritten / packetSize = packets at *
    rw [toInt_of_fits ⟨by omega, by omega⟩]
    calc packetNanos format packetSize * ((packets : Int) - 1).toNat
        ≤ packetSize * nanosPerSecond * packets := Nat.mul_le_mul lasts (by omega)
      _ = packetSize * packets * nanosPerSecond := by ring
      _ ≤ toSize bytesWritten * nanosPerSecond := Nat.mul_le_mul_right _ product
  have delay : flushDelay format packetSize bytesWritten ≤
      toSize bytesWritten * nanosPerSecond := by
    unfold flushDelay
    split
    · exact (Nat.div_le_self _ _).trans behind
    · exact lasts.trans (Nat.mul_le_mul_right _ due)
  have most : toSize bytesWritten * nanosPerSecond ≤ 2147483648 * nanosPerSecond :=
    Nat.mul_le_mul_right _ (by omega)
  have whole : packetSize * nanosPerSecond ≤ 2147483648 * nanosPerSecond :=
    Nat.mul_le_mul_right _ (by omega)
  exact ⟨divides, packet, by omega, by omega, by omega⟩

end Times

/-! ## Positions -/

section Positions

variable {inFormat outFormat : AudioFormat}

theorem clampChannel_sound_bind {β : Type} {channel channels : Int} (fits : FitsInt channel)
    {next : Int → Computed β} :
    (clampChannel channel channels >>= next).Sound ↔
      FitsInt (min channel (channels - 1)) ∧ (next (min channel (channels - 1))).Sound := by
  unfold clampChannel
  split
  next beyond => rw [sound_int_bind, Int.min_eq_right (by omega)]
  next within =>
    rw [Int.min_eq_left (by omega)]
    exact (and_iff_right fits).symm

theorem clampChannel_eq_value {channel channels same : Int}
    (fits : FitsInt (min channel (channels - 1))) :
    clampChannel channel channels = .value same ↔ min channel (channels - 1) = same := by
  unfold clampChannel
  split
  next beyond =>
    rw [Int.min_eq_right (by omega)] at fits ⊢
    rw [int_eq_value, and_iff_right fits]
  next within =>
    rw [Int.min_eq_left (by omega)]
    exact value.injEq channel same ▸ Iff.rfl

theorem scaleFrame_sound_bind {β : Type} {frame inRate outRate : Int} {next : Int → Computed β} :
    (scaleFrame frame inRate outRate >>= next).Sound ↔
      outRate ≠ 0 ∧ FitsInt ((frame * inRate).tdiv outRate) ∧
        (next ((frame * inRate).tdiv outRate)).Sound := by
  unfold scaleFrame
  split
  next zero => exact iff_of_false (fun sound => sound rfl) fun both => both.1 zero
  next nonzero => rw [sound_int_bind, and_iff_right nonzero]

theorem readAt_sound (inFormat : AudioFormat) (length offset : Int) :
    (readAt inFormat length offset).Sound ↔ (0 ≤ offset → FitsInt (length - offset)) := by
  unfold readAt
  split
  next before => exact iff_of_true (fun same => by cases same) fun nonneg => by omega
  next inside =>
    rw [sound_int_bind, forall_prop_of_true (Int.not_lt.mp inside)]
    exact and_iff_left (sound_pure _)

/-- A quotient by a number that is not negative, and its remainder, are no further from zero than
what is divided. -/
theorem fitsInt_tdiv {dividend divisor : Int} (fits : FitsInt dividend) (nonneg : 0 ≤ divisor) :
    FitsInt (dividend.tdiv divisor) ∧ FitsInt (dividend.tmod divisor) := by
  have quotient := Int.natAbs_tdiv_le_natAbs dividend divisor
  have remainder : (dividend.tmod divisor).natAbs ≤ dividend.natAbs := by
    rw [Int.natAbs_tmod]
    exact Nat.mod_le _ _
  unfold FitsInt at fits ⊢
  rcases Int.lt_or_le dividend 0 with negative | positive
  · have opposite := Int.tdiv_nonneg (show 0 ≤ -dividend by omega) nonneg
    have rest := Int.tmod_nonneg divisor (show 0 ≤ -dividend by omega)
    rw [Int.neg_tdiv] at opposite
    rw [Int.neg_tmod] at rest
    omega
  · have same := Int.tdiv_nonneg positive nonneg
    have rest := Int.tmod_nonneg divisor positive
    omega

/-- For an output format without negative numbers, as the server has it, a sample is looked up
without a fault if all numbers are within their type. -/
theorem computeReadSample_sound {totalBytesSent : Int} (sent : FitsInt totalBytesSent)
    (bps : 0 ≤ outFormat.bps) (channels : 0 ≤ outFormat.channels)
    (totalBytesReceived length : Int) :
    (computeReadSample inFormat outFormat totalBytesSent totalBytesReceived length).Sound ↔
      ReadFits inFormat outFormat totalBytesSent totalBytesReceived length := by
  have outSample := (fitsInt_tdiv sent bps).1
  have outFrame := fitsInt_tdiv outSample channels
  unfold computeReadSample
  simp only [sound_quotient_bind, clampChannel_sound_bind outFrame.2, scaleFrame_sound_bind,
    sound_int_bind, readAt_sound]
  constructor
  · rintro ⟨bps, _, channels, _, channel, rate, frame, product, sample, position, offset, rest⟩
    exact ⟨bps, channels, rate, channel, frame, product, sample, position, offset,
      fun before => rest (Int.sub_nonneg.mpr before)⟩
  · rintro ⟨bps, channels, rate, channel, frame, product, sample, position, offset, rest⟩
    exact ⟨bps, outSample, channels, outFrame.1, channel, rate, frame, product, sample, position,
      offset, fun nonneg => rest (Int.sub_nonneg.mp nonneg)⟩

/-- Where all numbers are within their type, the offset is that of the model of the buffer. -/
theorem sampleOffset_of_fits {totalBytesSent totalBytesReceived length : Int}
    (fits : ReadFits inFormat outFormat totalBytesSent totalBytesReceived length) :
    sampleOffset inFormat outFormat totalBytesSent totalBytesReceived =
      some (readIndex inFormat outFormat totalBytesSent * inFormat.bps - totalBytesReceived) := by
  have channel : (if (totalBytesSent.tdiv outFormat.bps).tmod outFormat.channels ≥
      inFormat.channels then inFormat.channels - 1
      else (totalBytesSent.tdiv outFormat.bps).tmod outFormat.channels) =
        readChannel inFormat outFormat totalBytesSent := by
    unfold readChannel
    split <;> omega
  unfold sampleOffset
  rw [if_neg (not_or.mpr ⟨fits.bps, fits.channels⟩)]
  dsimp only
  rw [channel, if_neg fits.rate]
  change some (toInt (toInt (truncToInt (readFrame inFormat outFormat totalBytesSent) *
    inFormat.channels + _) * inFormat.bps - totalBytesReceived)) = _
  rw [truncToInt_of_fits fits.frame]
  change some (toInt (toInt (readIndex inFormat outFormat totalBytesSent) * inFormat.bps -
    totalBytesReceived)) = _
  rw [toInt_of_fits fits.sample, toInt_of_fits fits.offset]

/-- A sample that is looked up without a fault is the one that the model of the buffer reads. -/
theorem computeReadSample_eq {totalBytesSent totalBytesReceived length : Int} {result : ReadResult}
    (fits : ReadFits inFormat outFormat totalBytesSent totalBytesReceived length)
    (computed : computeReadSample inFormat outFormat totalBytesSent totalBytesReceived length =
      .value result) :
    readSample inFormat outFormat totalBytesSent totalBytesReceived length = result := by
  unfold computeReadSample at computed
  obtain ⟨outSample, first, computed⟩ := bind_eq_value.mp computed
  obtain ⟨outFrame, second, computed⟩ := bind_eq_value.mp computed
  obtain ⟨channel, third, computed⟩ := bind_eq_value.mp computed
  obtain ⟨frame, fourth, computed⟩ := bind_eq_value.mp computed
  obtain ⟨product, fifth, computed⟩ := bind_eq_value.mp computed
  obtain ⟨sample, sixth, computed⟩ := bind_eq_value.mp computed
  obtain ⟨bytes, seventh, computed⟩ := bind_eq_value.mp computed
  obtain ⟨offset, eighth, last⟩ := bind_eq_value.mp computed
  obtain ⟨_, _, rfl⟩ := quotient_eq_value.mp first
  obtain ⟨_, _, rfl⟩ := quotient_eq_value.mp second
  rw [clampChannel_eq_value fits.channel] at third
  rw [scaleFrame, if_neg fits.rate] at fourth
  obtain ⟨_, rfl⟩ := int_eq_value.mp fourth
  obtain ⟨_, rfl⟩ := int_eq_value.mp fifth
  obtain ⟨_, rfl⟩ := int_eq_value.mp sixth
  obtain ⟨_, rfl⟩ := int_eq_value.mp seventh
  obtain ⟨_, rfl⟩ := int_eq_value.mp eighth
  subst third
  rw [readSample, sampleOffset_of_fits fits]
  dsimp only
  change readAt inFormat length (readIndex inFormat outFormat totalBytesSent * inFormat.bps -
    totalBytesReceived) = _ at last
  unfold readAt at last
  split at last
  next => cases last
  next inside =>
    obtain ⟨rest, narrow, last⟩ := bind_eq_value.mp last
    obtain ⟨within, rfl⟩ := int_eq_value.mp narrow
    rw [if_neg inside, toInt_of_fits within]
    cases last
    rfl

/-- For formats as they are negotiated, all that is needed is that the position in the input is
within an `int`. -/
theorem readFits_iff (validIn : inFormat.Valid) (validOut : outFormat.Valid)
    {totalBytesSent totalBytesReceived length : Int} (sent : 0 ≤ totalBytesSent)
    (received : 0 ≤ totalBytesReceived) (room : FitsInt totalBytesReceived)
    (nonneg : 0 ≤ length) (short : FitsInt length) :
    ReadFits inFormat outFormat totalBytesSent totalBytesReceived length ↔
      sourceStart inFormat outFormat (totalBytesSent / outFormat.bps) < 2147483648 := by
  have index : 0 ≤ totalBytesSent / outFormat.bps := Int.ediv_nonneg sent validOut.bps_pos.le
  have outFrame : 0 ≤ totalBytesSent / outFormat.bps / outFormat.channels :=
    Int.ediv_nonneg index validOut.channels.le
  have frame : readFrame inFormat outFormat totalBytesSent =
      inputFrame inFormat outFormat (totalBytesSent / outFormat.bps) := by
    unfold readFrame inputFrame
    rw [Int.tdiv_eq_ediv_of_nonneg sent, Int.tdiv_eq_ediv_of_nonneg index,
      Int.tdiv_eq_ediv_of_nonneg (Int.mul_nonneg outFrame validIn.rate.le)]
  have channel : readChannel inFormat outFormat totalBytesSent =
      min (totalBytesSent / outFormat.bps % outFormat.channels) (inFormat.channels - 1) := by
    unfold readChannel
    rw [Int.tdiv_eq_ediv_of_nonneg sent, Int.tmod_eq_emod_of_nonneg index]
  have position : readIndex inFormat outFormat totalBytesSent * inFormat.bps =
      sourceStart inFormat outFormat (totalBytesSent / outFormat.bps) := by
    rw [readIndex, frame, channel]
    rfl
  refine ⟨fun fits => position ▸ fits.position.2, fun small => ?_⟩
  have least := inputFrame_nonneg validIn validOut index
  have range := inputChannel_range validIn validOut (totalBytesSent / outFormat.bps)
  have wide := le_mul_of_one_le_right least validIn.channels
  have bytes := le_mul_of_one_le_right
    (Int.add_nonneg (least.trans wide) range.1) validIn.bps_pos
  change _ ≤ sourceStart inFormat outFormat (totalBytesSent / outFormat.bps) at bytes
  unfold FitsInt at room short
  refine ⟨validOut.bps_pos.ne', validOut.channels.ne', validOut.rate.ne', ?_, ?_, ?_, ?_, ?_, ?_,
    fun before => ?_⟩ <;> unfold FitsInt
  · rw [channel]
    omega
  · rw [frame]
    omega
  · rw [frame]
    omega
  · rw [readIndex, frame, channel]
    omega
  · rw [position]
    omega
  · rw [position]
    omega
  · rw [position] at before ⊢
    omega

end Positions

end GuacNebula.Audio
