import GuacNebula.Lib.CInt
import Mathlib.Data.UInt
import Mathlib.Tactic.SplitIfs

/-! # Beeps

A Play Sound PDU asks for a beep, which is generated as a triangle wave of signed 8-bit samples. The
frequency and the duration are unsigned and become `int`. The duration is limited from above only,
and the frequency is not limited at all.
-/

namespace GuacNebula.Rdp

open CInt

/-- `GUAC_RDP_BEEP_SAMPLE_RATE`. -/
def beepSampleRate : Int := 8000

/-- `GUAC_RDP_BEEP_AMPLITUDE`. -/
def beepAmplitude : Int := 64

/-- `GUAC_RDP_BEEP_MAX_DURATION`. -/
def beepMaxDuration : Int := 500

/-- The number of distinct states of the wave. -/
def wavePeriod : Int := beepAmplitude * 4

/-- Where the wave bounces within its period. -/
def waveBounceOffset : Int := wavePeriod.tdiv 2

/-- The position within the portion of the wave that repeats. -/
def wavePosition (frequency rate position : Int) : Int :=
  ((toInt (toInt (position * frequency) * wavePeriod)).tdiv rate).tmod wavePeriod

/-- The sample that is stored for a position. -/
def waveSample (frequency rate position : Int) : Int8 :=
  Int8.ofInt ((wavePosition frequency rate position - waveBounceOffset).natAbs - beepAmplitude)

/-- `guac_rdp_beep_fill_triangle_wave`. -/
def fillTriangleWave (frequency rate bufferSize : Int) : List Int8 :=
  (List.range bufferSize.toNat).map fun position : Nat => waveSample frequency rate position

/-- `guac_audio_stream`, as far as it is used here. -/
structure BeepStream where
  rate : Int
  deriving DecidableEq, Repr

/-- `guac_rdp_beep_write_pcm`: the samples that are written to the stream, unless the size of the
buffer overflows and the process is aborted. -/
def beepWritePcm (audio : BeepStream) (frequency duration : Int) : Option (List Int8) :=
  (checkedMul [toSize audio.rate, toSize duration]).map fun product =>
    fillTriangleWave frequency audio.rate (toInt (product / 1000 : Nat))

/-- The duration in milliseconds, within its limit. -/
def beepDuration (duration : UInt32) : Int :=
  let duration := toInt duration.toNat
  if duration > beepMaxDuration then beepMaxDuration else duration

/-- `guac_rdp_beep_play_sound`. Streams are allocated by libguac for a rate, a number of channels
and a number of bits per channel. -/
def beepPlaySound (audioEnabled : Bool) (streamAlloc : Int → Int → Int → Option BeepStream)
    (frequency duration : UInt32) : Option (List Int8) :=
  if !audioEnabled then some []
  else
    match streamAlloc beepSampleRate 1 8 with
    | none => some []
    | some beep => beepWritePcm beep (toInt frequency.toNat) (beepDuration duration)

/-! ## Bounds -/

/-- The products that are computed for a position are in the range of `int`. -/
def WaveProductsFit (frequency position : Int) : Prop :=
  FitsInt (position * frequency) ∧ FitsInt (position * frequency * wavePeriod)

/-- A beep is generated: there are no more samples than for the longest one, all are within the
amplitude, and no product has overflown. -/
structure BeepWithin (frequency : UInt32) (samples : List Int8) : Prop where
  short : (samples.length : Int) ≤ (beepSampleRate * beepMaxDuration).tdiv 1000
  amplitude : ∀ sample ∈ samples, -beepAmplitude ≤ sample.toInt ∧ sample.toInt ≤ beepAmplitude
  products : ∀ position < samples.length, WaveProductsFit (toInt frequency.toNat) position

/-- The number of samples of a beep. -/
def beepSamples (duration : UInt32) : Nat := 8 * min duration.toNat 500

/-- A wave of a negative frequency passes a position in the half of its period that has no sample
above the amplitude, or at the very beginning of the period. -/
def MirroredPhase (magnitude position : Nat) : Prop :=
  position * magnitude % 8000 < 32 ∨ 4000 ≤ position * magnitude % 8000

/-- The frequency does not exceed `int` after so many samples, and one that is negative as `int`
stays where the samples are within the amplitude. -/
def PlayableFrequency (frequency : UInt32) (samples : Nat) : Prop :=
  if frequency.toNat < 2147483648 then (samples - 1) * frequency.toNat < 8388608
  else
    (samples - 1) * (4294967296 - frequency.toNat) ≤ 8388608 ∧
      ∀ position < samples, MirroredPhase (4294967296 - frequency.toNat) position

/-- The requests that are played as they should be: those whose duration is not negative as `int`,
and whose frequency is low enough for it. -/
def PlayableBeep (frequency duration : UInt32) : Prop :=
  duration.toNat < 2147483648 ∧ PlayableFrequency frequency (beepSamples duration)

section Wave

variable {frequency position : Int}

/-- A state of the wave follows from the phase within a period. -/
theorem phase_state (phase : Nat) : phase * 256 / 8000 % 256 = phase % 8000 * 4 / 125 := by
  obtain ⟨turns, rest, rfl, small⟩ : ∃ turns rest, phase = 8000 * turns + rest ∧ rest < 8000 :=
    ⟨phase / 8000, phase % 8000, by omega, by omega⟩
  have quotient : (8000 * turns + rest) * 256 / 8000 = 256 * turns + rest * 4 / 125 := by omega
  rw [quotient, Nat.mul_add_mod, Nat.mul_add_mod, Nat.mod_eq_of_lt small]
  omega

/-- Where nothing overflows, the position in the wave is a quotient of the exact product. -/
theorem wavePosition_of_fits (fits : WaveProductsFit frequency position) :
    wavePosition frequency beepSampleRate position =
      ((position * frequency * 256).tdiv 8000).tmod 256 := by
  have first := toInt_of_fits fits.1
  have second := toInt_of_fits fits.2
  unfold wavePosition
  rw [first, second]
  rfl

/-- The position in a wave of a frequency that is not negative. -/
theorem wavePosition_natCast {frequency position : Nat}
    (fits : WaveProductsFit (frequency : Int) (position : Int)) :
    wavePosition frequency beepSampleRate position =
      ((position * frequency % 8000 * 4 / 125 : Nat) : Int) := by
  rw [wavePosition_of_fits fits]
  have product : (position : Int) * frequency * 256 =
      ((position * frequency * 256 : Nat) : Int) := by
    push_cast
    rfl
  rw [product, Int.tdiv_eq_ediv_of_nonneg (Int.natCast_nonneg _),
    Int.tmod_eq_emod_of_nonneg (by omega), ← phase_state]
  rfl

/-- The position in a wave of a negative frequency. -/
theorem wavePosition_neg {frequency position : Nat}
    (fits : WaveProductsFit (-(frequency : Int)) (position : Int)) :
    wavePosition (-(frequency : Int)) beepSampleRate position =
      -((position * frequency % 8000 * 4 / 125 : Nat) : Int) := by
  rw [wavePosition_of_fits fits]
  have product : (position : Int) * -(frequency : Int) * 256 =
      -((position * frequency * 256 : Nat) : Int) := by
    rw [Int.mul_neg, Int.neg_mul]
    push_cast
    rfl
  rw [product, Int.neg_tdiv, Int.neg_tmod, Int.tdiv_eq_ediv_of_nonneg (Int.natCast_nonneg _),
    Int.tmod_eq_emod_of_nonneg (by omega), ← phase_state]
  rfl

theorem waveSample_toInt (state : Nat) {rate : Int}
    (same : (wavePosition frequency rate position - 128).natAbs = state) :
    (waveSample frequency rate position).toInt = ((state : Int) - 64).bmod 256 := by
  unfold waveSample
  rw [show waveBounceOffset = 128 from rfl, same]
  exact Int8.toInt_ofInt

/-- The samples of a wave of a frequency that is not negative are within the amplitude. -/
theorem waveSample_natCast {frequency position : Nat}
    (fits : WaveProductsFit (frequency : Int) (position : Int)) :
    -beepAmplitude ≤ (waveSample frequency beepSampleRate position).toInt ∧
      (waveSample frequency beepSampleRate position).toInt ≤ beepAmplitude := by
  rw [waveSample_toInt _ rfl, wavePosition_natCast fits, show beepAmplitude = 64 from rfl]
  have below := Nat.mod_lt (position * frequency) (show 0 < 8000 by decide)
  generalize position * frequency % 8000 = phase at below
  rw [Int.bmod_eq_of_le] <;> omega

/-- The samples of a wave of a negative frequency are within the amplitude in one half of the period
only. -/
theorem waveSample_neg {frequency position : Nat}
    (fits : WaveProductsFit (-(frequency : Int)) (position : Int)) :
    (-beepAmplitude ≤ (waveSample (-(frequency : Int)) beepSampleRate position).toInt ∧
        (waveSample (-(frequency : Int)) beepSampleRate position).toInt ≤ beepAmplitude) ↔
      MirroredPhase frequency position := by
  rw [waveSample_toInt _ rfl, wavePosition_neg fits, show beepAmplitude = 64 from rfl]
  have below := Nat.mod_lt (position * frequency) (show 0 < 8000 by decide)
  unfold MirroredPhase
  generalize position * frequency % 8000 = phase at below
  have start : phase < 32 ↔ phase * 4 / 125 = 0 := by omega
  have half : 4000 ≤ phase ↔ 128 ≤ phase * 4 / 125 := by omega
  have small : phase * 4 / 125 < 256 := by omega
  rw [start, half]
  generalize phase * 4 / 125 = state at small
  rw [Int.bmod]
  split_ifs <;> omega

end Wave

/-! ## Requests -/

/-- All positions before the end are within a bound if the last one is. -/
theorem positions_le_iff (magnitude samples bound : Nat) :
    (∀ position < samples, position * magnitude ≤ bound) ↔ (samples - 1) * magnitude ≤ bound := by
  constructor
  · intro all
    cases samples with
    | zero =>
        rw [Nat.zero_sub, Nat.zero_mul]
        exact Nat.zero_le bound
    | succ last => exact all last (Nat.lt_succ_self last)
  · intro fits position before
    exact Nat.le_trans (Nat.mul_le_mul_right _ (Nat.le_sub_one_of_lt before)) fits

/-- The products fit at all positions exactly if they fit at the last one. -/
theorem products_natCast_iff (frequency samples : Nat) :
    (∀ position < samples, WaveProductsFit (frequency : Int) (position : Int)) ↔
      (samples - 1) * frequency < 8388608 := by
  have fits (position : Nat) : WaveProductsFit (frequency : Int) (position : Int) ↔
      position * frequency ≤ 8388607 := by
    unfold WaveProductsFit FitsInt
    rw [show wavePeriod = 256 from rfl, ← Int.natCast_mul]
    omega
  simp only [fits]
  rw [positions_le_iff]
  exact Nat.lt_succ_iff.symm

theorem products_neg_iff (magnitude samples : Nat) :
    (∀ position < samples, WaveProductsFit (-(magnitude : Int)) (position : Int)) ↔
      (samples - 1) * magnitude ≤ 8388608 := by
  have fits (position : Nat) : WaveProductsFit (-(magnitude : Int)) (position : Int) ↔
      position * magnitude ≤ 8388608 := by
    unfold WaveProductsFit FitsInt
    rw [show wavePeriod = 256 from rfl, Int.mul_neg, ← Int.natCast_mul]
    omega
  simp only [fits]
  exact positions_le_iff _ _ _

/-- A frequency as `int`. -/
theorem toInt_frequency (frequency : UInt32) :
    toInt frequency.toNat =
      if frequency.toNat < 2147483648 then (frequency.toNat : Int)
      else -((4294967296 - frequency.toNat : Nat) : Int) := by
  have bound := frequency.toNat_lt
  unfold toInt
  split_ifs <;> omega

/-- The samples of a beep are within the amplitude, and no product has overflown, exactly if the
frequency is playable. -/
theorem fillTriangleWave_within_iff (frequency : UInt32) (samples : Nat) :
    ((∀ sample ∈ fillTriangleWave (toInt frequency.toNat) beepSampleRate samples,
          -beepAmplitude ≤ sample.toInt ∧ sample.toInt ≤ beepAmplitude) ∧
        ∀ position < samples, WaveProductsFit (toInt frequency.toNat) (position : Int)) ↔
      PlayableFrequency frequency samples := by
  have members (bound : Int8 → Prop) :
      (∀ sample ∈ fillTriangleWave (toInt frequency.toNat) beepSampleRate samples, bound sample) ↔
        ∀ position < samples,
          bound (waveSample (toInt frequency.toNat) beepSampleRate (position : Nat)) := by
    unfold fillTriangleWave
    rw [Int.toNat_natCast]
    simp only [List.forall_mem_map, List.mem_range]
  rw [members, toInt_frequency]
  unfold PlayableFrequency
  split_ifs with small
  · rw [products_natCast_iff]
    refine and_iff_right_of_imp fun fits position before => ?_
    exact waveSample_natCast ((products_natCast_iff _ _).mpr fits position before)
  · rw [products_neg_iff, and_comm]
    refine and_congr_right fun fits => forall_congr' fun position => forall_congr' fun before => ?_
    exact waveSample_neg ((products_neg_iff _ _).mpr fits position before)

/-- The duration is limited unless it is negative as `int`. -/
theorem beepDuration_eq (duration : UInt32) :
    beepDuration duration =
      if duration.toNat < 2147483648 then ((min duration.toNat 500 : Nat) : Int)
      else (duration.toNat : Int) - 4294967296 := by
  have bound := duration.toNat_lt
  unfold beepDuration toInt
  dsimp only
  rw [show beepMaxDuration = 500 from rfl]
  split_ifs <;> omega

/-- The process is aborted for a duration that is negative as `int`. -/
theorem beepWritePcm_eq {audio : BeepStream} (rate : audio.rate = beepSampleRate) (frequency : Int)
    (duration : UInt32) :
    beepWritePcm audio frequency (beepDuration duration) =
      if duration.toNat < 2147483648 then
        some (fillTriangleWave frequency beepSampleRate (beepSamples duration))
      else none := by
  have bound := duration.toNat_lt
  have limit : sizeLimit = 18446744073709551616 := rfl
  have hertz : toSize audio.rate = 8000 := by
    rw [rate]
    decide
  unfold beepWritePcm
  rw [hertz, rate, beepDuration_eq]
  split_ifs with positive
  · have limited : toSize ((min duration.toNat 500 : Nat) : Int) = min duration.toNat 500 := by
      unfold toSize
      omega
    have product : checkedMul [8000, min duration.toNat 500] =
        some (8000 * min duration.toNat 500) := by
      simp only [checkedMul, checkedMulFrom, checkedSize, Nat.one_mul]
      rw [if_pos (by omega), Option.bind_some, if_pos (by omega), Option.bind_some]
    have count : toInt ((8000 * min duration.toNat 500 / 1000 : Nat) : Int) =
        beepSamples duration := by
      unfold toInt beepSamples
      omega
    rw [limited, product, Option.map_some, count]
  · have huge : toSize ((duration.toNat : Int) - 4294967296) =
        18446744073709551616 - 4294967296 + duration.toNat := by
      unfold toSize
      omega
    have overflow :
        checkedMul [8000, 18446744073709551616 - 4294967296 + duration.toNat] = none := by
      simp only [checkedMul, checkedMulFrom, checkedSize, Nat.one_mul]
      rw [if_pos (by omega), Option.bind_some, if_neg (by omega), Option.bind_none]
    rw [huge, overflow, Option.map_none]

/-- **A Play Sound PDU** is played without aborting, with no more samples than the longest beep has,
all within the amplitude, and without overflow, exactly if audio is disabled, or no stream can be
allocated, or its duration is not negative and its frequency low enough. -/
theorem beepPlaySound_within_iff (audioEnabled : Bool)
    (streamAlloc : Int → Int → Int → Option BeepStream)
    (rates : ∀ rate channels bps stream, streamAlloc rate channels bps = some stream →
      stream.rate = rate)
    (frequency duration : UInt32) :
    (∃ samples, beepPlaySound audioEnabled streamAlloc frequency duration = some samples ∧
        BeepWithin frequency samples) ↔
      (audioEnabled = true → (streamAlloc beepSampleRate 1 8).isSome = true →
        PlayableBeep frequency duration) := by
  have silent : BeepWithin frequency [] :=
    { short := by decide
      amplitude := fun _ member => absurd member List.not_mem_nil
      products := fun _ before => absurd before (Nat.not_lt_zero _) }
  unfold beepPlaySound
  cases audioEnabled with
  | false => exact iff_of_true ⟨[], rfl, silent⟩ fun disabled => absurd disabled Bool.false_ne_true
  | true =>
      rw [if_neg (by decide)]
      cases allocated : streamAlloc beepSampleRate 1 8 with
      | none =>
          exact iff_of_true ⟨[], rfl, silent⟩ fun _ missing => absurd missing Bool.false_ne_true
      | some stream =>
          dsimp only
          rw [beepWritePcm_eq (rates _ _ _ _ allocated)]
          have length : (fillTriangleWave (toInt frequency.toNat) beepSampleRate
              (beepSamples duration)).length = beepSamples duration := by
            rw [fillTriangleWave, List.length_map, List.length_range, Int.toNat_natCast]
          have few : ((beepSamples duration : Nat) : Int) ≤
              (beepSampleRate * beepMaxDuration).tdiv 1000 := by
            rw [show (beepSampleRate * beepMaxDuration).tdiv 1000 = 4000 from by decide]
            unfold beepSamples
            omega
          have within := fillTriangleWave_within_iff frequency (beepSamples duration)
          unfold PlayableBeep
          split_ifs with positive
          · constructor
            · rintro ⟨_, same, good⟩ _ _
              cases same
              have products := good.products
              rw [length] at products
              exact ⟨positive, within.mp ⟨good.amplitude, products⟩⟩
            · intro playable
              obtain ⟨amplitude, products⟩ := within.mpr (playable rfl rfl).2
              rw [← length] at few products
              exact ⟨_, rfl, few, amplitude, products⟩
          · refine iff_of_false ?_ fun playable => positive (playable rfl rfl).1
            rintro ⟨_, aborted, _⟩
            cases aborted

/-- A tenth of a second of the concert pitch. -/
theorem beepPlaySound_within_concert_pitch :
    ∃ samples, beepPlaySound true (fun rate _ _ => some ⟨rate⟩) 440 100 = some samples ∧
      BeepWithin 440 samples := by
  have low : PlayableFrequency 440 (beepSamples 100) := by
    rw [PlayableFrequency, if_pos (by decide)]
    decide
  refine (beepPlaySound_within_iff true (fun rate _ _ => some ⟨rate⟩) ?_ 440 100).mpr
    fun _ _ => ⟨by decide, low⟩
  rintro rate channels bps _ ⟨rfl⟩
  rfl

/-- A duration that is negative as `int` aborts the process. -/
theorem beepPlaySound_aborted :
    ¬∀ frequency duration : UInt32, ∃ samples,
      beepPlaySound true (fun rate _ _ => some ⟨rate⟩) frequency duration = some samples ∧
        BeepWithin frequency samples := by
  intro within
  obtain ⟨samples, played, _⟩ := within 440 0x80000000
  have aborted : beepPlaySound true (fun rate _ _ => some ⟨rate⟩) 440 0x80000000 = none := by
    decide +kernel
  rw [aborted] at played
  cases played

end GuacNebula.Rdp
