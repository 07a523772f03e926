import GuacNebula.Audio.Arithmetic
import GuacNebula.Lib.Strtol
import GuacNebula.Rdp.Rdpsnd

/-! # Audio input

The user offers audio in a format that is part of a mimetype, and the server asks for audio in the
first of its formats that is PCM, and for packets of a number of frames. None of these numbers is
limited.
-/

namespace GuacNebula.Rdp

open Audio CInt Strtol

/-! ## The mimetype -/

/-- `strncmp` with all of a literal. -/
def beginsWith (literal : String) (text : CString) : Bool := (ascii literal).isPrefixOf text

/-- The number behind the name of a parameter. It is refused if `errno` says so, which may be
stale. -/
def parseNumber (stale : Bool) (text : CString) : Option Number :=
  if stale || (strtol text).outOfRange then none else some (strtol text)

/-- The body of the loop of `guac_rdp_audio_parse_mimetype`: the rate and the number of channels
after a parameter, and the text behind what has been read of it. -/
def parseParameter (stale : Bool) (rate channels : Int) (parameter : CString) :
    Option (Int × Int × CString) :=
  if beginsWith "channels=" parameter then
    (parseNumber stale (parameter.drop 9)).map fun number =>
      (rate, toInt number.value, number.rest)
  else if beginsWith "rate=" parameter then
    (parseNumber stale (parameter.drop 5)).map fun number =>
      (toInt number.value, channels, number.rest)
  else some (rate, channels, parameter)

theorem parseNumber_rest {stale : Bool} {text : CString} {number : Number}
    (parsed : parseNumber stale text = some number) : number.rest.length ≤ text.length := by
  unfold parseNumber at parsed
  split at parsed
  · cases parsed
  · cases parsed
    exact strtol_rest_length text

theorem parseParameter_rest {stale : Bool} {rate channels : Int} {parameter : CString}
    {after : Int × Int × CString}
    (parsed : parseParameter stale rate channels parameter = some after) :
    after.2.2.length ≤ parameter.length := by
  have behind (count : Nat) : (parameter.drop count).length ≤ parameter.length := by
    rw [List.length_drop]
    omega
  unfold parseParameter at parsed
  split_ifs at parsed
  · obtain ⟨number, read, rfl⟩ := Option.map_eq_some_iff.mp parsed
    exact (parseNumber_rest read).trans (behind 9)
  · obtain ⟨number, read, rfl⟩ := Option.map_eq_some_iff.mp parsed
    exact (parseNumber_rest read).trans (behind 5)
  · cases parsed
    exact Nat.le_refl _

/-- The loop of `guac_rdp_audio_parse_mimetype`, from a semicolon or comma on. -/
def parseParameters (stale : Bool) (rate channels : Int) : CString → Option (Int × Int)
  | [] => some (rate, channels)
  | _ :: parameter =>
      match parsed : parseParameter stale rate channels parameter with
      | none => none
      | some (rate, channels, rest) =>
          have : rest.length ≤ parameter.length := parseParameter_rest parsed
          parseParameters stale rate channels (rest.dropWhile (· ≠ 0x2C))
  termination_by mimetype => mimetype.length
  decreasing_by exact Nat.lt_succ_of_le ((List.dropWhile_sublist _).length_le.trans this)

/-- The rate and the number of channels of a mimetype, unless it does not specify a rate. -/
def parseFormat (stale : Bool) (bps : Int) (mimetype : CString) : Option AudioFormat :=
  match parseParameters stale (-1) 1 mimetype with
  | none => none
  | some (rate, channels) =>
      if rate = -1 then none else some { rate := rate, channels := channels, bps := bps }

/-- `guac_rdp_audio_parse_mimetype`. -/
def audioParseMimetype (stale : Bool) (mimetype : CString) : Option AudioFormat :=
  if beginsWith "audio/L8;" mimetype then parseFormat stale 1 (mimetype.drop 8)
  else if beginsWith "audio/L16;" mimetype then parseFormat stale 2 (mimetype.drop 9)
  else none

/-! ## The requests of the server -/

/-- The loop of `guac_rdp_ai_process_formats`: the first format that is PCM, if the stream has
everything before its end. Extra data are skipped. -/
def aiFormats : Nat → List UInt8 → Option AudioFormat
  | 0, _ => none
  | count + 1, stream =>
      if stream.length < 18 then none
      else if stream.length - 18 < readUInt stream 16 2 then none
      else if readUInt stream 0 2 ≠ waveFormatPcm then
        aiFormats count (stream.drop (18 + readUInt stream 16 2))
      else some {
        rate := readInt stream 4 4
        channels := readUInt stream 2 2
        bps := readUInt stream 14 2 / 8 }

/-- `guac_rdp_ai_process_formats`: the format that is set as the one of the output, if any. -/
def aiProcessFormats (stream : List UInt8) : Option AudioFormat :=
  if stream.length < 8 then none else aiFormats (readUInt stream 0 4) (stream.drop 8)

/-- `guac_rdp_ai_process_open`: the number of frames that the buffer is to begin with, if any. -/
def aiProcessOpen (stream : List UInt8) : Option Int :=
  if stream.length < 8 then none else some (readInt stream 0 4)

/-- What the user, the server and the thread of the buffer do. -/
inductive AudioInputEvent
  | audio (stale : Bool) (mimetype : CString)
  | formats (stream : List UInt8)
  | open_ (stream : List UInt8) (memory : Option (Int → UInt8))
  | blob (data : Blob) (length : Nat) (short : length < 2147483648)
  | flush (now : Timespec)
  | end_

/-- The call on the audio buffer. -/
def AudioInputEvent.action : AudioInputEvent → Option AudioAction
  | .audio stale mimetype => (audioParseMimetype stale mimetype).map .setStream
  | .formats stream => (aiProcessFormats stream).map .setOutput
  | .open_ stream memory => (aiProcessOpen stream).map fun frames => .begin_ frames memory
  | .blob data length _ => some (.write data length)
  | .flush _ => some .flush
  | .end_ => some .end_

/-- The buffer after an event. -/
def audioInputStep (fuel : Nat) (buffer : AudioBuffer) (event : AudioInputEvent) : AudioBuffer :=
  match event.action with
  | none => buffer
  | some action => Audio.audioStep fuel buffer action

/-! ## The computations of an event -/

/-- The counters of sent bytes at which the loop of a write looks up a sample. -/
def sentCounters (inFormat outFormat : AudioFormat) (totalBytesReceived length : Int) :
    Nat → Int → List Int
  | 0, _ => []
  | fuel + 1, totalBytesSent =>
      totalBytesSent ::
        match readSample inFormat outFormat totalBytesSent totalBytesReceived length with
        | .sample _ =>
            if outFormat.bps = 2 ∨ outFormat.bps = 1 then
              sentCounters inFormat outFormat totalBytesReceived length fuel
                (toInt (totalBytesSent + outFormat.bps))
            else []
        | _ => []

/-- The counters of a write, which looks up nothing without a buffer for its packets. -/
def writeCounters (fuel : Nat) (buffer : AudioBuffer) (length : Int) : List Int :=
  if buffer.packetBufferSize = 0 ∨ buffer.packet.isNone then []
  else
    sentCounters buffer.inFormat buffer.outFormat buffer.totalBytesReceived
      (truncatedLength buffer length) fuel buffer.totalBytesSent

/-- None of the computations of an event has a fault. -/
def ComputesSoundly (fuel : Nat) (buffer : AudioBuffer) (event : AudioInputEvent) : Prop :=
  buffer.halted = false → match event with
  | .audio _ _ => True
  | .formats _ => True
  | .open_ stream _ => ∀ frames, aiProcessOpen stream = some frames →
      (computeLength buffer.outFormat minDuration).Sound ∧
        (computeBegin buffer.outFormat frames).Sound
  | .blob _ length _ =>
      (computeDuration buffer.inFormat length).Sound ∧
        (duration buffer.inFormat length ≠ none →
          ∀ totalBytesSent ∈ writeCounters fuel buffer length,
            (computeReadSample buffer.inFormat buffer.outFormat totalBytesSent
              buffer.totalBytesReceived (truncatedLength buffer length)).Sound)
  | .flush now => mayFlush buffer = true →
      (computeDuration buffer.outFormat buffer.bytesWritten).Sound ∧
        (duration buffer.outFormat buffer.bytesWritten ≠ none → buffer.flushHandler = true →
          (computeScheduleFlush buffer.outFormat buffer.packetSize buffer.bytesWritten now).Sound)
  | .end_ => True

/-- The formats and the numbers that an event computes with are such that nothing faults. -/
def Computable (fuel : Nat) (buffer : AudioBuffer) (event : AudioInputEvent) : Prop :=
  buffer.halted = false → match event with
  | .audio _ _ => True
  | .formats _ => True
  | .open_ stream _ => ∀ frames, aiProcessOpen stream = some frames →
      BeginFits buffer.outFormat frames
  | .blob _ length _ =>
      DurationFits buffer.inFormat length ∧
        ∀ totalBytesSent ∈ writeCounters fuel buffer length,
          ReadFits buffer.inFormat buffer.outFormat totalBytesSent buffer.totalBytesReceived
            (truncatedLength buffer length)
  | .flush now => mayFlush buffer = true →
      DurationFits buffer.outFormat buffer.bytesWritten ∧
        (buffer.flushHandler = true → buffer.bytesWritten < 0 →
          ScheduleFits buffer.outFormat buffer.packetSize buffer.bytesWritten now)
  | .end_ => True

/-- The format of the output is one that a server can send, and the counter of sent bytes is an
`int`. -/
structure Admitted (buffer : AudioBuffer) : Prop where
  rate : FitsInt buffer.outFormat.rate
  channels : 0 ≤ buffer.outFormat.channels ∧ buffer.outFormat.channels < 65536
  bps : 0 ≤ buffer.outFormat.bps ∧ buffer.outFormat.bps < 8192
  sent : FitsInt buffer.totalBytesSent

section Computations

variable {buffer : AudioBuffer}

/-- A format is read from 16 and 32 bits. -/
theorem aiFormats_admitted {count : Nat} {stream : List UInt8} {format : AudioFormat}
    (accepted : aiFormats count stream = some format) :
    FitsInt format.rate ∧ (0 ≤ format.channels ∧ format.channels < 65536) ∧
      0 ≤ format.bps ∧ format.bps < 8192 := by
  induction count generalizing stream with
  | zero => cases accepted
  | succ count ih =>
      unfold aiFormats at accepted
      split_ifs at accepted
      · exact ih accepted
      · have same := Option.some.inj accepted
        subst same
        have channels := readUInt_two_lt stream 2
        have bits := readUInt_two_lt stream 14
        exact ⟨toInt_fits _, ⟨Int.natCast_nonneg _, by dsimp only; omega⟩, by dsimp only; omega,
          by dsimp only; omega⟩

theorem writeLoop_admitted (blob : Blob) (blobLength length : Int) (fuel : Nat)
    (admitted : Admitted buffer) : Admitted (writeLoop blob blobLength length fuel buffer) := by
  induction fuel generalizing buffer with
  | zero => exact ⟨admitted.rate, admitted.channels, admitted.bps, admitted.sent⟩
  | succ fuel ih =>
      unfold writeLoop
      split
      · exact ⟨admitted.rate, admitted.channels, admitted.bps, admitted.sent⟩
      · exact ⟨admitted.rate, admitted.channels, admitted.bps, admitted.sent⟩
      · exact ⟨admitted.rate, admitted.channels, admitted.bps, admitted.sent⟩
      · dsimp only
        split
        · exact ih ⟨admitted.rate, admitted.channels, admitted.bps, toInt_fits _⟩
        · exact ⟨admitted.rate, admitted.channels, admitted.bps, admitted.sent⟩

/-- No event but a format that the server sends changes the format of the output. -/
theorem audioInputStep_admitted (fuel : Nat) (event : AudioInputEvent)
    (admitted : Admitted buffer) : Admitted (audioInputStep fuel buffer event) := by
  have kept (after : AudioBuffer) (format : after.outFormat = buffer.outFormat)
      (sent : FitsInt after.totalBytesSent) : Admitted after :=
    ⟨format ▸ admitted.rate, format ▸ admitted.channels, format ▸ admitted.bps, sent⟩
  unfold audioInputStep
  split
  · exact admitted
  next action taken =>
    unfold Audio.audioStep
    split
    · exact admitted
    cases event with
    | audio stale mimetype =>
        obtain ⟨format, _, rfl⟩ := Option.map_eq_some_iff.mp taken
        exact kept _ rfl admitted.sent
    | formats stream =>
        obtain ⟨format, accepted, rfl⟩ := Option.map_eq_some_iff.mp taken
        unfold aiProcessFormats at accepted
        split at accepted
        · cases accepted
        · obtain ⟨rate, channels, bps⟩ := aiFormats_admitted accepted
          exact ⟨rate, channels, bps, admitted.sent⟩
    | open_ stream memory =>
        obtain ⟨frames, _, rfl⟩ := Option.map_eq_some_iff.mp taken
        dsimp only [begin_]
        split <;> exact kept _ rfl admitted.sent
    | blob data length short =>
        cases taken
        dsimp only [write]
        split_ifs
        · exact kept _ rfl admitted.sent
        · exact admitted
        · exact writeLoop_admitted _ _ _ _ admitted
        · have written := writeLoop_admitted data length (truncatedLength buffer length) fuel
            admitted
          exact ⟨written.rate, written.channels, written.bps, written.sent⟩
    | flush now =>
        cases taken
        dsimp only [flush]
        split_ifs <;> exact kept _ rfl admitted.sent
    | end_ =>
        cases taken
        dsimp only [end_]
        split
        · exact admitted
        · exact kept _ rfl (show FitsInt 0 by decide)

theorem sentCounters_fit {inFormat outFormat : AudioFormat} {totalBytesReceived length : Int}
    {fuel : Nat} {totalBytesSent : Int} (fits : FitsInt totalBytesSent) :
    ∀ counter ∈ sentCounters inFormat outFormat totalBytesReceived length fuel totalBytesSent,
      FitsInt counter := by
  induction fuel generalizing totalBytesSent with
  | zero => exact List.forall_mem_nil _
  | succ fuel ih =>
      unfold sentCounters
      refine List.forall_mem_cons.mpr ⟨fits, ?_⟩
      split
      · split
        · exact ih (toInt_fits _)
        · exact List.forall_mem_nil _
      · exact List.forall_mem_nil _

theorem writeCounters_fit (admitted : Admitted buffer) (fuel : Nat) (length : Int) :
    ∀ counter ∈ writeCounters fuel buffer length, FitsInt counter := by
  unfold writeCounters
  split
  · exact List.forall_mem_nil _
  · exact sentCounters_fit admitted.sent

/-- A number that is not zero is not zero as `size_t`. -/
theorem toSize_ne_zero {value : Int} (fits : FitsInt value) (nonzero : value ≠ 0) :
    toSize value ≠ 0 := by
  unfold FitsInt at fits
  unfold toSize
  omega

theorem duration_ne_none_of_fits {format : AudioFormat} {length : Int}
    (fits : DurationFits format length) : duration format length ≠ none := by
  rw [duration, if_neg (not_or.mpr ⟨fits.rate, not_or.mpr ⟨fits.bps, fits.channels⟩⟩)]
  exact Option.some_ne_none _

/-- Scheduling a flush needs no more than the duration of what has been written, unless this is
negative. -/
theorem computeScheduleFlush_sound_iff (admitted : Admitted buffer)
    (fits : DurationFits buffer.outFormat buffer.bytesWritten) (due : mayFlush buffer = true)
    (now : Timespec) :
    (computeScheduleFlush buffer.outFormat buffer.packetSize buffer.bytesWritten now).Sound ↔
      (buffer.bytesWritten < 0 →
        ScheduleFits buffer.outFormat buffer.packetSize buffer.bytesWritten now) := by
  rw [computeScheduleFlush_sound]
  refine ⟨fun schedule _ => schedule, fun negative => ?_⟩
  rcases Int.lt_or_le buffer.bytesWritten 0 with below | nonneg
  · exact negative below
  have product := fits.product
  have channels := admitted.channels
  have bps := admitted.bps
  unfold FitsInt at product
  simp only [mayFlush, Bool.and_eq_true, decide_eq_true_eq] at due
  exact scheduleFits_of_nonneg
    ⟨toSize_ne_zero admitted.rate fits.rate, toSize_ne_zero ⟨by omega, by omega⟩ fits.bps,
      toSize_ne_zero ⟨by omega, by omega⟩ fits.channels⟩
    nonneg (by omega) (by omega) due.2 now

/-- The computations of an event are sound exactly if its formats and numbers are such. -/
theorem computesSoundly_iff (admitted : Admitted buffer) (fuel : Nat) (event : AudioInputEvent) :
    ComputesSoundly fuel buffer event ↔ Computable fuel buffer event := by
  refine imp_congr_right fun _ => ?_
  cases event with
  | audio | formats | end_ => exact Iff.rfl
  | open_ stream memory =>
      refine forall_congr' fun frames => imp_congr_right fun _ => ?_
      rw [computeBegin_sound, computeLength_eq]
      exact and_iff_right (Computed.sound_guarded _)
  | blob data length short =>
      dsimp only
      rw [computeDuration_sound]
      refine and_congr_right fun fits => ?_
      rw [forall_prop_of_true (duration_ne_none_of_fits fits)]
      refine forall_congr' fun counter => forall_congr' fun looked => ?_
      exact computeReadSample_sound (writeCounters_fit admitted fuel length counter looked)
        admitted.bps.1 admitted.channels.1 _ _
  | flush now =>
      refine imp_congr_right fun due => ?_
      rw [computeDuration_sound]
      refine and_congr_right fun fits => ?_
      rw [forall_prop_of_true (duration_ne_none_of_fits fits)]
      exact imp_congr_right fun _ => computeScheduleFlush_sound_iff admitted fits due now

/-- What the model of the buffer notes of a lookup. -/
def noted (inFormat outFormat : AudioFormat) (totalBytesReceived blobLength length : Int)
    (totalBytesSent : Int) : Option SampleRead :=
  match readSample inFormat outFormat totalBytesSent totalBytesReceived length with
  | .divisionByZero => none
  | .negative offset | .nothing offset => some ⟨offset, inFormat.bps, blobLength, false⟩
  | .sample offset => some ⟨offset, inFormat.bps, blobLength, true⟩

/-- The lookups of the loop of a write are those at its counters, the last one first. -/
theorem writeLoop_reads_eq (blob : Blob) (blobLength length : Int) (fuel : Nat)
    (buffer : AudioBuffer) :
    (writeLoop blob blobLength length fuel buffer).reads =
      ((sentCounters buffer.inFormat buffer.outFormat buffer.totalBytesReceived length fuel
        buffer.totalBytesSent).filterMap
          (noted buffer.inFormat buffer.outFormat buffer.totalBytesReceived blobLength
            length)).reverse ++ buffer.reads := by
  induction fuel generalizing buffer with
  | zero => rfl
  | succ fuel ih =>
      unfold writeLoop sentCounters
      rcases result : readSample buffer.inFormat buffer.outFormat buffer.totalBytesSent
          buffer.totalBytesReceived length with _ | offset | offset | offset
      · rw [List.filterMap_cons_none (by rw [noted, result])]
        rfl
      · rw [List.filterMap_cons_some (by rw [noted, result])]
        rfl
      · rw [List.filterMap_cons_some (by rw [noted, result])]
        rfl
      · rw [List.filterMap_cons_some (by rw [noted, result]), List.reverse_cons,
          List.append_assoc]
        dsimp only
        by_cases narrow : buffer.outFormat.bps = 2 ∨ buffer.outFormat.bps = 1
        · rw [if_pos narrow]
          exact (if_pos narrow).symm ▸ ih _
        · rw [if_neg narrow]
          exact (if_neg narrow).symm ▸ rfl

end Computations

theorem alloc_admitted : Admitted .alloc where
  rate := by decide
  channels := by decide
  bps := by decide
  sent := by decide

/-- A Sound Formats PDU with stereo of 16 bits at 44100 Hz. -/
def stereoFormats : List UInt8 :=
  writeUInt 4 1 ++ writeUInt 4 26 ++ writeUInt 2 1 ++ writeUInt 2 2 ++ writeUInt 4 44100
    ++ writeUInt 4 176400 ++ writeUInt 2 4 ++ writeUInt 2 16 ++ writeUInt 2 0

end GuacNebula.Rdp
