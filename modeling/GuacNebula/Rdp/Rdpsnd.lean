import GuacNebula.Lib.Run
import GuacNebula.Rdp.Rdpdr

/-! # Audio output

The server sends PDUs over the RDPSND channel. Each begins with a header that says which PDU it is,
but for the Wave PDU: it has four bytes of padding there, and is recognized by the WaveInfo PDU
before it, which also announces its size.

Messages that are logged are left out.
-/

namespace GuacNebula.Rdp

open CInt Run

/-! ## The channel -/

/-- `guac_rdpsnd_pcm_format`. -/
structure PcmFormat where
  rate : Int := 0
  channels : Int := 0
  bps : Int := 0
  deriving DecidableEq, Repr

/-- `GUAC_RDP_MAX_FORMATS`. -/
def maxFormats : Nat := 16

/-- `guac_rdpsnd`. -/
structure Rdpsnd where
  waveinfoBlockNumber : Nat := 0
  nextPduIsWave : Bool := false
  initialWaveData : List UInt8 := [0, 0, 0, 0]
  incomingWaveSize : Int := 0
  serverTimestamp : Nat := 0
  formats : Vector PcmFormat maxFormats := Vector.replicate maxFormats {}
  formatCount : Nat := 0
  deriving DecidableEq, Repr

/-- What the handlers do: PDUs sent to the server, and calls for the audio stream of the user. -/
inductive RdpsndOutput
  | write (pdu : List UInt8)
  | resetAudio (format : PcmFormat)
  | writePcm (samples : List UInt8)
  | flushAudio
  deriving DecidableEq, Repr

/-- `SNDC_CLOSE`. -/
def sndcClose : Nat := 0x01

/-- `SNDC_WAVE`. -/
def sndcWave : Nat := 0x02

/-- `SNDC_WAVECONFIRM`. -/
def sndcWaveconfirm : Nat := 0x05

/-- `SNDC_TRAINING`. -/
def sndcTraining : Nat := 0x06

/-- `SNDC_FORMATS`. -/
def sndcFormats : Nat := 0x07

/-- `SNDC_QUALITYMODE`. -/
def sndcQualitymode : Nat := 0x0C

/-- `WAVE_FORMAT_PCM`. -/
def waveFormatPcm : Nat := 1

/-- The type in the header of a PDU. -/
def messageType (pdu : List UInt8) : Nat := readUInt pdu 0 1

/-- The size of the body in the header of a PDU. -/
def bodySize (pdu : List UInt8) : Nat := readUInt pdu 2 2

/-- A PDU that is sent: the header with the given size, and the body. -/
def rdpsndPdu (messageType size : Nat) (body : List UInt8) : List UInt8 :=
  writeUInt 1 messageType ++ writeUInt 1 0 ++ writeUInt 2 size ++ body

/-! ## Handlers -/

/-- The state of the loop in which the formats of the server are read: the rest of the stream, and
the formats queued for sending as accepted. -/
structure FormatScan where
  rdpsnd : Rdpsnd
  stream : List UInt8
  accepted : List UInt8 := []
  outputs : List RdpsndOutput := []

/-- The format at the start of the stream, which has all its bytes. -/
def acceptFormat (scan : FormatScan) (size : Nat) : FormatScan :=
  let format : PcmFormat :=
    { rate := readInt scan.stream 4 4
      channels := readUInt scan.stream 2 2
      bps := readUInt scan.stream 14 2 }
  if readUInt scan.stream 0 2 = waveFormatPcm ∧ scan.rdpsnd.formatCount < maxFormats then
    { rdpsnd :=
        { scan.rdpsnd with
          formats := scan.rdpsnd.formats.setIfInBounds scan.rdpsnd.formatCount format
          formatCount := scan.rdpsnd.formatCount + 1 }
      stream := scan.stream.drop (18 + size)
      accepted := scan.accepted ++ scan.stream.take (18 + size)
      outputs := scan.outputs ++ [.resetAudio format] }
  else { scan with stream := scan.stream.drop (18 + size) }

/-- The loop over the formats of the server, and whether the stream had them all. -/
def readFormats : Nat → FormatScan → FormatScan × Bool
  | 0, scan => (scan, true)
  | count + 1, scan =>
      if scan.stream.length < 18 then (scan, false)
      else
        let size := readUInt scan.stream 16 2
        if scan.stream.length - 18 < size then (scan, false)
        else readFormats count (acceptFormat scan size)

/-- The Client Audio Formats and Version PDU. -/
def clientFormats (formatCount : Nat) (accepted : List UInt8) : List UInt8 :=
  rdpsndPdu sndcFormats (20 + accepted.length)
    (writeUInt 4 1 ++ writeUInt 4 0 ++ writeUInt 4 0 ++ writeUInt 2 0 ++ writeUInt 2 formatCount
      ++ writeUInt 1 0 ++ writeUInt 2 6 ++ writeUInt 1 0 ++ accepted)

/-- The Quality Mode PDU. -/
def qualityMode : List UInt8 := rdpsndPdu sndcQualitymode 4 (writeUInt 2 2 ++ writeUInt 2 0)

/-- `guac_rdpsnd_formats_handler`. -/
def formatsHandler (audio : Bool) (rdpsnd : Rdpsnd) (stream : List UInt8) :
    Rdpsnd × List RdpsndOutput :=
  let rdpsnd := { rdpsnd with formatCount := 0 }
  if stream.length < 20 then (rdpsnd, [])
  else
    let serverFormatCount := readUInt stream 14 2
    let serverVersion := readUInt stream 17 2
    let (scan, complete) :=
      readFormats (if audio then serverFormatCount else 0) { rdpsnd, stream := stream.drop 20 }
    if complete then
      (scan.rdpsnd, scan.outputs
        ++ [.write (clientFormats scan.rdpsnd.formatCount scan.accepted)]
        ++ if 6 ≤ serverVersion then [.write qualityMode] else [])
    else (scan.rdpsnd, scan.outputs)

/-- `guac_rdpsnd_training_handler`. -/
def trainingHandler (rdpsnd : Rdpsnd) (stream : List UInt8) : Rdpsnd × List RdpsndOutput :=
  if stream.length < 4 then (rdpsnd, [])
  else
    let timestamp := readUInt stream 0 2
    ({ rdpsnd with serverTimestamp := timestamp },
      [.write (rdpsndPdu sndcTraining 4
        (writeUInt 2 timestamp ++ writeUInt 2 (readUInt stream 2 2)))])

/-- `guac_rdpsnd_wave_info_handler`. -/
def waveInfoHandler (audio : Bool) (rdpsnd : Rdpsnd) (stream : List UInt8) (size : Nat) :
    Rdpsnd × List RdpsndOutput :=
  if stream.length < 12 then (rdpsnd, [])
  else
    let format := readUInt stream 2 2
    ({ rdpsnd with
        serverTimestamp := readUInt stream 0 2
        waveinfoBlockNumber := readUInt stream 4 1
        initialWaveData := (stream.drop 8).take 4
        incomingWaveSize := size - 12
        nextPduIsWave := true },
      match audio, rdpsnd.formats[format]? with
      | true, some format => [.resetAudio format]
      | _, _ => [])

/-- `guac_rdpsnd_wave_handler`, which is given the PDU with its header. -/
def waveHandler (audio : Bool) (rdpsnd : Rdpsnd) (pdu : List UInt8) :
    Rdpsnd × List RdpsndOutput :=
  if isShorter pdu (rdpsnd.incomingWaveSize + 4) then (rdpsnd, [])
  else
    let samples :=
      (rdpsnd.initialWaveData ++ pdu.drop 4).take (rdpsnd.incomingWaveSize + 4).toNat
    ({ rdpsnd with nextPduIsWave := false },
      (if audio then [.writePcm samples, .flushAudio] else [])
        ++ [.write (rdpsndPdu sndcWaveconfirm 4
          (writeUInt 2 rdpsnd.serverTimestamp ++ writeUInt 1 rdpsnd.waveinfoBlockNumber
            ++ writeUInt 1 0))])

/-- `guac_rdpsnd_close_handler`. -/
def closeHandler (rdpsnd : Rdpsnd) : Rdpsnd × List RdpsndOutput := (rdpsnd, [])

/-- `guac_rdpsnd_process_receive`. -/
def rdpsndProcessReceive (audio : Bool) (rdpsnd : Rdpsnd) (pdu : List UInt8) :
    Rdpsnd × List RdpsndOutput :=
  if pdu.length < 4 then (rdpsnd, [])
  else if rdpsnd.nextPduIsWave then waveHandler audio rdpsnd pdu
  else if messageType pdu = sndcFormats then formatsHandler audio rdpsnd (pdu.drop 4)
  else if messageType pdu = sndcTraining then trainingHandler rdpsnd (pdu.drop 4)
  else if messageType pdu = sndcWave then
    waveInfoHandler audio rdpsnd (pdu.drop 4) (bodySize pdu)
  else if messageType pdu = sndcClose then closeHandler rdpsnd
  else (rdpsnd, [])

/-! ## What is expected -/

/-- The PDU, if read by its header, is a WaveInfo PDU with all that belongs to one. -/
def isWaveInfo (pdu : List UInt8) : Bool := 16 ≤ pdu.length ∧ messageType pdu = sndcWave

/-- The sizes that are used for the data of a Wave PDU when a PDU is received. -/
def usedWaveSizes (rdpsnd : Rdpsnd) (pdu : List UInt8) : List Int :=
  if 4 ≤ pdu.length ∧ rdpsnd.nextPduIsWave then [rdpsnd.incomingWaveSize] else []

/-- A session on the channel, with what the PDUs so far say about the next one: after a WaveInfo
PDU there is one Wave PDU. The sizes that have been used are recorded. -/
structure RdpsndSession where
  rdpsnd : Rdpsnd := {}
  waveDue : Bool := false
  waveSizes : List Int := []

/-- A PDU is received. -/
def rdpsndStep (audio : Bool) (session : RdpsndSession) (pdu : List UInt8) : RdpsndSession where
  rdpsnd := (rdpsndProcessReceive audio session.rdpsnd pdu).1
  waveDue := !session.waveDue && isWaveInfo pdu
  waveSizes := session.waveSizes ++ usedWaveSizes session.rdpsnd pdu

/-- The next PDU is taken for a Wave PDU if and only if it is one, and the sizes used so far were
not negative. -/
def Synchronised (session : RdpsndSession) : Prop :=
  session.rdpsnd.nextPduIsWave = session.waveDue ∧ ∀ size ∈ session.waveSizes, 0 ≤ size

/-- Every WaveInfo PDU announces as many bytes as it has itself, at least, and the PDU after it has
all that were announced. The size of the body in the WaveInfo PDU that came last is given, if it
was the last PDU. -/
def WavesComplete : Option Nat → List (List UInt8) → Prop
  | _, [] => True
  | none, pdu :: pdus => WavesComplete (if isWaveInfo pdu then some (bodySize pdu) else none) pdus
  | some size, pdu :: pdus => (12 ≤ size ∧ size ≤ pdu.length + 8) ∧ WavesComplete none pdus

/-! ## Frames -/

theorem readUInt_two_lt (stream : List UInt8) (offset : Nat) :
    readUInt stream offset 2 < 65536 := by
  have short : ((stream.drop offset).take 2).length ≤ 2 := List.length_take_le ..
  exact Nat.lt_of_lt_of_le (littleEndian_lt _) (Nat.pow_le_pow_right (by decide) short)

theorem bodySize_lt (pdu : List UInt8) : bodySize pdu < 65536 := readUInt_two_lt pdu 2

@[simp] theorem acceptFormat_nextPduIsWave (scan : FormatScan) (size : Nat) :
    (acceptFormat scan size).rdpsnd.nextPduIsWave = scan.rdpsnd.nextPduIsWave := by
  simp only [acceptFormat]
  split <;> rfl

@[simp] theorem readFormats_nextPduIsWave (count : Nat) (scan : FormatScan) :
    (readFormats count scan).1.rdpsnd.nextPduIsWave = scan.rdpsnd.nextPduIsWave := by
  induction count generalizing scan with
  | zero => rfl
  | succ count ih =>
      simp only [readFormats]
      split
      · rfl
      · split
        · rfl
        · rw [ih, acceptFormat_nextPduIsWave]

@[simp] theorem formatsHandler_nextPduIsWave (audio : Bool) (rdpsnd : Rdpsnd)
    (stream : List UInt8) :
    (formatsHandler audio rdpsnd stream).1.nextPduIsWave = rdpsnd.nextPduIsWave := by
  simp only [formatsHandler]
  split
  · rfl
  · generalize (if audio then readUInt stream 14 2 else 0) = count
    split <;> simp

@[simp] theorem trainingHandler_nextPduIsWave (rdpsnd : Rdpsnd) (stream : List UInt8) :
    (trainingHandler rdpsnd stream).1.nextPduIsWave = rdpsnd.nextPduIsWave := by
  simp only [trainingHandler]
  split <;> rfl

/-- A WaveInfo PDU is refused if it is short, or else the Wave PDU is expected. -/
theorem waveInfoHandler_nextPduIsWave (audio : Bool) (rdpsnd : Rdpsnd) (stream : List UInt8)
    (size : Nat) :
    (waveInfoHandler audio rdpsnd stream size).1.nextPduIsWave =
      (decide (12 ≤ stream.length) || rdpsnd.nextPduIsWave) := by
  simp only [waveInfoHandler]
  split
  case isTrue short => simp [Nat.not_le.mpr short]
  case isFalse long => simp [Nat.not_lt.mp long]

/-! ## One PDU -/

/-- A PDU read by its header makes the next one a Wave PDU if and only if it is a WaveInfo PDU. -/
theorem rdpsndProcessReceive_byHeader (audio : Bool) {rdpsnd : Rdpsnd} (pdu : List UInt8)
    (header : rdpsnd.nextPduIsWave = false) :
    (rdpsndProcessReceive audio rdpsnd pdu).1.nextPduIsWave = isWaveInfo pdu := by
  unfold rdpsndProcessReceive isWaveInfo
  split
  case isTrue short => simp [header]; omega
  case isFalse long =>
    simp only [header, Bool.false_eq_true, ↓reduceIte]
    split
    case isTrue formats => simp [formats, header, sndcFormats, sndcWave]
    split
    case isTrue training => simp [training, header, sndcTraining, sndcWave]
    split
    case isTrue wave =>
      simp only [waveInfoHandler_nextPduIsWave, header, List.length_drop, wave, and_true,
        Bool.or_false, decide_eq_decide]
      omega
    case isFalse other =>
      split <;> simp [closeHandler, header, other]

/-- The size that a WaveInfo PDU announces. -/
theorem rdpsndProcessReceive_waveInfo (audio : Bool) {rdpsnd : Rdpsnd} {pdu : List UInt8}
    (header : rdpsnd.nextPduIsWave = false) (waveInfo : isWaveInfo pdu) :
    (rdpsndProcessReceive audio rdpsnd pdu).1.incomingWaveSize = bodySize pdu - 12 := by
  obtain ⟨long, wave⟩ : 16 ≤ pdu.length ∧ messageType pdu = sndcWave := by
    simpa [isWaveInfo] using waveInfo
  have headed : ¬ pdu.length < 4 := by omega
  have whole : ¬ pdu.length - 4 < 12 := by omega
  simp [rdpsndProcessReceive, waveInfoHandler, headed, whole, header, wave, sndcFormats,
    sndcTraining, sndcWave]

/-- A Wave PDU with all that was announced is read, and one that is too short stays expected. -/
theorem rdpsndProcessReceive_wave (audio : Bool) {rdpsnd : Rdpsnd} (pdu : List UInt8)
    (wave : rdpsnd.nextPduIsWave = true) :
    (rdpsndProcessReceive audio rdpsnd pdu).1.nextPduIsWave =
      (decide (pdu.length < 4) || isShorter pdu (rdpsnd.incomingWaveSize + 4)) := by
  unfold rdpsndProcessReceive
  split
  case isTrue short => simp [wave, short]
  case isFalse long =>
    simp only [waveHandler, long, decide_false, Bool.false_or]
    split
    case isTrue short => simp [wave, short]
    case isFalse whole => simp [whole]

/-- When fewer than eight bytes were announced, no PDU is long enough to be the Wave PDU: whatever
follows is dropped. -/
theorem rdpsndProcessReceive_wedged (audio : Bool) {rdpsnd : Rdpsnd} {pdu : List UInt8}
    (wave : rdpsnd.nextPduIsWave = true) (announced : -12 ≤ rdpsnd.incomingWaveSize)
    (negative : rdpsnd.incomingWaveSize + 4 < 0) (addressable : pdu.length < 2 ^ 63) :
    rdpsndProcessReceive audio rdpsnd pdu = (rdpsnd, []) := by
  have short : isShorter pdu (rdpsnd.incomingWaveSize + 4) = true := by
    refine decide_eq_true ?_
    simp only [toSize]
    omega
  simp [rdpsndProcessReceive, wave, waveHandler, short]

/-! ## Sessions -/

/-- What a session waits for: a PDU with a header, or the Wave PDU that was announced by a header
with the given size. -/
def Awaits : Option Nat → RdpsndSession → Prop
  | none, session => session.rdpsnd.nextPduIsWave = false ∧ session.waveDue = false
  | some size, session =>
      session.rdpsnd.nextPduIsWave = true ∧ session.waveDue = true
        ∧ session.rdpsnd.incomingWaveSize = (size : Int) - 12 ∧ size < 65536

/-- The sizes that a session has used are not negative. -/
def SizesNonneg (session : RdpsndSession) : Prop := ∀ size ∈ session.waveSizes, 0 ≤ size

section Session

variable {audio : Bool} {session : RdpsndSession}

theorem Awaits.synchronised {announced : Option Nat} (awaits : Awaits announced session)
    (nonneg : SizesNonneg session) : Synchronised session := by
  cases announced with
  | none => exact ⟨awaits.1.trans awaits.2.symm, nonneg⟩
  | some size => exact ⟨awaits.1.trans awaits.2.1.symm, nonneg⟩

/-- A PDU that is read by its header leaves nothing open but the Wave PDU after a WaveInfo PDU. -/
theorem Awaits.step_byHeader (awaits : Awaits none session) (pdu : List UInt8) :
    Awaits (if isWaveInfo pdu then some (bodySize pdu) else none)
      (rdpsndStep audio session pdu) := by
  obtain ⟨header, due⟩ := awaits
  have next := rdpsndProcessReceive_byHeader audio pdu header
  cases waveInfo : isWaveInfo pdu with
  | false => exact ⟨by simp [rdpsndStep, next, waveInfo], by simp [rdpsndStep, waveInfo]⟩
  | true =>
      exact ⟨by simp [rdpsndStep, next, waveInfo], by simp [rdpsndStep, waveInfo, due],
        rdpsndProcessReceive_waveInfo audio header waveInfo, bodySize_lt pdu⟩

theorem SizesNonneg.step_byHeader (nonneg : SizesNonneg session) (awaits : Awaits none session)
    (pdu : List UInt8) : SizesNonneg (rdpsndStep audio session pdu) := by
  simpa [SizesNonneg, rdpsndStep, usedWaveSizes, awaits.1] using nonneg

/-- A PDU that is awaited as a Wave PDU keeps the session synchronised if and only if it is
complete. -/
theorem Awaits.step_wave {size : Nat} (awaits : Awaits (some size) session)
    (nonneg : SizesNonneg session) (pdu : List UInt8) :
    Synchronised (rdpsndStep audio session pdu) ↔ 12 ≤ size ∧ size ≤ pdu.length + 8 := by
  obtain ⟨wave, due, incoming, small⟩ := awaits
  have next := rdpsndProcessReceive_wave audio pdu wave
  have notDue : (rdpsndStep audio session pdu).waveDue = false := by simp [rdpsndStep, due]
  constructor
  · rintro ⟨flag, used⟩
    have cleared := (next.symm.trans flag).trans notDue
    simp only [Bool.or_eq_false_iff, decide_eq_false_iff_not, isShorter, toSize, incoming]
      at cleared
    have announced : 0 ≤ session.rdpsnd.incomingWaveSize := by
      refine used _ (List.mem_append_right _ ?_)
      simp [usedWaveSizes, wave]
      omega
    omega
  · rintro ⟨enough, complete⟩
    refine ⟨?_, fun used member => ?_⟩
    · refine (next.trans ?_).trans notDue.symm
      simp only [Bool.or_eq_false_iff, decide_eq_false_iff_not, isShorter, toSize, incoming]
      omega
    · rcases List.mem_append.mp member with earlier | now
      · exact nonneg used earlier
      · have same : used = session.rdpsnd.incomingWaveSize := by
          simpa [usedWaveSizes, wave, show 4 ≤ pdu.length by omega] using now
        omega

/-- After a Wave PDU that keeps the session synchronised, headers are read again. -/
theorem Awaits.after_wave {size : Nat} (awaits : Awaits (some size) session) {pdu : List UInt8}
    (synchronised : Synchronised (rdpsndStep audio session pdu)) :
    Awaits none (rdpsndStep audio session pdu) := by
  have notDue : (rdpsndStep audio session pdu).waveDue = false := by simp [rdpsndStep, awaits.2.1]
  exact ⟨synchronised.1.trans notDue, notDue⟩

/-- A session in which nothing is out of step stays so exactly as long as the Wave PDUs are
complete. -/
theorem always_synchronised_iff {announced : Option Nat} (awaits : Awaits announced session)
    (nonneg : SizesNonneg session) (pdus : List (List UInt8)) :
    Always (rdpsndStep audio) Synchronised session pdus ↔ WavesComplete announced pdus := by
  induction pdus generalizing session announced with
  | nil =>
      have here : Synchronised session := awaits.synchronised nonneg
      simp only [Always, here, WavesComplete]
  | cons pdu pdus ih =>
      have here : Synchronised session := awaits.synchronised nonneg
      simp only [Always, here, true_and]
      cases announced with
      | none => exact ih (awaits.step_byHeader pdu) (nonneg.step_byHeader awaits pdu)
      | some size =>
          constructor
          · intro rest
            have kept := rest.head
            exact ⟨(awaits.step_wave nonneg pdu).mp kept,
              (ih (awaits.after_wave kept) kept.2).mp rest⟩
          · rintro ⟨complete, rest⟩
            have kept : Synchronised (rdpsndStep audio session pdu) :=
              (awaits.step_wave nonneg pdu).mpr complete
            exact (ih (awaits.after_wave kept) kept.2).mpr rest

end Session

/-- The channel stays synchronised exactly as long as every WaveInfo PDU announces at least its own
size and the PDU after it has all that was announced. -/
theorem rdpsnd_synchronised_iff (audio : Bool) (pdus : List (List UInt8)) :
    Always (rdpsndStep audio) Synchronised {} pdus ↔ WavesComplete none pdus := by
  have connected : Awaits none {} := ⟨rfl, rfl⟩
  exact always_synchronised_iff connected (by simp [SizesNonneg]) pdus

/-- A WaveInfo PDU that announces sixteen bytes, a Wave PDU that has no header, and a PDU with
which training begins: the last is taken for wave data. -/
theorem rdpsnd_desynchronised :
    ¬ Always (rdpsndStep true) Synchronised {}
      [[2, 0, 16, 0, 0, 0, 0, 0, 1, 0, 0, 0, 9, 9, 9, 9], [0, 0], [6, 0, 4, 0, 1, 0, 0, 0]] := by
  intro always
  exact absurd always.2.2.head.1 (by decide)

end GuacNebula.Rdp
