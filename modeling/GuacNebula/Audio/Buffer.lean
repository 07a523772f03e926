import GuacNebula.Lib.CInt
import GuacNebula.Lib.Run
import Mathlib.Logic.Function.Basic

/-! # The audio input buffer

Audio recorded by the user is resampled into packets for the RDP server. The buffer is driven
by the user's stream (`setStream`, `write`), by the server (`setOutput`, `begin_`, `end_`) and
by its own flush thread. A failed assertion, a checked size that overflows and a division by
zero end the process: such a buffer is `halted`, and nothing happens to it any more.
-/

namespace GuacNebula.Audio

open GuacNebula.CInt

/-- `guac_rdp_audio_format`. -/
structure AudioFormat where
  rate : Int
  channels : Int
  bps : Int
  deriving DecidableEq, Repr

/-- A call of `guac_rdp_audio_buffer_read_sample`: the offset it computed, the length it was
given, and whether it read a sample. Offsets are those within the blob at hand. -/
structure SampleRead where
  offset : Int
  sampleSize : Int
  blobLength : Int
  returned : Bool
  deriving DecidableEq, Repr

/-- A store into the packet buffer. -/
structure SampleStore where
  start : Int
  size : Int
  capacity : Nat
  deriving DecidableEq, Repr

/-- `guac_rdp_audio_buffer`. The contents of the packet buffer are indexed by address relative
to its start. `reads` and `stores` are not part of the program: they list the accesses it
made, newest first. -/
structure AudioBuffer where
  stream : Bool
  inFormat : AudioFormat
  outFormat : AudioFormat
  packetSize : Nat
  packetBufferSize : Nat
  bytesWritten : Int
  totalBytesReceived : Int
  totalBytesSent : Int
  packet : Option (Int → UInt8)
  flushHandler : Bool
  packetsSent : List (List UInt8)
  halted : Bool
  reads : List SampleRead
  stores : List SampleStore

/-- `guac_rdp_audio_buffer_alloc`. -/
def AudioBuffer.alloc : AudioBuffer where
  stream := false
  inFormat := ⟨0, 0, 0⟩
  outFormat := ⟨0, 0, 0⟩
  packetSize := 0
  packetBufferSize := 0
  bytesWritten := 0
  totalBytesReceived := 0
  totalBytesSent := 0
  packet := none
  flushHandler := false
  packetsSent := []
  halted := false
  reads := []
  stores := []

/-- The end of the process. -/
def AudioBuffer.halt (buffer : AudioBuffer) : AudioBuffer := { buffer with halted := true }

/-- `guac_rdp_audio_buffer_duration`, which is only logged, but divides. -/
def duration (format : AudioFormat) (length : Int) : Option Int :=
  if format.rate = 0 ∨ format.bps = 0 ∨ format.channels = 0 then none
  else some (((toInt (length * 1000)).tdiv format.rate).tdiv format.bps |>.tdiv format.channels)

/-- `GUAC_RDP_AUDIO_BUFFER_MIN_DURATION`. -/
def minDuration : Int := 250

/-- `guac_rdp_audio_buffer_length`. -/
def bufferLength (format : AudioFormat) (milliseconds : Int) : Option Nat :=
  (checkedMul [toSize milliseconds, toSize format.rate, toSize format.bps,
    toSize format.channels]).map (· / 1000)

/-- The packet size and the size of the packet buffer computed by
`guac_rdp_audio_buffer_begin`. -/
def packetSizes (format : AudioFormat) (packetFrames : Int) : Option (Nat × Nat) := do
  let packetSize ← checkedMul [toSize packetFrames, toSize format.channels, toSize format.bps]
  let idealSize ← bufferLength format minDuration
  let rounded ← checkedSub (← checkedAdd idealSize packetSize) 1
  if packetSize = 0 then none
  else
    let packetBufferSize ← checkedMul [rounded / packetSize, packetSize]
    let _ ← duration format (toInt packetBufferSize)
    return (packetSize, packetBufferSize)

/-- `guac_rdp_audio_buffer_set_stream`. -/
def setStream (buffer : AudioBuffer) (format : AudioFormat) : AudioBuffer :=
  { buffer with stream := true, inFormat := format }

/-- `guac_rdp_audio_buffer_set_output`. -/
def setOutput (buffer : AudioBuffer) (format : AudioFormat) : AudioBuffer :=
  { buffer with outFormat := format }

/-- `guac_rdp_audio_buffer_begin`, with the memory that the allocation returned, if it
succeeded. The totals of the stream are not reset. -/
def begin_ (buffer : AudioBuffer) (packetFrames : Int) (memory : Option (Int → UInt8)) :
    AudioBuffer :=
  match packetSizes buffer.outFormat packetFrames with
  | none => buffer.halt
  | some (packetSize, packetBufferSize) =>
      { buffer with
        bytesWritten := 0
        flushHandler := true
        packetSize := packetSize
        packetBufferSize := packetBufferSize
        packet := memory }

/-- The offset that `guac_rdp_audio_buffer_read_sample` computes, unless it divides by
zero. The ratio of the rates is an exact rational, and an output rate of zero makes it
infinite. -/
def sampleOffset (inFormat outFormat : AudioFormat) (totalBytesSent totalBytesReceived : Int) :
    Option Int :=
  if outFormat.bps = 0 ∨ outFormat.channels = 0 then none
  else
    let currentSample := totalBytesSent.tdiv outFormat.bps
    let currentFrame := currentSample.tdiv outFormat.channels
    let outChannel := currentSample.tmod outFormat.channels
    let currentChannel :=
      if outChannel ≥ inFormat.channels then inFormat.channels - 1 else outChannel
    let inputFrame :=
      if outFormat.rate = 0 then -2147483648
      else truncToInt ((currentFrame * inFormat.rate).tdiv outFormat.rate)
    let inputSample := toInt (inputFrame * inFormat.channels + currentChannel)
    some (toInt (inputSample * inFormat.bps - totalBytesReceived))

/-- A byte of the blob. Addresses outside it hold whatever lies there in memory. -/
abbrev Blob := Int → UInt8

/-- The sample at an offset, as a 16-bit value. -/
def sampleAt (blob : Blob) (sampleSize offset : Int) : UInt16 :=
  if sampleSize = 2 then (blob offset).toUInt16 ||| (blob (offset + 1)).toUInt16 <<< 8
  else (blob offset).toUInt16 <<< 8

/-- What `guac_rdp_audio_buffer_read_sample` does: it divides by zero, fails its assertion on
the offset, reads nothing, or reads a sample. -/
inductive ReadResult
  | divisionByZero
  | negative (offset : Int)
  | nothing (offset : Int)
  | sample (offset : Int)
  deriving DecidableEq

/-- The outcome of `guac_rdp_audio_buffer_read_sample` for a blob of the given length. -/
def readSample (inFormat outFormat : AudioFormat) (totalBytesSent totalBytesReceived length : Int) :
    ReadResult :=
  match sampleOffset inFormat outFormat totalBytesSent totalBytesReceived with
  | none => .divisionByZero
  | some offset =>
      if offset < 0 then .negative offset
      else if toInt (length - offset) < inFormat.bps then .nothing offset
      else if inFormat.bps = 2 ∨ inFormat.bps = 1 then .sample offset
      else .nothing offset

/-- The packet buffer with a sample stored in it. -/
def storeSample (packet : Int → UInt8) (start outBps : Int) (sample : UInt16) : Int → UInt8 :=
  if outBps = 2 then
    Function.update (Function.update packet start sample.toUInt8) (start + 1) (sample >>> 8).toUInt8
  else Function.update packet start (sample >>> 8).toUInt8

/-- The read of one sample within a blob of `blobLength` bytes, noted down. -/
def AudioBuffer.noteRead (buffer : AudioBuffer) (offset blobLength : Int) (returned : Bool) :
    AudioBuffer :=
  { buffer with
    reads := ⟨offset, buffer.inFormat.bps, blobLength, returned⟩ :: buffer.reads }

/-- One sample stored into the packet, and counted. -/
def AudioBuffer.emit (buffer : AudioBuffer) (sample : UInt16) : AudioBuffer :=
  let outBps := buffer.outFormat.bps
  { buffer with
    packet := buffer.packet.map fun packet =>
      storeSample packet buffer.bytesWritten outBps sample
    bytesWritten := toInt (buffer.bytesWritten + outBps)
    totalBytesSent := toInt (buffer.totalBytesSent + outBps)
    stores := ⟨buffer.bytesWritten, outBps, buffer.packetBufferSize⟩ :: buffer.stores }

/-- The loop of `guac_rdp_audio_buffer_write`, followed for `fuel` samples; a loop that is
still running then is not followed any further. An output format that is neither 8- nor 16-bit
fails an assertion once there is a sample to be stored. -/
def writeLoop (blob : Blob) (blobLength length : Int) : Nat → AudioBuffer → AudioBuffer
  | 0, buffer => buffer.halt
  | fuel + 1, buffer =>
      match readSample buffer.inFormat buffer.outFormat buffer.totalBytesSent
          buffer.totalBytesReceived length with
      | .divisionByZero => buffer.halt
      | .negative offset => (buffer.noteRead offset blobLength false).halt
      | .nothing offset => buffer.noteRead offset blobLength false
      | .sample offset =>
          let buffer := buffer.noteRead offset blobLength true
          if buffer.outFormat.bps = 2 ∨ buffer.outFormat.bps = 1 then
            writeLoop blob blobLength length fuel
              (buffer.emit (sampleAt blob buffer.inFormat.bps offset))
          else buffer.halt

/-- The number of bytes of a blob that `guac_rdp_audio_buffer_write` goes on with. -/
def truncatedLength (buffer : AudioBuffer) (length : Int) : Int :=
  let available := toInt (buffer.packetBufferSize - buffer.bytesWritten)
  if length > available then available else length

/-- `guac_rdp_audio_buffer_write`. The bytes received are counted when the loop has run. -/
def write (fuel : Nat) (buffer : AudioBuffer) (blob : Blob) (length : Int) : AudioBuffer :=
  if duration buffer.inFormat length = none then buffer.halt
  else if buffer.packetBufferSize = 0 ∨ buffer.packet.isNone then buffer
  else
    let truncated := truncatedLength buffer length
    let written := writeLoop blob length truncated fuel buffer
    if written.halted then written
    else { written with totalBytesReceived := toInt (written.totalBytesReceived + truncated) }

/-- `guac_rdp_audio_buffer_may_flush`, at a time at which a flush is due. -/
def mayFlush (buffer : AudioBuffer) : Bool :=
  buffer.packetSize > 0 && toSize buffer.bytesWritten ≥ buffer.packetSize

/-- The packet buffer shifted back by one packet. -/
def shiftPacket (packet : Int → UInt8) (packetSize : Nat) (remaining : Int) : Int → UInt8 :=
  fun address =>
    if 0 ≤ address ∧ address < remaining then packet (address + packetSize) else packet address

/-- An iteration of `guac_rdp_audio_buffer_flush_thread` when the time of the next flush has
come. -/
def flush (buffer : AudioBuffer) : AudioBuffer :=
  if !mayFlush buffer then buffer
  else if duration buffer.outFormat buffer.bytesWritten = none then buffer.halt
  else
    let remaining := toInt (buffer.bytesWritten - buffer.packetSize)
    { buffer with
      packetsSent :=
        match buffer.flushHandler, buffer.packet with
        | true, some packet => buffer.packetsSent ++
            [(List.range buffer.packetSize).map fun address : Nat => packet address]
        | _, _ => buffer.packetsSent
      bytesWritten := remaining
      packet := buffer.packet.map fun packet => shiftPacket packet buffer.packetSize remaining }

/-- `guac_rdp_audio_buffer_end`. -/
def end_ (buffer : AudioBuffer) : AudioBuffer :=
  if !buffer.stream then buffer
  else
    { buffer with
      stream := false
      bytesWritten := 0
      packetSize := 0
      packetBufferSize := 0
      flushHandler := false
      totalBytesSent := 0
      totalBytesReceived := 0
      packet := none }

/-- A call on the audio buffer, or a flush by its thread. A blob is given by the bytes at and
around it. -/
inductive AudioAction
  | setStream (format : AudioFormat)
  | setOutput (format : AudioFormat)
  | begin_ (packetFrames : Int) (memory : Option (Int → UInt8))
  | write (blob : Blob) (length : Nat)
  | flush
  | end_

/-- The buffer after an action, the loop of a write being followed for `fuel` samples. -/
def audioStep (fuel : Nat) (buffer : AudioBuffer) (action : AudioAction) : AudioBuffer :=
  if buffer.halted then buffer
  else match action with
  | .setStream format => setStream buffer format
  | .setOutput format => setOutput buffer format
  | .begin_ packetFrames memory => begin_ buffer packetFrames memory
  | .write blob length => write fuel buffer blob length
  | .flush => flush buffer
  | .end_ => end_ buffer

end GuacNebula.Audio
