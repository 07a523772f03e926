import GuacNebula.Lib.Run

/-! # Static virtual channels

What the server writes to a channel arrives in chunks, and the plugin which is shared by all static
channels puts them together again. The first and the last chunk of a block are flagged, but nothing
keeps the server from leaving out a flag or from sending more than it has announced.

Messages that are logged are left out.
-/

namespace GuacNebula.Rdp

open Run

/-! ## Events -/

/-- `GUAC_SVC_MAX_ASSEMBLED_LENGTH`. -/
def svcMaxAssembledLength : Nat := 1048576

/-- `CHANNEL_FLAG_FIRST`. -/
def channelFlagFirst : UInt32 := 0x01

/-- `CHANNEL_FLAG_LAST`. -/
def channelFlagLast : UInt32 := 0x02

/-- A chunk that is received, and what is answered while it is handled: whether `Stream_New` returns
a stream of a given size, and whether `Stream_EnsureRemainingCapacity` finds or makes the space for
the data. -/
structure Chunk where
  data : List UInt8
  totalLength : UInt32
  dataFlags : UInt32
  streamNew : Nat → Bool
  ensureRemainingCapacity : Bool

/-- The events of an open channel. Those about a write say whether they come with its stream. -/
inductive ChannelEvent
  | dataReceived (chunk : Chunk)
  | writeCancelled (stream : Bool)
  | writeComplete (stream : Bool)
  | user

namespace Chunk

variable (chunk : Chunk)

/-- The chunk begins a block. -/
def isFirst : Bool := chunk.dataFlags &&& channelFlagFirst != 0

/-- The chunk ends a block. -/
def isLast : Bool := chunk.dataFlags &&& channelFlagLast != 0

/-- The size of the stream for a block that the chunk begins. -/
def streamSize : Nat :=
  if chunk.totalLength.toNat > svcMaxAssembledLength then svcMaxAssembledLength
  else chunk.totalLength.toNat

/-- The part of the data for which there is space: all or nothing. -/
def kept : List UInt8 := if chunk.ensureRemainingCapacity then chunk.data else []

end Chunk

/-! ## The channel -/

/-- `guac_rdp_common_svc`. -/
structure Svc where
  openHandle : UInt32
  receiveHandler : Bool
  inputStream : Option (List UInt8) := none
  deriving DecidableEq, Repr

/-- What is done for an event: the receive handler is called with a block, or the stream of a write
is freed. -/
inductive SvcOutput
  | receive (block : List UInt8)
  | streamFree
  deriving DecidableEq, Repr

/-- A chunk arrives on the channel. -/
def receiveChunk (svc : Svc) (chunk : Chunk) : Svc × List SvcOutput :=
  let inputStream :=
    if chunk.isFirst then if chunk.streamNew chunk.streamSize then some [] else none
    else svc.inputStream
  match inputStream with
  | none => ({ svc with inputStream := none }, [])
  | some stream =>
      let stream := if chunk.ensureRemainingCapacity then stream ++ chunk.data else stream
      if chunk.isLast then
        ({ svc with inputStream := none }, if svc.receiveHandler then [.receive stream] else [])
      else ({ svc with inputStream := some stream }, [])

/-- `guac_rdp_common_svc_handle_open_event`. Whether FreeRDP frees the streams that are written is
known when the plugin is built. -/
def handleOpenEvent (coreFreesWstream : Bool) (svc : Svc) (openHandle : UInt32) :
    ChannelEvent → Svc × List SvcOutput
  | .dataReceived chunk =>
      if openHandle ≠ svc.openHandle then (svc, []) else receiveChunk svc chunk
  | .writeCancelled stream => (svc, if !coreFreesWstream && stream then [.streamFree] else [])
  | .writeComplete stream => (svc, if !coreFreesWstream && stream then [.streamFree] else [])
  | .user => (svc, [])

/-! ## Blocks -/

/-- A block of which the first chunk has arrived, and whether a stream was there for it. -/
structure PendingBlock where
  streamed : Bool
  bytes : List UInt8 := []
  deriving DecidableEq, Repr

/-- The stream that holds the block, if there is one. -/
def PendingBlock.stream (block : PendingBlock) : Option (List UInt8) :=
  if block.streamed then some block.bytes else none

/-- The blocks that the chunks make up: the one that is not complete, and those that are. -/
structure Reassembly where
  pending : Option PendingBlock := none
  complete : List (List UInt8) := []
  deriving DecidableEq, Repr

/-- The block to which a chunk belongs, with the data of the chunk. -/
def Reassembly.block (reassembly : Reassembly) (chunk : Chunk) : Option PendingBlock :=
  let started :=
    if chunk.isFirst then some { streamed := chunk.streamNew chunk.streamSize }
    else reassembly.pending
  started.map fun block => { block with bytes := block.bytes ++ chunk.kept }

/-- The blocks after a chunk. -/
def Reassembly.add (reassembly : Reassembly) (chunk : Chunk) : Reassembly :=
  let block := reassembly.block chunk
  if chunk.isLast then
    { complete := reassembly.complete ++ (block.map PendingBlock.bytes).toList }
  else { reassembly with pending := block }

/-- The chunk that an event brings to the channel with the given handle. -/
def chunkFor (handle : UInt32) : UInt32 × ChannelEvent → Option Chunk
  | (openHandle, .dataReceived chunk) => if openHandle = handle then some chunk else none
  | _ => none

/-- The blocks after an event. -/
def Reassembly.step (handle : UInt32) (reassembly : Reassembly) (event : UInt32 × ChannelEvent) :
    Reassembly :=
  match chunkFor handle event with
  | none => reassembly
  | some chunk => reassembly.add chunk

/-- If an event completes a block, there was a stream for it, and the block is no longer than
`GUAC_SVC_MAX_ASSEMBLED_LENGTH`. -/
def BlockFits (handle : UInt32) (reassembly : Reassembly) (event : UInt32 × ChannelEvent) : Prop :=
  ∀ chunk ∈ chunkFor handle event, chunk.isLast = true → ∀ block ∈ reassembly.block chunk,
    block.streamed = true ∧ block.bytes.length ≤ svcMaxAssembledLength

/-! ## Sessions -/

/-- A channel with the blocks that its receive handler has been called with, and those that it should
have been called with. -/
structure SvcSession where
  svc : Svc
  received : List (List UInt8) := []
  reassembly : Reassembly := {}

/-- The block with which the receive handler is called. -/
def SvcOutput.block? : SvcOutput → Option (List UInt8)
  | .receive block => some block
  | .streamFree => none

/-- An event arrives. -/
def svcStep (coreFreesWstream : Bool) (session : SvcSession) (event : UInt32 × ChannelEvent) :
    SvcSession :=
  let (svc, outputs) := handleOpenEvent coreFreesWstream session.svc event.1 event.2
  { svc
    received := session.received ++ outputs.filterMap SvcOutput.block?
    reassembly := session.reassembly.step session.svc.openHandle event }

/-- The channel once it is open, with a receive handler. -/
def openedSvc (handle : UInt32) : SvcSession :=
  { svc := { openHandle := handle, receiveHandler := true } }

/-- The receive handler has been called once for each block, in order, and with no more bytes than
`GUAC_SVC_MAX_ASSEMBLED_LENGTH`. -/
def Reassembled (session : SvcSession) : Prop :=
  session.received = session.reassembly.complete
    ∧ ∀ block ∈ session.received, block.length ≤ svcMaxAssembledLength

/-- The channel has the given handle and a receive handler, and its stream holds the block that is
not complete. -/
structure Collects (handle : UInt32) (session : SvcSession) : Prop where
  openHandle : session.svc.openHandle = handle
  receiveHandler : session.svc.receiveHandler = true
  inputStream : session.svc.inputStream = session.reassembly.pending.bind PendingBlock.stream

section Handler

variable {svc : Svc} {reassembly : Reassembly}

/-- The stream after a chunk holds the block to which the chunk belongs, and after the last chunk
that block is what the handler is called with. -/
theorem receiveChunk_eq (chunk : Chunk) (handler : svc.receiveHandler = true)
    (holds : svc.inputStream = reassembly.pending.bind PendingBlock.stream) :
    receiveChunk svc chunk =
      let stream := (reassembly.block chunk).bind PendingBlock.stream
      if chunk.isLast then
        ({ svc with inputStream := none }, (stream.map SvcOutput.receive).toList)
      else ({ svc with inputStream := stream }, []) := by
  have kept (bytes : List UInt8) :
      (if chunk.ensureRemainingCapacity then bytes ++ chunk.data else bytes) =
        bytes ++ chunk.kept := by
    unfold Chunk.kept
    split <;> simp
  unfold receiveChunk Reassembly.block
  simp only [kept, handler, if_true]
  cases first : chunk.isFirst with
  | true =>
      cases allocated : chunk.streamNew chunk.streamSize <;> simp [PendingBlock.stream]
  | false =>
      simp only [holds]
      cases pending : reassembly.pending with
      | none => simp
      | some block => cases streamed : block.streamed <;> simp [PendingBlock.stream, streamed]

end Handler

section Session

variable {coreFreesWstream : Bool} {handle : UInt32} {session : SvcSession}

/-- Freeing the stream of a write is no call of the receive handler. -/
theorem blocks_written (freed : Bool) :
    (if freed then [SvcOutput.streamFree] else []).filterMap SvcOutput.block? = [] := by
  cases freed <;> rfl

/-- An event that brings no chunk changes nothing. -/
theorem svcStep_none {event : UInt32 × ChannelEvent}
    (none : chunkFor session.svc.openHandle event = none) :
    svcStep coreFreesWstream session event = session := by
  obtain ⟨openHandle, event⟩ := event
  simp only [svcStep, Reassembly.step, none]
  cases event with
  | dataReceived chunk =>
      have other : openHandle ≠ session.svc.openHandle := by simpa [chunkFor] using none
      simp [handleOpenEvent, other]
  | writeCancelled stream => simp only [handleOpenEvent, blocks_written, List.append_nil]
  | writeComplete stream => simp only [handleOpenEvent, blocks_written, List.append_nil]
  | user => simp [handleOpenEvent]

theorem chunkFor_eq_some {event : UInt32 × ChannelEvent} {chunk : Chunk}
    (brings : chunkFor handle event = some chunk) : event = (handle, .dataReceived chunk) := by
  obtain ⟨openHandle, event⟩ := event
  cases event with
  | dataReceived received =>
      obtain ⟨rfl, rfl⟩ : openHandle = handle ∧ received = chunk := by simpa [chunkFor] using brings
      rfl
  | writeCancelled | writeComplete | user => simp [chunkFor] at brings

/-- A chunk arrives on the channel. -/
theorem Collects.svcStep_some (collects : Collects handle session)
    {event : UInt32 × ChannelEvent} {chunk : Chunk} (brings : chunkFor handle event = some chunk) :
    svcStep coreFreesWstream session event =
      let block := session.reassembly.block chunk
      { svc :=
          { session.svc with
            inputStream := if chunk.isLast then none else block.bind PendingBlock.stream }
        received := session.received
          ++ if chunk.isLast then (block.bind PendingBlock.stream).toList else []
        reassembly := session.reassembly.add chunk } := by
  simp only [svcStep, Reassembly.step, collects.openHandle, brings]
  simp only [chunkFor_eq_some brings, handleOpenEvent, collects.openHandle, ne_eq, not_true,
    if_false, receiveChunk_eq chunk collects.receiveHandler collects.inputStream]
  cases chunk.isLast with
  | false => simp
  | true =>
      cases (session.reassembly.block chunk).bind PendingBlock.stream <;>
        simp [SvcOutput.block?]

theorem Collects.step (collects : Collects handle session) (event : UInt32 × ChannelEvent) :
    Collects handle (svcStep coreFreesWstream session event) := by
  cases brings : chunkFor handle event with
  | none => rwa [svcStep_none (by rw [collects.openHandle, brings])]
  | some chunk =>
      rw [collects.svcStep_some brings]
      refine ⟨collects.openHandle, collects.receiveHandler, ?_⟩
      cases last : chunk.isLast <;> simp [Reassembly.add, last]

/-- A block is passed on as it is exactly if there is a stream for it. -/
theorem stream_toList_eq_iff (block : Option PendingBlock) :
    (block.bind PendingBlock.stream).toList = (block.map PendingBlock.bytes).toList ↔
      ∀ pending ∈ block, pending.streamed = true := by
  cases block with
  | none => simp
  | some pending => cases streamed : pending.streamed <;> simp [PendingBlock.stream, streamed]

/-- What has been received stays right exactly if the block that an event completes fits. -/
theorem Collects.step_reassembled (collects : Collects handle session)
    (reassembled : Reassembled session) (event : UInt32 × ChannelEvent) :
    Reassembled (svcStep coreFreesWstream session event) ↔
      BlockFits handle session.reassembly event := by
  obtain ⟨complete, short⟩ := reassembled
  unfold BlockFits
  cases brings : chunkFor handle event with
  | none =>
      rw [svcStep_none (by rw [collects.openHandle, brings])]
      exact iff_of_true ⟨complete, short⟩ (by simp)
  | some chunk =>
      rw [collects.svcStep_some brings]
      cases last : chunk.isLast with
      | false => simpa [Reassembled, Reassembly.add, last] using ⟨complete, short⟩
      | true =>
          rw [complete] at short
          simp only [Reassembled, Reassembly.add, if_true, complete, List.append_cancel_left_eq,
            stream_toList_eq_iff, Option.mem_some_iff, forall_eq', last, forall_const]
          cases session.reassembly.block chunk with
          | none => simpa using short
          | some block =>
              cases streamed : block.streamed with
              | false => simp [streamed]
              | true =>
                  simpa [PendingBlock.stream, streamed, or_imp, forall_and] using fun _ => short

end Session

theorem collects_opened (handle : UInt32) : Collects handle (openedSvc handle) := ⟨rfl, rfl, rfl⟩

theorem reassembled_opened (handle : UInt32) : Reassembled (openedSvc handle) :=
  ⟨rfl, fun _ member => by cases member⟩

/-- The receive handler is called once for each block that is complete, with its data in order and
with no more of it than `GUAC_SVC_MAX_ASSEMBLED_LENGTH`, exactly if there is a stream for each of
these blocks and none of them is longer than that. -/
theorem svc_reassembled_iff (coreFreesWstream : Bool) (handle : UInt32)
    (events : List (UInt32 × ChannelEvent)) :
    Always (svcStep coreFreesWstream) Reassembled (openedSvc handle) events ↔
      Guarded (Reassembly.step handle) (BlockFits handle) {} events := by
  rw [always_iff_guarded (reassembled_opened handle) (collects_opened handle)
    (fun session event collects _ _ => collects.step event)
    (fun session event collects reassembled => collects.step_reassembled reassembled event)]
  refine guarded_view_iff SvcSession.reassembly (collects_opened handle)
    (fun session event collects => collects.step event) fun session event collects => ?_
  exact congrArg (fun opened => session.reassembly.step opened event) collects.openHandle

/-- A block of one chunk, with one byte more than `GUAC_SVC_MAX_ASSEMBLED_LENGTH`, is received when
space is made for it. -/
theorem svc_block_too_long :
    ¬ Always (svcStep false) Reassembled (openedSvc 1)
      [(1, .dataReceived
        { data := List.replicate 1048577 0
          totalLength := 1048577
          dataFlags := 3
          streamNew := fun _ => true
          ensureRemainingCapacity := true })] := by
  intro always
  have fits := ((collects_opened 1).step_reassembled (reassembled_opened 1) _).mp always.2
  have short : (List.replicate 1048577 (0 : UInt8)).length ≤ 1048576 := (fits _ rfl rfl _ rfl).2
  rw [List.length_replicate] at short
  exact absurd short (by decide)

end GuacNebula.Rdp
