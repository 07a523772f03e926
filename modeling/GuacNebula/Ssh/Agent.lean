import GuacNebula.Lib.Framing
import GuacNebula.Ssh.Buffer

/-! # The agent channel

Packets are taken from a buffer that is filled with what is read from the channel. The buffer is the
start of a memory, and what is accessed of that memory is recorded, as are the packets that were
handled. The function that reads strings out of a packet is given.
-/

namespace GuacNebula.Ssh

open CInt Codec

/-- The size of the buffer of `ssh_auth_agent`. -/
def agentBufferSize : Int := 4096

/-- `ssh_auth_agent`. -/
structure Agent where
  memory : Int → UInt8
  bufferLength : Int := 0

/-- A part of the memory, from a place on. -/
structure Access where
  place : Int
  count : Int
  deriving DecidableEq, Repr

/-- What a packet is handled with. -/
inductive AgentHandler
  | identities
  | sign (data dataLength : Int)
  | unsupported
  deriving DecidableEq, Repr

/-- A packet that has been handled: what was passed on, and the bytes that were meant by it. -/
structure Handling where
  type : UInt8
  data : Int
  dataLength : Int
  payload : List UInt8
  handler : AgentHandler

/-- `SSH2_AGENT_REQUEST_IDENTITIES`. -/
def agentRequestIdentities : UInt8 := 0x0B

/-- `SSH2_AGENT_SIGN_REQUEST`. -/
def agentSignRequest : UInt8 := 0x0D

/-- How `libssh2_channel_eof` and `libssh2_channel_read` answer: how many bytes are read if there
are any, and the error otherwise. -/
structure ChannelAnswer where
  eof : Bool
  count : Nat
  failure : Int
  deriving Repr

/-- `libssh2_channel_read`: the bytes that are read, and what is returned. Of the bytes that have
been received it reads between one and as many as there is space for. -/
def channelRead (pending : List UInt8) (answer : ChannelAnswer) (size : Nat) : List UInt8 × Int :=
  if pending = [] ∨ size = 0 then ([], min answer.failure 0)
  else
    let bytes := pending.take (min (max answer.count 1) size)
    (bytes, bytes.length)

/-- What `ssh_auth_agent_read` does. -/
structure AgentRead where
  agent : Agent
  pending : List UInt8
  returned : Int
  handling : Option Handling := none
  accesses : List Access := []

section Read

variable (readString : (Int → UInt8) → Int → StringRead)

/-- `ssh_auth_agent_handle_packet`: the handler that is called, and what was accessed before. -/
def agentHandlePacket (memory : Int → UInt8) (type : UInt8) (data : Int) :
    AgentHandler × List Access :=
  if type = agentRequestIdentities then (.identities, [])
  else if type = agentSignRequest then
    let keyBlob := readString memory data
    let signData := readString memory keyBlob.place
    (.sign signData.value signData.length, [⟨data, 4⟩, ⟨keyBlob.place, 4⟩])
  else (.unsupported, [])

namespace Agent

variable (agent : Agent)

/-- The length in the header that the buffer starts with. -/
def header : UInt32 :=
  (agent.memory 0).toUInt32 <<< 24 ||| (agent.memory 1).toUInt32 <<< 16
    ||| (agent.memory 2).toUInt32 <<< 8 ||| (agent.memory 3).toUInt32

/-- The part of `ssh_auth_agent_read` that calls the handler and shifts the data. -/
def handle (pending : List UInt8) : AgentRead :=
  let length := agent.header
  let type := agent.memory 4
  let dataLength := toInt (length - 1).toNat
  let (handler, accesses) := agentHandlePacket readString agent.memory type 5
  let bufferLength := toInt (UInt32.ofInt agent.bufferLength - (length + 4)).toNat
  let behind : Int := length.toNat + 4
  { agent :=
      { memory := store agent.memory 0 (load agent.memory behind bufferLength.toNat)
        bufferLength := bufferLength }
    pending := pending
    returned := toInt (length + 4).toNat
    handling := some
      { type := type
        data := 5
        dataLength := dataLength
        payload := type :: load agent.memory 5 dataLength.toNat
        handler := handler }
    accesses := accesses ++ [⟨behind, bufferLength⟩, ⟨0, bufferLength⟩] }

/-- The part of `ssh_auth_agent_read` that reads data into the buffer. -/
def fill (pending : List UInt8) (answer : ChannelAnswer) : AgentRead :=
  let size := (agentBufferSize - agent.bufferLength) % 18446744073709551616
  let (bytes, bytesRead) := channelRead pending answer size.toNat
  let memory := store agent.memory agent.bufferLength bytes
  { agent :=
      { memory := memory
        bufferLength :=
          if bytesRead < 0 then agent.bufferLength else agent.bufferLength + bytesRead }
    pending := pending.drop bytes.length
    returned := bytesRead
    accesses := [⟨agent.bufferLength, bytes.length⟩] }

/-- `ssh_auth_agent_read`. -/
def read (pending : List UInt8) (answer : ChannelAnswer) : AgentRead :=
  if answer.eof then { agent := agent, pending := pending, returned := -1 }
  else if 5 ≤ agent.bufferLength then
    let result :=
      if agent.header + 4 ≤ UInt32.ofInt agent.bufferLength then agent.handle readString pending
      else agent.fill pending answer
    { result with accesses := ⟨0, 5⟩ :: result.accesses }
  else agent.fill pending answer

/-- What is in the buffer. -/
def buffered : List UInt8 := load agent.memory 0 agent.bufferLength.toNat

end Agent

end Read

/-! ## Runs -/

/-- The number that bytes stand for, the highest first. -/
def bigEndian (bytes : List UInt8) : Nat :=
  bytes.foldl (fun value byte => value * 256 + byte.toNat) 0

/-- The packets of a stream: a length of four bytes, and as many bytes behind it. -/
def agentFraming : Framing UInt8 where
  header := 4
  size := bigEndian
  positive := Nat.succ_pos 3

/-- What happened on the channel: what was received, what is left of it to be read, which packets
were handled, and what was accessed. It is noted when a call makes no progress in spite of input. -/
structure AgentRun where
  agent : Agent
  received : List UInt8 := []
  pending : List UInt8 := []
  handlings : List Handling := []
  accesses : List Access := []
  stuck : Bool := false

/-- Bytes are received, or the channel is read. -/
inductive AgentEvent
  | receive (bytes : List UInt8)
  | read (answer : ChannelAnswer)

namespace AgentRun

/-- There is something to read, or a packet in the buffer. -/
def Available (run : AgentRun) : Prop :=
  run.pending ≠ [] ∨ agentFraming.payloads run.agent.buffered ≠ []

instance (run : AgentRun) : Decidable run.Available := inferInstanceAs (Decidable (_ ∨ _))

/-- What a read does is recorded. -/
def after (run : AgentRun) (result : AgentRead) : AgentRun where
  agent := result.agent
  received := run.received
  pending := result.pending
  handlings := run.handlings ++ result.handling.toList
  accesses := run.accesses ++ result.accesses
  stuck := run.stuck || (decide run.Available && result.handling.isNone &&
    decide (result.pending = run.pending))

def step (readString : (Int → UInt8) → Int → StringRead) (run : AgentRun) :
    AgentEvent → AgentRun
  | .receive bytes =>
    { run with received := run.received ++ bytes, pending := run.pending ++ bytes }
  | .read answer => run.after (run.agent.read readString run.pending answer)

end AgentRun

/-- The access is inside the buffer. -/
def Access.Inside (access : Access) : Prop :=
  0 ≤ access.place ∧ access.place + access.count ≤ agentBufferSize

/-- A string lies in the data of a packet. -/
def Handling.Within (handling : Handling) : AgentHandler → Prop
  | .sign data dataLength => 0 ≤ dataLength ∧ handling.data ≤ data ∧
      data + dataLength ≤ handling.data + handling.dataLength
  | _ => True

instance (handling : Handling) : ∀ handler, Decidable (handling.Within handler)
  | .sign _ _ => inferInstanceAs (Decidable (_ ∧ _ ∧ _))
  | .identities => isTrue trivial
  | .unsupported => isTrue trivial

/-- What is passed on lies in the packet. -/
def Handling.Proper (handling : Handling) : Prop :=
  0 ≤ handling.dataLength ∧ handling.Within handling.handler

/-- Everything is inside the buffer and the packets, the packets that were handled and those that
are left are the packets of the stream, and every call that could make progress did. -/
structure AgentRun.Sound (run : AgentRun) : Prop where
  inside : ∀ access ∈ run.accesses, access.Inside
  proper : ∀ handling ∈ run.handlings, handling.Proper
  framed : agentFraming.payloads run.received =
    run.handlings.map Handling.payload ++ agentFraming.payloads (run.agent.buffered ++ run.pending)
  progress : run.stuck = false

/-! ## Requirements -/

/-- The strings of a sign request lie in the packet. -/
def Agent.StringsWithin (agent : Agent) : Prop :=
  let keyBlob := bufferReadString agent.memory 5
  let signData := bufferReadString agent.memory keyBlob.place
  0 ≤ keyBlob.length ∧ 0 ≤ signData.length ∧
    1 + 8 + keyBlob.length + signData.length ≤ agent.header.toNat

instance (agent : Agent) : Decidable agent.StringsWithin :=
  inferInstanceAs (Decidable (_ ∧ _ ∧ _))

/-- What is in the buffer can be read on: no packet is empty or too long for the buffer, and the
strings of sign requests lie in their packets. -/
structure Agent.Readable (agent : Agent) (pending : List UInt8) : Prop where
  length : 5 ≤ agent.bufferLength → 0 < agent.header.toNat ∧ agent.header.toNat < 4294967292
  strings : 5 ≤ agent.bufferLength → agent.header.toNat + 4 ≤ agent.bufferLength →
    agent.memory 4 = agentSignRequest → agent.StringsWithin
  room : agent.bufferLength = agentBufferSize → pending ≠ [] →
    agent.header.toNat + 4 ≤ agentBufferSize
  alone : agent.buffered = [0, 0, 0, 0] → pending ≠ []

/-- No end is announced while there is input, and what is in the buffer can be read on. -/
def AgentRun.Readable (run : AgentRun) : AgentEvent → Prop
  | .receive _ => True
  | .read answer => if answer.eof then ¬ run.Available else run.agent.Readable run.pending

end GuacNebula.Ssh
