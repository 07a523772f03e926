import GuacNebula.Lib.Run
import GuacNebula.Ssh.Agent

/-! # Packets of the agent channel

However the stream of the channel is cut into reads, its packets are handled in order, as long as
what is in the buffer can be read on. The buffer and what is left to be read are always the rest of
the stream behind the packets that were handled.
-/

namespace GuacNebula.Ssh

open CInt Codec

/-! ## Packets -/

section Packets

variable (readString : (Int → UInt8) → Int → StringRead) (memory : Int → UInt8) (data : Int)

theorem agentHandlePacket_sign :
    agentHandlePacket readString memory agentSignRequest data =
      let keyBlob := readString memory data
      let signData := readString memory keyBlob.place
      (.sign signData.value signData.length, [⟨data, 4⟩, ⟨keyBlob.place, 4⟩]) := rfl

/-- Other packets pass on no string, and nothing of them is read. -/
theorem agentHandlePacket_other {type : UInt8} (other : type ≠ agentSignRequest) :
    (agentHandlePacket readString memory type data).2 = [] ∧
      ∀ handling : Handling,
        handling.Within (agentHandlePacket readString memory type data).1 := by
  unfold agentHandlePacket
  rw [if_neg other]
  split <;> exact ⟨rfl, fun _ => trivial⟩

end Packets

/-! ## The buffer -/

namespace Agent

variable {agent : Agent} {pending : List UInt8}

theorem header_toNat (agent : Agent) :
    agent.header.toNat = bigEndian (load agent.memory 0 4) := by
  have value : agent.header.toNat = (agent.memory 0).toNat * 0x1000000 +
      (agent.memory 1).toNat * 0x10000 + (agent.memory 2).toNat * 0x100 + (agent.memory 3).toNat :=
    bufferReadUint32_toNat agent.memory 0
  have bytes : load agent.memory 0 4 =
      [agent.memory 0, agent.memory 1, agent.memory 2, agent.memory 3] := rfl
  rw [value, bytes]
  simp only [bigEndian, List.foldl_cons, List.foldl_nil]
  omega

theorem buffered_length (least : 0 ≤ agent.bufferLength) :
    (agent.buffered.length : Int) = agent.bufferLength := by
  rw [buffered, load_length, Int.toNat_of_nonneg least]

/-- The buffer starts with a header as soon as there is space for it. -/
theorem extent_buffered (long : 4 ≤ agent.bufferLength) :
    agentFraming.extent agent.buffered = agent.header.toNat + 4 := by
  obtain ⟨rest, length⟩ : ∃ rest, agent.bufferLength.toNat = 4 + rest :=
    ⟨agent.bufferLength.toNat - 4, by omega⟩
  have start : agent.buffered.take 4 = load agent.memory 0 4 := by
    rw [buffered, length, load_add]
    exact List.take_left' (load_length ..)
  unfold Framing.extent agentFraming
  dsimp only
  rw [start, ← header_toNat, Nat.add_comm]

/-- There is a packet in the buffer if it is as long as the header says. -/
theorem payloads_buffered (least : 0 ≤ agent.bufferLength) :
    agentFraming.payloads agent.buffered ≠ [] ↔
      4 ≤ agent.bufferLength ∧ (agent.header.toNat + 4 : Int) ≤ agent.bufferLength := by
  have length := buffered_length least
  rw [Ne, Framing.payloads_eq_nil, Nat.not_lt]
  by_cases long : 4 ≤ agent.bufferLength
  · rw [extent_buffered long]
    omega
  · have least : 4 ≤ agentFraming.extent agent.buffered := Nat.le_add_right 4 _
    omega

/-- A packet without anything in it is alone in the buffer. -/
theorem buffered_eq_zeros (least : 0 ≤ agent.bufferLength) :
    agent.buffered = [0, 0, 0, 0] ↔ agent.bufferLength = 4 ∧ agent.header.toNat = 0 := by
  have length := buffered_length least
  constructor
  · intro zeros
    rw [zeros] at length
    have four : agent.bufferLength = 4 := length.symm
    refine ⟨four, ?_⟩
    rw [buffered, four] at zeros
    rw [header_toNat, show load agent.memory 0 4 = _ from zeros]
    rfl
  · rintro ⟨four, zero⟩
    rw [buffered, four]
    rw [header_toNat] at zero
    change [agent.memory 0, agent.memory 1, agent.memory 2, agent.memory 3] = _
    change bigEndian [agent.memory 0, agent.memory 1, agent.memory 2, agent.memory 3] = 0 at zero
    simp only [bigEndian, List.foldl_cons, List.foldl_nil] at zero
    have null : ∀ byte : UInt8, byte.toNat = 0 → byte = 0 := fun byte same =>
      UInt8.toNat_inj.mp same
    rw [null (agent.memory 0) (by omega), null (agent.memory 1) (by omega),
      null (agent.memory 2) (by omega), null (agent.memory 3) (by omega)]

/-! ## Filling -/

/-- The channel gives between one byte and as many as there is space for, if there are any. -/
theorem channelRead_spec (pending : List UInt8) (answer : ChannelAnswer) (size : Nat) :
    let result := channelRead pending answer size
    result.1.length ≤ size ∧ result.1 ++ pending.drop result.1.length = pending ∧
      (result.1 = [] ↔ pending = [] ∨ size = 0) ∧
      (result.2 = result.1.length ∨ result.1 = [] ∧ result.2 ≤ 0) := by
  unfold channelRead
  split
  case isTrue nothing =>
    exact ⟨Nat.zero_le _, rfl, iff_of_true rfl nothing, .inr ⟨rfl, Int.min_le_right ..⟩⟩
  case isFalse something =>
    obtain ⟨input, space⟩ := not_or.mp something
    have some := List.length_pos_of_ne_nil input
    have length : (pending.take (min (max answer.count 1) size)).length =
        min (min (max answer.count 1) size) pending.length := List.length_take
    refine ⟨by dsimp only; omega, ?_, iff_of_false (fun none => ?_) something, .inl rfl⟩
    · exact List.prefix_iff_eq_append.mp (List.take_prefix _ _)
    · have taken := congrArg List.length none
      rw [length, List.length_nil] at taken
      omega

/-- What is read goes behind what is in the buffer. -/
theorem fill_spec (least : 0 ≤ agent.bufferLength) (most : agent.bufferLength ≤ agentBufferSize)
    (pending : List UInt8) (answer : ChannelAnswer) :
    let result := agent.fill pending answer
    0 ≤ result.agent.bufferLength ∧ result.agent.bufferLength ≤ agentBufferSize ∧
      result.agent.buffered ++ result.pending = agent.buffered ++ pending ∧
      result.handling = none ∧ (∀ access ∈ result.accesses, access.Inside) ∧
      (result.pending = pending ↔ pending = [] ∨ agent.bufferLength = agentBufferSize) := by
  have room : ((agentBufferSize - agent.bufferLength) % 18446744073709551616).toNat =
      (agentBufferSize - agent.bufferLength).toNat := by
    unfold agentBufferSize at *
    omega
  obtain ⟨fits, split, nothing, returned⟩ := channelRead_spec pending answer
    (agentBufferSize - agent.bufferLength).toNat
  simp only [fill, room]
  generalize channelRead pending answer (agentBufferSize - agent.bufferLength).toNat = read at *
  obtain ⟨bytes, bytesRead⟩ := read
  dsimp only at fits split nothing returned ⊢
  have length : (if bytesRead < 0 then agent.bufferLength else agent.bufferLength + bytesRead) =
      agent.bufferLength + bytes.length := by
    rcases returned with count | ⟨none, failure⟩
    · rw [count, if_neg (Int.not_lt.mpr (Int.natCast_nonneg _))]
    · rw [none, List.length_nil]
      split <;> omega
  rw [length]
  refine ⟨by omega, by omega, ?_, trivial, ?_, ?_⟩
  · have count : (agent.bufferLength + bytes.length).toNat =
        agent.bufferLength.toNat + bytes.length := by omega
    have behind : (0 : Int) + agent.bufferLength.toNat = agent.bufferLength := by omega
    unfold buffered
    dsimp only
    rw [count, load_add, load_store_before _ _ (Int.le_of_eq behind), behind, load_store,
      List.append_assoc, split]
  · refine List.forall_mem_singleton.mpr ⟨least, ?_⟩
    dsimp only
    omega
  · rw [show agent.bufferLength = agentBufferSize ↔ (agentBufferSize - agent.bufferLength).toNat = 0
      by omega, ← nothing]
    constructor
    · intro same
      rw [same] at split
      exact List.append_left_eq_self.mp split
    · rintro rfl
      rfl

/-! ## Handling -/

section Handling

variable (readString : (Int → UInt8) → Int → StringRead)

/-- The length of a packet with its header is a number of 32 bits. -/
theorem extent_toNat (agent : Agent) :
    (agent.header + 4).toNat = (agent.header.toNat + 4) % 4294967296 :=
  UInt32.toNat_add ..

theorem bufferLength_toNat (least : 0 ≤ agent.bufferLength)
    (most : agent.bufferLength ≤ agentBufferSize) :
    (UInt32.ofInt agent.bufferLength).toNat = agent.bufferLength.toNat := by
  unfold agentBufferSize at most
  unfold UInt32.ofInt
  rw [UInt32.toNat_ofNat']
  omega

theorem complete_iff (least : 0 ≤ agent.bufferLength)
    (most : agent.bufferLength ≤ agentBufferSize) :
    agent.header + 4 ≤ UInt32.ofInt agent.bufferLength ↔
      ((agent.header.toNat + 4) % 4294967296 : Int) ≤ agent.bufferLength := by
  rw [UInt32.le_iff_toNat_le, extent_toNat, bufferLength_toNat least most]
  omega

/-- The lengths of a complete packet and of what is behind it. -/
theorem lengths (some : 0 < agent.header.toNat)
    (complete : (agent.header.toNat + 4 : Int) ≤ agent.bufferLength)
    (most : agent.bufferLength ≤ agentBufferSize) :
    toInt (agent.header - 1).toNat = agent.header.toNat - 1 ∧
      toInt (UInt32.ofInt agent.bufferLength - (agent.header + 4)).toNat =
        agent.bufferLength - (agent.header.toNat + 4) := by
  have within := (complete_iff (by omega) most).mpr (by omega)
  have positive : (1 : UInt32) ≤ agent.header := UInt32.le_iff_toNat_le.mpr some
  rw [UInt32.toNat_sub_of_le _ _ positive, UInt32.toNat_sub_of_le _ _ within, UInt32.toNat_one,
    extent_toNat, bufferLength_toNat (by omega) most]
  unfold agentBufferSize at most
  unfold toInt
  omega

/-- The packet is handled with its payload, and the buffer goes on behind it. -/
theorem handle_spec (some : 0 < agent.header.toNat)
    (complete : (agent.header.toNat + 4 : Int) ≤ agent.bufferLength)
    (most : agent.bufferLength ≤ agentBufferSize) (pending : List UInt8) :
    let result := agent.handle readString pending
    let packet := agentHandlePacket readString agent.memory (agent.memory 4) 5
    let rest := agent.bufferLength - (agent.header.toNat + 4)
    result.agent.bufferLength = rest ∧ result.pending = pending ∧
      result.accesses = packet.2 ++ [⟨agent.header.toNat + 4, rest⟩, ⟨0, rest⟩] ∧
      ∃ header payload, agent.buffered = header ++ payload ++ result.agent.buffered ∧
        header.length = 4 ∧ bigEndian header = payload.length ∧
        result.handling = Option.some
          { type := agent.memory 4
            data := 5
            dataLength := agent.header.toNat - 1
            payload := payload
            handler := packet.1 } := by
  obtain ⟨dataLength, shifted⟩ := lengths some complete most
  obtain ⟨size, length⟩ : ∃ size, agent.header.toNat = 1 + size :=
    ⟨agent.header.toNat - 1, by omega⟩
  obtain ⟨left, stored⟩ : ∃ left, agent.bufferLength.toNat = 4 + agent.header.toNat + left :=
    ⟨agent.bufferLength.toNat - (4 + agent.header.toNat), by omega⟩
  have rest : agent.bufferLength - (agent.header.toNat + 4) = left := by omega
  have payload : agent.memory 4 :: load agent.memory 5 (agent.header.toNat - 1 : Int).toNat =
      load agent.memory 4 agent.header.toNat := by
    rw [show (agent.header.toNat - 1 : Int).toNat = size by omega, length, load_add]
    rfl
  unfold handle
  dsimp only
  rw [shifted, dataLength, rest, payload]
  refine ⟨rfl, rfl, rfl, load agent.memory 0 4, load agent.memory 4 agent.header.toNat, ?_,
    load_length .., ?_, rfl⟩
  · have moved := load_store agent.memory 0 (load agent.memory (agent.header.toNat + 4) left)
    rw [load_length] at moved
    unfold buffered
    dsimp only
    rw [Int.toNat_natCast, moved, stored, load_add, load_add, Int.natCast_add, Int.zero_add,
      Int.zero_add, Int.add_comm (agent.header.toNat : Int)]
    rfl
  · rw [load_length, header_toNat]

end Handling

/-- The bytes of a negative length that is small. -/
theorem bytes_of_negative {memory : Int → UInt8} {place : Int}
    (negative : (bufferReadString memory place).length < 0)
    (small : -8 ≤ (bufferReadString memory place).length) :
    (memory place).toNat = 255 ∧ (memory (place + 1)).toNat = 255 ∧
      (memory (place + 2)).toNat = 255 ∧
      ((memory (place + 3)).toNat : Int) = 256 + (bufferReadString memory place).length := by
  change toInt (bufferReadUint32 memory place).1.toNat < 0 at negative
  change -8 ≤ toInt (bufferReadUint32 memory place).1.toNat at small
  change _ ∧ _ ∧ _ ∧ _ = 256 + toInt (bufferReadUint32 memory place).1.toNat
  have first := (memory place).toNat_lt
  have second := (memory (place + 1)).toNat_lt
  have third := (memory (place + 2)).toNat_lt
  have fourth := (memory (place + 3)).toNat_lt
  rw [bufferReadUint32_toNat] at negative small ⊢
  unfold toInt at *
  omega

/-- A string that is read with a negative length before it does not lie in the packet. -/
theorem not_within_of_negative (some : 0 < agent.header.toNat)
    (short : agent.header.toNat + 4 ≤ 4096) (type : agent.memory 4 = agentSignRequest)
    {key : Int} (same : (bufferReadString agent.memory 5).length = key) (negative : key < 0)
    (small : -8 ≤ key) :
    ¬ (0 ≤ (bufferReadString agent.memory (9 + key)).length ∧
      13 + key + (bufferReadString agent.memory (9 + key)).length ≤ agent.header.toNat + 4) := by
  obtain ⟨fifth, sixth, seventh, eighth⟩ :=
    bytes_of_negative (same ▸ negative) (show -8 ≤ _ from same ▸ small)
  rw [same] at eighth
  have fourth : (agent.memory 4).toNat = 13 := congrArg UInt8.toNat type
  have bound : ∀ place, (agent.memory place).toNat < 256 := fun place => UInt8.toNat_lt _
  have length := header_toNat agent
  change _ = bigEndian [agent.memory 0, agent.memory 1, agent.memory 2, agent.memory 3] at length
  simp only [bigEndian, List.foldl_cons, List.foldl_nil] at length
  change ¬ (0 ≤ toInt (bufferReadUint32 _ _).1.toNat ∧
    13 + key + toInt (bufferReadUint32 _ _).1.toNat ≤ _)
  rw [bufferReadUint32_toNat]
  have cases : key = -8 ∨ key = -7 ∨ key = -6 ∨ key = -5 ∨ key = -4 ∨ key = -3 ∨ key = -2 ∨
      key = -1 := by omega
  have one := bound 1
  have two := bound 2
  have three := bound 3
  have nine := bound 9
  have ten := bound 10
  have eleven := bound 11
  unfold toInt
  rcases cases with rfl | rfl | rfl | rfl | rfl | rfl | rfl | rfl <;>
    simp only [Int.reduceAdd, Int.reduceNeg] at fifth sixth seventh eighth ⊢ <;> omega

/-- The strings of a complete sign request lie in it exactly if the one that is signed does, and if
both are read inside the buffer. -/
theorem stringsWithin_iff (some : 0 < agent.header.toNat)
    (short : agent.header.toNat + 4 ≤ 4096) (type : agent.memory 4 = agentSignRequest) :
    agent.StringsWithin ↔
      let keyBlob := bufferReadString agent.memory 5
      let signData := bufferReadString agent.memory keyBlob.place
      (0 ≤ signData.length ∧ 5 ≤ signData.value ∧
        signData.value + signData.length ≤ 5 + (agent.header.toNat - 1)) ∧
      Access.Inside ⟨5, 4⟩ ∧ Access.Inside ⟨keyBlob.place, 4⟩ := by
  generalize same : (bufferReadString agent.memory 5).length = key
  have place : (bufferReadString agent.memory 5).place = 9 + key := by
    rw [← same]
    rfl
  have value : (bufferReadString agent.memory (9 + key)).value = 13 + key := by
    change 9 + key + 4 = _
    omega
  unfold StringsWithin Access.Inside agentBufferSize
  dsimp only
  rw [same, place, value]
  constructor
  · rintro ⟨nonnegative, positive, fits⟩
    omega
  · rintro ⟨⟨positive, after, fits⟩, -, -⟩
    have nonnegative : 0 ≤ key := by
      by_contra negative
      exact not_within_of_negative some short type same (by omega) (by omega)
        ⟨positive, by omega⟩
    omega

end Agent

/-! ## Runs -/

namespace AgentRun

/-- What is in the buffer and what is left to be read is the rest of the stream. -/
structure Kept (run : AgentRun) : Prop where
  least : 0 ≤ run.agent.bufferLength
  most : run.agent.bufferLength ≤ agentBufferSize
  parsed : agentFraming.Parsed run.received (run.handlings.map Handling.payload)
    (run.agent.buffered ++ run.pending)

theorem kept_start (memory : Int → UInt8) : Kept { agent := { memory := memory } } where
  least := Int.le_refl 0
  most := show (0 : Int) ≤ 4096 by decide
  parsed := .nil []

theorem sound_start (memory : Int → UInt8) : Sound { agent := { memory := memory } } where
  inside := fun _ wrong => absurd wrong List.not_mem_nil
  proper := fun _ wrong => absurd wrong List.not_mem_nil
  framed := rfl
  progress := rfl

section After

variable {run : AgentRun} (result : AgentRead)

/-- If the rest of the stream is the same, the call makes progress exactly if it has read. -/
theorem after_unhandled (kept : run.Kept) (sound : run.Sound)
    (least : 0 ≤ result.agent.bufferLength) (most : result.agent.bufferLength ≤ agentBufferSize)
    (same : result.agent.buffered ++ result.pending = run.agent.buffered ++ run.pending)
    (unhandled : result.handling = none) (inside : ∀ access ∈ result.accesses, access.Inside) :
    (run.after result).Kept ∧
      ((run.after result).Sound ↔ (run.Available → result.pending ≠ run.pending)) := by
  have handlings : (run.after result).handlings = run.handlings := by
    unfold after
    rw [unhandled]
    exact List.append_nil _
  have keeps : (run.after result).Kept := by
    refine ⟨least, most, ?_⟩
    rw [handlings]
    exact same ▸ kept.parsed
  have stuck : (run.after result).stuck = false ↔
      (run.Available → result.pending ≠ run.pending) := by
    unfold after
    rw [unhandled, sound.progress]
    simp
  refine ⟨keeps, fun still => stuck.mp still.progress, fun met => ⟨?_, ?_, ?_, stuck.mpr met⟩⟩
  · exact List.forall_mem_append.mpr ⟨sound.inside, inside⟩
  · rw [handlings]
    exact sound.proper
  · exact keeps.parsed.payloads_eq

/-- If the next packet of the stream is handled, the call makes progress. -/
theorem after_handled (kept : run.Kept) (sound : run.Sound)
    (least : 0 ≤ result.agent.bufferLength) (most : result.agent.bufferLength ≤ agentBufferSize)
    {header : List UInt8} {handling : Handling}
    (split : run.agent.buffered ++ run.pending =
      header ++ handling.payload ++ (result.agent.buffered ++ result.pending))
    (fixed : header.length = 4) (sized : bigEndian header = handling.payload.length)
    (handled : result.handling = some handling) :
    (run.after result).Kept ∧
      ((run.after result).Sound ↔
        (∀ access ∈ result.accesses, access.Inside) ∧ handling.Proper) := by
  have handlings : (run.after result).handlings = run.handlings ++ [handling] := by
    unfold after
    rw [handled]
    rfl
  have keeps : (run.after result).Kept := by
    refine ⟨least, most, ?_⟩
    rw [handlings, List.map_append]
    exact (split ▸ kept.parsed).next fixed sized
  have progress : (run.after result).stuck = false := by
    unfold after
    rw [handled, sound.progress]
    simp
  refine ⟨keeps, fun still => ⟨?_, ?_⟩, fun ⟨inside, proper⟩ => ⟨?_, ?_, ?_, progress⟩⟩
  · exact (List.forall_mem_append.mp still.inside).2
  · exact still.proper handling (by rw [handlings]; exact List.mem_concat_self)
  · exact List.forall_mem_append.mpr ⟨sound.inside, inside⟩
  · rw [handlings]
    exact List.forall_mem_append.mpr ⟨sound.proper, List.forall_mem_singleton.mpr proper⟩
  · exact keeps.parsed.payloads_eq

end After

/-! One event. -/

section Events

variable {run : AgentRun}

theorem receive_kept (kept : run.Kept) (sound : run.Sound) (bytes : List UInt8) :
    (run.step bufferReadString (.receive bytes)).Kept ∧
      (run.step bufferReadString (.receive bytes)).Sound := by
  have keeps : (run.step bufferReadString (.receive bytes)).Kept := by
    refine ⟨kept.least, kept.most, ?_⟩
    have parsed := kept.parsed.append bytes
    rwa [List.append_assoc] at parsed
  exact ⟨keeps, sound.inside, sound.proper, keeps.parsed.payloads_eq, sound.progress⟩

/-- Whether a call that fills the buffer makes progress. -/
theorem fill_iff (kept : run.Kept)
    (length : 5 ≤ run.agent.bufferLength →
      0 < run.agent.header.toNat ∧ run.agent.header.toNat < 4294967292)
    (incomplete : 5 ≤ run.agent.bufferLength →
      run.agent.bufferLength < run.agent.header.toNat + 4) :
    (run.Available → ¬ (run.pending = [] ∨ run.agent.bufferLength = agentBufferSize)) ↔
      run.agent.Readable run.pending := by
  have buffered := Agent.payloads_buffered kept.least
  have zeros := Agent.buffered_eq_zeros kept.least
  have big : agentBufferSize = 4096 := rfl
  constructor
  · intro progress
    refine ⟨length, fun long complete => ?_, fun full some => ?_, fun alone => ?_⟩
    · exact absurd complete (Int.not_le.mpr (incomplete long))
    · exact absurd (.inr full) (progress (.inl some))
    · obtain ⟨four, zero⟩ := zeros.mp alone
      have available := buffered.mpr ⟨by omega, by omega⟩
      exact fun none => progress (.inr available) (.inl none)
  · rintro readable available (none | full)
    · have packet := buffered.mp (available.resolve_left (not_not_intro none))
      have four : run.agent.bufferLength = 4 ∧ run.agent.header.toNat = 0 := by
        by_cases long : 5 ≤ run.agent.bufferLength
        · have short := incomplete long
          omega
        · omega
      exact readable.alone (zeros.mpr four) none
    · have short := incomplete (by omega)
      rcases available with some | packet
      · have fits := readable.room full some
        omega
      · have complete := buffered.mp packet
        omega

/-- Whether a call that handles a packet stays inside the buffer and passes on what lies in it. -/
theorem handle_iff {agent : Agent} (some : 0 < agent.header.toNat)
    (complete : (agent.header.toNat + 4 : Int) ≤ agent.bufferLength)
    (most : agent.bufferLength ≤ agentBufferSize) (payload : List UInt8) :
    let packet := agentHandlePacket bufferReadString agent.memory (agent.memory 4) 5
    let rest := agent.bufferLength - (agent.header.toNat + 4)
    let handling : Handling :=
      { type := agent.memory 4
        data := 5
        dataLength := agent.header.toNat - 1
        payload := payload
        handler := packet.1 }
    ((∀ access ∈ (⟨0, 5⟩ : Access) :: (packet.2 ++ [⟨agent.header.toNat + 4, rest⟩, ⟨0, rest⟩]),
        access.Inside) ∧ handling.Proper) ↔
      (agent.memory 4 = agentSignRequest → agent.StringsWithin) := by
  have short : agent.header.toNat + 4 ≤ 4096 := by
    unfold agentBufferSize at most
    omega
  have header : Access.Inside ⟨0, 5⟩ := ⟨by decide, by decide⟩
  have moved : Access.Inside
      ⟨agent.header.toNat + 4, agent.bufferLength - (agent.header.toNat + 4)⟩ := by
    unfold Access.Inside
    dsimp only
    omega
  have shifted : Access.Inside ⟨0, agent.bufferLength - (agent.header.toNat + 4)⟩ := by
    unfold Access.Inside
    dsimp only
    omega
  have positive : (0 : Int) ≤ agent.header.toNat - 1 := by omega
  simp only [List.forall_mem_cons, List.forall_mem_append, header, moved, shifted, true_and,
    List.not_mem_nil, false_imp_iff, implies_true, and_true, Handling.Proper, positive]
  by_cases sign : agent.memory 4 = agentSignRequest
  · rw [sign, agentHandlePacket_sign, Agent.stringsWithin_iff some short sign]
    simp only [List.forall_mem_cons, List.not_mem_nil, false_imp_iff, implies_true, and_true,
      true_imp_iff]
    exact and_comm
  · obtain ⟨nothing, within⟩ := agentHandlePacket_other bufferReadString agent.memory 5 sign
    rw [nothing]
    exact iff_of_true ⟨fun _ wrong => absurd wrong List.not_mem_nil, within _⟩
      fun wrong => absurd wrong sign

/-- A call that announces the end keeps everything sound if there is no input. -/
theorem eof_iff (kept : run.Kept) (sound : run.Sound) {answer : ChannelAnswer}
    (eof : answer.eof = true) :
    let next := run.step bufferReadString (.read answer)
    next.Kept ∧ (next.Sound ↔ ¬ run.Available) := by
  have result : run.agent.read bufferReadString run.pending answer =
      { agent := run.agent, pending := run.pending, returned := -1 } := if_pos eof
  have next : run.step bufferReadString (.read answer) = run.after _ := congrArg run.after result
  obtain ⟨keeps, progress⟩ := after_unhandled
    { agent := run.agent, pending := run.pending, returned := -1 } kept sound kept.least kept.most
    rfl rfl fun _ wrong => absurd wrong List.not_mem_nil
  rw [next]
  exact ⟨keeps, progress.trans (imp_congr_right fun _ => ne_self_iff_false _)⟩

/-- A call that fills the buffer keeps everything sound if it makes progress. -/
theorem filled_iff (kept : run.Kept) (sound : run.Sound) {answer : ChannelAnswer}
    {accesses : List Access} (inside : ∀ access ∈ accesses, access.Inside)
    (length : 5 ≤ run.agent.bufferLength →
      0 < run.agent.header.toNat ∧ run.agent.header.toNat < 4294967292)
    (incomplete : 5 ≤ run.agent.bufferLength →
      run.agent.bufferLength < run.agent.header.toNat + 4)
    (result : run.agent.read bufferReadString run.pending answer =
      { run.agent.fill run.pending answer with
        accesses := accesses ++ (run.agent.fill run.pending answer).accesses }) :
    let next := run.step bufferReadString (.read answer)
    next.Kept ∧ (next.Sound ↔ run.agent.Readable run.pending) := by
  have next : run.step bufferReadString (.read answer) = run.after _ := congrArg run.after result
  obtain ⟨least, most, same, unhandled, within, still⟩ :=
    Agent.fill_spec kept.least kept.most run.pending answer
  obtain ⟨keeps, progress⟩ := after_unhandled { run.agent.fill run.pending answer with
    accesses := accesses ++ (run.agent.fill run.pending answer).accesses } kept sound least most
    same unhandled (List.forall_mem_append.mpr ⟨inside, within⟩)
  rw [next, ← fill_iff kept length incomplete]
  exact ⟨keeps, progress.trans (imp_congr_right fun _ => not_congr still)⟩

/-- A call that handles a packet keeps everything sound if its strings lie in it. -/
theorem handled_iff (kept : run.Kept) (sound : run.Sound) {answer : ChannelAnswer}
    (some : 0 < run.agent.header.toNat) (long : 5 ≤ run.agent.bufferLength)
    (complete : (run.agent.header.toNat + 4 : Int) ≤ run.agent.bufferLength)
    (result : run.agent.read bufferReadString run.pending answer =
      { run.agent.handle bufferReadString run.pending with
        accesses := ⟨0, 5⟩ :: (run.agent.handle bufferReadString run.pending).accesses }) :
    let next := run.step bufferReadString (.read answer)
    next.Kept ∧ (next.Sound ↔ run.agent.Readable run.pending) := by
  have next : run.step bufferReadString (.read answer) = run.after _ := congrArg run.after result
  obtain ⟨rest, pending, accesses, header, payload, split, fixed, sized, handled⟩ :=
    Agent.handle_spec bufferReadString some complete kept.most run.pending
  have most := kept.most
  have big : agentBufferSize = 4096 := rfl
  obtain ⟨keeps, precise⟩ := after_handled { run.agent.handle bufferReadString run.pending with
    accesses := ⟨0, 5⟩ :: (run.agent.handle bufferReadString run.pending).accesses } kept sound
    (by rw [rest]; omega) (by rw [rest]; omega)
    (by rw [split, pending, List.append_assoc]) fixed sized handled
  rw [next]
  refine ⟨keeps, precise.trans ?_⟩
  rw [accesses]
  refine (handle_iff some complete kept.most payload).trans ?_
  constructor
  · intro strings
    refine ⟨fun _ => ⟨some, by omega⟩, fun _ _ => strings, fun full _ => by omega, fun alone => ?_⟩
    have short := (Agent.buffered_eq_zeros kept.least).mp alone
    omega
  · intro readable
    exact readable.strings long complete

/-- A packet without a type or longer than any buffer is handled with a negative length. -/
theorem not_sound_of_wrapped {answer : ChannelAnswer}
    (wrapped : run.agent.header.toNat = 0 ∨ 4294967292 ≤ run.agent.header.toNat)
    (result : run.agent.read bufferReadString run.pending answer =
      { run.agent.handle bufferReadString run.pending with
        accesses := ⟨0, 5⟩ :: (run.agent.handle bufferReadString run.pending).accesses }) :
    ¬ (run.step bufferReadString (.read answer)).Sound := by
  intro sound
  have next : run.step bufferReadString (.read answer) = run.after _ := congrArg run.after result
  rw [next] at sound
  have proper := sound.proper _ (List.mem_append_right _ (List.mem_singleton_self _))
  have nonnegative : 0 ≤ toInt (run.agent.header - 1).toNat := proper.1
  have bound := run.agent.header.toNat_lt
  have before : (run.agent.header - 1).toNat = (4294967295 + run.agent.header.toNat) % 4294967296 :=
    UInt32.toNat_sub ..
  rw [before] at nonnegative
  unfold toInt at nonnegative
  omega

/-- A call keeps everything sound exactly if what is in the buffer can be read on. -/
theorem read_iff (kept : run.Kept) (sound : run.Sound) (answer : ChannelAnswer) :
    let next := run.step bufferReadString (.read answer)
    (next.Sound ↔ run.Readable (.read answer)) ∧ (next.Sound → next.Kept) := by
  by_cases eof : answer.eof = true
  · obtain ⟨keeps, sound⟩ := eof_iff kept sound eof
    refine ⟨sound.trans ?_, fun _ => keeps⟩
    unfold Readable
    dsimp only
    rw [if_pos eof]
  have readable : run.Readable (.read answer) = run.agent.Readable run.pending := if_neg eof
  rw [readable]
  have reads : run.agent.read bufferReadString run.pending answer =
      if 5 ≤ run.agent.bufferLength then _ else _ := if_neg eof
  by_cases long : 5 ≤ run.agent.bufferLength
  · rw [if_pos long] at reads
    have compared := Agent.complete_iff kept.least kept.most
    have bound := run.agent.header.toNat_lt
    by_cases complete : run.agent.header + 4 ≤ UInt32.ofInt run.agent.bufferLength
    · rw [if_pos complete] at reads
      by_cases usual : 0 < run.agent.header.toNat ∧ run.agent.header.toNat < 4294967292
      · have whole := compared.mp complete
        obtain ⟨keeps, sound⟩ := handled_iff kept sound usual.1 long (by omega) reads
        exact ⟨sound, fun _ => keeps⟩
      · have wrong := not_sound_of_wrapped (by omega) reads
        exact ⟨iff_of_false wrong fun readable => usual (readable.length long),
          fun sound => absurd sound wrong⟩
    · rw [if_neg complete] at reads
      have short := mt compared.mpr complete
      have most := kept.most
      have header : ∀ access ∈ [(⟨0, 5⟩ : Access)], access.Inside :=
        List.forall_mem_singleton.mpr ⟨by decide, by decide⟩
      obtain ⟨keeps, sound⟩ := filled_iff kept sound header (fun _ => by omega)
        (fun _ => by omega) reads
      exact ⟨sound, fun _ => keeps⟩
  · rw [if_neg long] at reads
    obtain ⟨keeps, sound⟩ := filled_iff kept sound (fun _ wrong => absurd wrong List.not_mem_nil)
      (fun wrong => absurd wrong long) (fun wrong => absurd wrong long) reads
    exact ⟨sound, fun _ => keeps⟩

end Events

/-- An event keeps everything sound exactly if what is in the buffer can be read on. -/
theorem step_iff {run : AgentRun} (kept : run.Kept) (sound : run.Sound) (event : AgentEvent) :
    let next := run.step bufferReadString event
    (next.Sound ↔ run.Readable event) ∧ (next.Sound → next.Kept) := by
  cases event with
  | receive bytes =>
    obtain ⟨keeps, still⟩ := receive_kept kept sound bytes
    exact ⟨iff_of_true still trivial, fun _ => keeps⟩
  | read answer => exact read_iff kept sound answer

/-- However the stream is cut into reads, nothing is accessed outside of the buffer, its packets are
handled in order with their payloads, what is passed on lies in them, and every call makes progress,
exactly if what is in the buffer can be read on in every call. -/
theorem agent_sound_iff (readString : (Int → UInt8) → Int → StringRead)
    (reads : ∀ memory place, readString memory place = bufferReadString memory place)
    (memory : Int → UInt8) (events : List AgentEvent) :
    Run.Always (step readString) Sound { agent := { memory := memory } } events ↔
      Run.Guarded (step readString) Readable { agent := { memory := memory } } events := by
  obtain rfl : readString = bufferReadString := funext fun memory => funext (reads memory)
  exact Run.always_iff_guarded (sound_start memory) (kept_start memory)
    (fun _ event kept sound => (step_iff kept sound event).2)
    fun _ event kept sound => (step_iff kept sound event).1

/-- A request for the identities arrives in three parts. -/
theorem agent_sound_parts :
    Run.Always (step bufferReadString) Sound { agent := { memory := fun _ => 0 } }
      [.receive [0, 0, 0], .read ⟨false, 3, 0⟩, .receive [1, 0x0B], .read ⟨false, 1, 0⟩,
        .read ⟨false, 1, 0⟩, .read ⟨false, 1, 0⟩, .read ⟨false, 1, -37⟩] := by
  refine (agent_sound_iff bufferReadString (fun _ _ => rfl) _ _).mpr
    ⟨trivial, ?_, trivial, ?_, ?_, ?_, ?_, trivial⟩
  all_goals exact ⟨by decide, by decide, by decide, by decide⟩

/-- A sign request may pass on more than what is in the packet. -/
theorem not_agent_sound : ¬ ∀ readString : (Int → UInt8) → Int → StringRead,
    (∀ memory place, readString memory place = bufferReadString memory place) →
    ∀ memory events,
      Run.Always (step readString) Sound { agent := { memory := memory } } events := by
  intro claimed
  have always := claimed bufferReadString (fun _ _ => rfl) (fun _ => 0)
    [.receive [0, 0, 0, 9, 0x0D, 0, 0, 0, 0, 0, 0, 0x10, 0], .read ⟨false, 13, 0⟩,
      .read ⟨false, 1, 0⟩]
  have proper := always.last.proper _ (List.mem_singleton_self _)
  exact absurd proper.2 (by decide)

end AgentRun

end GuacNebula.Ssh
