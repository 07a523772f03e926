import GuacNebula.Rdp.Rdpsnd

/-! # Agreement on audio formats

The server lists the formats it can play, each with extra data of any size. Those the client
accepts are listed in its answer, in full, and what is needed to play them is kept in a table. The
server then selects a format by its place in that list.

An exchange begins with every Server Audio Formats PDU. If that PDU ends before its last format,
formats have been put into the table, but nothing has been announced.
-/

namespace GuacNebula.Rdp

open CInt Run

/-! ## Lists of formats -/

/-- A format with its extra data, which has the size that is given for it. -/
def IsEntry (entry : List UInt8) : Prop := entry.length = 18 + readUInt entry 16 2

/-- What is kept of a format. -/
def entryFormat (entry : List UInt8) : PcmFormat where
  rate := readInt entry 4 4
  channels := readUInt entry 2 2
  bps := readUInt entry 14 2

/-- Audio without any encoding, which is all that is accepted. -/
def isPcm (entry : List UInt8) : Bool := readUInt entry 0 2 = waveFormatPcm

/-- The size of the format at the start of a stream, if the stream has all of it. -/
def entrySize (stream : List UInt8) : Option Nat :=
  let size := 18 + readUInt stream 16 2
  if 18 ≤ stream.length ∧ size ≤ stream.length then some size else none

/-- The formats at the start of a stream, and what follows them. -/
def formatEntries : Nat → List UInt8 → Option (List (List UInt8) × List UInt8)
  | 0, stream => some ([], stream)
  | count + 1, stream => do
      let size ← entrySize stream
      let (entries, rest) ← formatEntries count (stream.drop size)
      return (stream.take size :: entries, rest)

/-- The formats that are to be accepted from the body of a Server Audio Formats PDU, if it has all
that it lists: the first ones of those that can be played. Without audio none is read. -/
def acceptedEntries (audio : Bool) (body : List UInt8) : Option (List (List UInt8)) :=
  if body.length < 20 then none
  else
    (formatEntries (if audio then readUInt body 14 2 else 0) (body.drop 20)).map fun listed =>
      (listed.1.filter isPcm).take maxFormats

/-- The number of formats in a Client Audio Formats PDU. -/
def listedCount (pdu : List UInt8) : Nat := readUInt pdu 18 2

/-- The formats in a Client Audio Formats PDU, which has nothing after them. -/
def listedEntries (pdu : List UInt8) : Option (List (List UInt8)) :=
  match formatEntries (listedCount pdu) (pdu.drop 24) with
  | some (entries, []) => some entries
  | _ => none

/-- The PDU is a Client Audio Formats PDU. -/
def RdpsndOutput.clientFormats? : RdpsndOutput → Option (List UInt8)
  | .write pdu => if messageType pdu = sndcFormats then some pdu else none
  | _ => none

/-- The Client Audio Formats PDUs that are sent. -/
def sentFormats (outputs : List RdpsndOutput) : List (List UInt8) :=
  outputs.filterMap RdpsndOutput.clientFormats?

/-! ## Exchanges -/

/-- The PDU is taken for a Server Audio Formats PDU. -/
def IsFormats (rdpsnd : Rdpsnd) (pdu : List UInt8) : Prop :=
  4 ≤ pdu.length ∧ rdpsnd.nextPduIsWave = false ∧ messageType pdu = sndcFormats

instance (rdpsnd : Rdpsnd) (pdu : List UInt8) : Decidable (IsFormats rdpsnd pdu) :=
  inferInstanceAs (Decidable (_ ∧ _))

/-- The PDU is taken for a WaveInfo PDU. -/
def SelectsFormat (rdpsnd : Rdpsnd) (pdu : List UInt8) : Prop :=
  rdpsnd.nextPduIsWave = false ∧ isWaveInfo pdu = true

instance (rdpsnd : Rdpsnd) (pdu : List UInt8) : Decidable (SelectsFormat rdpsnd pdu) :=
  inferInstanceAs (Decidable (_ ∧ _))

/-- The place of the format that a WaveInfo PDU selects. -/
def selectedIndex (pdu : List UInt8) : Nat := readUInt (pdu.drop 4) 2 2

/-- The channel, with the formats announced in the exchange that began last. -/
structure AudioSession where
  rdpsnd : Rdpsnd := {}
  announced : List PcmFormat := []

/-- What the answer to a Server Audio Formats PDU announces. -/
def announcedBy (outputs : List RdpsndOutput) : List PcmFormat :=
  (sentFormats outputs).flatMap fun sent => ((listedEntries sent).getD []).map entryFormat

/-- A PDU is received. -/
def audioStep (audio : Bool) (session : AudioSession) (pdu : List UInt8) : AudioSession :=
  let received := rdpsndProcessReceive audio session.rdpsnd pdu
  { rdpsnd := received.1
    announced :=
      if IsFormats session.rdpsnd pdu then announcedBy received.2 else session.announced }

/-- The answer to a Server Audio Formats PDU lists the formats it has in full, in the order of the
table, and its sizes are those of what it has. -/
structure FormatsListed (rdpsnd : Rdpsnd) (entries : List (List UInt8)) (sent : List UInt8) :
    Prop where
  listed : listedEntries sent = some entries
  table : entries.map entryFormat = rdpsnd.formats.toList.take rdpsnd.formatCount
  count : listedCount sent = rdpsnd.formatCount
  size : bodySize sent = sent.length - 4

/-- A Server Audio Formats PDU that has all its formats is answered once, and any other is not. -/
def FormatsAnswered (audio : Bool) (body : List UInt8) (rdpsnd : Rdpsnd)
    (outputs : List RdpsndOutput) : Prop :=
  match acceptedEntries audio body with
  | some entries => ∃ sent, sentFormats outputs = [sent] ∧ FormatsListed rdpsnd entries sent
  | none => sentFormats outputs = []

/-- The audio stream is set to no format but the one that was announced at the selected place. -/
def FormatSelected (session : AudioSession) (pdu : List UInt8) (outputs : List RdpsndOutput) :
    Prop :=
  ∀ format, .resetAudio format ∈ outputs →
    selectedIndex pdu < session.rdpsnd.formatCount
      ∧ session.announced[selectedIndex pdu]? = some format

/-- Both parties agree on the formats when a PDU is received. -/
def FormatsAgree (audio : Bool) (session : AudioSession) (pdu : List UInt8) : Prop :=
  let received := rdpsndProcessReceive audio session.rdpsnd pdu
  (IsFormats session.rdpsnd pdu → FormatsAnswered audio (pdu.drop 4) received.1 received.2)
    ∧ (SelectsFormat session.rdpsnd pdu → FormatSelected session pdu received.2)

/-- The formats that are accepted fit into one PDU. -/
def EntriesFit (audio : Bool) (body : List UInt8) : Prop :=
  ∀ entries ∈ acceptedEntries audio body, 20 + entries.flatten.length < 65536

/-- The format that is selected has been announced, or else there is no place for it in the
table. -/
def PlaceAnnounced (audio : Bool) (session : AudioSession) (pdu : List UInt8) : Prop :=
  audio = true →
    selectedIndex pdu < session.announced.length ∨ maxFormats ≤ selectedIndex pdu

/-- What a PDU has to be for both parties to agree. -/
def FormatsUsable (audio : Bool) (session : AudioSession) (pdu : List UInt8) : Prop :=
  (IsFormats session.rdpsnd pdu → EntriesFit audio (pdu.drop 4))
    ∧ (SelectsFormat session.rdpsnd pdu → PlaceAnnounced audio session pdu)

/-! ## Entries -/

theorem entrySize_eq_some {stream : List UInt8} {size : Nat}
    (found : entrySize stream = some size) :
    size = 18 + readUInt stream 16 2 ∧ size ≤ stream.length := by
  simp only [entrySize] at found
  split at found
  case isTrue whole =>
    obtain rfl : 18 + readUInt stream 16 2 = size := by simpa using found
    exact ⟨rfl, whole.2⟩
  case isFalse short => cases found

/-- What is read from the start of a stream does not depend on what follows. -/
theorem readUInt_take {stream : List UInt8} {offset width size : Nat}
    (inside : offset + width ≤ size) :
    readUInt (stream.take size) offset width = readUInt stream offset width := by
  rw [readUInt, readUInt, List.drop_take, List.take_take, Nat.min_eq_left (by omega)]

theorem readUInt_append {first second : List UInt8} {offset width : Nat}
    (inside : offset + width ≤ first.length) :
    readUInt (first ++ second) offset width = readUInt first offset width := by
  rw [← readUInt_take inside, List.take_left]

/-- What is cut from a stream by its size is one format. -/
theorem isEntry_take {stream : List UInt8} {size : Nat} (found : entrySize stream = some size) :
    IsEntry (stream.take size) := by
  obtain ⟨rfl, fits⟩ := entrySize_eq_some found
  have field : readUInt (stream.take (18 + readUInt stream 16 2)) 16 2 = readUInt stream 16 2 :=
    readUInt_take (by omega)
  rw [IsEntry, field, List.length_take, Nat.min_eq_left fits]

/-- The format at the start of a stream is found. -/
theorem entrySize_append {entry : List UInt8} (whole : IsEntry entry) (rest : List UInt8) :
    entrySize (entry ++ rest) = some entry.length := by
  unfold IsEntry at whole
  have head : readUInt (entry ++ rest) 16 2 = readUInt entry 16 2 := readUInt_append (by omega)
  have long : 18 ≤ (entry ++ rest).length ∧ entry.length ≤ (entry ++ rest).length := by
    rw [List.length_append]
    omega
  simp only [entrySize, head, ← whole, if_pos long]

/-- The formats that are found are the first one and those after it. -/
theorem formatEntries_succ {count : Nat} {stream rest : List UInt8} {entries : List (List UInt8)}
    (found : formatEntries (count + 1) stream = some (entries, rest)) :
    ∃ size more, entrySize stream = some size
      ∧ formatEntries count (stream.drop size) = some (more, rest)
      ∧ entries = stream.take size :: more := by
  simp only [formatEntries, Option.bind_eq_bind, Option.pure_def, Option.bind_eq_some_iff,
    Option.some.injEq, Prod.mk.injEq] at found
  obtain ⟨size, first, ⟨more, last⟩, later, rfl, rfl⟩ := found
  exact ⟨size, more, first, later, rfl⟩

/-- Every format that is found is whole. -/
theorem isEntry_of_formatEntries {count : Nat} {stream rest : List UInt8}
    {entries : List (List UInt8)} (found : formatEntries count stream = some (entries, rest)) :
    ∀ entry ∈ entries, IsEntry entry := by
  induction count generalizing stream entries rest with
  | zero =>
      obtain ⟨rfl, rfl⟩ : [] = entries ∧ stream = rest := by simpa [formatEntries] using found
      exact fun entry member => absurd member List.not_mem_nil
  | succ count ih =>
      obtain ⟨size, more, first, later, rfl⟩ := formatEntries_succ found
      intro entry member
      rcases List.mem_cons.mp member with rfl | member
      · exact isEntry_take first
      · exact ih later entry member

/-- Formats one after the other are found as they are. -/
theorem formatEntries_flatten {entries : List (List UInt8)}
    (whole : ∀ entry ∈ entries, IsEntry entry) (rest : List UInt8) :
    formatEntries entries.length (entries.flatten ++ rest) = some (entries, rest) := by
  induction entries with
  | nil => rfl
  | cons entry entries ih =>
      have here : entrySize (entry ++ (entries.flatten ++ rest)) = some entry.length :=
        entrySize_append (whole entry List.mem_cons_self) _
      have more := ih fun entry member => whole entry (List.mem_cons_of_mem _ member)
      simp [formatEntries, here, more]

/-! ## Reading the formats -/

/-- One more format is accepted if it can be played and the table has a place for it. -/
def accept (accepted : List (List UInt8)) (entry : List UInt8) : List (List UInt8) :=
  if isPcm entry ∧ accepted.length < maxFormats then accepted ++ [entry] else accepted

/-- The loop has accepted the given formats. -/
structure Scanned (scan : FormatScan) (accepted : List (List UInt8)) : Prop where
  count : scan.rdpsnd.formatCount = accepted.length
  fits : accepted.length ≤ maxFormats
  bytes : scan.accepted = accepted.flatten
  table : accepted.map entryFormat = scan.rdpsnd.formats.toList.take accepted.length
  unsent : sentFormats scan.outputs = []

@[simp] theorem sentFormats_append (first second : List RdpsndOutput) :
    sentFormats (first ++ second) = sentFormats first ++ sentFormats second :=
  List.filterMap_append ..

/-- The fields of a format are read where it stands in the stream. -/
theorem entryFormat_take {stream : List UInt8} {size : Nat} :
    entryFormat (stream.take (18 + size)) =
      { rate := readInt stream 4 4
        channels := readUInt stream 2 2
        bps := readUInt stream 14 2 } := by
  simp only [entryFormat, readInt, readUInt_take (show 4 + 4 ≤ 18 + size by omega),
    readUInt_take (show 2 + 2 ≤ 18 + size by omega),
    readUInt_take (show 14 + 2 ≤ 18 + size by omega)]

theorem isPcm_take {stream : List UInt8} {size : Nat} :
    isPcm (stream.take (18 + size)) = (readUInt stream 0 2 = waveFormatPcm) := by
  simp only [isPcm, readUInt_take (show 0 + 2 ≤ 18 + size by omega), decide_eq_true_eq]

/-- Filling the next place of a table extends what it begins with. -/
theorem take_setIfInBounds {α : Type*} {capacity : Nat} (table : Vector α capacity) {count : Nat}
    (room : count < capacity) (value : α) :
    (table.setIfInBounds count value).toList.take (count + 1) =
      table.toList.take count ++ [value] := by
  have long : count < table.toList.length := by simpa using room
  rw [Vector.toList_setIfInBounds, List.take_add_one, List.take_set_of_le (Nat.le_refl count),
    List.getElem?_set_self long, Option.toList_some]

/-- One format is read. -/
theorem acceptFormat_scanned {scan : FormatScan} {accepted : List (List UInt8)}
    (scanned : Scanned scan accepted) (size : Nat) :
    Scanned (acceptFormat scan size) (accept accepted (scan.stream.take (18 + size))) := by
  have full : accepted.length < maxFormats ↔ scan.rdpsnd.formatCount < maxFormats := by
    rw [scanned.count]
  simp only [acceptFormat, accept, isPcm_take, full]
  split
  case isFalse refused =>
    exact ⟨scanned.count, scanned.fits, scanned.bytes, scanned.table, scanned.unsent⟩
  case isTrue taken =>
    have room : accepted.length < maxFormats := full.mpr taken.2
    refine ⟨?_, ?_, ?_, ?_, ?_⟩
    · simp [scanned.count]
    · simp only [List.length_append, List.length_singleton]
      omega
    · simp [scanned.bytes]
    · simp only [List.length_append, List.length_singleton, scanned.count, List.map_append,
        List.map_singleton, entryFormat_take]
      rw [take_setIfInBounds _ room, scanned.table]
    · rw [sentFormats_append, scanned.unsent]
      rfl

theorem acceptFormat_stream (scan : FormatScan) (size : Nat) :
    (acceptFormat scan size).stream = scan.stream.drop (18 + size) := by
  simp only [acceptFormat]
  split <;> rfl

/-- One turn of the loop. -/
theorem readFormats_succ (count : Nat) (scan : FormatScan) :
    readFormats (count + 1) scan =
      match entrySize scan.stream with
      | none => (scan, false)
      | some _ => readFormats count (acceptFormat scan (readUInt scan.stream 16 2)) := by
  simp only [readFormats, entrySize]
  grind

/-- The loop reads all formats or finds that the stream ends before. Nothing is sent meanwhile. -/
theorem readFormats_scanned (count : Nat) {scan : FormatScan} {accepted : List (List UInt8)}
    (scanned : Scanned scan accepted) :
    match formatEntries count scan.stream with
    | some (entries, _) =>
        (readFormats count scan).2 = true
          ∧ Scanned (readFormats count scan).1 (entries.foldl accept accepted)
    | none => (readFormats count scan).2 = false
        ∧ sentFormats (readFormats count scan).1.outputs = [] := by
  induction count generalizing scan accepted with
  | zero => exact ⟨rfl, scanned⟩
  | succ count ih =>
      rw [readFormats_succ]
      cases found : entrySize scan.stream with
      | none => simpa [formatEntries, found] using scanned.unsent
      | some size =>
          obtain ⟨rfl, fits⟩ := entrySize_eq_some found
          have later := ih (acceptFormat_scanned scanned (readUInt scan.stream 16 2))
          rw [acceptFormat_stream] at later
          cases more : formatEntries count (scan.stream.drop (18 + readUInt scan.stream 16 2)) with
          | none => simpa [formatEntries, found, more] using later
          | some listed => simpa [formatEntries, found, more] using later

/-- What is accepted one by one are the first formats that can be played. -/
theorem foldl_accept {entries accepted : List (List UInt8)} (fits : accepted.length ≤ maxFormats) :
    entries.foldl accept accepted = (accepted ++ entries.filter isPcm).take maxFormats := by
  induction entries generalizing accepted with
  | nil => simp [List.take_of_length_le fits]
  | cons entry entries ih =>
      rw [List.foldl_cons]
      cases pcm : isPcm entry with
      | false =>
          have same : accept accepted entry = accepted := by simp [accept, pcm]
          rw [same, ih fits, List.filter_cons_of_neg (by simp [pcm])]
      | true =>
          rw [List.filter_cons_of_pos pcm]
          rcases Nat.lt_or_ge accepted.length maxFormats with room | full
          · have more : accept accepted entry = accepted ++ [entry] := by simp [accept, pcm, room]
            rw [more, ih (by simp; omega), List.append_assoc, List.singleton_append]
          · have same : accept accepted entry = accepted := by simp [accept, Nat.not_lt.mpr full]
            rw [same, ih fits, List.take_append_of_le_length full,
              List.take_append_of_le_length full]

/-! ## Answers -/

/-- The fields of a Client Audio Formats PDU before its formats. -/
theorem clientFormats_fields (count : Nat) (accepted : List UInt8) :
    messageType (clientFormats count accepted) = sndcFormats
      ∧ bodySize (clientFormats count accepted) = (20 + accepted.length) % 65536
      ∧ listedCount (clientFormats count accepted) = count % 65536
      ∧ (clientFormats count accepted).drop 24 = accepted := by
  refine ⟨rfl, ?_, ?_, rfl⟩
  · exact (littleEndian_writeUInt 2 (20 + accepted.length))
  · exact (littleEndian_writeUInt 2 count)

theorem clientFormats_length (count : Nat) (accepted : List UInt8) :
    (clientFormats count accepted).length = 24 + accepted.length := by
  simp only [clientFormats, rdpsndPdu, List.length_append, writeUInt_length]
  omega

/-- The formats of an answer are those that were accepted. -/
theorem listedEntries_clientFormats {entries : List (List UInt8)}
    (whole : ∀ entry ∈ entries, IsEntry entry) (fits : entries.length ≤ maxFormats) :
    listedEntries (clientFormats entries.length entries.flatten) = some entries := by
  have small : entries.length < 65536 := Nat.lt_of_le_of_lt fits (by decide)
  obtain ⟨_, _, count, rest⟩ := clientFormats_fields entries.length entries.flatten
  have found := formatEntries_flatten whole []
  rw [List.append_nil] at found
  simp only [listedEntries, count, rest, Nat.mod_eq_of_lt small, found]

/-- The table begins with the given formats, or nothing has been announced. -/
def TableAnnounced (session : AudioSession) : Prop :=
  session.announced = []
    ∨ session.rdpsnd.formatCount ≤ maxFormats
      ∧ session.announced = session.rdpsnd.formats.toList.take session.rdpsnd.formatCount

/-- What a Server Audio Formats PDU does: it is answered with the formats accepted, which are in the
table, if it has all that it lists. -/
theorem formatsHandler_cases (audio : Bool) (rdpsnd : Rdpsnd) (body : List UInt8) :
    match acceptedEntries audio body with
    | some entries =>
        (∀ entry ∈ entries, IsEntry entry)
          ∧ entries.length ≤ maxFormats
          ∧ (formatsHandler audio rdpsnd body).1.formatCount = entries.length
          ∧ entries.map entryFormat =
              (formatsHandler audio rdpsnd body).1.formats.toList.take entries.length
          ∧ sentFormats (formatsHandler audio rdpsnd body).2 =
              [clientFormats entries.length entries.flatten]
    | none => sentFormats (formatsHandler audio rdpsnd body).2 = [] := by
  unfold acceptedEntries formatsHandler
  by_cases short : body.length < 20
  · simp [short, sentFormats]
  · simp only [short, if_false]
    generalize (if audio then readUInt body 14 2 else 0) = count
    have begun : Scanned
        { rdpsnd := { rdpsnd with formatCount := 0 }, stream := body.drop 20 } [] :=
      ⟨rfl, Nat.zero_le _, rfl, rfl, rfl⟩
    have read := readFormats_scanned count begun
    cases found : formatEntries count (body.drop 20) with
    | none =>
        simp only [found] at read
        simp [read.1, read.2]
    | some listed =>
        obtain ⟨complete, scanned⟩ := by simpa only [found] using read
        rw [foldl_accept (Nat.zero_le _), List.nil_append] at scanned
        simp only [Option.map_some, complete, if_true]
        refine ⟨fun entry member => ?_, scanned.fits, scanned.count, scanned.table, ?_⟩
        · refine isEntry_of_formatEntries found entry ?_
          exact (List.mem_filter.mp (List.mem_of_mem_take member)).1
        · rw [sentFormats_append, sentFormats_append, scanned.unsent, scanned.count, scanned.bytes]
          split <;> rfl

/-- A Server Audio Formats PDU is answered as it should be if and only if the size of the answer
can be given. -/
theorem formatsAnswered_iff (audio : Bool) (rdpsnd : Rdpsnd) (body : List UInt8) :
    FormatsAnswered audio body (formatsHandler audio rdpsnd body).1
        (formatsHandler audio rdpsnd body).2 ↔
      EntriesFit audio body := by
  have handled := formatsHandler_cases audio rdpsnd body
  unfold FormatsAnswered EntriesFit
  cases accepted : acceptedEntries audio body with
  | none =>
      simp only [accepted] at handled
      exact ⟨fun _ entries member => (Option.not_mem_none _ member).elim, fun _ => handled⟩
  | some entries =>
      simp only [accepted] at handled
      obtain ⟨whole, fits, count, table, sent⟩ := handled
      have small : entries.length < 65536 := Nat.lt_of_le_of_lt fits (by decide)
      obtain ⟨_, size, listed, _⟩ := clientFormats_fields entries.length entries.flatten
      have length := clientFormats_length entries.length entries.flatten
      simp only [sent, List.cons.injEq, and_true, exists_eq_left', Option.mem_some_iff,
        forall_eq']
      constructor
      · intro answered
        have agree := answered.size
        omega
      · intro room
        refine ⟨listedEntries_clientFormats whole fits, ?_, ?_, ?_⟩
        · rw [table, count]
        · rw [listed, count, Nat.mod_eq_of_lt small]
        · rw [size, length, Nat.mod_eq_of_lt room]
          omega

/-- What an answer announces is in the table. -/
theorem formatsHandler_announced (audio : Bool) (rdpsnd : Rdpsnd) (body : List UInt8) :
    TableAnnounced
      { rdpsnd := (formatsHandler audio rdpsnd body).1
        announced := announcedBy (formatsHandler audio rdpsnd body).2 } := by
  have handled := formatsHandler_cases audio rdpsnd body
  unfold TableAnnounced announcedBy
  cases accepted : acceptedEntries audio body with
  | none =>
      simp only [accepted] at handled
      exact .inl (by simp [handled])
  | some entries =>
      simp only [accepted] at handled
      obtain ⟨whole, fits, count, table, sent⟩ := handled
      refine .inr ⟨by rw [count]; exact fits, ?_⟩
      simp only [sent, List.flatMap_singleton, listedEntries_clientFormats whole fits,
        Option.getD_some, count]
      exact table

/-! ## Selection -/

/-- The stream is set to the format that stands at the selected place of the table, whether or not
it belongs to those that are in use. -/
theorem waveInfoHandler_resets {audio : Bool} {rdpsnd : Rdpsnd} {stream : List UInt8} {size : Nat}
    (whole : 12 ≤ stream.length) (format : PcmFormat) :
    .resetAudio format ∈ (waveInfoHandler audio rdpsnd stream size).2 ↔
      audio = true ∧ rdpsnd.formats[readUInt stream 2 2]? = some format := by
  simp only [waveInfoHandler, if_neg (Nat.not_lt.mpr whole)]
  cases audio with
  | false => simp
  | true =>
      cases rdpsnd.formats[readUInt stream 2 2]? with
      | none => simp
      | some selected => simp [eq_comm]

/-- The selected format was announced, or else is refused, if and only if its place is one that was
announced or is outside the table. -/
theorem formatSelected_iff {audio : Bool} {session : AudioSession}
    (tabled : TableAnnounced session) {pdu : List UInt8} (long : 16 ≤ pdu.length) (size : Nat) :
    FormatSelected session pdu (waveInfoHandler audio session.rdpsnd (pdu.drop 4) size).2 ↔
      PlaceAnnounced audio session pdu := by
  have whole : 12 ≤ (pdu.drop 4).length := by rw [List.length_drop]; omega
  simp only [FormatSelected, PlaceAnnounced, waveInfoHandler_resets whole]
  change (∀ format, _ ∧ session.rdpsnd.formats[selectedIndex pdu]? = some format → _) ↔ _
  generalize selectedIndex pdu = index
  rcases Nat.lt_or_ge index maxFormats with inside | outside
  case inr =>
    have none : session.rdpsnd.formats[index]? = none := Vector.getElem?_eq_none outside
    exact ⟨fun _ _ => .inr outside, fun _ format reset => by simp [none] at reset⟩
  have some : session.rdpsnd.formats[index]? = some session.rdpsnd.formats[index] :=
    Vector.getElem?_eq_getElem inside
  constructor
  · intro agreed heard
    obtain ⟨_, found⟩ := agreed _ ⟨heard, some⟩
    exact .inl (List.getElem?_eq_some_iff.mp found).1
  · rintro allowed format ⟨heard, reset⟩
    have place : index < session.announced.length :=
      (allowed heard).resolve_right (Nat.not_le.mpr inside)
    rcases tabled with empty | ⟨fits, table⟩
    case inl => simp [empty] at place
    have used : index < session.rdpsnd.formatCount := by
      rw [table, List.length_take] at place
      omega
    refine ⟨used, ?_⟩
    rw [table, List.getElem?_take_of_lt used, ← reset]
    exact Vector.getElem?_toList ..

/-! ## Sessions -/

theorem rdpsndProcessReceive_formats (audio : Bool) {rdpsnd : Rdpsnd} {pdu : List UInt8}
    (formats : IsFormats rdpsnd pdu) :
    rdpsndProcessReceive audio rdpsnd pdu = formatsHandler audio rdpsnd (pdu.drop 4) := by
  obtain ⟨long, header, type⟩ := formats
  simp [rdpsndProcessReceive, Nat.not_lt.mpr long, header, type]

theorem rdpsndProcessReceive_selects (audio : Bool) {rdpsnd : Rdpsnd} {pdu : List UInt8}
    (selects : SelectsFormat rdpsnd pdu) :
    16 ≤ pdu.length
      ∧ rdpsndProcessReceive audio rdpsnd pdu =
          waveInfoHandler audio rdpsnd (pdu.drop 4) (bodySize pdu) := by
  obtain ⟨header, waveInfo⟩ := selects
  obtain ⟨long, wave⟩ : 16 ≤ pdu.length ∧ messageType pdu = sndcWave := by
    simpa [isWaveInfo] using waveInfo
  have headed : ¬ pdu.length < 4 := by omega
  refine ⟨long, ?_⟩
  simp [rdpsndProcessReceive, headed, header, wave, sndcFormats, sndcTraining, sndcWave]

/-- No other PDU changes the table. -/
theorem rdpsndProcessReceive_table (audio : Bool) {rdpsnd : Rdpsnd} {pdu : List UInt8}
    (other : ¬ IsFormats rdpsnd pdu) :
    (rdpsndProcessReceive audio rdpsnd pdu).1.formats = rdpsnd.formats
      ∧ (rdpsndProcessReceive audio rdpsnd pdu).1.formatCount = rdpsnd.formatCount := by
  unfold rdpsndProcessReceive
  split
  case isTrue short => exact ⟨rfl, rfl⟩
  split
  case isTrue wave =>
    simp only [waveHandler]
    split <;> exact ⟨rfl, rfl⟩
  split
  case isTrue formats =>
    exact absurd ⟨by omega, by simpa using ‹¬ rdpsnd.nextPduIsWave = true›, formats⟩ other
  split
  case isTrue training =>
    simp only [trainingHandler]
    split <;> exact ⟨rfl, rfl⟩
  split
  case isTrue wave =>
    simp only [waveInfoHandler]
    split <;> exact ⟨rfl, rfl⟩
  split <;> exact ⟨rfl, rfl⟩

theorem TableAnnounced.step {session : AudioSession} (tabled : TableAnnounced session)
    (audio : Bool) (pdu : List UInt8) : TableAnnounced (audioStep audio session pdu) := by
  by_cases formats : IsFormats session.rdpsnd pdu
  · simp only [audioStep, if_pos formats, rdpsndProcessReceive_formats audio formats]
    exact formatsHandler_announced audio session.rdpsnd (pdu.drop 4)
  · obtain ⟨table, count⟩ := rdpsndProcessReceive_table audio formats
    simp only [TableAnnounced, audioStep, if_neg formats, table, count]
    exact tabled

/-- One PDU. -/
theorem formatsAgree_iff (audio : Bool) {session : AudioSession} (tabled : TableAnnounced session)
    (pdu : List UInt8) : FormatsAgree audio session pdu ↔ FormatsUsable audio session pdu := by
  unfold FormatsAgree FormatsUsable
  refine and_congr (imp_congr_right fun formats => ?_) (imp_congr_right fun selects => ?_)
  · rw [rdpsndProcessReceive_formats audio formats]
    exact formatsAnswered_iff audio session.rdpsnd (pdu.drop 4)
  · obtain ⟨long, handled⟩ := rdpsndProcessReceive_selects audio selects
    rw [handled]
    exact formatSelected_iff tabled long (bodySize pdu)

/-- Throughout a session both parties agree on the formats exactly if all the formats accepted fit
into the answer each time, and the server never selects a place of the table that was not
announced. -/
theorem formats_agree_iff (audio : Bool) (pdus : List (List UInt8)) :
    Guarded (audioStep audio) (FormatsAgree audio) {} pdus ↔
      Guarded (audioStep audio) (FormatsUsable audio) {} pdus := by
  have connected : TableAnnounced {} := .inl rfl
  exact guarded_iff_of_invariant connected (fun _ pdu tabled => tabled.step audio pdu)
    fun _ pdu tabled => formatsAgree_iff audio tabled pdu

/-- A Server Audio Formats PDU with a single format, which is accepted. -/
def singleFormat : List UInt8 :=
  [7, 0, 38, 0] ++ List.replicate 14 0 ++ [1, 0, 0, 6, 0, 0]
    ++ [1, 0, 2, 0, 68, 172, 0, 0, 16, 177, 2, 0, 4, 0, 16, 0, 0, 0]

/-- A WaveInfo PDU that selects the second of the formats announced. -/
def secondSelected : List UInt8 := [2, 0, 16, 0, 0, 0, 1, 0, 0, 0, 0, 0, 9, 9, 9, 9]

/-- The second place of the table is selected when one format was announced. It is not refused: the
audio stream is set to what stands there. -/
theorem formats_disagree :
    ¬ Guarded (audioStep true) (FormatsAgree true) {} [singleFormat, secondSelected] := by
  intro agree
  have reset : RdpsndOutput.resetAudio {} ∈
      (rdpsndProcessReceive true (audioStep true {} singleFormat).rdpsnd secondSelected).2 := by
    decide
  have place := (agree.2.1.2 (by decide) {} reset).1
  exact absurd place (by decide)

end GuacNebula.Rdp
