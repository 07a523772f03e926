import GuacNebula.Lib.Run
import GuacNebula.Terminal.Operations

/-! # Output redirected to pipe streams

While a pipe stream is open, the bytes the terminal would echo are written to a buffer and sent on
the stream when the buffer is full, on request, and when the stream is closed. Escape sequences can
open, replace and close the stream. A log of what was echoed while which stream was open is kept
beside the terminal, and compared with what has been sent.
-/

namespace GuacNebula.Terminal

open Run

/-- The size of `pipe_buffer`. -/
def pipeCapacity : Nat := 6048

/-! ## What an action does to the pipe stream -/

/-- Something that concerns the pipe stream. -/
inductive PipeOp where
  | nothing
  | echo (c : UInt8)
  | flush
  | openStream (name : List UInt8) (flags : BitVec 32)
  | close
  deriving DecidableEq, Repr

/-- The functions of the pipe stream. -/
def performPipe (term : Term) : PipeOp → Term
  | .nothing => term
  | .echo c => pipeStreamWrite term c
  | .flush => pipeStreamFlush term
  | .openStream name flags => pipeStreamOpen term name flags
  | .close => pipeStreamClose term

/-- What a written byte does to the pipe stream: it is echoed while the stream is open, unless it
starts an escape sequence, and it may complete a command that opens or closes the stream. -/
def bytePipeOp (term : Term) (c : UInt8) : PipeOp :=
  match term.charHandler with
  | .echo => if term.pipeStream.opened ∧ c ≠ 0x1B then .echo c else .nothing
  | .openPipeStream =>
      if isStringTerminator c then
        .openStream (terminated term.statics.pipeParam) term.statics.pipeFlags
      else .nothing
  | .closePipeStream => if isStringTerminator c then .close else .nothing
  | _ => .nothing

/-- An action on the terminal: a byte is written, the terminal is flushed, or a function of the pipe
stream is called. -/
inductive PipeAction where
  | write (c : UInt8)
  | flush
  | pipe (op : PipeOp)
  deriving DecidableEq, Repr

/-- The effect of an action. -/
def pipeStep (platform : Platform) (term : Term) : PipeAction → Term
  | .write c => writeByte platform term c
  | .flush => flush term
  | .pipe op => performPipe term op

/-- What an action does to the pipe stream. The terminal is flushed with the stream if its flags ask
for it. -/
def pipeOp (term : Term) : PipeAction → PipeOp
  | .write c => bytePipeOp term c
  | .flush => if term.pipeStream.flags &&& 2 ≠ 0 then .flush else .nothing
  | .pipe op => op

/-! ## Streams -/

/-- A stream, what has come over it, and whether it is still open. -/
structure PipedStream where
  name : List UInt8
  bytes : List UInt8
  opened : Bool
  deriving DecidableEq, Repr

/-- The last stream of a log takes more bytes if it is open. -/
def appendToLast (bytes : List UInt8) : List PipedStream → List PipedStream
  | [] => []
  | last :: earlier =>
      if last.opened then { last with bytes := last.bytes ++ bytes } :: earlier
      else last :: earlier

/-- The last stream of a log is closed. -/
def closeLast : List PipedStream → List PipedStream
  | [] => []
  | last :: earlier => { last with opened := false } :: earlier

/-- The log, latest stream first, of what is echoed while which stream is open. -/
def logPipe (log : List PipedStream) : PipeOp → List PipedStream
  | .nothing => log
  | .echo c => appendToLast [c] log
  | .flush => log
  | .openStream name _ => { name, bytes := [], opened := true } :: closeLast log
  | .close => closeLast log

/-- The terminal and the log beside it. -/
def loggedStep (platform : Platform) (state : Term × List PipedStream) (action : PipeAction) :
    Term × List PipedStream :=
  (pipeStep platform state.1 action, logPipe state.2 (pipeOp state.1 action))

/-- The last stream of a log, if it is open. -/
def openLast : List PipedStream → Option PipedStream
  | [] => none
  | last :: _ => if last.opened then some last else none

/-- The streams that the other side has received, latest first, if everything was sent in order:
bytes and ends only on an open stream, and no stream before the last one was ended. -/
def received : List Output → Option (List PipedStream)
  | [] => some []
  | .pipe name :: earlier => (received earlier).bind fun streams =>
      if openLast streams = none then some ({ name, bytes := [], opened := true } :: streams)
      else none
  | .blob bytes :: earlier => (received earlier).bind fun streams =>
      if openLast streams = none then none else some (appendToLast bytes streams)
  | .endPipe :: earlier => (received earlier).bind fun streams =>
      if openLast streams = none then none else some (closeLast streams)
  | _ :: earlier => received earlier

/-- The log is what has been received, and what is still in the buffer for the open stream. -/
structure Relays (term : Term) (log : List PipedStream) : Prop where
  received : ∃ streams, received term.output = some streams
    ∧ log = appendToLast term.pipeStream.buffer streams
    ∧ (term.pipeStream.opened = true ↔ openLast streams ≠ none)
  closed : term.pipeStream.opened = false → term.pipeStream.buffer = []
  bounded : term.pipeStream.buffer.length ≤ pipeCapacity

/-! ## Logs -/

section Logs

variable {streams : List PipedStream}

@[simp] theorem appendToLast_nil (streams : List PipedStream) : appendToLast [] streams = streams := by
  cases streams with
  | nil => rfl
  | cons last earlier =>
      rw [appendToLast, List.append_nil, ite_self]

theorem appendToLast_append (first second : List UInt8) (streams : List PipedStream) :
    appendToLast second (appendToLast first streams) = appendToLast (first ++ second) streams := by
  cases streams with
  | nil => rfl
  | cons last earlier =>
      by_cases opened : last.opened
      · simp only [appendToLast, opened, ↓reduceIte, List.append_assoc]
      · simp only [appendToLast, opened, Bool.false_eq_true, ↓reduceIte]

theorem openLast_append (bytes : List UInt8) (streams : List PipedStream) :
    openLast (appendToLast bytes streams) = none ↔ openLast streams = none := by
  cases streams with
  | nil => rfl
  | cons last earlier =>
      by_cases opened : last.opened
      · simp only [appendToLast, openLast, opened, ↓reduceIte, reduceCtorEq]
      · simp only [appendToLast, openLast, opened, Bool.false_eq_true, ↓reduceIte]

/-- A log whose last stream is not open takes no bytes. -/
theorem appendToLast_of_closed (closed : openLast streams = none) (bytes : List UInt8) :
    appendToLast bytes streams = streams := by
  cases streams with
  | nil => rfl
  | cons last earlier =>
      obtain ⟨name, sent, opened⟩ := last
      cases opened with
      | false => rfl
      | true => cases closed

theorem openLast_close (streams : List PipedStream) : openLast (closeLast streams) = none := by
  cases streams with
  | nil => rfl
  | cons last earlier => rfl

/-- A log whose last stream is not open is closed already. -/
theorem closeLast_of_closed (closed : openLast streams = none) : closeLast streams = streams := by
  cases streams with
  | nil => rfl
  | cons last earlier =>
      obtain ⟨name, bytes, opened⟩ := last
      cases opened with
      | false => rfl
      | true => cases closed

end Logs

/-! ## The functions of the pipe stream -/

section Functions

variable {term : Term} {log : List PipedStream}

theorem Relays.flush (relays : Relays term log) :
    Relays (pipeStreamFlush term) log ∧ (pipeStreamFlush term).pipeStream.buffer = []
      ∧ (pipeStreamFlush term).pipeStream.opened = term.pipeStream.opened := by
  obtain ⟨⟨streams, received, same, opened⟩, closed, bounded⟩ := relays
  by_cases pending : term.pipeStream.opened && !term.pipeStream.buffer.isEmpty
  · rw [pipeStreamFlush, if_pos pending]
    have isOpen : openLast streams ≠ none := opened.mp (Bool.and_eq_true_iff.mp pending).1
    refine ⟨⟨⟨appendToLast term.pipeStream.buffer streams, ?_, ?_, ?_⟩, fun _ => rfl,
      Nat.zero_le _⟩, rfl, rfl⟩
    · rw [Terminal.received, received]
      exact if_neg isOpen
    · rw [appendToLast_nil, same]
    · rw [ne_eq, openLast_append]
      exact opened
  · rw [pipeStreamFlush, if_neg pending]
    refine ⟨⟨⟨streams, received, same, opened⟩, closed, bounded⟩, ?_, rfl⟩
    cases isOpen : term.pipeStream.opened with
    | false => exact closed isOpen
    | true =>
        rw [isOpen, Bool.true_and, Bool.not_eq_true', Bool.not_eq_false, List.isEmpty_iff] at pending
        exact pending

/-- While no stream is open the log has no open stream. -/
theorem Relays.openLast_eq_none (relays : Relays term log)
    (isClosed : term.pipeStream.opened = false) : openLast log = none := by
  obtain ⟨⟨streams, -, same, opened⟩, -, -⟩ := relays
  rw [same, openLast_append]
  by_contra isOpen
  rw [opened.mpr isOpen] at isClosed
  cases isClosed

theorem Relays.echo (relays : Relays term log) (c : UInt8) :
    Relays (pipeStreamWrite term c) (appendToLast [c] log) := by
  cases isOpen : term.pipeStream.opened with
  | false =>
      have written : pipeStreamWrite term c = term := if_neg (Bool.eq_false_iff.mp isOpen)
      rw [written, appendToLast_of_closed (relays.openLast_eq_none isOpen)]
      exact relays
  | true =>
      have room : ∃ before, Relays before log ∧ before.pipeStream.buffer.length < pipeCapacity
          ∧ before.pipeStream.opened = true
          ∧ pipeStreamWrite term c = { before with
              pipeStream := { before.pipeStream with
                buffer := before.pipeStream.buffer ++ [c] } } := by
        rw [pipeStreamWrite, if_pos isOpen]
        dsimp only
        split
        · obtain ⟨flushed, empty, stays⟩ := relays.flush
          exact ⟨_, flushed, empty ▸ by decide, stays.trans isOpen, rfl⟩
        · rename_i notFull
          exact ⟨_, relays, Nat.lt_of_le_of_ne relays.bounded notFull, isOpen, rfl⟩
      obtain ⟨before, ⟨⟨streams, received, same, opened⟩, -, -⟩, room, isOpen, written⟩ := room
      rw [written]
      refine ⟨⟨streams, received, ?_, opened⟩, ?_, ?_⟩
      · rw [same, appendToLast_append]
      · exact fun ended => absurd isOpen (Bool.eq_false_iff.mp ended)
      · rw [List.length_append]
        exact room

theorem Relays.close (relays : Relays term log) :
    Relays (pipeStreamClose term) (closeLast log)
      ∧ (pipeStreamClose term).pipeStream.opened = false := by
  cases isOpen : term.pipeStream.opened with
  | false =>
      have written : pipeStreamClose term = term := if_neg (Bool.eq_false_iff.mp isOpen)
      rw [written, closeLast_of_closed (relays.openLast_eq_none isOpen)]
      exact ⟨relays, isOpen⟩
  | true =>
      obtain ⟨⟨⟨streams, received, same, opened⟩, -, -⟩, empty, stays⟩ := relays.flush
      rw [pipeStreamClose, if_pos isOpen]
      generalize pipeStreamFlush term = flushed at received same opened empty stays
      refine ⟨⟨⟨closeLast streams, ?_, ?_, ?_⟩, fun _ => empty, ?_⟩, rfl⟩
      · rw [Terminal.received, received]
        exact if_neg (opened.mp (stays.trans isOpen))
      · rw [empty, appendToLast_nil, same, empty, appendToLast_nil]
      · rw [openLast_close]
        exact iff_of_false nofun (fun wrong => wrong rfl)
      · rw [empty]
        exact Nat.zero_le _

theorem Relays.openStream (relays : Relays term log) (name : List UInt8) (flags : BitVec 32) :
    Relays (pipeStreamOpen term name flags)
      ({ name, bytes := [], opened := true } :: closeLast log) := by
  obtain ⟨closed, ended⟩ := relays.close
  have logClosed := closed.openLast_eq_none ended
  obtain ⟨⟨streams, received, same, -⟩, empty, -⟩ := closed
  rw [empty ended, appendToLast_nil] at same
  rw [same] at logClosed ⊢
  refine ⟨⟨{ name, bytes := [], opened := true } :: streams, ?_, ?_, ?_⟩, nofun, Nat.zero_le _⟩
  · rw [pipeStreamOpen, Terminal.received, received]
    exact if_pos logClosed
  · exact (appendToLast_nil _).symm
  · exact iff_of_true rfl nofun

/-- A function of the pipe stream does what the log says. -/
theorem Relays.perform (relays : Relays term log) (op : PipeOp) :
    Relays (performPipe term op) (logPipe log op) := by
  cases op with
  | nothing => exact relays
  | echo c => exact relays.echo c
  | flush => exact relays.flush.1
  | openStream name flags => exact relays.openStream name flags
  | close => exact relays.close.1

end Functions

/-! ## The handlers -/

/-- What is sent on the pipe stream is the same, and so is the stream. -/
structure Term.SamePipe (before after : Term) : Prop where
  stream : after.pipeStream = before.pipeStream
  received : received after.output = received before.output

namespace Term.SamePipe

variable {first second third : Term}

theorem refl (term : Term) : term.SamePipe term := ⟨rfl, rfl⟩

theorem trans (left : first.SamePipe second) (right : second.SamePipe third) :
    first.SamePipe third :=
  ⟨right.stream.trans left.stream, right.received.trans left.received⟩

/-- A branch keeps what both of its sides keep. -/
theorem ite {condition : Prop} [Decidable condition] (left : first.SamePipe second)
    (right : first.SamePipe third) : first.SamePipe (if condition then second else third) := by
  split
  · exact left
  · exact right

end Term.SamePipe

theorem Relays.congr {before after : Term} {log : List PipedStream} (relays : Relays before log)
    (same : before.SamePipe after) : Relays after log := by
  obtain ⟨received, closed, bounded⟩ := relays
  rw [← same.stream] at received closed bounded
  rw [← same.received] at received
  exact ⟨received, closed, bounded⟩

section Handlers

variable (platform : Platform) (term : Term) (c : UInt8)

theorem sendString_samePipe (text : String) : term.SamePipe (sendString term text) := by
  unfold sendString
  exact .ite (.refl term) ⟨rfl, rfl⟩

theorem echoCodepoint_samePipe (codepoint : Int) :
    term.SamePipe (echoCodepoint platform term codepoint) := by
  unfold echoCodepoint
  apply Term.SamePipe.ite (sendString_samePipe ..)
  iterate 11
    apply Term.SamePipe.ite
    · exact ⟨rfl, rfl⟩
  exact ⟨rfl, rfl⟩

theorem echoByte_samePipe : term.SamePipe (echoByte platform term c) := by
  unfold echoByte
  dsimp only
  split
  · exact ⟨rfl, rfl⟩
  · apply Term.SamePipe.trans _ (echoCodepoint_samePipe ..)
    exact ⟨rfl, rfl⟩

theorem echo_samePipe :
    (performPipe term (if term.pipeStream.opened ∧ c ≠ 0x1B then .echo c else .nothing)).SamePipe
      (echo platform term c) := by
  unfold echo
  by_cases piped : term.pipeStream.opened ∧ c ≠ 0x1B
  · simp only [if_pos piped]
    exact .ite (.refl _) (echoByte_samePipe ..)
  · simp only [if_neg piped, if_neg (fun both : _ ∧ _ => piped both.1)]
    exact echoByte_samePipe ..

theorem escape_samePipe : term.SamePipe (escape term c) := by
  unfold escape
  split
  all_goals first | exact ⟨rfl, rfl⟩ | exact (sendString_samePipe ..).trans ⟨rfl, rfl⟩

theorem csiExecute_samePipe (argc : Nat) (argv : Nat → Int) (function : CsiFunction) :
    term.SamePipe (csiExecute term argc argv function) := by
  cases function with
  | identify => exact .ite (sendString_samePipe ..) (.refl term)
  | report =>
      apply Term.SamePipe.ite (.refl term)
      apply Term.SamePipe.ite (sendString_samePipe ..)
      exact .ite (sendString_samePipe ..) (.refl term)
  | _ => exact ⟨rfl, rfl⟩

theorem csi_samePipe : term.SamePipe (csi term c) := by
  have executed (before : Term) : before.SamePipe
      ({ csiExecute before before.statics.argc before.statics.argv (csiFunction c) with
        statics := csiResetParameters (csiExecute before before.statics.argc before.statics.argv
          (csiFunction c)).statics }.handler .echo) :=
    (csiExecute_samePipe before ..).trans ⟨rfl, rfl⟩
  unfold csi
  apply Term.SamePipe.ite
  · apply Term.SamePipe.ite _ (.refl term)
    exact ⟨rfl, rfl⟩
  · apply Term.SamePipe.ite
    · apply Term.SamePipe.ite
      · exact ⟨rfl, rfl⟩
      · apply Term.SamePipe.trans _ (executed _)
        exact ⟨rfl, rfl⟩
    · apply Term.SamePipe.ite _ (.refl term)
      exact ⟨rfl, rfl⟩

theorem osc_samePipe : term.SamePipe (osc term c) := by
  unfold osc
  split_ifs
  · exact ⟨rfl, rfl⟩
  · cases oscHandler term.statics.operation <;> exact ⟨rfl, rfl⟩
  · exact ⟨rfl, rfl⟩

theorem download_samePipe : term.SamePipe (download term c) := by
  unfold download
  dsimp only [Term.handler]
  split_ifs <;> exact ⟨rfl, rfl⟩

theorem setDirectory_samePipe : term.SamePipe (setDirectory term c) := by
  unfold setDirectory
  dsimp only [Term.handler]
  split_ifs <;> exact ⟨rfl, rfl⟩

theorem paletteByte_samePipe : term.SamePipe (paletteByte platform term c) := by
  unfold paletteByte
  dsimp only
  split_ifs <;> exact ⟨rfl, rfl⟩

/-- A written byte does to the pipe stream what its operation says. -/
theorem writeByte_samePipe :
    (performPipe term (bytePipeOp term c)).SamePipe (writeByte platform term c) := by
  unfold writeByte bytePipeOp
  cases term.charHandler with
  | echo => exact echo_samePipe ..
  | escape => exact escape_samePipe ..
  | g0Charset => exact ⟨rfl, rfl⟩
  | g1Charset => exact ⟨rfl, rfl⟩
  | osc => exact osc_samePipe ..
  | csi => exact csi_samePipe ..
  | ctrlFunc =>
      change term.SamePipe (ctrlFunc platform term c)
      unfold ctrlFunc
      split <;> exact ⟨rfl, rfl⟩
  | apc =>
      change term.SamePipe (apc term c)
      unfold apc
      dsimp only [Term.handler]
      split_ifs <;> exact ⟨rfl, rfl⟩
  | download => exact download_samePipe ..
  | setDirectory => exact setDirectory_samePipe ..
  | openPipeStream =>
      dsimp only
      unfold openPipeStream
      split
      · exact ⟨rfl, rfl⟩
      · split <;> exact ⟨rfl, rfl⟩
  | closePipeStream =>
      dsimp only
      unfold closePipeStream
      split <;> exact ⟨rfl, rfl⟩
  | setScrollback =>
      change term.SamePipe (setScrollback term c)
      unfold setScrollback
      split <;> exact ⟨rfl, rfl⟩
  | windowTitle =>
      change term.SamePipe (windowTitle term c)
      unfold windowTitle
      split <;> exact ⟨rfl, rfl⟩
  | xtermPalette =>
      change term.SamePipe (xtermPalette platform term c)
      exact (paletteByte_samePipe platform term c).trans (.ite ⟨rfl, rfl⟩ (.refl _))

/-- Every action does to the pipe stream what its operation says. -/
theorem pipeStep_samePipe (action : PipeAction) :
    (performPipe term (pipeOp term action)).SamePipe (pipeStep platform term action) := by
  cases action with
  | write c => exact writeByte_samePipe ..
  | flush =>
      unfold pipeStep pipeOp flush
      dsimp only
      split <;> exact ⟨rfl, rfl⟩
  | pipe op => exact .refl _

end Handlers

/-! ## Runs -/

theorem Relays.step {term : Term} {log : List PipedStream} (relays : Relays term log)
    (platform : Platform) (action : PipeAction) :
    Relays (pipeStep platform term action) (logPipe log (pipeOp term action)) :=
  (relays.perform (pipeOp term action)).congr (pipeStep_samePipe platform term action)

theorem create_relays (metrics : FontMetrics) (options : TerminalOptions) :
    Relays (create metrics options) [] where
  received := ⟨[], rfl, rfl, iff_of_false nofun (fun wrong => wrong rfl)⟩
  closed _ := rfl
  bounded := Nat.zero_le _

/-- **Throughout every run, what was sent on each stream from its opening to its closing is what was
echoed in between, in order, but for the bytes that are still in the buffer for the open stream; and
the buffer never overflows.** -/
theorem pipeStreams_relay (platform : Platform) (metrics : FontMetrics) (options : TerminalOptions)
    (actions : List PipeAction) :
    Always (loggedStep platform) (fun state => Relays state.1 state.2)
      (create metrics options, []) actions := by
  have start : Relays (create metrics options) [] := create_relays metrics options
  generalize create metrics options = term at start
  generalize ([] : List PipedStream) = log at start
  induction actions generalizing term log with
  | nil => exact start
  | cons action actions ih => exact ⟨start, ih _ _ (start.step platform action)⟩

end GuacNebula.Terminal
