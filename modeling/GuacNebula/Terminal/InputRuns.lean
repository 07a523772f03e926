import GuacNebula.Terminal.Input

/-! # Streams that provide the input

While a stream provides the input, its blobs reach the program in order, and neither keys nor the
mouse, nor what the program writes, nor other streams add anything to them.
-/

namespace GuacNebula.Terminal

open Common Run

variable {User Stream Pipe : Type}

/-- Nothing has been done to streams, and nothing has been written to the program if a stream
provides its input. -/
structure InputTerm.Aside (before after : InputTerm User Stream Pipe) : Prop where
  inputStream : after.term.inputStream = before.term.inputStream
  attached : after.attached = before.attached
  acks : after.acks = before.acks
  stdin : before.term.inputStream = true → after.stdin = before.stdin

namespace InputTerm.Aside

variable {first second third : InputTerm User Stream Pipe}

theorem refl (state : InputTerm User Stream Pipe) : state.Aside state :=
  ⟨rfl, rfl, rfl, fun _ => rfl⟩

theorem trans (left : first.Aside second) (right : second.Aside third) : first.Aside third where
  inputStream := right.inputStream.trans left.inputStream
  attached := right.attached.trans left.attached
  acks := right.acks.trans left.acks
  stdin streamed := (right.stdin (left.inputStream.trans streamed)).trans (left.stdin streamed)

theorem ite {condition : Prop} [Decidable condition] (left : first.Aside second)
    (right : first.Aside third) : first.Aside (if condition then second else third) := by
  split
  · exact left
  · exact right

/-- The same for a function with a result. -/
theorem branch {condition : Prop} [Decidable condition]
    {yes no : Int × InputTerm User Stream Pipe} (left : first.Aside yes.2)
    (right : first.Aside no.2) : first.Aside (if condition then yes else no).2 := by
  split
  · exact left
  · exact right

/-- Neither streams nor the program are concerned. -/
theorem same (inputStream : second.term.inputStream = first.term.inputStream)
    (attached : second.attached = first.attached) (acks : second.acks = first.acks)
    (stdin : second.stdin = first.stdin) : first.Aside second :=
  ⟨inputStream, attached, acks, fun _ => stdin⟩

end InputTerm.Aside

namespace InputTerm

variable (sink : Sink Pipe) (state : InputTerm User Stream Pipe)

theorem sendData_aside (data : List UInt8) : state.Aside (state.sendData sink data).2 := by
  unfold sendData
  split
  · exact .refl state
  · exact ⟨rfl, rfl, rfl, fun streamed => absurd streamed ‹_›⟩

theorem setCursor_aside (type : CursorType) : state.Aside (state.setCursor type) := by
  unfold setCursor
  exact .ite (.refl state) (.same rfl rfl rfl rfl)

theorem typeKey_aside (keysym : Int) : state.Aside (state.typeKey sink keysym).2 := by
  unfold typeKey
  apply Aside.branch
  · cases ctrlCode keysym with
    | none => exact .refl state
    | some code => exact state.sendData_aside sink [code]
  · iterate 3
      apply Aside.branch
      · exact state.sendData_aside sink _
    cases keyString state.term.applicationCursorKeys keysym with
    | none => exact .refl state
    | some text => exact state.sendData_aside sink _

theorem pressKey_aside (keysym : Int) : state.Aside (state.pressKey sink keysym).2 := by
  unfold pressKey
  apply Aside.branch (state.sendData_aside sink _)
  apply Aside.branch (.refl state)
  iterate 2
    apply Aside.branch
    · exact .same rfl rfl rfl rfl
  have revealed : state.Aside
      (if state.term.grid.scrollOffset ≠ 0 then
        state.scrolled (scrolledDown · state.term.grid.scrollOffset)
      else state) :=
    .ite (.same rfl rfl rfl rfl) (.refl state)
  refine (revealed.trans ?_).trans (typeKey_aside sink _ keysym)
  exact .ite (sendData_aside ..) (.refl _)

theorem sendKey_aside (keysym : Int) (pressed : Bool) :
    state.Aside (state.sendKey sink keysym pressed).2 := by
  have shaped := state.setCursor_aside .blank
  unfold sendKey
  apply Aside.branch (.refl state)
  iterate 4
    apply Aside.branch
    · exact shaped.trans (.same rfl rfl rfl rfl)
  exact .branch (shaped.trans (pressKey_aside sink _ keysym)) shaped

theorem dragSelection_aside {unicode : Unicode} {turns : Nat} {disableCopy : Bool}
    {metrics : FontMetrics} {x y : Int} {before mask : BitVec 32}
    {after : InputTerm User Stream Pipe}
    (dragged : state.dragSelection unicode turns disableCopy metrics x y before mask =
      some after) : state.Aside after := by
  unfold dragSelection at dragged
  dsimp only at dragged
  split_ifs at dragged
  · obtain ⟨ended, -, rfl⟩ := Option.map_eq_some_iff.mp dragged
    exact .same rfl rfl rfl rfl
  all_goals
    obtain rfl := Option.some.inj dragged
    exact .same rfl rfl rfl rfl

theorem turnWheel_aside (released : BitVec 32) : state.Aside (state.turnWheel released) := by
  unfold turnWheel
  dsimp only
  split_ifs <;> exact .same rfl rfl rfl rfl

section Mouse

variable {unicode : Unicode} {turns : Nat} {disableCopy : Bool} {metrics : FontMetrics} {x y : Int}
  {mask : BitVec 32} {result : Int × InputTerm User Stream Pipe}

theorem mouseOverText_aside
    (moved : state.mouseOverText sink unicode turns disableCopy metrics x y mask = some result) :
    state.Aside result.2 := by
  have shaped : state.Aside ({ state with mouseMask := mask }.setCursor .ibar) := by
    apply Aside.trans _ (setCursor_aside _ .ibar)
    exact .same rfl rfl rfl rfl
  unfold mouseOverText at moved
  dsimp only at moved
  split_ifs at moved
  · obtain rfl := Option.some.inj moved
    exact shaped.trans (sendData_aside sink _ _)
  · obtain ⟨dragged, came, rfl⟩ := Option.map_eq_some_iff.mp moved
    exact (shaped.trans (dragSelection_aside _ came)).trans (turnWheel_aside dragged _)

theorem sendMouse_aside {user : User} {now : Int}
    (moved : state.sendMouse sink unicode turns disableCopy metrics user x y mask now =
      some result) : state.Aside result.2 := by
  unfold sendMouse at moved
  dsimp only at moved
  generalize (if x ≥ metrics.margin then x - metrics.margin else 0) = x at moved
  generalize (if y ≥ metrics.margin then y - metrics.margin else 0) = y at moved
  split_ifs at moved
  · obtain rfl := Option.some.inj moved
    exact .refl state
  · obtain rfl := Option.some.inj moved
    apply Aside.trans _ (setCursor_aside _ .pointer)
    exact .same rfl rfl rfl rfl
  · apply Aside.trans _ (mouseOverText_aside sink _ moved)
    exact .same rfl rfl rfl rfl

end Mouse

theorem scrollStep_answers (platform : Platform) (metrics : FontMetrics) (scrolled : ScrolledTerm)
    (action : ScrollAction) :
    scrolled.term.Answers (scrollStep platform metrics scrolled action).term := by
  cases action with
  | write c => exact writeByte_answers platform scrolled.term c
  | resize width height => exact .silent rfl rfl
  | displayUp amount => exact .silent rfl rfl
  | displayDown amount => exact .silent rfl rfl
  | drag value =>
      change scrolled.term.Answers (scrollHandler scrolled value).term
      unfold scrollHandler
      dsimp only
      split_ifs <;> exact .silent rfl rfl

/-- Nothing that a program writes, and nothing that is done to the view, concerns streams. -/
theorem terminal_aside (platform : Platform) (metrics : FontMetrics) (action : ScrollAction) :
    state.Aside (state.terminal sink platform metrics action) := by
  have answers := scrollStep_answers platform metrics
    { term := state.term, scrollbar := state.scrollbar.toScrollbar } action
  obtain ⟨sent, output, only⟩ := answers.output
  refine ⟨answers.inputStream, rfl, rfl, fun streamed => ?_⟩
  unfold terminal
  dsimp only at output ⊢
  rw [output, List.length_append, Nat.add_sub_cancel, List.take_left]
  have silent : sent.reverse.filterMap Output.stdinBytes = [] := by
    refine List.filterMap_eq_nil_iff.mpr fun message member => ?_
    cases message with
    | stdin bytes =>
        have free := (only bytes (List.mem_reverse.mp member)).1
        exact absurd (streamed.symm.trans free) Bool.noConfusion
    | _ => rfl
  rw [silent, List.foldl_nil]

end InputTerm

/-! ## Streams -/

section Streams

variable [DecidableEq Stream]

/-- The blobs that are sent on a stream. -/
def blobsOf (stream : Stream) (actions : List (InputAction User Stream)) : List (List UInt8) :=
  actions.filterMap fun
    | .blob other data => if other = stream then some data else none
    | _ => none

theorem blobsOf_blob (stream other : Stream) (data : List UInt8) :
    blobsOf stream [(.blob other data : InputAction User Stream)] =
      if other = stream then [data] else [] := by
  unfold blobsOf
  by_cases same : other = stream <;> simp [same]

/-- The acknowledgements that a stream has received, latest first. -/
def InputTerm.acksOf (state : InputTerm User Stream Pipe) (stream : Stream) : List Ack :=
  (state.acks.filter (·.1 = stream)).map (·.2)

/-- How a blob is acknowledged of which a part has been written. -/
def blobAck (blob : List UInt8 × List UInt8) : Ack :=
  if blob.1 ≠ [] ∧ blob.2 = blob.1 then ⟨"Data written to STDIN.", .success⟩
  else ⟨"Attempt to write to STDIN failed.", .success⟩

/-- The program has received the given parts of the blobs of a stream and nothing else, and the
stream has been told which blobs are complete. -/
structure InputTerm.Relayed (sink : Sink Pipe) (stream : Stream) (blobs : List (List UInt8))
    (before after : InputTerm User Stream Pipe) (parts : List (List UInt8 × List UInt8)) :
    Prop where
  blobs : parts.map Prod.fst = blobs
  prefixes : ∀ part ∈ parts, part.2 <+: part.1
  stdin : sink.taken after.stdin = sink.taken before.stdin ++ (parts.map Prod.snd).flatten
  acks : after.acksOf stream = (parts.map blobAck).reverse ++ before.acksOf stream

/-- A stream provides the input, and no other one has handlers. -/
structure InputTerm.ProvidedBy (state : InputTerm User Stream Pipe) (stream : Stream) : Prop where
  inputStream : state.term.inputStream = true
  attached : ∀ other, state.attached other = decide (other = stream)

/-- The input is provided by one stream or by none. -/
def InputTerm.Consistent (state : InputTerm User Stream Pipe) : Prop :=
  (∃ stream, state.ProvidedBy stream) ∨
    state.term.inputStream = false ∧ ∀ stream, state.attached stream = false

namespace InputTerm

variable {sink : Sink Pipe} {stream : Stream} {first second third : InputTerm User Stream Pipe}

namespace Relayed

variable {blobs more : List (List UInt8)} {parts rest : List (List UInt8 × List UInt8)}

theorem trans (left : Relayed sink stream blobs first second parts)
    (right : Relayed sink stream more second third rest) :
    Relayed sink stream (blobs ++ more) first third (parts ++ rest) where
  blobs := by rw [List.map_append, left.blobs, right.blobs]
  prefixes part member := (List.mem_append.mp member).elim (left.prefixes part)
    (right.prefixes part)
  stdin := by
    rw [right.stdin, left.stdin, List.map_append, List.flatten_append, List.append_assoc]
  acks := by
    rw [right.acks, left.acks, List.map_append, List.reverse_append, List.append_assoc]

/-- Neither the program nor the stream has received anything. -/
theorem nothing (stdin : second.stdin = first.stdin)
    (acks : second.acksOf stream = first.acksOf stream) :
    Relayed sink stream [] first second [] where
  blobs := rfl
  prefixes _ none := absurd none List.not_mem_nil
  stdin := by rw [stdin]; exact (List.append_nil _).symm
  acks := acks

end Relayed

theorem acksOf_ack_self (state : InputTerm User Stream Pipe) (message : String)
    (status : AckStatus) :
    (state.ack stream message status).acksOf stream =
      ⟨message, status⟩ :: state.acksOf stream := by
  simp only [acksOf, ack, List.filter_cons, decide_true, if_true, List.map_cons]

theorem acksOf_ack_other {other : Stream} (different : other ≠ stream)
    (state : InputTerm User Stream Pipe) (message : String) (status : AckStatus) :
    (state.ack other message status).acksOf stream = state.acksOf stream := by
  unfold acksOf ack
  rw [List.filter_cons_of_neg (by simpa using different)]

/-- A blob is written as far as the program takes it, and acknowledged by whether it is complete. -/
theorem inputStreamBlobHandler_relayed (state : InputTerm User Stream Pipe) (data : List UInt8) :
    ∃ part, Relayed sink stream [data] state (state.inputStreamBlobHandler sink stream data)
      [(data, part)] := by
  obtain ⟨part, first, taken, whole⟩ := sink.writeAll_taken state.stdin data
  have handled : state.inputStreamBlobHandler sink stream data =
      (state.writeAll sink data).2.ack stream (blobAck (data, part)).message
        (blobAck (data, part)).status := by
    have failed : (state.writeAll sink data).1 ≤ 0 ↔ ¬ (data ≠ [] ∧ part = data) := by
      change (if (sink.writeAll state.stdin data).1 then (data.length : Int) else -1) ≤ 0 ↔ _
      rw [← whole, ← List.length_pos_iff]
      split_ifs with all
      · simp only [all, and_true]
        omega
      · exact iff_of_true (by decide) fun both => all both.2
    unfold inputStreamBlobHandler blobAck
    dsimp only
    by_cases both : data ≠ [] ∧ part = data
    · rw [if_pos both, if_neg fun wrong => failed.mp wrong both]
    · rw [if_neg both, if_pos (failed.mpr both)]
  refine ⟨part, rfl, fun pair member => List.mem_singleton.mp member ▸ first, ?_, ?_⟩
  · rw [handled, List.map_singleton, List.flatten_singleton]
    exact taken
  · rw [handled, acksOf_ack_self]
    rfl

theorem Aside.providedBy (aside : first.Aside second) (provided : first.ProvidedBy stream) :
    second.ProvidedBy stream where
  inputStream := aside.inputStream.trans provided.inputStream
  attached other := aside.attached ▸ provided.attached other

theorem Aside.relayed (aside : first.Aside second) (provided : first.ProvidedBy stream) :
    Relayed sink stream [] first second [] := by
  refine .nothing (aside.stdin provided.inputStream) ?_
  unfold acksOf
  rw [aside.acks]

section Steps

variable {platform : InputPlatform Pipe} {action : InputAction User Stream}

/-- What is neither done to a stream nor by one does not concern streams. -/
theorem inputStep_aside (ran : inputStep platform first action = some second)
    (other : ∀ stream, (∀ name, action ≠ .pipe stream name) ∧ (∀ data, action ≠ .blob stream data) ∧
      action ≠ .finish stream) : first.Aside second := by
  cases action with
  | start =>
      obtain rfl := Option.some.inj ran
      exact .same rfl rfl rfl rfl
  | key keysym pressed =>
      obtain rfl := Option.some.inj ran
      exact first.sendKey_aside platform.sink keysym pressed
  | mouse user x y mask now =>
      obtain ⟨result, moved, rfl⟩ := Option.map_eq_some_iff.mp ran
      exact first.sendMouse_aside platform.sink moved
  | pipe stream name => exact absurd rfl ((other stream).1 name)
  | blob stream data => exact absurd rfl ((other stream).2.1 data)
  | finish stream => exact absurd rfl (other stream).2.2
  | terminal action =>
      obtain rfl := Option.some.inj ran
      exact first.terminal_aside platform.sink platform.toPlatform platform.metrics action

/-- Another stream is denied the input while one provides it. -/
theorem ProvidedBy.pipeHandler {other : Stream} (provided : first.ProvidedBy stream)
    (different : other ≠ stream) (name : List UInt8) :
    (first.pipeHandler other name).ProvidedBy stream ∧
      Relayed sink stream [] first (first.pipeHandler other name) [] := by
  have denied : ∃ message status, first.pipeHandler other name = first.ack other message status := by
    unfold InputTerm.pipeHandler sendStream
    rw [provided.inputStream, if_pos rfl]
    split_ifs
    all_goals exact ⟨_, _, rfl⟩
  obtain ⟨message, status, denial⟩ := denied
  rw [denial]
  exact ⟨⟨provided.inputStream, provided.attached⟩,
    .nothing rfl (acksOf_ack_other different first message status)⟩

/-- While a stream provides the input, an action relays no more than the blobs of that stream. -/
theorem ProvidedBy.step (provided : first.ProvidedBy stream)
    (ran : inputStep platform first action = some second) (unfinished : action ≠ .finish stream)
    (once : ∀ name, action ≠ .pipe stream name) :
    second.ProvidedBy stream ∧
      ∃ parts, Relayed platform.sink stream (blobsOf stream [action]) first second parts := by
  have aside (apart : first.Aside second) (none : blobsOf stream [action] = []) :
      second.ProvidedBy stream ∧
        ∃ parts, Relayed platform.sink stream (blobsOf stream [action]) first second parts :=
    ⟨apart.providedBy provided, [], none ▸ apart.relayed provided⟩
  cases action with
  | pipe other name =>
      obtain rfl := Option.some.inj ran
      have different : other ≠ stream := fun same => once name (same ▸ rfl)
      obtain ⟨still, relayed⟩ := provided.pipeHandler different name
      exact ⟨still, [], relayed⟩
  | blob other data =>
      unfold inputStep at ran
      dsimp only at ran
      rw [provided.attached] at ran
      by_cases same : other = stream
      · subst same
        rw [if_pos (decide_eq_true rfl)] at ran
        obtain rfl := Option.some.inj ran
        obtain ⟨part, relayed⟩ := @inputStreamBlobHandler_relayed _ _ _ _ platform.sink other first data
        rw [blobsOf_blob, if_pos rfl]
        refine ⟨?_, [(data, part)], relayed⟩
        unfold inputStreamBlobHandler writeAll
        dsimp only
        split_ifs <;> exact ⟨provided.inputStream, provided.attached⟩
      · rw [if_neg (by simpa using same)] at ran
        obtain rfl := Option.some.inj ran
        exact aside (.refl _) ((blobsOf_blob ..).trans (if_neg same))
  | finish other =>
      unfold inputStep at ran
      dsimp only at ran
      have different : other ≠ stream := fun same => unfinished (same ▸ rfl)
      rw [provided.attached, if_neg (by simpa using different)] at ran
      obtain rfl := Option.some.inj ran
      exact aside (.refl _) rfl
  | _ => exact aside (inputStep_aside ran fun _ => ⟨nofun, nofun, nofun⟩) rfl

end Steps

/-! ## Runs -/

variable {platform : InputPlatform Pipe}

theorem ProvidedBy.run {actions : List (InputAction User Stream)}
    (provided : first.ProvidedBy stream) (ran : inputRun platform first actions = some second)
    (unfinished : .finish stream ∉ actions) (once : ∀ name, .pipe stream name ∉ actions) :
    second.ProvidedBy stream ∧
      ∃ parts, Relayed platform.sink stream (blobsOf stream actions) first second parts := by
  induction actions generalizing first with
  | nil =>
      obtain rfl := Option.some.inj ran
      exact ⟨provided, [], .nothing rfl rfl⟩
  | cons action actions ih =>
      obtain ⟨middle, stepped, rest⟩ := Option.bind_eq_some_iff.mp ran
      obtain ⟨still, parts, relayed⟩ := provided.step stepped
        (fun same => unfinished (same ▸ List.mem_cons_self ..))
        fun name same => once name (same ▸ List.mem_cons_self ..)
      obtain ⟨last, more, relays⟩ := ih still rest
        (fun later => unfinished (List.mem_cons_of_mem _ later))
        fun name later => once name (List.mem_cons_of_mem _ later)
      have blobs : blobsOf stream (action :: actions) =
          blobsOf stream [action] ++ blobsOf stream actions := by
        rw [← List.singleton_append]
        exact List.filterMap_append ..
      exact ⟨last, parts ++ more, blobs ▸ relayed.trans relays⟩

theorem Consistent.congr (consistent : first.Consistent)
    (inputStream : second.term.inputStream = first.term.inputStream)
    (attached : second.attached = first.attached) : second.Consistent := by
  obtain ⟨stream, provided⟩ | ⟨free, none⟩ := consistent
  · exact .inl ⟨stream, inputStream.trans provided.inputStream, attached ▸ provided.attached⟩
  · exact .inr ⟨inputStream.trans free, attached ▸ none⟩

/-- A stream that has handlers provides the input. -/
theorem Consistent.providedBy (consistent : first.Consistent) (given : first.attached stream) :
    first.ProvidedBy stream := by
  obtain ⟨other, provided⟩ | ⟨-, none⟩ := consistent
  · rw [provided.attached, decide_eq_true_eq] at given
    exact given ▸ provided
  · exact absurd (given.symm.trans (none stream)) Bool.noConfusion

theorem Consistent.pipeHandler (consistent : first.Consistent) (stream : Stream)
    (name : List UInt8) : (first.pipeHandler stream name).Consistent := by
  unfold InputTerm.pipeHandler sendStream
  split_ifs with _ _ streamed
  · exact consistent.congr rfl rfl
  · exact consistent.congr rfl rfl
  · obtain ⟨other, provided⟩ | ⟨-, none⟩ := consistent
    · exact absurd provided.inputStream streamed
    · refine .inl ⟨stream, rfl, fun other => ?_⟩
      change Function.update first.attached stream true other = _
      by_cases same : other = stream
      · rw [same, Function.update_self, decide_eq_true rfl]
      · rw [Function.update_of_ne same, none, decide_eq_false same]
  · exact consistent.congr rfl rfl

theorem Consistent.inputStreamEndHandler (consistent : first.Consistent)
    (given : first.attached stream) : (first.inputStreamEndHandler stream).Consistent := by
  refine .inr ⟨rfl, fun other => ?_⟩
  change Function.update first.attached stream false other = false
  by_cases same : other = stream
  · rw [same, Function.update_self]
  · rw [Function.update_of_ne same, (consistent.providedBy given).attached, decide_eq_false same]

theorem Consistent.step {action : InputAction User Stream} (consistent : first.Consistent)
    (ran : inputStep platform first action = some second) : second.Consistent := by
  have aside (apart : first.Aside second) : second.Consistent :=
    consistent.congr apart.inputStream apart.attached
  cases action with
  | pipe stream name =>
      obtain rfl := Option.some.inj ran
      exact consistent.pipeHandler stream name
  | blob stream data =>
      unfold inputStep inputStreamBlobHandler writeAll at ran
      dsimp only at ran
      split_ifs at ran
      all_goals
        obtain rfl := Option.some.inj ran
        exact consistent.congr rfl rfl
  | finish stream =>
      unfold inputStep at ran
      dsimp only at ran
      split_ifs at ran with given
      · obtain rfl := Option.some.inj ran
        exact consistent.inputStreamEndHandler given
      · exact Option.some.inj ran ▸ consistent
  | _ => exact aside (inputStep_aside ran fun _ => ⟨nofun, nofun, nofun⟩)

theorem Consistent.run {actions : List (InputAction User Stream)} (consistent : first.Consistent)
    (ran : inputRun platform first actions = some second) : second.Consistent := by
  induction actions generalizing first with
  | nil => exact Option.some.inj ran ▸ consistent
  | cons action actions ih =>
      obtain ⟨middle, stepped, rest⟩ := Option.bind_eq_some_iff.mp ran
      exact ih (consistent.step stepped) rest

end InputTerm

/-- From when a stream has been given the standard input of the program until it ends, whatever
users, other streams and the program do: the program receives the blobs of that stream, in order and
nothing else. A blob is acknowledged as written exactly if it is not empty and has been received
completely. -/
theorem stream_provides_input (platform : InputPlatform Pipe) (metrics : FontMetrics)
    (options : TerminalOptions) (scrollbar : DrawnScrollbar) (backspace : UInt8) (stdin : Pipe)
    (before during : List (InputAction User Stream)) (stream : Stream)
    {opened after : InputTerm User Stream Pipe}
    (reached : inputRun platform (.create metrics options scrollbar backspace stdin) before =
      some opened)
    (given : opened.attached stream)
    (ran : inputRun platform opened during = some after)
    (unfinished : .finish stream ∉ during) (once : ∀ name, .pipe stream name ∉ during) :
    ∃ parts, InputTerm.Relayed platform.sink stream (blobsOf stream during) opened after parts := by
  have fresh : (InputTerm.create metrics options scrollbar backspace stdin :
      InputTerm User Stream Pipe).Consistent := .inr ⟨rfl, fun _ => rfl⟩
  exact (((fresh.run reached).providedBy given).run ran unfinished once).2

end Streams

/-- A terminal whose program takes 16 bytes. -/
def sampleInput : InputPlatform (List UInt8) where
  toPlatform := samplePlatform
  sink := .limited 16
  unicode := utf8Unicode
  turns := 2
  disableCopy := false
  metrics := sampleMetrics

/-- A scrollbar that has not been drawn. -/
def sampleScrollbar : DrawnScrollbar where
  min := 0
  max := 0
  value := 0
  parentWidth := 640
  parentHeight := 480
  visibleArea := 24
  renderState := ⟨0, 0, 0, 0, 0, 0, 0, 0⟩
  draggingHandle := false
  dragOffsetY := 0
  dragCurrentY := 0

/-- A terminal that nothing has been sent to. -/
def sampleInputTerm : InputTerm Nat Nat (List UInt8) :=
  .create sampleMetrics (sampleOptions 24 80) sampleScrollbar 0x7F []

/-- Another stream is opened before a blob arrives, and a key is pressed after it. -/
theorem stream_provides_blob :
    ∃ opened after : InputTerm Nat Nat (List UInt8),
      inputRun sampleInput sampleInputTerm [.start, .pipe 1 (bytesOf "STDIN")] = some opened ∧
      inputRun sampleInput opened
        [.pipe 2 (bytesOf "STDIN"), .blob 2 [1], .blob 1 [2, 3], .key 0x61 true] = some after ∧
      ∃ parts, InputTerm.Relayed (.limited 16) 1 [[2, 3]] opened after parts :=
  ⟨_, _, rfl, rfl, stream_provides_input sampleInput sampleMetrics (sampleOptions 24 80)
    sampleScrollbar 0x7F [] [.start, .pipe 1 (bytesOf "STDIN")]
    [.pipe 2 (bytesOf "STDIN"), .blob 2 [1], .blob 1 [2, 3], .key 0x61 true] 1 rfl rfl rfl
    (by simp) (by simp)⟩

end GuacNebula.Terminal
