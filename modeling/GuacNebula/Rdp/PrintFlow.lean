import GuacNebula.Rdp.PrintJob

/-! # Flow control of print jobs

The user acknowledges what is sent to them: first the file, then each blob. The output thread sends
a blob after it has waited for an ack, and ends the stream if the job was closed in the meantime.
What the thread and the acks do in a run is observed beside the job.
-/

namespace GuacNebula.Rdp

open Run

/-! ## Observed runs -/

/-- What is observed of a step: a successful ack, a blob, or the result of
`guac_rdp_print_job_wait_for_ack`. -/
inductive FlowObservation
  | acked
  | blob
  | reported (gotAck : Bool)
  deriving DecidableEq, Repr

/-- What is observed of a step of a job. -/
def observe (job : PrintJob) (event : PrintEvent) : Option FlowObservation :=
  if job.released then none
  else match event, job.thread with
    | .ack true, _ => if job.streamFreed then none else some .acked
    | .enterWait, .testing _ =>
        if job.state = .waitingForAck then none else some (.reported (waitForAck job.state).2)
    | .wake, .waiting _ => some (.reported (waitForAck job.state).2)
    | .sendOutput true, .sending _ => some .blob
    | _, _ => none

/-- A job, with what has been observed of it: whether there was a successful ack since the last
blob; and whether, so far, blobs were sent after an ack, waits that reported none were those of a
closed job, and waits that reported one were not those of a killed job. -/
structure PrintFlow where
  job : PrintJob := {}
  acked : Bool := false
  blobsAcked : Bool := true
  stopsClosed : Bool := true
  acksAlive : Bool := true
  deriving DecidableEq, Repr

/-- An observation is recorded. -/
def PrintFlow.record (flow : PrintFlow) : FlowObservation → PrintFlow
  | .acked => { flow with acked := true }
  | .blob => { flow with acked := false, blobsAcked := flow.blobsAcked && flow.acked }
  | .reported true => { flow with acksAlive := flow.acksAlive && !flow.job.filterKilled }
  | .reported false => { flow with stopsClosed := flow.stopsClosed && flow.job.state = .closed }

/-- One step of an observed run. -/
def flowStep (flow : PrintFlow) (event : PrintEvent) : PrintFlow :=
  { (observe flow.job event).elim flow flow.record with job := printStep flow.job event }

/-- Every blob so far was sent after a successful ack that followed the blob before, waits reported
that the job must stop only when it was closed, and a killed job is closed and had no wait report
an ack. -/
structure FlowControlled (flow : PrintFlow) : Prop where
  blobsAcked : flow.blobsAcked = true
  stopsClosed : flow.stopsClosed = true
  acksAlive : flow.acksAlive = true
  closed : flow.job.filterKilled = true → flow.job.state = .closed

/-- No successful ack comes for a closed job, no wait ends while the job is waiting for an ack, and
the ack that a wait finds was received after the last blob. -/
def AcksInTurn (flow : PrintFlow) (event : PrintEvent) : Prop :=
  flow.job.released = false →
    match event, flow.job.thread with
    | .ack true, _ => flow.job.streamFreed = false → flow.job.state ≠ .closed
    | .enterWait, .testing _ => flow.job.state = .ackReceived → flow.acked = true
    | .wake, .waiting _ =>
        flow.job.state ≠ .waitingForAck ∧ (flow.job.state = .ackReceived → flow.acked = true)
    | _, _ => True

/-! ## Killed jobs -/

/-- A job that has been killed is closed. -/
def KilledClosed (job : PrintJob) : Prop := job.filterKilled = true → job.state = .closed

theorem killedClosed_kill (job : PrintJob) : KilledClosed job.kill := fun _ => rfl

section Killed

variable {job : PrintJob} (closed : KilledClosed job)
include closed

theorem KilledClosed.write (buffer : List UInt8) (user : Bool) :
    KilledClosed (job.write buffer user) := by
  unfold PrintJob.write
  split
  · cases user with
    | true => exact closed
    | false => exact killedClosed_kill job
  · exact closed

theorem KilledClosed.afterWait (output : List UInt8) : KilledClosed (job.afterWait output) := by
  intro killed
  have state : job.state = .closed := closed killed
  simp [PrintJob.afterWait, waitForAck, state]

theorem KilledClosed.readOutput (output : List UInt8) : KilledClosed (job.readOutput output) := by
  unfold PrintJob.readOutput
  split <;> exact closed

theorem KilledClosed.enterWait : KilledClosed job.enterWait := by
  unfold PrintJob.enterWait
  split
  · split
    · exact closed
    · exact closed.afterWait _
  · exact closed

theorem KilledClosed.wake : KilledClosed job.wake := by
  unfold PrintJob.wake
  split
  · exact closed.afterWait _
  · exact closed

theorem KilledClosed.sendOutput (user : Bool) : KilledClosed (job.sendOutput user) := by
  unfold PrintJob.sendOutput
  split
  · cases user with
    | true => exact closed
    | false => exact killedClosed_kill job
  · exact closed

theorem KilledClosed.finishOutput (user : Bool) : KilledClosed (job.finishOutput user) := by
  unfold PrintJob.finishOutput
  split
  · cases user with
    | true => exact closed
    | false => exact killedClosed_kill job
  · exact closed

theorem KilledClosed.closeAll : KilledClosed job.closeAll := by
  unfold PrintJob.closeAll
  split <;> exact closed

/-- A killed job stays closed, unless a successful ack comes for it. -/
theorem KilledClosed.step (event : PrintEvent)
    (unacked : observe job event = some .acked → job.state ≠ .closed) :
    KilledClosed (printStep job event) := by
  unfold printStep
  split
  case isTrue => exact closed
  case isFalse alive =>
    cases event with
    | write buffer user => exact closed.write buffer user
    | ack success =>
        cases freed : job.streamFreed with
        | true => simpa [freed] using closed
        | false =>
            cases success with
            | false => simpa [freed, PrintJob.filterAck] using killedClosed_kill job
            | true =>
                have unclosed : job.state ≠ .closed := unacked (by simp [observe, alive, freed])
                have alive : job.filterKilled ≠ true := fun killed => unclosed (closed killed)
                simpa [freed, PrintJob.filterAck, KilledClosed] using alive
    | kill => exact killedClosed_kill job
    | free => exact closed
    | readOutput output => exact closed.readOutput output
    | enterWait => exact closed.enterWait
    | wake => exact closed.wake
    | sendOutput user => exact closed.sendOutput user
    | finishOutput user => exact closed.finishOutput user
    | closeAll => exact closed.closeAll

end Killed

/-! ## Observations -/

section Observations

variable {job : PrintJob} {event : PrintEvent} {flow : PrintFlow}

theorem observe_acked (seen : observe job event = some .acked) :
    event = .ack true ∧ job.streamFreed = false ∧ job.released = false := by
  unfold observe at seen
  split at seen
  case isTrue => cases seen
  case isFalse alive =>
    split at seen <;> try split at seen
    all_goals simp_all

theorem observe_blob (seen : observe job event = some .blob) :
    ∃ output, job.thread = .sending output := by
  unfold observe at seen
  split at seen
  case isTrue => cases seen
  case isFalse alive =>
    split at seen <;> try split at seen
    all_goals simp_all

/-- A wait that ends in its turn finds a job that is not waiting, and an ack that has not been
used. -/
theorem AcksInTurn.reported {gotAck : Bool} (inTurn : AcksInTurn flow event)
    (seen : observe flow.job event = some (.reported gotAck)) :
    gotAck = (waitForAck flow.job.state).2 ∧ flow.job.state ≠ .waitingForAck
      ∧ (flow.job.state = .ackReceived → flow.acked = true) := by
  unfold observe at seen
  split at seen
  case isTrue => cases seen
  case isFalse alive =>
    have turn := inTurn (Bool.eq_false_iff.mpr alive)
    split at seen
    case h_1 => split at seen <;> cases seen
    case h_2 testing =>
      rw [testing] at turn
      split at seen
      case isTrue => cases seen
      case isFalse ready => cases seen; exact ⟨rfl, ready, turn⟩
    case h_3 waiting =>
      rw [waiting] at turn
      cases seen
      exact ⟨rfl, turn⟩
    case h_4 => cases seen
    case h_5 => cases seen

theorem afterWait_sending {output next : List UInt8}
    (sending : (job.afterWait output).thread = .sending next) : (waitForAck job.state).2 = true := by
  cases gotAck : (waitForAck job.state).2 with
  | true => rfl
  | false => simp [PrintJob.afterWait, gotAck] at sending

/-- The thread comes to send a blob by a wait that reports an ack, and stays until it is sent. -/
theorem sending_of_step {output : List UInt8}
    (sending : (printStep job event).thread = .sending output) :
    observe job event = some (.reported true) ∨
      (job.thread = .sending output ∧ observe job event ≠ some .blob) := by
  unfold printStep at sending
  split at sending
  case isTrue released => exact .inr ⟨sending, by simp [observe, released]⟩
  case isFalse alive =>
    cases event with
    | write buffer user =>
        exact .inr ⟨(job.write_thread buffer user).symm.trans sending, by simp [observe]⟩
    | ack success =>
        refine .inr ⟨?_, by cases success <;> simp [observe]⟩
        cases freed : job.streamFreed <;> simpa [freed] using sending
    | kill => exact .inr ⟨sending, by simp [observe]⟩
    | free => exact .inr ⟨sending, by simp [observe]⟩
    | readOutput read =>
        change (job.readOutput read).thread = _ at sending
        unfold PrintJob.readOutput at sending
        split at sending
        · split at sending <;> cases sending
        · exact .inr ⟨sending, by simp [observe]⟩
    | enterWait =>
        change job.enterWait.thread = _ at sending
        unfold PrintJob.enterWait at sending
        split at sending
        case h_1 read testing =>
          split at sending
          case isTrue => cases sending
          case isFalse ready => simp [observe, alive, testing, ready, afterWait_sending sending]
        case h_2 => exact .inr ⟨sending, by simp [observe, sending]⟩
    | wake =>
        change job.wake.thread = _ at sending
        unfold PrintJob.wake at sending
        split at sending
        case h_1 read waiting => simp [observe, alive, waiting, afterWait_sending sending]
        case h_2 => exact .inr ⟨sending, by simp [observe, sending]⟩
    | sendOutput user =>
        change (job.sendOutput user).thread = _ at sending
        unfold PrintJob.sendOutput at sending
        split at sending
        case h_1 => cases sending
        case h_2 elsewhere => exact absurd sending (elsewhere output)
    | finishOutput user =>
        change (job.finishOutput user).thread = _ at sending
        unfold PrintJob.finishOutput at sending
        split at sending
        case h_1 => cases sending
        case h_2 => exact .inr ⟨sending, by simp [observe]⟩
    | closeAll =>
        change job.closeAll.thread = _ at sending
        unfold PrintJob.closeAll at sending
        split at sending
        case h_1 => cases sending
        case h_2 => exact .inr ⟨sending, by simp [observe]⟩

end Observations

/-! ## Runs -/

/-- The flow is controlled, and when the thread is about to send a blob, there has been an ack for
it. -/
structure Flowing (flow : PrintFlow) : Prop extends FlowControlled flow where
  sending : ∀ output, flow.job.thread = .sending output → flow.acked = true

section Steps

variable {flow : PrintFlow} {event : PrintEvent} (flowing : Flowing flow)
  (inTurn : AcksInTurn flow event)
include flowing inTurn

theorem Flowing.step_closed : KilledClosed (flowStep flow event).job := by
  refine KilledClosed.step flowing.closed event fun seen => ?_
  obtain ⟨rfl, streamOpen, alive⟩ := observe_acked seen
  exact inTurn alive streamOpen

theorem Flowing.step_sending {output : List UInt8}
    (sending : (flowStep flow event).job.thread = .sending output) :
    (flowStep flow event).acked = true := by
  rcases sending_of_step sending with reported | ⟨already, unsent⟩
  · obtain ⟨gotAck, -, unused⟩ := inTurn.reported reported
    have received : flow.job.state = .ackReceived := by
      cases state : flow.job.state <;> simp [waitForAck, state] at gotAck ⊢
    simp [flowStep, reported, PrintFlow.record, unused received]
  · have acked := flowing.sending output already
    cases seen : observe flow.job event with
    | none => simpa [flowStep, seen] using acked
    | some observation =>
        cases observation with
        | acked => simp [flowStep, seen, PrintFlow.record]
        | blob => exact absurd seen unsent
        | reported gotAck =>
            cases gotAck <;> simpa [flowStep, seen, PrintFlow.record] using acked

/-- A step in its turn keeps the flow controlled. -/
theorem Flowing.step : Flowing (flowStep flow event) := by
  have closed := flowing.step_closed inTurn
  have sending : ∀ output, (flowStep flow event).job.thread = .sending output →
      (flowStep flow event).acked = true :=
    fun _ => flowing.step_sending inTurn
  have recorded : flowStep flow event =
      { (observe flow.job event).elim flow flow.record with job := printStep flow.job event } := rfl
  cases seen : observe flow.job event with
  | none =>
      rw [recorded, seen] at closed sending ⊢
      exact ⟨⟨flowing.blobsAcked, flowing.stopsClosed, flowing.acksAlive, closed⟩, sending⟩
  | some observation =>
      rw [recorded, seen] at closed sending ⊢
      cases observation with
      | acked =>
          exact ⟨⟨flowing.blobsAcked, flowing.stopsClosed, flowing.acksAlive, closed⟩, sending⟩
      | blob =>
          obtain ⟨output, about⟩ := observe_blob seen
          have acked : flow.acked = true := flowing.sending output about
          refine ⟨⟨?_, flowing.stopsClosed, flowing.acksAlive, closed⟩, sending⟩
          simp [PrintFlow.record, flowing.blobsAcked, acked]
      | reported gotAck =>
          obtain ⟨result, ready, -⟩ := inTurn.reported seen
          cases gotAck with
          | true =>
              have alive : flow.job.filterKilled = false := by
                refine Bool.eq_false_iff.mpr fun killed => ?_
                simp [waitForAck, flowing.closed killed] at result
              refine ⟨⟨flowing.blobsAcked, flowing.stopsClosed, ?_, closed⟩, sending⟩
              simp [PrintFlow.record, flowing.acksAlive, alive]
          | false =>
              have stopped : flow.job.state = .closed := by
                cases state : flow.job.state with
                | waitingForAck => exact absurd state ready
                | ackReceived => simp [waitForAck, state] at result
                | closed => rfl
              refine ⟨⟨flowing.blobsAcked, ?_, flowing.acksAlive, closed⟩, sending⟩
              simp [PrintFlow.record, flowing.stopsClosed, stopped]

end Steps

/-- The flow is controlled in every run in which no successful ack comes for a closed job, no wait
ends while the job is waiting for an ack, and no wait finds an ack from before the last blob. -/
theorem flowControlled_of_acksInTurn (events : List PrintEvent)
    (inTurn : Guarded flowStep AcksInTurn {} events) : Always flowStep FlowControlled {} events :=
  (inTurn.always (⟨⟨rfl, rfl, rfl, by simp⟩, by simp⟩ : Flowing {})
    fun _ _ flowing turn => flowing.step turn).mono fun _ flowing => flowing.toFlowControlled

/-- A document in one blob, and a job that is killed while its thread waits to send the second. -/
theorem flowControlled_killed :
    Always flowStep FlowControlled {}
      [.write [0x25] true, .ack true, .readOutput [0x25], .enterWait, .sendOutput true,
        .readOutput [0x0A], .enterWait, .kill, .wake, .finishOutput true] :=
  flowControlled_of_acksInTurn _
    ⟨fun _ => trivial, fun _ _ => by decide, fun _ => trivial, fun _ _ => by decide,
      fun _ => trivial, fun _ => trivial, fun _ stale => absurd stale (by decide),
      fun _ => trivial, fun _ => ⟨by decide, fun stale => absurd stale (by decide)⟩,
      fun _ => trivial, trivial⟩

/-- The thread is woken for nothing before the user has acknowledged the file: the wait reports that
the job must stop. -/
theorem flow_stopped_by_spurious_wakeup :
    ¬ Always flowStep FlowControlled {} [.write [0x25] true, .readOutput [0x25], .enterWait, .wake]
    := by
  intro always
  exact absurd always.last.stopsClosed (by decide)

end GuacNebula.Rdp
