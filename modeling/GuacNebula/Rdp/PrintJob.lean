import GuacNebula.Lib.Resource
import GuacNebula.Lib.Run
import GuacNebula.Rdp.Rdpdr

/-! # Print jobs

A document that is printed is written to a filter process, and a thread of the job reads what the
process makes of it and sends that to the user. The ends of the two pipes are closed by three
parties: by whoever kills the job, by the thread when it is done, and when the job is freed.

The steps of a run are the calls of the three parties, and the steps of the thread between two
system calls or waits. A step that cannot be taken leaves the job as it is.
-/

namespace GuacNebula.Rdp

open CInt Run

/-! ## The job -/

/-- `guac_rdp_print_job_state`. -/
inductive PrintJobState
  | waitingForAck | ackReceived | closed
  deriving DecidableEq, Repr

/-- Where the output thread is: what it does next, with the output it has read. -/
inductive OutputThread
  | reading
  | testing (output : List UInt8)
  | waiting (output : List UInt8)
  | sending (output : List UInt8)
  | ending
  | closing
  | finished
  deriving DecidableEq, Repr

/-- The instructions that are sent to the user. -/
inductive PrintInstruction
  | file (filename : CString)
  | blob (output : List UInt8)
  | finish
  deriving DecidableEq, Repr

/-- `guac_rdp_print_job`, as it is allocated, with its filter process and its thread. -/
structure PrintJob where
  filename : CString := ascii "guacamole-print.pdf"
  inputFd : Resource := {}
  outputFd : Resource := {}
  state : PrintJobState := .waitingForAck
  bytesReceived : Int := 0
  filterKilled : Bool := false
  thread : OutputThread := .reading
  freed : Bool := false
  streamFreed : Bool := false
  sent : List PrintInstruction := []
  deriving DecidableEq, Repr

/-- The memory of the job has been freed: its thread has been waited for. -/
def PrintJob.released (job : PrintJob) : Bool := job.freed && job.thread = .finished

/-- `guac_rdp_print_job_kill`. -/
def PrintJob.kill (job : PrintJob) : PrintJob :=
  { job with
    filterKilled := true
    inputFd := job.inputFd.close
    outputFd := job.outputFd.close
    state := .closed }

/-! ## The user -/

/-- `guac_rdp_print_job_begin_stream`, for a user that exists or not. -/
def PrintJob.beginStream (job : PrintJob) (user : Bool) : PrintJob :=
  if user then { job with sent := job.sent ++ [.file job.filename] } else job.kill

/-- `guac_rdp_print_job_send_blob`. -/
def PrintJob.sendBlob (job : PrintJob) (user : Bool) (output : List UInt8) : PrintJob :=
  if user then { job with sent := job.sent ++ [.blob output] } else job.kill

/-- `guac_rdp_print_job_end_stream`. -/
def PrintJob.endStream (job : PrintJob) (user : Bool) : PrintJob :=
  if user then { job with sent := job.sent ++ [.finish], streamFreed := true } else job.kill

/-- `guac_rdp_print_filter_ack_handler`. -/
def PrintJob.filterAck (job : PrintJob) (success : Bool) : PrintJob :=
  if success then { job with state := .ackReceived } else job.kill

/-! ## Input -/

/-- `GUAC_RDP_PRINT_JOB_FILENAME_MAX_LENGTH`. -/
def filenameMaxLength : Nat := 1024

/-- `GUAC_RDP_PRINT_JOB_TITLE_SEARCH_LENGTH`. -/
def titleSearchLength : Nat := 2048

/-- `guac_rdp_print_job_parse_title_header`: the filename, if the header is there. -/
def parseTitleHeader (current : List UInt8) (length : Int) : Option CString :=
  if current.take 9 = ascii "%%Title: " then
    let remaining := min (length - 9) (filenameMaxLength - 5)
    let title := ((current.drop 9).take remaining.toNat).takeWhile fun c => c ≠ 13 ∧ c ≠ 10
    some ((title ++ ascii ".pdf").takeWhile (· ≠ 0))
  else none

/-- The loop of `guac_rdp_print_job_read_filename`. -/
def findTitle : Nat → List UInt8 → Int → Option CString
  | 0, _, _ => none
  | steps + 1, current, length =>
      (parseTitleHeader current length).or (findTitle steps (current.drop 1) (length - 1))

/-- `guac_rdp_print_job_read_filename`. The loop ends when its index meets the length, which
decreases as the index increases, so half of the places are searched. -/
def readFilename (filename : CString) (buffer : List UInt8) : CString :=
  let length := min buffer.length titleSearchLength
  (findTitle ((length + 1) / 2) buffer length).getD filename

/-- `guac_rdp_print_job_write`. -/
def PrintJob.write (job : PrintJob) (buffer : List UInt8) (user : Bool) : PrintJob :=
  let begun :=
    if job.bytesReceived = 0 then
      { job with filename := readFilename job.filename buffer }.beginStream user
    else job
  { begun with
    bytesReceived := toInt (begun.bytesReceived + buffer.length)
    inputFd := begun.inputFd.use }

/-- `guac_rdp_print_job_free`, up to the wait for the thread. -/
def PrintJob.free (job : PrintJob) : PrintJob :=
  { job with inputFd := job.inputFd.close, freed := true }

/-! ## The output thread -/

/-- The end of `guac_rdp_print_job_wait_for_ack`, which reports whether there was an ack. -/
def waitForAck : PrintJobState → PrintJobState × Bool
  | .ackReceived => (.waitingForAck, true)
  | state => (state, false)

/-- The thread goes on after a wait. -/
def PrintJob.afterWait (job : PrintJob) (output : List UInt8) : PrintJob :=
  let (state, gotAck) := waitForAck job.state
  { job with state, thread := if gotAck then .sending output else .ending }

/-- Output is read, or there is none: at the end of the data, or when reading fails. -/
def PrintJob.readOutput (job : PrintJob) (output : List UInt8) : PrintJob :=
  match job.thread with
  | .reading =>
      { job with
        outputFd := job.outputFd.use
        thread := if output = [] then .ending else .testing (output.take 6048) }
  | _ => job

/-- The thread enters `guac_rdp_print_job_wait_for_ack`, and is suspended if there is no ack. -/
def PrintJob.enterWait (job : PrintJob) : PrintJob :=
  match job.thread with
  | .testing output =>
      if job.state = .waitingForAck then { job with thread := .waiting output }
      else job.afterWait output
  | _ => job

/-- `pthread_cond_wait` returns, be it for a signal or for nothing. -/
def PrintJob.wake (job : PrintJob) : PrintJob :=
  match job.thread with
  | .waiting output => job.afterWait output
  | _ => job

/-- The blob is sent. -/
def PrintJob.sendOutput (job : PrintJob) (user : Bool) : PrintJob :=
  match job.thread with
  | .sending output => { job.sendBlob user output with thread := .reading }
  | _ => job

/-- The stream is ended. -/
def PrintJob.finishOutput (job : PrintJob) (user : Bool) : PrintJob :=
  match job.thread with
  | .ending => { job.endStream user with thread := .closing }
  | _ => job

/-- The descriptors are closed at the end of `guac_rdp_print_job_output_thread`. -/
def PrintJob.closeAll (job : PrintJob) : PrintJob :=
  match job.thread with
  | .closing =>
      { job with
        inputFd := job.inputFd.close
        outputFd := job.outputFd.close
        thread := .finished }
  | _ => job

/-! ## Runs -/

/-- What happens to a job. Where the user may be gone, it is said whether they are there. -/
inductive PrintEvent
  | write (buffer : List UInt8) (user : Bool)
  | ack (success : Bool)
  | kill
  | free
  | readOutput (output : List UInt8)
  | enterWait
  | wake
  | sendOutput (user : Bool)
  | finishOutput (user : Bool)
  | closeAll
  deriving DecidableEq, Repr

/-- One step of a run. Nothing happens to a job that has been released, and no ack arrives for a
stream that has been freed. -/
def printStep (job : PrintJob) (event : PrintEvent) : PrintJob :=
  if job.released then job
  else match event with
    | .write buffer user => job.write buffer user
    | .ack success => if job.streamFreed then job else job.filterAck success
    | .kill => job.kill
    | .free => job.free
    | .readOutput output => job.readOutput output
    | .enterWait => job.enterWait
    | .wake => job.wake
    | .sendOutput user => job.sendOutput user
    | .finishOutput user => job.finishOutput user
    | .closeAll => job.closeAll

@[simp] theorem PrintJob.write_thread (job : PrintJob) (buffer : List UInt8) (user : Bool) :
    (job.write buffer user).thread = job.thread := by
  simp only [PrintJob.write]
  split
  · cases user <;> rfl
  · rfl

@[simp] theorem PrintJob.filterAck_thread (job : PrintJob) (success : Bool) :
    (job.filterAck success).thread = job.thread := by
  cases success <;> rfl

/-! ## Descriptors -/

/-- Both descriptors have been closed at most once, and not used after that. -/
def DescriptorsSafe (job : PrintJob) : Prop := job.inputFd.Safe ∧ job.outputFd.Safe

instance (job : PrintJob) : Decidable (DescriptorsSafe job) := inferInstanceAs (Decidable (_ ∧ _))

/-- None of the parties that close descriptors has done so: the job has neither been killed nor
freed, and its thread has not finished. -/
def Unclosed (job : PrintJob) : Prop :=
  job.filterKilled = false ∧ job.freed = false ∧ job.thread ≠ .finished

/-- Only one party closes descriptors, once, and they are not used after that: what closes or uses
them comes while none of the parties has closed any. The thread still reads after the job was
freed, but not after it was killed. -/
def OneCloser (job : PrintJob) : PrintEvent → Prop
  | .write _ user => Unclosed job ∧ (job.bytesReceived = 0 → user)
  | .ack success => success ∨ job.streamFreed ∨ Unclosed job
  | .kill => Unclosed job
  | .free => Unclosed job
  | .readOutput _ => job.thread = .reading → job.filterKilled = false
  | .enterWait => True
  | .wake => True
  | .sendOutput user => (∃ output, job.thread = .sending output) → user ∨ Unclosed job
  | .finishOutput user => job.thread = .ending → user ∨ Unclosed job
  | .closeAll => job.thread = .closing → Unclosed job

/-- The descriptors are closed when one of the parties that close them has done so, and the one for
input is closed twice when the job is released. -/
structure ClosedBy (job : PrintJob) : Prop where
  input_iff : Unclosed job ↔ job.inputFd.closes = 0
  output_iff : (job.filterKilled = false ∧ job.thread ≠ .finished) ↔ job.outputFd.closes = 0
  released : job.released = true → 2 ≤ job.inputFd.closes

/-- A job whose descriptors are as before, and whose parties have closed as many. -/
structure SameClosers (before after : PrintJob) : Prop where
  filterKilled : after.filterKilled = before.filterKilled
  freed : after.freed = before.freed
  finished : after.thread = .finished ↔ before.thread = .finished
  input : after.inputFd.closes = before.inputFd.closes
  output : after.outputFd.closes = before.outputFd.closes

theorem ClosedBy.unchanged {before after : PrintJob} (closed : ClosedBy before)
    (same : SameClosers before after) : ClosedBy after where
  input_iff := by
    rw [same.input, ← closed.input_iff]
    simp only [Unclosed, same.filterKilled, same.freed, ne_eq, same.finished]
  output_iff := by
    rw [same.output, ← closed.output_iff]
    simp only [same.filterKilled, ne_eq, same.finished]
  released := by
    have twice := closed.released
    simpa [PrintJob.released, same.freed, same.finished, same.input] using twice

theorem PrintJob.kill_closedBy (job : PrintJob) (closed : ClosedBy job) : ClosedBy job.kill where
  input_iff := by simp [Unclosed, PrintJob.kill, Resource.close]
  output_iff := by simp [PrintJob.kill, Resource.close]
  released := fun released => Nat.le_succ_of_le (closed.released released)

section Operations

variable {job : PrintJob} (closed : ClosedBy job)
include closed

theorem ClosedBy.write (buffer : List UInt8) (user : Bool) : ClosedBy (job.write buffer user) := by
  unfold PrintJob.write
  split
  case isFalse => exact closed.unchanged ⟨rfl, rfl, Iff.rfl, rfl, rfl⟩
  case isTrue =>
    cases user with
    | true => exact closed.unchanged ⟨rfl, rfl, Iff.rfl, rfl, rfl⟩
    | false => exact (job.kill_closedBy closed).unchanged ⟨rfl, rfl, Iff.rfl, rfl, rfl⟩

theorem ClosedBy.free : ClosedBy job.free where
  input_iff := by simp [Unclosed, PrintJob.free, Resource.close]
  output_iff := closed.output_iff
  released := fun released => by
    have finished : job.thread = .finished := of_decide_eq_true released
    have before : job.inputFd.closes ≠ 0 := fun zero => (closed.input_iff.mpr zero).2.2 finished
    simp only [PrintJob.free, Resource.close]
    omega

theorem ClosedBy.filterAck (success : Bool) : ClosedBy (job.filterAck success) := by
  cases success with
  | true => exact closed.unchanged ⟨rfl, rfl, Iff.rfl, rfl, rfl⟩
  | false => exact job.kill_closedBy closed

/-- The thread moves on, and has not finished before or after. -/
theorem ClosedBy.thread {next : PrintJob} (running : job.thread ≠ .finished)
    (stays : next.thread ≠ .finished) (filterKilled : next.filterKilled = job.filterKilled)
    (freed : next.freed = job.freed) (input : next.inputFd = job.inputFd)
    (output : next.outputFd.closes = job.outputFd.closes) : ClosedBy next :=
  closed.unchanged ⟨filterKilled, freed, iff_of_false stays running, by rw [input], output⟩

theorem ClosedBy.afterWait {output : List UInt8} (running : job.thread ≠ .finished) :
    ClosedBy (job.afterWait output) := by
  refine closed.thread running ?_ rfl rfl rfl rfl
  simp only [PrintJob.afterWait]
  split <;> simp

theorem ClosedBy.readOutput (output : List UInt8) : ClosedBy (job.readOutput output) := by
  unfold PrintJob.readOutput
  split
  case h_1 at_read =>
    refine closed.thread (by simp [at_read]) ?_ rfl rfl rfl rfl
    split <;> simp
  case h_2 => exact closed

theorem ClosedBy.enterWait : ClosedBy job.enterWait := by
  unfold PrintJob.enterWait
  split
  case h_1 output testing =>
    split
    · exact closed.thread (by simp [testing]) (by simp) rfl rfl rfl rfl
    · exact closed.afterWait (by simp [testing])
  case h_2 => exact closed

theorem ClosedBy.wake : ClosedBy job.wake := by
  unfold PrintJob.wake
  split
  case h_1 output waiting => exact closed.afterWait (by simp [waiting])
  case h_2 => exact closed

theorem ClosedBy.sendOutput (user : Bool) : ClosedBy (job.sendOutput user) := by
  unfold PrintJob.sendOutput
  split
  case h_1 output sending =>
    cases user with
    | true => exact closed.thread (by simp [sending]) (by simp) rfl rfl rfl rfl
    | false =>
        exact (job.kill_closedBy closed).thread (by simp [PrintJob.kill, sending]) (by simp) rfl rfl
          rfl rfl
  case h_2 => exact closed

theorem ClosedBy.finishOutput (user : Bool) : ClosedBy (job.finishOutput user) := by
  unfold PrintJob.finishOutput
  split
  case h_1 ending =>
    cases user with
    | true => exact closed.thread (by simp [ending]) (by simp) rfl rfl rfl rfl
    | false =>
        exact (job.kill_closedBy closed).thread (by simp [PrintJob.kill, ending]) (by simp) rfl rfl
          rfl rfl
  case h_2 => exact closed

theorem ClosedBy.closeAll : ClosedBy job.closeAll := by
  unfold PrintJob.closeAll
  split
  case h_1 closing =>
    refine ⟨by simp [Unclosed, Resource.close], by simp [Resource.close], fun released => ?_⟩
    have freed : job.freed = true := by simpa [PrintJob.released] using released
    have before : job.inputFd.closes ≠ 0 := fun zero => by
      simp [(closed.input_iff.mpr zero).2.1] at freed
    simp only [Resource.close]
    omega
  case h_2 => exact closed

theorem ClosedBy.step (event : PrintEvent) : ClosedBy (printStep job event) := by
  unfold printStep
  split
  · exact closed
  · cases event with
    | write buffer user => exact closed.write buffer user
    | ack success =>
        cases freed : job.streamFreed with
        | true => simpa [freed] using closed
        | false => simpa [freed] using closed.filterAck success
    | kill => exact job.kill_closedBy closed
    | free => exact closed.free
    | readOutput output => exact closed.readOutput output
    | enterWait => exact closed.enterWait
    | wake => exact closed.wake
    | sendOutput user => exact closed.sendOutput user
    | finishOutput user => exact closed.finishOutput user
    | closeAll => exact closed.closeAll

end Operations

/-! ## Safety of a step -/

theorem DescriptorsSafe.enterWait {job : PrintJob} (safe : DescriptorsSafe job) :
    DescriptorsSafe job.enterWait := by
  unfold PrintJob.enterWait
  split
  · split <;> exact safe
  · exact safe

theorem DescriptorsSafe.wake {job : PrintJob} (safe : DescriptorsSafe job) :
    DescriptorsSafe job.wake := by
  unfold PrintJob.wake
  split <;> exact safe

section Safety

variable {job : PrintJob} (closed : ClosedBy job) (safe : DescriptorsSafe job)
include closed safe

theorem ClosedBy.not_released : job.released = false := by
  cases released : job.released with
  | false => rfl
  | true =>
      have twice := closed.released released
      have once := safe.1.1
      omega

theorem ClosedBy.kill_safe_iff : DescriptorsSafe job.kill ↔ Unclosed job := by
  have both : DescriptorsSafe job.kill ↔ job.inputFd.closes = 0 ∧ job.outputFd.closes = 0 :=
    and_congr (Resource.close_safe_iff safe.1) (Resource.close_safe_iff safe.2)
  rw [both, ← closed.input_iff, ← closed.output_iff]
  exact ⟨And.left, fun unclosed => ⟨unclosed, unclosed.1, unclosed.2.2⟩⟩

theorem ClosedBy.write_safe_iff (buffer : List UInt8) (user : Bool) :
    DescriptorsSafe (job.write buffer user) ↔
      Unclosed job ∧ (job.bytesReceived = 0 → user = true) := by
  have used : job.inputFd.use.Safe ∧ job.outputFd.Safe ↔ Unclosed job := by
    rw [Resource.use_safe_iff safe.1, ← closed.input_iff]
    exact and_iff_left safe.2
  unfold PrintJob.write
  split
  case isFalse started => simpa [DescriptorsSafe, started] using used
  case isTrue first =>
    cases user with
    | true => simpa [DescriptorsSafe, PrintJob.beginStream] using used
    | false =>
        -- The job is killed before anything is written.
        simp [DescriptorsSafe, PrintJob.beginStream, PrintJob.kill, Resource.close,
          Resource.use, Resource.Safe, first]

theorem ClosedBy.free_safe_iff : DescriptorsSafe job.free ↔ Unclosed job := by
  have input : DescriptorsSafe job.free ↔ job.inputFd.close.Safe := and_iff_left safe.2
  rw [input, Resource.close_safe_iff safe.1, closed.input_iff]

theorem ClosedBy.readOutput_safe_iff (output : List UInt8) :
    DescriptorsSafe (job.readOutput output) ↔
      (job.thread = .reading → job.filterKilled = false) := by
  unfold PrintJob.readOutput
  split
  case h_1 reading =>
    have used : job.inputFd.Safe ∧ job.outputFd.use.Safe ↔ job.filterKilled = false := by
      rw [Resource.use_safe_iff safe.2, ← closed.output_iff]
      simp [safe.1, reading]
    simpa [DescriptorsSafe, reading] using used
  case h_2 elsewhere => exact iff_of_true safe fun reading => absurd reading elsewhere

theorem ClosedBy.sendOutput_safe_iff (user : Bool) :
    DescriptorsSafe (job.sendOutput user) ↔
      ((∃ output, job.thread = .sending output) → user = true ∨ Unclosed job) := by
  unfold PrintJob.sendOutput
  split
  case h_1 output sending =>
    cases user with
    | true => exact iff_of_true safe fun _ => .inl rfl
    | false =>
        have killed := closed.kill_safe_iff safe
        simpa [DescriptorsSafe, PrintJob.sendBlob, sending] using killed
  case h_2 elsewhere =>
    exact iff_of_true safe fun ⟨output, sending⟩ => absurd sending (elsewhere output)

theorem ClosedBy.finishOutput_safe_iff (user : Bool) :
    DescriptorsSafe (job.finishOutput user) ↔
      (job.thread = .ending → user = true ∨ Unclosed job) := by
  unfold PrintJob.finishOutput
  split
  case h_1 ending =>
    cases user with
    | true => exact iff_of_true safe fun _ => .inl rfl
    | false =>
        have killed := closed.kill_safe_iff safe
        simpa [DescriptorsSafe, PrintJob.endStream, ending] using killed
  case h_2 elsewhere => exact iff_of_true safe fun ending => absurd ending elsewhere

theorem ClosedBy.closeAll_safe_iff :
    DescriptorsSafe job.closeAll ↔ (job.thread = .closing → Unclosed job) := by
  unfold PrintJob.closeAll
  split
  case h_1 closing =>
    have killed := closed.kill_safe_iff safe
    simpa [DescriptorsSafe, PrintJob.kill, closing] using killed
  case h_2 elsewhere => exact iff_of_true safe fun closing => absurd closing elsewhere

/-- A step keeps the descriptors safe if and only if it leaves the closing to one party. -/
theorem ClosedBy.step_safe_iff (event : PrintEvent) :
    DescriptorsSafe (printStep job event) ↔ OneCloser job event := by
  unfold printStep
  rw [if_neg (by simp [closed.not_released safe])]
  cases event with
  | write buffer user => exact closed.write_safe_iff safe buffer user
  | ack success =>
      cases freed : job.streamFreed with
      | true => simp [OneCloser, freed, safe]
      | false =>
          cases success with
          | true => exact iff_of_true safe (.inl rfl)
          | false =>
              have killed := closed.kill_safe_iff safe
              simpa [OneCloser, freed, PrintJob.filterAck] using killed
  | kill => exact closed.kill_safe_iff safe
  | free => exact closed.free_safe_iff safe
  | readOutput output => exact closed.readOutput_safe_iff safe output
  | enterWait => exact iff_of_true safe.enterWait trivial
  | wake => exact iff_of_true safe.wake trivial
  | sendOutput user => exact closed.sendOutput_safe_iff safe user
  | finishOutput user => exact closed.finishOutput_safe_iff safe user
  | closeAll => exact closed.closeAll_safe_iff safe

end Safety

/-- The descriptors of a job are closed at most once, and not used after that, exactly in the runs
in which only one party closes them. -/
theorem descriptorsSafe_iff (events : List PrintEvent) :
    Always printStep DescriptorsSafe {} events ↔ Guarded printStep OneCloser {} events :=
  always_iff_guarded (by decide : DescriptorsSafe {})
    (⟨by simp [Unclosed], by simp, by simp [PrintJob.released]⟩ : ClosedBy {})
    (fun _ event closed _ _ => closed.step event)
    (fun _ event closed safe => closed.step_safe_iff safe event)

/-- A document is written, acknowledged and complete: the job is freed, which closes the input, and
the thread reaches the end of the data and closes it again. -/
theorem descriptors_closed_twice :
    ¬ Always printStep DescriptorsSafe {}
      [.write [0x25] true, .ack true, .free, .readOutput [0x25], .enterWait, .sendOutput true,
        .readOutput [], .finishOutput true, .closeAll] := by
  intro always
  exact absurd always.last (by decide)

end GuacNebula.Rdp
