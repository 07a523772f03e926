import GuacNebula.Lib.Audience
import Mathlib.Tactic.SplitIfs

/-! # Pipes of static virtual channels

Every static channel that is connected has a pipe, through which users receive what the server
writes to the channel, and write to it themselves. Users choose a pipe by the name of its channel,
and a pipe is removed by that name, too. Channels are opened under different names, which makes this
the pipe of the channel that is gone.

An inbound stream refers to the pipe that its user has chosen, and still does after the pipe is
freed.
-/

namespace GuacNebula.Rdp

/-- `guac_rdp_pipe_svc`: a channel and the stream of its output. -/
structure PipeSvc (Channel : Type) where
  svc : Channel
  outputPipe : Nat
  deriving DecidableEq, Repr

/-- A pipe that a user has been told of, or data that they have received on one. -/
inductive PipeMessage where
  | pipe (stream : Nat) (name : List UInt8)
  | blob (stream : Nat) (data : List UInt8)
  deriving DecidableEq, Repr

/-- How an inbound pipe or a blob is acknowledged. -/
inductive PipeAck where
  | noSuchPipe | dataReceived
  deriving DecidableEq, Repr

/-- The channels of a connection and its users. `available` are the addresses in `available_svc`,
`memory` the pipes that are allocated, `data` those that channels refer to, and `inbound` those that
the streams of users refer to. What users have received is listed with the latest first, as is what
has been written to the channels. -/
structure PipeSession (User Stream Channel : Type) where
  available : List Nat
  memory : Nat → Option (PipeSvc Channel)
  data : Channel → Option Nat
  inbound : Stream → Option Nat
  audience : Audience User (List PipeMessage)
  written : List (Channel × List UInt8)
  acks : List (Stream × PipeAck)

section Functions

variable {User Stream Channel : Type}

/-- The first pipe in a list whose channel has the given name, if all that are looked at are
allocated. -/
def findPipe (name : Channel → List UInt8) (memory : Nat → Option (PipeSvc Channel))
    (wanted : List UInt8) : List Nat → Option (Option Nat)
  | [] => some none
  | address :: rest =>
      (memory address).bind fun pipe =>
        if name pipe.svc = wanted then some (some address) else findPipe name memory wanted rest

namespace PipeSession

variable (name : Channel → List UInt8) (session : PipeSession User Stream Channel)

/-- `guac_rdp_pipe_svc_get`. -/
def get (wanted : List UInt8) : Option (Option Nat) :=
  findPipe name session.memory wanted session.available

/-- `guac_rdp_pipe_svc_remove`. -/
def remove (wanted : List UInt8) : Option (PipeSession User Stream Channel) :=
  (session.get name wanted).map fun
    | none => session
    | some address => { session with available := session.available.erase address }

/-- `guac_rdp_pipe_svc_send_pipes`. -/
def sendPipes : Option (List PipeMessage) :=
  session.available.mapM fun address =>
    (session.memory address).map fun pipe => .pipe pipe.outputPipe (name pipe.svc)

variable [DecidableEq Channel]

/-- `guac_rdp_pipe_svc_process_connect`, where a pipe is allocated at the given address with the
given stream. -/
def processConnect (svc : Channel) (address outputPipe : Nat) :
    PipeSession User Stream Channel :=
  { session with
    memory := Function.update session.memory address (some ⟨svc, outputPipe⟩)
    data := Function.update session.data svc (some address)
    available := address :: session.available
    audience := session.audience.toAll (.pipe outputPipe (name svc) :: ·) }

/-- `guac_rdp_pipe_svc_process_receive`. -/
def processReceive (svc : Channel) (block : List UInt8) :
    Option (PipeSession User Stream Channel) :=
  ((session.data svc).bind session.memory).map fun pipe =>
    { session with audience := session.audience.toAll (.blob pipe.outputPipe block :: ·) }

/-- `guac_rdp_pipe_svc_process_terminate`, behind which the channel is freed. -/
def processTerminate (svc : Channel) : Option (PipeSession User Stream Channel) :=
  match session.data svc with
  | none => some session
  | some address =>
      (session.remove name (name svc)).map fun session =>
        { session with
          memory := Function.update session.memory address none
          data := Function.update session.data svc none }

variable [DecidableEq Stream]

/-- `guac_rdp_pipe_svc_pipe_handler`. -/
def pipeHandler (stream : Stream) (wanted : List UInt8) :
    Option (PipeSession User Stream Channel) :=
  (session.get name wanted).map fun
    | none => { session with acks := (stream, .noSuchPipe) :: session.acks }
    | some address => { session with inbound := Function.update session.inbound stream (some address) }

/-- `guac_rdp_pipe_svc_blob_handler`, with `guac_rdp_common_svc_write`, which drops the data of a
channel that is not open. -/
def blobHandler (opened : Channel → Bool) (stream : Stream) (blob : List UInt8) :
    Option (PipeSession User Stream Channel) :=
  match session.inbound stream with
  | none => some session
  | some address =>
      (session.memory address).map fun pipe =>
        { session with
          written :=
            if opened pipe.svc then (pipe.svc, blob) :: session.written else session.written
          acks := (stream, .dataReceived) :: session.acks }

end PipeSession

end Functions

/-- Something that users or channels do. -/
inductive PipeAction (User Stream Channel : Type) where
  | connect (svc : Channel) (address outputPipe : Nat)
  | receive (svc : Channel) (block : List UInt8)
  | terminate (svc : Channel)
  | join (user : User)
  | leave (user : User)
  | pipe (stream : Stream) (wanted : List UInt8)
  | blob (stream : Stream) (data : List UInt8)

variable {User Stream Channel : Type}

/-- The effect of an action, unless it accesses a pipe that is not allocated. -/
def pipeStep [DecidableEq User] [DecidableEq Stream] [DecidableEq Channel]
    (name : Channel → List UInt8) (opened : Channel → Bool)
    (session : PipeSession User Stream Channel) :
    PipeAction User Stream Channel → Option (PipeSession User Stream Channel)
  | .connect svc address outputPipe => some (session.processConnect name svc address outputPipe)
  | .receive svc block => session.processReceive svc block
  | .terminate svc => session.processTerminate name svc
  | .join user =>
      (session.sendPipes name).map fun pipes =>
        { session with audience := session.audience.join user pipes }
  | .leave user => some { session with audience := session.audience.leave user }
  | .pipe stream wanted => session.pipeHandler name stream wanted
  | .blob stream blob => session.blobHandler opened stream blob

/-- Channels are connected once and under names that no other one has, where nothing is allocated,
and only connected ones receive. Users write to pipes that have not been freed. -/
def PipeAction.Valid (name : Channel → List UInt8) (session : PipeSession User Stream Channel) :
    PipeAction User Stream Channel → Prop
  | .connect svc address _ =>
      session.memory address = none ∧
        ∀ other, session.data other ≠ none → name other ≠ name svc
  | .receive svc _ => session.data svc ≠ none
  | .blob stream _ => ∀ address ∈ session.inbound stream, session.memory address ≠ none
  | _ => True

/-- A run of actions that are valid, each in the state in which it is taken. -/
def PipesValid [DecidableEq User] [DecidableEq Stream] [DecidableEq Channel]
    (name : Channel → List UInt8) (opened : Channel → Bool) :
    PipeSession User Stream Channel → List (PipeAction User Stream Channel) → Prop
  | _, [] => True
  | session, action :: actions =>
      action.Valid name session ∧
        ∀ after ∈ pipeStep name opened session action, PipesValid name opened after actions

theorem PipesValid.cons [DecidableEq User] [DecidableEq Stream] [DecidableEq Channel]
    {name : Channel → List UInt8} {opened : Channel → Bool}
    {session after : PipeSession User Stream Channel} {action : PipeAction User Stream Channel}
    {actions : List (PipeAction User Stream Channel)} (valid : action.Valid name session)
    (stepped : pipeStep name opened session action = some after)
    (rest : PipesValid name opened after actions) :
    PipesValid name opened session (action :: actions) :=
  ⟨valid, fun _ found => Option.some.inj (stepped.symm.trans found) ▸ rest⟩

/-- No channel has been connected. -/
def PipeSession.start : PipeSession User Stream Channel where
  available := []
  memory _ := none
  data _ := none
  inbound _ := none
  audience := .empty []
  written := []
  acks := []

/-- The pipes that are available are those of the channels that are connected, which have different
names, and every user who is present has been told of them. -/
structure PipeSession.Registered (name : Channel → List UInt8)
    (session : PipeSession User Stream Channel) : Prop where
  nodup : session.available.Nodup
  available : ∀ address, address ∈ session.available ↔
    ∃ pipe, session.memory address = some pipe ∧ session.data pipe.svc = some address
  connected : ∀ svc address, session.data svc = some address →
    ∃ outputPipe, session.memory address = some ⟨svc, outputPipe⟩
  different : ∀ first second, session.data first ≠ none → session.data second ≠ none →
    name first = name second → first = second
  told : session.audience.Sees fun _ messages => ∀ svc address outputPipe,
    session.data svc = some address → session.memory address = some ⟨svc, outputPipe⟩ →
      .pipe outputPipe (name svc) ∈ messages

/-! ## The list -/

/-- Among pipes that are allocated, one is found exactly if there is one with the name. -/
theorem findPipe_spec {name : Channel → List UInt8} {memory : Nat → Option (PipeSvc Channel)}
    (wanted : List UInt8) {addresses : List Nat}
    (allocated : ∀ address ∈ addresses, ∃ pipe, memory address = some pipe) :
    ∃ found, findPipe name memory wanted addresses = some found ∧
      (∀ address, found = some address → address ∈ addresses ∧
        ∃ pipe, memory address = some pipe ∧ name pipe.svc = wanted) ∧
      (found = none → ∀ address ∈ addresses, ∀ pipe, memory address = some pipe →
        name pipe.svc ≠ wanted) := by
  induction addresses with
  | nil => exact ⟨none, rfl, nofun, fun _ _ none => absurd none List.not_mem_nil⟩
  | cons first rest ih =>
      obtain ⟨pipe, here⟩ := allocated first (List.mem_cons_self ..)
      obtain ⟨found, searched, hit, miss⟩ :=
        ih fun address member => allocated address (List.mem_cons_of_mem _ member)
      unfold findPipe
      rw [here, Option.bind_some]
      by_cases named : name pipe.svc = wanted
      · rw [if_pos named]
        refine ⟨some first, rfl, fun address same => ?_, nofun⟩
        obtain rfl := Option.some.inj same
        exact ⟨List.mem_cons_self .., pipe, here, named⟩
      · rw [if_neg named]
        refine ⟨found, searched, fun address same => ?_, fun same address member => ?_⟩
        · obtain ⟨member, rest⟩ := hit address same
          exact ⟨List.mem_cons_of_mem _ member, rest⟩
        · rcases List.mem_cons.mp member with rfl | later
          · exact fun other found => Option.some.inj (here.symm.trans found) ▸ named
          · exact miss same address later

namespace PipeSession.Registered

variable {name : Channel → List UInt8} {session after : PipeSession User Stream Channel}

/-- The pipe with a name is that of the channel which is connected under it, if one is. -/
theorem get (registered : session.Registered name) (wanted : List UInt8) :
    ∃ found, session.get name wanted = some found ∧
      ∀ address, found = some address ↔
        ∃ svc, session.data svc = some address ∧ name svc = wanted := by
  have present : ∀ address ∈ session.available, ∃ pipe, session.memory address = some pipe := by
    intro address member
    obtain ⟨pipe, allocated, -⟩ := (registered.available address).mp member
    exact ⟨pipe, allocated⟩
  obtain ⟨found, searched, hit, miss⟩ := @findPipe_spec _ name _ wanted _ present
  refine ⟨found, searched, fun address => ⟨fun same => ?_, ?_⟩⟩
  · obtain ⟨member, pipe, allocated, named⟩ := hit address same
    obtain ⟨other, again, data⟩ := (registered.available address).mp member
    obtain rfl := Option.some.inj (allocated.symm.trans again)
    exact ⟨pipe.svc, data, named⟩
  · rintro ⟨svc, data, named⟩
    obtain ⟨outputPipe, allocated⟩ := registered.connected svc address data
    have member : address ∈ session.available :=
      (registered.available address).mpr ⟨_, allocated, data⟩
    cases found with
    | none => exact absurd named (miss rfl address member _ allocated)
    | some first =>
        obtain ⟨listed, pipe, present, same⟩ := hit first rfl
        obtain ⟨other, again, link⟩ := (registered.available first).mp listed
        obtain rfl := Option.some.inj (present.symm.trans again)
        obtain rfl := registered.different pipe.svc svc (by rw [link]; exact Option.some_ne_none _)
          (by rw [data]; exact Option.some_ne_none _) (same.trans named.symm)
        exact link.symm.trans data

theorem start : (start : PipeSession User Stream Channel).Registered name where
  nodup := List.nodup_nil
  available _ := iff_of_false List.not_mem_nil fun ⟨_, missing, _⟩ => nomatch missing
  connected _ _ none := nomatch none
  different _ _ connected := absurd rfl connected
  told := Audience.empty_sees _

/-- What is sent to a user who joins tells them of all pipes. -/
theorem sendPipes (registered : session.Registered name) :
    ∃ pipes, session.sendPipes name = some pipes ∧ ∀ svc address outputPipe,
      session.data svc = some address → session.memory address = some ⟨svc, outputPipe⟩ →
        .pipe outputPipe (name svc) ∈ pipes := by
  have every (addresses : List Nat)
      (allocated : ∀ address ∈ addresses, ∃ pipe, session.memory address = some pipe) :
      ∃ pipes, (addresses.mapM fun address =>
          (session.memory address).map fun pipe =>
            PipeMessage.pipe pipe.outputPipe (name pipe.svc)) = some pipes ∧
        ∀ address ∈ addresses, ∀ pipe, session.memory address = some pipe →
          .pipe pipe.outputPipe (name pipe.svc) ∈ pipes := by
    induction addresses with
    | nil => exact ⟨[], rfl, fun _ none => absurd none List.not_mem_nil⟩
    | cons first rest ih =>
        obtain ⟨pipe, here⟩ := allocated first (List.mem_cons_self ..)
        obtain ⟨pipes, mapped, all⟩ :=
          ih fun address member => allocated address (List.mem_cons_of_mem _ member)
        refine ⟨_, by rw [List.mapM_cons, here, mapped]; rfl, fun address member other found => ?_⟩
        rcases List.mem_cons.mp member with rfl | later
        · obtain rfl := Option.some.inj (here.symm.trans found)
          exact List.mem_cons_self ..
        · exact List.mem_cons_of_mem _ (all address later other found)
  obtain ⟨pipes, sent, all⟩ := every session.available fun address member =>
    let ⟨pipe, allocated, _⟩ := (registered.available address).mp member
    ⟨pipe, allocated⟩
  refine ⟨pipes, sent, fun svc address outputPipe data allocated => ?_⟩
  exact all address ((registered.available address).mpr ⟨_, allocated, data⟩) _ allocated

/-- Data from a channel is sent on its own pipe. -/
theorem receive (registered : session.Registered name) {svc : Channel} (block : List UInt8)
    (connected : session.data svc ≠ none) :
    ∃ after, session.processReceive svc block = some after ∧ after.Registered name := by
  obtain ⟨address, data⟩ := Option.ne_none_iff_exists'.mp connected
  obtain ⟨stream, allocated⟩ := registered.connected svc address data
  unfold processReceive
  rw [data, Option.bind_some, allocated]
  refine ⟨_, rfl, { registered with told := ?_ }⟩
  dsimp only
  exact registered.told.toAll fun _ _ told other pointer output link present =>
    List.mem_cons_of_mem _ (told other pointer output link present)

section Channels

variable [DecidableEq Channel]

theorem connect (registered : session.Registered name) {svc : Channel} {address : Nat}
    (outputPipe : Nat) (fresh : session.memory address = none)
    (unused : ∀ other, session.data other ≠ none → name other ≠ name svc) :
    (session.processConnect name svc address outputPipe).Registered name := by
  have unconnected : session.data svc = none := by
    cases data : session.data svc with
    | none => rfl
    | some old => exact absurd rfl (unused svc (by rw [data]; exact Option.some_ne_none _))
  have apart : ∀ other pointer, session.data other = some pointer → pointer ≠ address := by
    rintro other pointer data rfl
    obtain ⟨_, allocated⟩ := registered.connected other pointer data
    exact Option.some_ne_none _ (allocated.symm.trans fresh)
  have unlisted : address ∉ session.available := by
    intro member
    obtain ⟨pipe, allocated, _⟩ := (registered.available address).mp member
    exact Option.some_ne_none _ (allocated.symm.trans fresh)
  unfold processConnect
  refine ⟨List.nodup_cons.mpr ⟨unlisted, registered.nodup⟩, fun other => ?_,
    fun other pointer data => ?_, fun first second one two same => ?_, ?_⟩
  · dsimp only
    by_cases new : other = address
    · subst new
      refine iff_of_true (List.mem_cons_self ..) ⟨⟨svc, outputPipe⟩, ?_, ?_⟩
      · exact Function.update_self ..
      · exact Function.update_self ..
    · rw [List.mem_cons, or_iff_right new, registered.available, Function.update_of_ne new]
      refine exists_congr fun pipe => and_congr_right fun allocated => ?_
      by_cases own : pipe.svc = svc
      · rw [own, Function.update_self, unconnected]
        exact iff_of_false nofun fun same => new (Option.some.inj same).symm
      · rw [Function.update_of_ne own]
  · dsimp only at data ⊢
    by_cases own : other = svc
    · subst own
      rw [Function.update_self] at data
      obtain rfl := Option.some.inj data
      exact ⟨outputPipe, Function.update_self ..⟩
    · rw [Function.update_of_ne own] at data
      rw [Function.update_of_ne (apart other pointer data)]
      exact registered.connected other pointer data
  · dsimp only at one two
    by_cases left : first = svc
    · by_cases right : second = svc
      · rw [left, right]
      · rw [Function.update_of_ne right] at two
        exact absurd (left ▸ same).symm (unused second two)
    · rw [Function.update_of_ne left] at one
      by_cases right : second = svc
      · exact absurd (right ▸ same) (unused first one)
      · rw [Function.update_of_ne right] at two
        exact registered.different first second one two same
  · dsimp only
    refine registered.told.toAll fun _ messages told other pointer stream data allocated => ?_
    by_cases own : other = svc
    · subst own
      rw [Function.update_self] at data
      obtain rfl := Option.some.inj data
      rw [Function.update_self] at allocated
      obtain rfl : outputPipe = stream := congrArg PipeSvc.outputPipe (Option.some.inj allocated)
      exact List.mem_cons_self ..
    · rw [Function.update_of_ne own] at data
      rw [Function.update_of_ne (apart other pointer data)] at allocated
      exact List.mem_cons_of_mem _ (told other pointer stream data allocated)

/-- Exactly the pipe of the channel that is terminated is removed. -/
theorem terminate (registered : session.Registered name) (svc : Channel) :
    ∃ after, session.processTerminate name svc = some after ∧ after.Registered name := by
  unfold processTerminate
  cases data : session.data svc with
  | none => exact ⟨session, rfl, registered⟩
  | some address =>
      obtain ⟨found, searched, only⟩ := registered.get (name svc)
      obtain rfl := (only address).mpr ⟨svc, data, rfl⟩
      obtain ⟨stream, allocated⟩ := registered.connected svc address data
      -- Another channel that is connected has another pipe.
      have apart : ∀ other pointer, other ≠ svc → session.data other = some pointer →
          pointer ≠ address := by
        rintro other pointer different link rfl
        obtain ⟨_, again⟩ := registered.connected other pointer link
        exact different (congrArg PipeSvc.svc (Option.some.inj (again.symm.trans allocated)))
      have gone : ∀ other, Function.update session.data svc none other ≠ none → other ≠ svc := by
        rintro other link rfl
        exact link (Function.update_self ..)
      unfold remove
      rw [searched]
      refine ⟨_, rfl, registered.nodup.erase _, fun other => ?_, fun other pointer link => ?_,
        fun first second one two same => ?_, ?_⟩
      · dsimp only
        by_cases own : other = address
        · subst own
          refine iff_of_false (registered.nodup.not_mem_erase) ?_
          rintro ⟨pipe, freed, -⟩
          rw [Function.update_self] at freed
          cases freed
        · rw [List.mem_erase_of_ne own, registered.available, Function.update_of_ne own]
          refine exists_congr fun pipe => and_congr_right fun present => ?_
          by_cases same : pipe.svc = svc
          · rw [same, Function.update_self, data]
            exact iff_of_false (fun link => own (Option.some.inj link).symm) nofun
          · rw [Function.update_of_ne same]
      · dsimp only at link ⊢
        have different := gone other (by rw [link]; exact Option.some_ne_none _)
        rw [Function.update_of_ne different] at link
        rw [Function.update_of_ne (apart other pointer different link)]
        exact registered.connected other pointer link
      · dsimp only at one two
        rw [Function.update_of_ne (gone first one)] at one
        rw [Function.update_of_ne (gone second two)] at two
        exact registered.different first second one two same
      · dsimp only
        refine registered.told.mono fun _ messages told other pointer output link present => ?_
        have different := gone other (by rw [link]; exact Option.some_ne_none _)
        rw [Function.update_of_ne different] at link
        rw [Function.update_of_ne (apart other pointer different link)] at present
        exact told other pointer output link present

variable [DecidableEq User] [DecidableEq Stream]

/-- An action that is valid accesses what is allocated only. -/
theorem step (registered : session.Registered name) (opened : Channel → Bool)
    {action : PipeAction User Stream Channel} (valid : action.Valid name session) :
    ∃ after, pipeStep name opened session action = some after ∧ after.Registered name := by
  cases action with
  | connect svc address outputPipe =>
      exact ⟨_, rfl, registered.connect outputPipe valid.1 valid.2⟩
  | receive svc block => exact registered.receive block valid
  | terminate svc => exact registered.terminate svc
  | join user =>
      obtain ⟨pipes, sent, told⟩ := registered.sendPipes
      unfold pipeStep
      rw [sent]
      exact ⟨_, rfl, { registered with told := registered.told.join told }⟩
  | leave user =>
      exact ⟨_, rfl, { registered with told := registered.told.leave user }⟩
  | pipe stream wanted =>
      obtain ⟨found, searched, -⟩ := registered.get wanted
      unfold pipeStep pipeHandler
      dsimp only
      rw [searched]
      cases found <;> exact ⟨_, rfl, { registered with }⟩
  | blob stream data =>
      unfold pipeStep blobHandler
      dsimp only
      cases inbound : session.inbound stream with
      | none => exact ⟨session, rfl, registered⟩
      | some address =>
          obtain ⟨pipe, allocated⟩ := Option.ne_none_iff_exists'.mp (valid address inbound)
          dsimp only
          rw [allocated]
          exact ⟨_, rfl, { registered with }⟩

end Channels

end PipeSession.Registered

/-! ## Runs -/

/-- A run of actions. -/
def pipeRun [DecidableEq User] [DecidableEq Stream] [DecidableEq Channel]
    (name : Channel → List UInt8) (opened : Channel → Bool)
    (session : PipeSession User Stream Channel) (actions : List (PipeAction User Stream Channel)) :
    Option (PipeSession User Stream Channel) :=
  actions.foldlM (pipeStep name opened) session

/-- The names of two channels that are 7 bytes long. -/
def sampleName : Bool → List UInt8
  | false => [0x43, 0x48, 0x41, 0x4E, 0x4E, 0x45, 0x4C]
  | true => [0x50, 0x52, 0x49, 0x4E, 0x54, 0x45, 0x52]

end GuacNebula.Rdp
