import GuacNebula.Lib.Run
import GuacNebula.Ssh.Session

/-! # What creating a session does

Whatever is answered, nothing of the user is disclosed before the key of the host has been accepted,
and then only what is meant to be. At no time there is more than one socket, and it is closed unless
a session is returned.
-/

namespace GuacNebula.Ssh

open Run Terminal

/-! ## The key of the host -/

section HostKey

variable (environment : SshEnvironment) (hostKey : Option (List UInt8))

/-- The key of the host matches a known one, or none is known. Then there was none in the settings
either. -/
def HostAccepted : Prop :=
  if hostKey = none ∨ hostKey = some [] then
    environment.readFile.getD 0 = 0 ∨
      0 < environment.readFile.getD 0 ∧ environment.check = knownHostMatch
  else 0 ≤ environment.readLine ∧ environment.check = knownHostMatch

theorem verifyHostKey_eq_zero_iff :
    verifyHostKey environment hostKey = 0 ↔ HostAccepted environment hostKey := by
  unfold verifyHostKey loadKnownHosts HostAccepted knownHostMatch
  dsimp only
  split_ifs <;> omega

end HostKey

/-! ## What is disclosed -/

/-- Something of the user is sent or asked for. -/
def SshEvent.Discloses : SshEvent → Prop
  | .prompted .. | .methodsListed _ | .keySent .. | .passwordSent _ | .promptAnswered _ => True
  | _ => False

/-- What may be disclosed of a user: the name, the private key, or without one the password. It is
asked for if it is missing. -/
def SshEvent.Permitted (credentialHandler : Bool) (user : SshUser) (input : List UInt8) :
    SshEvent → Prop
  | .prompted title _ =>
      title = bytesOf "Password: " ∧ credentialHandler = true ∧ user.privateKey = none ∧
        user.password = none
  | .methodsListed username => user.username = some username
  | .keySent key publicKey => user.privateKey = some key ∧ user.publicKey = publicKey
  | .passwordSent password | .promptAnswered password =>
      user.privateKey = none ∧
        (obtainPassword credentialHandler user.password input).1 = some password
  | _ => True

section Authentication

variable {environment : SshEnvironment} {authList : List UInt8}

theorem kbdCallback_eq {password : List UInt8} {prompts : List Nat} :
    ∀ event ∈ kbdCallback password prompts, event = .promptAnswered password := by
  intro event member
  obtain ⟨numPrompts, _, answered⟩ := List.mem_flatMap.mp member
  split at answered
  · exact List.mem_singleton.mp answered
  · exact absurd answered List.not_mem_nil

theorem authenticateKey_events {key : SshKey} {publicKey : Option (List UInt8)} :
    ∀ event ∈ (authenticateKey environment authList key publicKey).1,
      event = .keySent key publicKey ∨ ∃ status message, event = .aborted status message := by
  unfold authenticateKey
  intro event member
  split_ifs at member <;> simp only [List.mem_cons, List.not_mem_nil, or_false] at member
  · exact .inr ⟨_, _, member⟩
  · exact member.imp id fun aborted => ⟨_, _, aborted⟩
  · exact .inl member

theorem authenticatePassword_events {password : List UInt8} :
    ∀ event ∈ (authenticatePassword environment authList password).1,
      event = .passwordSent password ∨ event = .promptAnswered password ∨
        ∃ status message, event = .aborted status message := by
  unfold authenticatePassword
  intro event member
  split_ifs at member <;>
    simp only [List.mem_append, List.mem_cons, List.not_mem_nil, or_false] at member
  · exact member.imp id fun aborted => .inr ⟨_, _, aborted⟩
  · exact .inl member
  · rcases member with answered | aborted
    · exact .inr (.inl (kbdCallback_eq _ answered))
    · exact .inr (.inr ⟨_, _, aborted⟩)
  · exact .inr (.inl (kbdCallback_eq _ member))
  · exact .inr (.inr ⟨_, _, member⟩)

theorem authenticateAnyPassword_events {known : Option (List UInt8)} :
    ∀ event ∈ (authenticateAnyPassword environment authList known).1,
      (∃ password, known = some password ∧
        (event = .passwordSent password ∨ event = .promptAnswered password)) ∨
      ∃ status message, event = .aborted status message := by
  intro event member
  cases known with
  | none => exact .inr ⟨_, _, List.mem_singleton.mp member⟩
  | some password =>
      rcases authenticatePassword_events event member with sent | answered | aborted
      · exact .inl ⟨password, rfl, .inl sent⟩
      · exact .inl ⟨password, rfl, .inr answered⟩
      · exact .inr aborted

variable {credentialHandler : Bool} {user : SshUser} {input : List UInt8}

theorem obtainPassword_events {password : Option (List UInt8)} :
    ∀ event ∈ (obtainPassword credentialHandler password input).2.2,
      password = none ∧ credentialHandler = true ∧
        ∃ printed, event = .prompted (bytesOf "Password: ") printed := by
  intro event member
  cases password with
  | some password => cases member
  | none =>
      cases credentialHandler with
      | false => cases member
      | true => exact ⟨rfl, rfl, _, List.mem_singleton.mp member⟩

/-- Whatever the server supports, a user with a private key is not known by a password. -/
theorem authenticate_permitted :
    ∀ event ∈ (authenticate environment credentialHandler user input).events,
      event.Permitted credentialHandler user input := by
  intro event member
  unfold authenticate at member
  cases named : user.username with
  | none =>
      rw [named] at member
      obtain rfl := List.mem_singleton.mp member
      trivial
  | some username =>
      rw [named] at member
      cases listed : environment.authList with
      | none =>
          simp only [listed] at member
          obtain rfl := List.mem_singleton.mp member
          exact named
      | some authList =>
          simp only [listed] at member
          cases keyed : user.privateKey with
          | some key =>
              simp only [keyed] at member
              rcases List.mem_cons.mp member with rfl | sent
              · exact named
              · obtain rfl | ⟨status, message, rfl⟩ := authenticateKey_events event sent
                · exact ⟨keyed, rfl⟩
                · trivial
          | none =>
              simp only [keyed] at member
              rcases List.mem_append.mp member with first | tried
              · rcases List.mem_cons.mp first with rfl | asked
                · exact named
                · obtain ⟨missing, handled, printed, rfl⟩ := obtainPassword_events event asked
                  exact ⟨rfl, handled, keyed, missing⟩
              · obtain ⟨password, known, rfl | rfl⟩ | ⟨status, message, rfl⟩ :=
                  authenticateAnyPassword_events event tried
                · exact ⟨keyed, known⟩
                · exact ⟨keyed, known⟩
                · trivial

end Authentication

section Sessions

variable {environment : SshEnvironment} {credentialHandler : Bool} {user : SshUser}
  {input : List UInt8} {keepalive fd : Int} {hostKey : Option (List UInt8)}

theorem logIn_permitted :
    ∀ event ∈ (logIn environment credentialHandler user input keepalive fd).events,
      event.Permitted credentialHandler user input := by
  intro event member
  unfold logIn at member
  dsimp only at member
  split at member
  · rcases List.mem_append.mp member with authenticating | configured
    · exact authenticate_permitted event authenticating
    · obtain rfl := List.mem_singleton.mp configured
      trivial
  · rcases List.mem_append.mp member with authenticating | closing
    · exact authenticate_permitted event authenticating
    · simp only [List.mem_cons, List.not_mem_nil, or_false] at closing
      rcases closing with rfl | rfl <;> trivial

/-- Nothing is disclosed. -/
def Quiet (events : List SshEvent) : Prop := ∀ event ∈ events, ¬ event.Discloses

theorem Quiet.append {first second : List SshEvent} (left : Quiet first) (right : Quiet second) :
    Quiet (first ++ second) := by
  intro event member
  exact (List.mem_append.mp member).elim (left event) (right event)

variable (environment credentialHandler user input keepalive hostKey) in
/-- No session has been created and nothing has been disclosed, or the user logs in behind the
acceptance of the key. -/
def ChecksFirst (result : SessionResult) : Prop :=
  (∃ events, result = .failed user input events ∧ Quiet events) ∨
    (environment.remoteHostKey ≠ none ∧ HostAccepted environment hostKey) ∧
      ∃ quiet fd, Quiet quiet ∧ result =
        { logIn environment credentialHandler user input keepalive fd with
          events := quiet ++ .hostKeyVerified 0 ::
            (logIn environment credentialHandler user input keepalive fd).events }

theorem ChecksFirst.behind {result : SessionResult} {before : List SshEvent}
    (checks : ChecksFirst environment credentialHandler user input keepalive hostKey result)
    (quiet : Quiet before) :
    ChecksFirst environment credentialHandler user input keepalive hostKey
      { result with events := before ++ result.events } := by
  obtain ⟨events, rfl, none⟩ | ⟨accepted, events, fd, none, rfl⟩ := checks
  · exact .inl ⟨before ++ events, rfl, quiet.append none⟩
  · refine .inr ⟨accepted, before ++ events, fd, quiet.append none, ?_⟩
    rw [List.append_assoc]

theorem checkHost_checksFirst :
    ChecksFirst environment credentialHandler user input keepalive hostKey
      (checkHost environment credentialHandler user input keepalive hostKey fd) := by
  unfold checkHost
  cases remote : environment.remoteHostKey with
  | none => exact .inl ⟨_, rfl, by simp [Quiet, SshEvent.Discloses]⟩
  | some key =>
      dsimp only
      split_ifs with error mismatch
      · exact .inl ⟨_, rfl, by simp [Quiet, SshEvent.Discloses]⟩
      · exact .inl ⟨_, rfl, by simp [Quiet, SshEvent.Discloses]⟩
      · have zero : verifyHostKey environment hostKey = 0 := by omega
        have accepted := (verifyHostKey_eq_zero_iff environment hostKey).mp zero
        rw [zero]
        exact .inr ⟨⟨by rw [remote]; exact Option.some_ne_none _, accepted⟩, [], fd,
          nofun, rfl⟩

theorem openSession_checksFirst :
    ChecksFirst environment credentialHandler user input keepalive hostKey
      (openSession environment credentialHandler user input keepalive hostKey fd) := by
  unfold openSession
  have opened : Quiet ([.allocated, .sessionOpened] ++
      if environment.fipsEnabled then [.methodsPreferred] else []) := by
    split <;> simp [Quiet, SshEvent.Discloses]
  split
  · exact .inl ⟨_, rfl, by simp [Quiet, SshEvent.Discloses]⟩
  · dsimp only
    split
    · exact .inl ⟨_, rfl, opened.append (by simp [Quiet, SshEvent.Discloses])⟩
    · exact checkHost_checksFirst.behind opened

theorem connectAny_quiet (addresses : List SshAddress) : Quiet (connectAny addresses).1 := by
  induction addresses with
  | nil => exact nofun
  | cons address rest ih =>
      unfold connectAny
      split_ifs
      · simp [Quiet, SshEvent.Discloses]
      · simp [Quiet, SshEvent.Discloses]
      · have tried : Quiet [.socketOpened address.socket, .socketClosed address.socket] := by
          simp [Quiet, SshEvent.Discloses]
        exact tried.append ih

theorem createSession_checksFirst :
    ChecksFirst environment credentialHandler user input keepalive hostKey
      (createSession environment credentialHandler user input keepalive hostKey) := by
  unfold createSession
  cases environment.addresses with
  | none => exact .inl ⟨_, rfl, by simp [Quiet, SshEvent.Discloses]⟩
  | some addresses =>
      have quiet := connectAny_quiet addresses
      dsimp only
      cases (connectAny addresses).2 with
      | failed => exact .inl ⟨_, rfl, quiet⟩
      | exhausted => exact .inl ⟨_, rfl, quiet.append (by simp [Quiet, SshEvent.Discloses])⟩
      | connected fd => exact openSession_checksFirst.behind quiet

/-- Whatever the network, the server and the libraries answer: a credential is sent, and one is asked
for, behind the acceptance of the key of the host only. The key then matches the one that is given,
or if none is given one of the known ones, unless none is known. What is disclosed is the name, the
private key, or without one the password. -/
theorem credentials_follow_host_key (environment : SshEnvironment) (credentialHandler : Bool)
    (user : SshUser) (input : List UInt8) (keepalive : Int) (hostKey : Option (List UInt8))
    {before after : List SshEvent} {event : SshEvent}
    (done : (createSession environment credentialHandler user input keepalive hostKey).events =
      before ++ event :: after)
    (discloses : event.Discloses) :
    .hostKeyVerified 0 ∈ before ∧
      (environment.remoteHostKey ≠ none ∧ HostAccepted environment hostKey) ∧
      event.Permitted credentialHandler user input := by
  have checks : ChecksFirst environment credentialHandler user input keepalive hostKey _ :=
    createSession_checksFirst
  have member : event ∈ before ++ event :: after :=
    List.mem_append_right _ (List.mem_cons_self ..)
  rw [← done] at member
  obtain ⟨events, failed, quiet⟩ | ⟨accepted, quiet, fd, none, loggedIn⟩ := checks
  · rw [failed] at member
    exact absurd discloses (quiet event member)
  · rw [loggedIn] at done
    -- The event is not one of those before the key was accepted, nor is it the acceptance.
    obtain ⟨more, rfl, rest⟩ | ⟨more, rfl, rest⟩ := List.append_eq_append_iff.mp done
    · cases more with
      | nil =>
          obtain ⟨rfl, -⟩ := List.cons.inj rest
          exact absurd discloses id
      | cons accept more =>
          obtain ⟨rfl, behind⟩ := List.cons.inj rest
          have present : event ∈
              (logIn environment credentialHandler user input keepalive fd).events := by
            rw [behind]
            exact List.mem_append_right _ (List.mem_cons_self ..)
          exact ⟨List.mem_append_right _ (List.mem_cons_self ..), accepted,
            logIn_permitted event present⟩
    · cases more with
      | nil =>
          obtain ⟨rfl, -⟩ := List.cons.inj rest
          exact absurd discloses id
      | cons other more =>
          obtain ⟨rfl, -⟩ := List.cons.inj rest
          exact absurd discloses (none _ (List.mem_append_right _ (List.mem_cons_self ..)))

end Sessions

/-- A host whose second address accepts a connection, and whose key is the one that is given. -/
def sampleSshHost : SshEnvironment where
  addresses := some [⟨5, false⟩, ⟨5, true⟩]
  fipsEnabled := false
  sessionInit := true
  handshake := 0
  remoteHostKey := some [1]
  readLine := 0
  readFile := none
  check := knownHostMatch
  authList := some (bytesOf "password")
  publicKey := 0
  password := 0
  keyboardInteractive := 0
  prompts := []

/-- A password that has been asked for is sent. -/
theorem credentials_follow_host_key_password :
    SshEvent.hostKeyVerified 0 ∈ ([.socketOpened 5, .socketClosed 5, .socketOpened 5, .allocated,
        .sessionOpened, .hostKeyVerified 0, .methodsListed [0x75],
        .prompted (bytesOf "Password: ") [bytesOf "Password: ", [0x2A], [0x0D, 0x0A]]] :
        List SshEvent) ∧
      (sampleSshHost.remoteHostKey ≠ none ∧ HostAccepted sampleSshHost (some [1])) ∧
      (SshEvent.passwordSent [0x70]).Permitted true { username := some [0x75] } [0x70, 0x0D] :=
  @credentials_follow_host_key sampleSshHost true { username := some [0x75] } [0x70, 0x0D] 0
    (some [1]) _ [.keepaliveConfigured 0] _ (by decide +kernel) trivial

/-! ## What is held -/

/-- The sockets and the memory that are held, and how often the client has been aborted. -/
structure SshLedger where
  sockets : List Int := []
  memory : Int := 0
  aborts : Nat := 0

namespace SshLedger

/-- The effect of an event. -/
def record (ledger : SshLedger) : SshEvent → SshLedger
  | .socketOpened fd => { ledger with sockets := fd :: ledger.sockets }
  | .socketClosed fd => { ledger with sockets := ledger.sockets.erase fd }
  | .allocated => { ledger with memory := ledger.memory + 1 }
  | .freed => { ledger with memory := ledger.memory - 1 }
  | .aborted .. => { ledger with aborts := ledger.aborts + 1 }
  | _ => ledger

/-- One socket at most is open, and no memory is freed that is not allocated. -/
structure Modest (ledger : SshLedger) : Prop where
  sockets : ledger.sockets.length ≤ 1
  memory : 0 ≤ ledger.memory

/-- Events that lead from one ledger to another, through modest ones. -/
structure Leads (before : SshLedger) (events : List SshEvent) (after : SshLedger) : Prop where
  modest : Always record Modest before events
  reached : exec record before events = after

/-- The ledger after an attempt that aborts the client if it fails. -/
def attempted (ledger : SshLedger) (succeeded : Bool) : SshLedger :=
  if succeeded then ledger else { ledger with aborts := ledger.aborts + 1 }

/-- The ledger of a session that has been returned or not. -/
def ofSession (session : Option SshSession) : SshLedger where
  sockets := (session.map (·.fd)).toList
  memory := if session.isSome then 1 else 0
  aborts := if session.isSome then 0 else 1

variable {before middle after ledger : SshLedger} {first second events : List SshEvent}

theorem Leads.nil (modest : ledger.Modest) : Leads ledger [] ledger := ⟨modest, rfl⟩

theorem Leads.cons {event : SshEvent} (modest : before.Modest)
    (later : Leads (before.record event) events after) : Leads before (event :: events) after :=
  ⟨⟨modest, later.modest⟩, later.reached⟩

theorem Leads.append (left : Leads before first middle) (right : Leads middle second after) :
    Leads before (first ++ second) after := by
  obtain ⟨modest, rfl⟩ := left
  exact ⟨modest.append right.modest, (exec_append ..).trans right.reached⟩

theorem Leads.silent (modest : ledger.Modest)
    (silent : ∀ event ∈ events, ledger.record event = ledger) : Leads ledger events ledger := by
  induction events with
  | nil => exact .nil modest
  | cons event events ih =>
      have later := ih fun other member => silent other (List.mem_cons_of_mem _ member)
      refine .cons modest ?_
      rwa [silent event (List.mem_cons_self ..)]

theorem Modest.aborted (modest : ledger.Modest) :
    Modest { ledger with aborts := ledger.aborts + 1 } := ⟨modest.sockets, modest.memory⟩

theorem Leads.aborted (modest : ledger.Modest) (status : AbortStatus) (message : String) :
    Leads ledger [.aborted status message] (ledger.attempted false) :=
  .cons modest (.nil modest.aborted)

end SshLedger

open SshLedger

section Resources

variable {environment : SshEnvironment} {ledger : SshLedger} {authList : List UInt8}

theorem kbdCallback_leads (modest : ledger.Modest) (password : List UInt8) (prompts : List Nat) :
    Leads ledger (kbdCallback password prompts) ledger := by
  refine .silent modest fun event member => ?_
  rw [kbdCallback_eq event member]
  rfl

theorem authenticateKey_leads (modest : ledger.Modest) (key : SshKey)
    (publicKey : Option (List UInt8)) :
    Leads ledger (authenticateKey environment authList key publicKey).1
      (ledger.attempted (authenticateKey environment authList key publicKey).2) := by
  unfold authenticateKey
  split_ifs
  · exact .aborted modest ..
  · exact .cons modest (.aborted modest ..)
  · exact .cons modest (.nil modest)

theorem authenticateAnyPassword_leads (modest : ledger.Modest)
    (password : Option (List UInt8)) :
    Leads ledger (authenticateAnyPassword environment authList password).1
      (ledger.attempted (authenticateAnyPassword environment authList password).2) := by
  unfold authenticateAnyPassword
  cases password with
  | none => exact .aborted modest ..
  | some password =>
      dsimp only
      unfold authenticatePassword
      split_ifs
      · exact .cons modest (.aborted modest ..)
      · exact .cons modest (.nil modest)
      · exact (kbdCallback_leads modest ..).append (.aborted modest ..)
      · exact kbdCallback_leads modest ..
      · exact .aborted modest ..

variable (credentialHandler : Bool) (user : SshUser) (input : List UInt8) (keepalive fd : Int)
  (hostKey : Option (List UInt8))

theorem obtainPassword_leads (modest : ledger.Modest) (password : Option (List UInt8)) :
    Leads ledger (obtainPassword credentialHandler password input).2.2 ledger := by
  refine .silent modest fun event member => ?_
  obtain ⟨-, -, printed, rfl⟩ := obtainPassword_events event member
  rfl

theorem authenticate_leads (modest : ledger.Modest) :
    Leads ledger (authenticate environment credentialHandler user input).events
      (ledger.attempted (authenticate environment credentialHandler user input).succeeded) := by
  unfold authenticate
  cases user.username with
  | none => exact .aborted modest ..
  | some username =>
      dsimp only
      cases environment.authList with
      | none => exact .cons modest (.nil modest)
      | some authList =>
          dsimp only
          cases user.privateKey with
          | some key => exact .cons modest (authenticateKey_leads modest ..)
          | none =>
              have asked := obtainPassword_leads credentialHandler input modest user.password
              exact .cons modest (asked.append (authenticateAnyPassword_leads modest _))

/-- The ledger while a socket is connected and the session is allocated. -/
def establishing (fd : Int) : SshLedger := { sockets := [fd], memory := 1 }

theorem establishing_modest : (establishing fd).Modest := ⟨Nat.le_refl 1, Int.one_nonneg⟩

/-- What is held is released when an attempt has failed. -/
theorem released_leads :
    Leads ((establishing fd).attempted false) [.freed, .socketClosed fd] (ofSession none) := by
  refine .cons ⟨Nat.le_refl 1, Int.one_nonneg⟩ (.cons ⟨Nat.le_refl 1, Int.le_refl 0⟩ ?_)
  have closed : ([fd] : List Int).erase fd = [] := List.erase_cons_head ..
  unfold SshLedger.record
  dsimp only [attempted, establishing, record]
  rw [if_neg Bool.false_ne_true]
  dsimp only
  rw [closed]
  exact .nil ⟨Nat.zero_le 1, Int.le_refl 0⟩

theorem logIn_leads :
    Leads (establishing fd) (logIn environment credentialHandler user input keepalive fd).events
      (ofSession (logIn environment credentialHandler user input keepalive fd).session) := by
  have tried := @authenticate_leads environment _ credentialHandler user input
    (establishing_modest fd)
  unfold logIn
  dsimp only
  split
  · rename_i succeeded
    rw [succeeded] at tried
    exact tried.append (.cons (establishing_modest fd) (.nil (establishing_modest fd)))
  · rename_i failed
    rw [Bool.eq_false_of_not_eq_true failed] at tried
    exact tried.append (released_leads fd)

theorem checkHost_leads :
    Leads (establishing fd)
      (checkHost environment credentialHandler user input keepalive hostKey fd).events
      (ofSession (checkHost environment credentialHandler user input keepalive hostKey fd).session)
    := by
  have modest := establishing_modest fd
  have released (status : AbortStatus) (message : String) :
      Leads (establishing fd) [.aborted status message, .freed, .socketClosed fd]
        (ofSession none) :=
    (Leads.aborted modest status message).append (released_leads fd)
  unfold checkHost
  cases environment.remoteHostKey with
  | none => exact released ..
  | some key =>
      dsimp only
      split_ifs
      · exact .cons modest (released ..)
      · exact .cons modest (released ..)
      · exact .cons modest (logIn_leads ..)

theorem openSession_leads :
    Leads { sockets := [fd] }
      (openSession environment credentialHandler user input keepalive hostKey fd).events
      (ofSession
        (openSession environment credentialHandler user input keepalive hostKey fd).session) := by
  have connected : Modest { sockets := [fd] } := ⟨Nat.le_refl 1, Int.le_refl 0⟩
  have modest := establishing_modest fd
  have allocated {events : List SshEvent} {after : SshLedger}
      (later : Leads (establishing fd) events after) :
      Leads { sockets := [fd] } (.allocated :: events) after := .cons connected later
  have preferred : Leads (establishing fd) ([.sessionOpened] ++
      if environment.fipsEnabled then [.methodsPreferred] else []) (establishing fd) := by
    split
    · exact .cons modest (.cons modest (.nil modest))
    · exact .cons modest (.nil modest)
  unfold openSession
  split
  · exact allocated ((Leads.aborted modest ..).append (released_leads fd))
  · dsimp only
    split
    · exact allocated (preferred.append ((Leads.aborted modest ..).append (released_leads fd)))
    · exact allocated (preferred.append (checkHost_leads ..))

/-- Every socket that does not connect is closed before the next one is opened. -/
theorem connectAny_leads (addresses : List SshAddress) :
    Leads {} (connectAny addresses).1
      (match (connectAny addresses).2 with
      | .connected fd => { sockets := [fd] }
      | .exhausted => {}
      | .failed => ofSession none) := by
  have start : Modest {} := ⟨Nat.zero_le 1, Int.le_refl 0⟩
  induction addresses with
  | nil => exact .nil start
  | cons address rest ih =>
      have opened : Modest { sockets := [address.socket] } := ⟨Nat.le_refl 1, Int.le_refl 0⟩
      unfold connectAny
      split_ifs
      · exact .aborted start ..
      · exact .cons start (.nil opened)
      · refine .cons start (.cons opened ?_)
        have closed : ([address.socket] : List Int).erase address.socket = [] :=
          List.erase_cons_head ..
        unfold SshLedger.record
        dsimp only [record]
        rw [closed]
        exact ih

end Resources

end GuacNebula.Ssh
