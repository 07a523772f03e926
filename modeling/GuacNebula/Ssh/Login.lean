import GuacNebula.Ssh.SessionOutcomes

/-! # Logging in

`ssh_client_thread` sets up the user, creates the session of the terminal, opens its channel, and
then creates a second session for the file system. Only the first one may ask for a password.
-/

namespace GuacNebula.Ssh

open Terminal

/-- What has come of logging in. -/
structure LoginResult where
  settings : SshSettings
  session : Option SshSession := none
  sftpSession : Option SshSession := none
  input : List UInt8
  events : List SshEvent

/-- The part of `ssh_client_thread` that creates the session of the file system. -/
def openSftp (environment : SshEnvironment) (keepalive : Int) (hostKey : Option (List UInt8))
    (user : SshUser) (result : LoginResult) : LoginResult :=
  let sftp := createSession environment false user result.input keepalive hostKey
  { result with
    sftpSession := sftp.session
    input := sftp.input
    events := result.events ++ sftp.events }

/-- The part of `ssh_client_thread` from the credentials of the user to the sessions, for what is
answered to each of them. -/
def login (terminal sftp : SshEnvironment) (channelOpens enableSftp : Bool) (keepalive : Int)
    (hostKey : Option (List UInt8)) (settings : SshSettings) (input : List UInt8) : LoginResult :=
  let setup := getUser settings input
  match setup.user with
  | none => { settings := setup.settings, input := setup.input, events := setup.events }
  | some user =>
      let created := createSession terminal true user setup.input keepalive hostKey
      let result : LoginResult :=
        { settings := setup.settings
          session := created.session
          input := created.input
          events := setup.events ++ created.events }
      if created.session.isNone then result
      else if channelOpens = false then
        { result with
          events := result.events ++
            [.aborted .upstreamError "Unable to open terminal channel."] }
      else if enableSftp then openSftp sftp keepalive hostKey created.user result
      else result

/-! ## What is asked for -/

/-- The title of a prompt. -/
def SshEvent.title : SshEvent → Option (List UInt8)
  | .prompted title _ => some title
  | _ => none

/-- What has been asked for, in order. -/
def titles (events : List SshEvent) : List (List UInt8) := events.filterMap SshEvent.title

/-- A password is told to the server. -/
def SshEvent.Tells (password : List UInt8) (event : SshEvent) : Prop :=
  event = .passwordSent password ∨ event = .promptAnswered password

/-- A credential is sent to the server. -/
def SshEvent.Sends : SshEvent → Prop
  | .keySent .. | .passwordSent _ | .promptAnswered _ => True
  | _ => False

theorem SshEvent.Tells.sends {password : List UInt8} {event : SshEvent}
    (tells : event.Tells password) : event.Sends := by
  rcases tells with rfl | rfl <;> trivial

theorem titles_append (first second : List SshEvent) :
    titles (first ++ second) = titles first ++ titles second := List.filterMap_append ..

theorem titles_eq_nil {events : List SshEvent} (none : ∀ event ∈ events, event.title = none) :
    titles events = [] := List.filterMap_eq_nil_iff.mpr none

theorem titles_of_quiet {events : List SshEvent} (quiet : Quiet events) : titles events = [] := by
  refine titles_eq_nil fun event member => ?_
  cases event with
  | prompted title printed => exact absurd trivial (quiet _ member)
  | _ => rfl

theorem Quiet.not_sends {events : List SshEvent} (quiet : Quiet events) :
    ∀ event ∈ events, ¬ event.Sends := by
  intro event member sends
  cases event with
  | keySent => exact quiet _ member trivial
  | passwordSent => exact quiet _ member trivial
  | promptAnswered => exact quiet _ member trivial
  | _ => exact sends

theorem askIfMissing_titles (known : Option (List UInt8)) (title : List UInt8) (echo : Bool)
    (input : List UInt8) : (titles (askIfMissing known title echo input).events).Sublist [title] := by
  cases known with
  | none => exact List.Sublist.refl _
  | some answer => exact List.nil_sublist _

theorem askIfMissing_silent (known : Option (List UInt8)) (title : List UInt8) (echo : Bool)
    (input : List UInt8) : ∀ event ∈ (askIfMissing known title echo input).events,
      ¬ event.Sends := by
  cases known with
  | none => exact List.forall_mem_singleton.mpr id
  | some answer => exact nofun

/-! ## The user -/

section Setup

/-- A private key is that of the settings, and has a passphrase if it needs one. -/
structure KeyUsable (settings : SshSettings) (key : SshKey) : Prop where
  given : settings.keyBase64 = some key.privateKey
  unlocked : isPassphraseNeeded key.privateKey = true →
    ∃ passphrase, passphrase ≠ [] ∧ key.passphrase = some passphrase

/-- A user who has been set up from the settings. -/
structure FromSettings (settings : SshSettings) (user : SshUser) : Prop where
  keyed : user.privateKey = none ↔ settings.keyBase64 = none
  usable : ∀ key, user.privateKey = some key → KeyUsable settings key

variable {user : SshUser} {settings : SshSettings} {input : List UInt8}

/-- A key is imported without what it needs never. -/
theorem keyAlloc_eq_some {data : List UInt8} {passphrase : Option (List UInt8)} {key : SshKey}
    (allocated : keyAlloc data passphrase = some key) :
    key.privateKey = data ∧ key.passphrase = passphrase ∧
      (isPassphraseNeeded data = true → passphrase ≠ none ∧ passphrase ≠ some []) := by
  unfold keyAlloc at allocated
  split at allocated
  · cases allocated
  · rename_i usable
    obtain rfl := Option.some.inj allocated
    refine ⟨rfl, rfl, fun needed => ?_⟩
    exact ⟨fun none => usable ⟨needed, .inl none⟩, fun empty => usable ⟨needed, .inr empty⟩⟩

theorem importKey_fromSettings {keyBase64 : List UInt8} {passphrase : Option (List UInt8)}
    (given : settings.keyBase64 = some keyBase64)
    (imported : (user.importKey keyBase64 passphrase).2 = false) :
    FromSettings settings (user.importKey keyBase64 passphrase).1 := by
  obtain ⟨key, allocated⟩ := Option.isSome_iff_exists.mp (Option.isNone_eq_false_iff.mp imported)
  have stored : (user.importKey keyBase64 passphrase).1.privateKey = some key := allocated
  obtain ⟨same, unlocked, needs⟩ := keyAlloc_eq_some allocated
  refine ⟨?_, fun other found => ?_⟩
  · rw [stored, given]
    exact iff_of_false (Option.some_ne_none _) (Option.some_ne_none _)
  · obtain rfl := Option.some.inj (stored.symm.trans found)
    refine ⟨by rw [given, same], fun needed => ?_⟩
    obtain ⟨-, nonempty⟩ := needs (same ▸ needed)
    exact ⟨passphrase.getD [], fun empty => nonempty (congrArg some empty), unlocked⟩

/-- What the import of the key leaves: the user, unless that has failed, with the key. -/
theorem importSettingsKey_spec (bare : user.privateKey = none) :
    (titles (importSettingsKey user settings input).events).Sublist [bytesOf "Key passphrase: "] ∧
      (∀ event ∈ (importSettingsKey user settings input).events, ¬ event.Sends) ∧
      ∀ after ∈ (importSettingsKey user settings input).user, FromSettings settings after := by
  unfold importSettingsKey
  cases given : settings.keyBase64 with
  | none =>
      refine ⟨List.nil_sublist _, nofun, fun after found => ?_⟩
      obtain rfl := Option.some.inj found
      exact ⟨iff_of_true bare given, fun key keyed => nomatch bare.symm.trans keyed⟩
  | some keyBase64 =>
      have asked := askIfMissing_titles settings.keyPassphrase (bytesOf "Key passphrase: ") false
        input
      have silent := askIfMissing_silent settings.keyPassphrase (bytesOf "Key passphrase: ") false
        input
      dsimp only
      split_ifs with first second
      · refine ⟨?_, List.forall_mem_append.mpr ⟨silent, List.forall_mem_singleton.mpr id⟩, nofun⟩
        rw [titles_append]
        exact (List.append_nil _).symm ▸ asked
      · refine ⟨asked, silent, fun after found => ?_⟩
        obtain rfl := Option.some.inj found
        exact importKey_fromSettings given (Bool.eq_false_of_not_eq_true second)
      · refine ⟨List.nil_sublist _, nofun, fun after found => ?_⟩
        obtain rfl := Option.some.inj found
        exact importKey_fromSettings given (Bool.eq_false_of_not_eq_true first)

theorem importSettingsPublicKey_spec :
    titles (importSettingsPublicKey user settings).2 = [] ∧
      (∀ event ∈ (importSettingsPublicKey user settings).2, ¬ event.Sends) ∧
      ∀ after ∈ (importSettingsPublicKey user settings).1, after.privateKey = user.privateKey := by
  unfold importSettingsPublicKey
  cases settings.publicKeyBase64
  case' none => cases settings.password
  all_goals
    exact ⟨rfl, List.forall_mem_singleton.mpr id, fun after found => Option.some.inj found ▸ rfl⟩

/-- Setting up a user asks for the name and the passphrase at most, and sends nothing. -/
theorem getUser_spec :
    (titles (getUser settings input).events).Sublist
        [bytesOf "Login as: ", bytesOf "Key passphrase: "] ∧
      (∀ event ∈ (getUser settings input).events, ¬ event.Sends) ∧
      ∀ user ∈ (getUser settings input).user, FromSettings settings user := by
  have named := askIfMissing_titles settings.username (bytesOf "Login as: ") true input
  have silent := askIfMissing_silent settings.username (bytesOf "Login as: ") true input
  unfold getUser
  dsimp only
  generalize askIfMissing settings.username (bytesOf "Login as: ") true input = asked at *
  obtain ⟨unlocked, quiet, keyed⟩ := @importSettingsKey_spec (createUser (some asked.answer))
    { settings with username := some asked.answer } asked.input rfl
  generalize importSettingsKey _ _ _ = setup at *
  cases imported : setup.user with
  | none =>
      refine ⟨?_, List.forall_mem_append.mpr ⟨silent, quiet⟩, nofun⟩
      rw [titles_append]
      exact named.append unlocked
  | some user =>
      obtain ⟨untitled, unsent, kept⟩ := @importSettingsPublicKey_spec user setup.settings
      refine ⟨?_, ?_, fun after found => ?_⟩
      · rw [titles_append, titles_append, untitled, List.append_nil]
        exact named.append unlocked
      · exact List.forall_mem_append.mpr ⟨List.forall_mem_append.mpr ⟨silent, quiet⟩, unsent⟩
      · have key := kept after found
        have own := keyed user imported
        refine ⟨?_, fun other member => ?_⟩
        · rw [key]
          exact own.keyed
        · rw [key] at member
          exact ⟨(own.usable other member).given, (own.usable other member).unlocked⟩

end Setup

/-! ## The sessions -/

section Sessions

variable {environment : SshEnvironment} {credentialHandler : Bool} {user : SshUser}
  {input : List UInt8}

/-- What a session may ask for. -/
def askedBySession (credentialHandler : Bool) : List (List UInt8) :=
  if credentialHandler then [bytesOf "Password: "] else []

/-- What authenticating or creating a session makes of a user: a password may have been found, and
every password that has been told is that one. -/
structure LoggedIn (credentialHandler : Bool) (user after : SshUser) (events : List SshEvent) :
    Prop where
  titles : (titles events).Sublist (askedBySession credentialHandler)
  privateKey : after.privateKey = user.privateKey
  keeps : ∀ password, user.password = some password → after.password = some password
  told : ∀ event ∈ events, ∀ password, event.Tells password → after.password = some password

/-- Events of other kinds neither ask nor tell. -/
def SshEvent.Plain (event : SshEvent) : Prop :=
  event.title = none ∧ ∀ password, ¬ event.Tells password

theorem plain_listed (username : List UInt8) : (SshEvent.methodsListed username).Plain :=
  ⟨rfl, by rintro password (told | told) <;> cases told⟩

theorem plain_aborted (status : AbortStatus) (message : String) :
    (SshEvent.aborted status message).Plain :=
  ⟨rfl, by rintro password (told | told) <;> cases told⟩

theorem plain_keySent (key : SshKey) (publicKey : Option (List UInt8)) :
    (SshEvent.keySent key publicKey).Plain :=
  ⟨rfl, by rintro password (told | told) <;> cases told⟩

theorem Quiet.plain {events : List SshEvent} (quiet : Quiet events) :
    ∀ event ∈ events, event.Plain := by
  intro event member
  refine ⟨?_, fun password tells => quiet.not_sends event member tells.sends⟩
  cases event with
  | prompted title printed => exact absurd trivial (quiet _ member)
  | _ => rfl

theorem LoggedIn.of_plain {events : List SshEvent} (plain : ∀ event ∈ events, event.Plain) :
    LoggedIn credentialHandler user user events where
  titles := titles_eq_nil (fun event member => (plain event member).1) ▸ List.nil_sublist _
  privateKey := rfl
  keeps _ := id
  told event member password tells := absurd tells ((plain event member).2 password)

/-- Events that are plain may come before. -/
theorem LoggedIn.prepend {after : SshUser} {events first : List SshEvent}
    (loggedIn : LoggedIn credentialHandler user after events)
    (before : ∀ event ∈ first, event.Plain) :
    LoggedIn credentialHandler user after (first ++ events) where
  titles := by
    rw [titles_append, titles_eq_nil fun event member => (before event member).1]
    exact loggedIn.titles
  privateKey := loggedIn.privateKey
  keeps := loggedIn.keeps
  told := List.forall_mem_append.mpr
    ⟨fun event start password tells => absurd tells ((before event start).2 password),
      loggedIn.told⟩

/-- Events that are plain may come behind. -/
theorem LoggedIn.append {after : SshUser} {events last : List SshEvent}
    (loggedIn : LoggedIn credentialHandler user after events)
    (behind : ∀ event ∈ last, event.Plain) :
    LoggedIn credentialHandler user after (events ++ last) where
  titles := by
    rw [titles_append, titles_eq_nil fun event member => (behind event member).1, List.append_nil]
    exact loggedIn.titles
  privateKey := loggedIn.privateKey
  keeps := loggedIn.keeps
  told := List.forall_mem_append.mpr
    ⟨loggedIn.told, fun event back password tells => absurd tells ((behind event back).2 password)⟩

theorem obtainPassword_titles (password : Option (List UInt8)) :
    (titles (obtainPassword credentialHandler password input).2.2).Sublist
      (askedBySession credentialHandler) := by
  cases password with
  | some password => exact List.nil_sublist _
  | none => cases credentialHandler <;> exact List.Sublist.refl _

/-- A user without a private key, with the password that has been obtained. -/
theorem authenticateAnyPassword_loggedIn (authList username : List UInt8) :
    LoggedIn credentialHandler user
      { user with password := (obtainPassword credentialHandler user.password input).1 }
      (.methodsListed username :: (obtainPassword credentialHandler user.password input).2.2 ++
        (authenticateAnyPassword environment authList
          (obtainPassword credentialHandler user.password input).1).1) where
  titles := by
    have untitled : titles (authenticateAnyPassword environment authList
        (obtainPassword credentialHandler user.password input).1).1 = [] := by
      refine titles_eq_nil fun event member => ?_
      obtain ⟨password, -, rfl | rfl⟩ | ⟨status, message, rfl⟩ :=
        authenticateAnyPassword_events event member <;> rfl
    rw [titles_append, untitled, List.append_nil]
    exact obtainPassword_titles user.password
  privateKey := rfl
  keeps password known := by
    dsimp only
    rw [known]
    cases credentialHandler <;> rfl
  told event member password tells := by
    rcases List.mem_append.mp member with front | tried
    · rcases List.mem_cons.mp front with rfl | asked
      · exact absurd tells ((plain_listed username).2 password)
      · obtain ⟨-, -, printed, rfl⟩ := obtainPassword_events event asked
        rcases tells with told | told <;> cases told
    · obtain ⟨known, found, sent⟩ | ⟨status, message, rfl⟩ :=
        authenticateAnyPassword_events event tried
      · rcases tells with rfl | rfl
        · obtain rfl := SshEvent.passwordSent.inj (sent.resolve_right nofun)
          exact found
        · obtain rfl := SshEvent.promptAnswered.inj (sent.resolve_left nofun)
          exact found
      · exact absurd tells ((plain_aborted status message).2 password)

theorem authenticate_loggedIn : LoggedIn credentialHandler user
    (authenticate environment credentialHandler user input).user
    (authenticate environment credentialHandler user input).events := by
  unfold authenticate
  cases named : user.username with
  | none =>
      exact .of_plain (List.forall_mem_singleton.mpr (plain_aborted ..))
  | some username =>
      dsimp only
      cases environment.authList with
      | none =>
          exact .of_plain (List.forall_mem_singleton.mpr (plain_listed username))
      | some authList =>
          dsimp only
          cases keyed : user.privateKey with
          | some key =>
              refine .of_plain (List.forall_mem_cons.mpr
                ⟨plain_listed username, fun event sent => ?_⟩)
              obtain rfl | ⟨status, message, rfl⟩ := authenticateKey_events event sent
              · exact plain_keySent ..
              · exact plain_aborted ..
          | none =>
              have whole := @authenticateAnyPassword_loggedIn environment credentialHandler user input
                authList username
              rw [named, keyed] at whole
              exact whole

variable {keepalive : Int} {hostKey : Option (List UInt8)}

theorem logIn_loggedIn {fd : Int} : LoggedIn credentialHandler user
    (logIn environment credentialHandler user input keepalive fd).user
    (logIn environment credentialHandler user input keepalive fd).events := by
  have tried := @authenticate_loggedIn environment credentialHandler user input
  unfold logIn
  dsimp only
  split
  · exact tried.append (Quiet.plain (by simp [Quiet, SshEvent.Discloses]))
  · exact tried.append (Quiet.plain (by simp [Quiet, SshEvent.Discloses]))

theorem createSession_loggedIn : LoggedIn credentialHandler user
    (createSession environment credentialHandler user input keepalive hostKey).user
    (createSession environment credentialHandler user input keepalive hostKey).events := by
  have checks := @createSession_checksFirst environment credentialHandler user input keepalive
    hostKey
  obtain ⟨events, failed, quiet⟩ | ⟨-, quiet, fd, none, loggedIn⟩ := checks
  · rw [failed]
    exact .of_plain quiet.plain
  · rw [loggedIn]
    have accepted : Quiet (quiet ++ [.hostKeyVerified 0]) :=
      none.append (by simp [Quiet, SshEvent.Discloses])
    have whole := (@logIn_loggedIn environment credentialHandler user input keepalive
      fd).prepend accepted.plain
    rw [List.append_assoc] at whole
    exact whole

/-- What a session discloses is permitted. -/
theorem createSession_permitted {event : SshEvent} (member : event ∈
      (createSession environment credentialHandler user input keepalive hostKey).events)
    (discloses : event.Discloses) : event.Permitted credentialHandler user input := by
  have checks := @createSession_checksFirst environment credentialHandler user input keepalive
    hostKey
  obtain ⟨events, failed, quiet⟩ | ⟨-, quiet, fd, none, loggedIn⟩ := checks
  · rw [failed] at member
    exact absurd discloses (quiet event member)
  · rw [loggedIn] at member
    rcases List.mem_append.mp member with before | behind
    · exact absurd discloses (none event before)
    · rcases List.mem_cons.mp behind with rfl | within
      · exact absurd discloses id
      · exact logIn_permitted event within

theorem createSession_tells {event : SshEvent} {password : List UInt8}
    (tells : event.Tells password) (member : event ∈
      (createSession environment credentialHandler user input keepalive hostKey).events) :
    user.privateKey = none := by
  rcases tells with rfl | rfl
  · exact (createSession_permitted member trivial).1
  · exact (createSession_permitted member trivial).1

end Sessions

/-! ## Both sessions -/

/-- What a login may do with credentials: whatever is missing is asked for once, a private key that
is sent is that of the settings and has the passphrase that it needs, with a private key no password
is told, and there is only one password. -/
structure AsksOnce (settings : SshSettings) (events : List SshEvent) : Prop where
  titles : (titles events).Sublist
    [bytesOf "Login as: ", bytesOf "Key passphrase: ", bytesOf "Password: "]
  keys : ∀ key publicKey, .keySent key publicKey ∈ events → KeyUsable settings key
  passwords : ∀ event ∈ events, ∀ password, event.Tells password → settings.keyBase64 = none
  only : ∀ event ∈ events, ∀ other ∈ events, ∀ first second,
    event.Tells first → other.Tells second → first = second

variable {settings : SshSettings} {events last : List SshEvent}

/-- Events that do nothing else with credentials may come behind. -/
theorem AsksOnce.append (asks : AsksOnce settings events)
    (titled : (Ssh.titles events ++ Ssh.titles last).Sublist
      [bytesOf "Login as: ", bytesOf "Key passphrase: ", bytesOf "Password: "])
    (usable : ∀ key publicKey, .keySent key publicKey ∈ last → KeyUsable settings key)
    (keyless : ∀ event ∈ last, ∀ password, event.Tells password → settings.keyBase64 = none)
    (agree : ∀ event ∈ last, ∀ other ∈ events ++ last, ∀ first second,
      event.Tells first → other.Tells second → first = second) :
    AsksOnce settings (events ++ last) where
  titles := titles_append .. ▸ titled
  keys key publicKey member := (List.mem_append.mp member).elim (asks.keys key publicKey)
    (usable key publicKey)
  passwords := List.forall_mem_append.mpr ⟨asks.passwords, keyless⟩
  only event member other member' first second tells tells' := by
    rcases List.mem_append.mp member with before | behind
    · rcases List.mem_append.mp member' with before' | behind'
      · exact asks.only event before other before' first second tells tells'
      · exact (agree other behind' event member second first tells' tells).symm
    · exact agree event behind other member' first second tells tells'

/-- Nor do events that disclose nothing. -/
theorem AsksOnce.behind (asks : AsksOnce settings events) (quiet : Quiet last) :
    AsksOnce settings (events ++ last) := by
  have silent {event : SshEvent} (member : event ∈ last) {password : List UInt8}
      (tells : event.Tells password) : False := quiet.not_sends event member tells.sends
  refine asks.append ?_ (fun _ _ member => absurd trivial (quiet _ member))
    (fun _ member _ tells => (silent member tells).elim)
    (fun _ member _ _ _ _ tells _ => (silent member tells).elim)
  rw [titles_of_quiet quiet, List.append_nil]
  exact asks.titles

/-- Setting up the user sends nothing. -/
theorem getUser_asksOnce (settings : SshSettings) (input : List UInt8) :
    AsksOnce settings (getUser settings input).events := by
  obtain ⟨asked, unsent, -⟩ := @getUser_spec settings input
  have within : [bytesOf "Login as: ", bytesOf "Key passphrase: "].Sublist
      [bytesOf "Login as: ", bytesOf "Key passphrase: ", bytesOf "Password: "] :=
    List.sublist_append_left ..
  exact
    { titles := asked.trans within
      keys := fun key publicKey member => absurd trivial (unsent _ member)
      passwords := fun event member password tells => absurd tells.sends (unsent _ member)
      only := fun event member _ _ _ _ tells _ => absurd tells.sends (unsent _ member) }

section Login

variable (terminal sftp : SshEnvironment) (channelOpens enableSftp : Bool) (keepalive : Int)
  (hostKey : Option (List UInt8))

/-- A session tells one password, and no other one than has been told before. -/
theorem AsksOnce.session {environment : SshEnvironment} {credentialHandler : Bool}
    {user : SshUser} (asks : AsksOnce settings events) (set : FromSettings settings user)
    (told : ∀ event ∈ events, ∀ password, event.Tells password → user.password = some password)
    (input : List UInt8)
    (titled : (Ssh.titles events ++ askedBySession credentialHandler).Sublist
      [bytesOf "Login as: ", bytesOf "Key passphrase: ", bytesOf "Password: "]) :
    AsksOnce settings (events ++
      (createSession environment credentialHandler user input keepalive hostKey).events) := by
  have loggedIn := @createSession_loggedIn environment credentialHandler user input keepalive
    hostKey
  have final : ∀ event ∈ events ++
      (createSession environment credentialHandler user input keepalive hostKey).events,
      ∀ password, event.Tells password →
        (createSession environment credentialHandler user input keepalive hostKey).user.password =
          some password :=
    List.forall_mem_append.mpr ⟨fun event before password tells =>
      loggedIn.keeps password (told event before password tells), loggedIn.told⟩
  refine asks.append ((List.Sublist.append_left loggedIn.titles _).trans titled)
    (fun key _ created => set.usable key (createSession_permitted created trivial).1)
    (fun event created password tells => set.keyed.mp (createSession_tells tells created))
    fun event created other member first second tells tells' => ?_
  have left := loggedIn.told event created first tells
  exact Option.some.inj (left.symm.trans (final other member second tells'))

/-- Whatever is answered while a user logs in, and whatever is typed: the user is asked for the
name, the passphrase and the password at most once each, in that order, although there are two
sessions. A private key that is sent is the one of the settings, with the passphrase that it needs.
If there is one, no password is told, and if there is none, only one password is. -/
theorem login_asks_once (settings : SshSettings) (input : List UInt8) :
    AsksOnce settings (login terminal sftp channelOpens enableSftp keepalive hostKey settings
      input).events := by
  obtain ⟨asked, unsent, set⟩ := @getUser_spec settings input
  have start := getUser_asksOnce settings input
  unfold login
  dsimp only
  cases found : (getUser settings input).user with
  | none => exact start
  | some user =>
      have own := set user found
      have loggedIn := @createSession_loggedIn terminal true user (getUser settings input).input
        keepalive hostKey
      have first := @AsksOnce.session _ _ keepalive hostKey terminal true user start own
        (fun event member _ tells => absurd tells.sends (unsent event member))
        (getUser settings input).input (asked.append (List.Sublist.refl _))
      dsimp only
      split_ifs
      · exact first
      · exact first.behind (by simp [Quiet, SshEvent.Discloses])
      · refine first.session keepalive hostKey ⟨?_, fun key keyed => own.usable key ?_⟩ ?_ _ ?_
        · rw [loggedIn.privateKey]
          exact own.keyed
        · rwa [loggedIn.privateKey] at keyed
        · exact List.forall_mem_append.mpr ⟨fun event before _ tells =>
            absurd tells.sends (unsent event before), loggedIn.told⟩
        · exact (List.append_nil _).symm ▸ first.titles
      · exact first

end Login

end GuacNebula.Ssh
