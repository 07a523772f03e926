import GuacNebula.Ssh.Credentials

/-! # Sessions

`guac_common_ssh_create_session` connects to the first address that accepts a connection, shakes
hands, compares the key of the host with those that are known, and authenticates the user. What the
libraries and the network answer is given.

No credential is sent, and none is asked for, before the key of the host has been accepted. Whatever
fails, the sockets that were opened are closed, and the client is aborted once.
-/

namespace GuacNebula.Ssh

open Terminal

/-! ## What is answered -/

/-- An address: what `socket` returns, and whether `connect` succeeds. -/
structure SshAddress where
  socket : Int
  connects : Bool
  deriving DecidableEq, Repr

/-- What the libraries and the network answer. -/
structure SshEnvironment where
  /-- The addresses of the host, if `getaddrinfo` succeeds. -/
  addresses : Option (List SshAddress)
  fipsEnabled : Bool
  sessionInit : Bool
  handshake : Int
  /-- The key of the host. -/
  remoteHostKey : Option (List UInt8)
  /-- What `libssh2_knownhost_readline` returns. -/
  readLine : Int
  /-- What `libssh2_knownhost_readfile` returns, if there is a file. -/
  readFile : Option Int
  /-- What `libssh2_knownhost_checkp` returns. -/
  check : Int
  /-- The methods that the server supports, unless the user needs none. -/
  authList : Option (List UInt8)
  publicKey : Int
  password : Int
  keyboardInteractive : Int
  /-- The numbers of prompts that the keyboard-interactive method asks with. -/
  prompts : List Nat

/-- `LIBSSH2_KNOWNHOST_CHECK_MATCH`. -/
def knownHostMatch : Int := 0

variable (environment : SshEnvironment)

/-! ## The key of the host -/

/-- What `guac_common_ssh_verify_host_key` has loaded: an error below zero, or a number of keys. -/
def loadKnownHosts (hostKey : Option (List UInt8)) : Int :=
  if hostKey = none ∨ hostKey = some [] then environment.readFile.getD 0
  else if environment.readLine = 0 then environment.readLine + 1
  else environment.readLine

/-- `guac_common_ssh_verify_host_key`. -/
def verifyHostKey (hostKey : Option (List UInt8)) : Int :=
  let knownHosts := loadKnownHosts environment hostKey
  if knownHosts < 0 then knownHosts
  else if knownHosts = 0 then knownHosts
  else environment.check

/-! ## Authentication -/

/-- What authenticating a user has done. -/
structure Authentication where
  user : SshUser
  input : List UInt8
  events : List SshEvent
  succeeded : Bool

/-- The method is in the list. -/
def supports (authList : List UInt8) (method : String) : Bool :=
  decide (bytesOf method <:+: authList)

/-- `guac_common_ssh_kbd_callback`, for each time it is called. -/
def kbdCallback (password : List UInt8) (prompts : List Nat) : List SshEvent :=
  prompts.flatMap fun numPrompts =>
    if numPrompts = 1 then [.promptAnswered password] else []

/-- The part of `guac_common_ssh_authenticate` for a private key. -/
def authenticateKey (authList : List UInt8) (key : SshKey) (publicKey : Option (List UInt8)) :
    List SshEvent × Bool :=
  if supports authList "publickey" = false then
    ([.aborted .clientUnauthorized
      "Public key authentication is not supported by the SSH server"], false)
  else if environment.publicKey ≠ 0 then
    ([.keySent key publicKey,
      .aborted .clientUnauthorized "Public key authentication failed: %s"], false)
  else ([.keySent key publicKey], true)

/-- The part of `guac_common_ssh_authenticate` for a password. -/
def authenticatePassword (authList password : List UInt8) : List SshEvent × Bool :=
  if supports authList "password" then
    if environment.password ≠ 0 then
      ([.passwordSent password,
        .aborted .clientUnauthorized "Password authentication failed: %s"], false)
    else ([.passwordSent password], true)
  else if supports authList "keyboard-interactive" then
    if environment.keyboardInteractive ≠ 0 then
      (kbdCallback password environment.prompts ++
        [.aborted .clientUnauthorized "Keyboard-interactive authentication failed: %s"], false)
    else (kbdCallback password environment.prompts, true)
  else
    ([.aborted .clientUnauthorized
      "Password and keyboard-interactive authentication are not supported by the SSH server"],
      false)

/-- The part of `guac_common_ssh_authenticate` without a private key. -/
def authenticateAnyPassword (authList : List UInt8) (password : Option (List UInt8)) :
    List SshEvent × Bool :=
  match password with
  | some password => authenticatePassword environment authList password
  | none =>
      ([.aborted .clientUnauthorized
        "SSH authentication requires either a private key or a password."], false)

/-- `guac_ssh_get_credential`, for a password. -/
def getCredential (input : List UInt8) : Asked :=
  askIfMissing none (bytesOf "Password: ") false input

/-- A password that is missing is asked for, if there is a handler for that. -/
def obtainPassword (credentialHandler : Bool) (password : Option (List UInt8))
    (input : List UInt8) : Option (List UInt8) × List UInt8 × List SshEvent :=
  match password, credentialHandler with
  | none, true =>
      let asked := getCredential input
      (some asked.answer, asked.input, asked.events)
  | _, _ => (password, input, [])

/-- `guac_common_ssh_authenticate`. -/
def authenticate (credentialHandler : Bool) (user : SshUser) (input : List UInt8) :
    Authentication :=
  match user.username with
  | none =>
      { user := user
        input := input
        events := [.aborted .clientUnauthorized "SSH authentication requires a username."]
        succeeded := false }
  | some username =>
      match environment.authList with
      | none => { user := user, input := input, events := [.methodsListed username], succeeded := true }
      | some authList =>
          match user.privateKey with
          | some key =>
              let (events, succeeded) := authenticateKey environment authList key user.publicKey
              { user := user
                input := input
                events := .methodsListed username :: events
                succeeded := succeeded }
          | none =>
              let (password, rest, asked) := obtainPassword credentialHandler user.password input
              let (events, succeeded) := authenticateAnyPassword environment authList password
              { user := { user with password := password }
                input := rest
                events := .methodsListed username :: asked ++ events
                succeeded := succeeded }

/-! ## Sessions -/

/-- What connecting to the addresses has come to. -/
inductive Connection
  | connected (fd : Int)
  | exhausted
  | failed
  deriving DecidableEq, Repr

/-- The loop of `guac_common_ssh_create_session` over the addresses. -/
def connectAny : List SshAddress → List SshEvent × Connection
  | [] => ([], .exhausted)
  | address :: rest =>
      if address.socket < 0 then
        ([.aborted .serverError "Unable to create socket: %s"], .failed)
      else if address.connects then ([.socketOpened address.socket], .connected address.socket)
      else
        let (events, connection) := connectAny rest
        (.socketOpened address.socket :: .socketClosed address.socket :: events, connection)

/-- `guac_common_ssh_session`, as far as it is the same for all sessions of a client. -/
structure SshSession where
  user : SshUser
  fd : Int
  deriving DecidableEq, Repr

/-- What creating a session has done. -/
structure SessionResult where
  session : Option SshSession
  user : SshUser
  input : List UInt8
  events : List SshEvent

variable (credentialHandler : Bool) (user : SshUser) (input : List UInt8)
  (keepalive : Int) (hostKey : Option (List UInt8))

/-- A session that could not be created, with the user as before. -/
def SessionResult.failed (events : List SshEvent) : SessionResult :=
  { session := none, user := user, input := input, events := events }

/-- The part of `guac_common_ssh_create_session` behind the check of the key. -/
def logIn (fd : Int) : SessionResult :=
  let authentication := authenticate environment credentialHandler user input
  if authentication.succeeded then
    { session := some { user := authentication.user, fd := fd }
      user := authentication.user
      input := authentication.input
      events := authentication.events ++ [.keepaliveConfigured (max keepalive 0)] }
  else
    { session := none
      user := authentication.user
      input := authentication.input
      events := authentication.events ++ [.freed, .socketClosed fd] }

/-- The part of `guac_common_ssh_create_session` behind the handshake. -/
def checkHost (fd : Int) : SessionResult :=
  match environment.remoteHostKey with
  | none =>
      .failed user input [.aborted .serverError "Failed to get host key for %s", .freed,
        .socketClosed fd]
  | some _ =>
      let knownHostCheck := verifyHostKey environment hostKey
      if knownHostCheck < 0 then
        .failed user input [.hostKeyVerified knownHostCheck,
          .aborted .serverError "Error occurred attempting to check host key: %s", .freed,
          .socketClosed fd]
      else if 0 < knownHostCheck then
        .failed user input [.hostKeyVerified knownHostCheck,
          .aborted .serverError "Host key did not match any provided known host keys. %s", .freed,
          .socketClosed fd]
      else
        let result := logIn environment credentialHandler user input keepalive fd
        { result with events := .hostKeyVerified knownHostCheck :: result.events }

/-- The part of `guac_common_ssh_create_session` behind the loop. The session of the library is not
freed if the handshake or anything behind it fails. -/
def openSession (fd : Int) : SessionResult :=
  if environment.sessionInit = false then
    .failed user input [.allocated, .aborted .serverError "Session allocation failed.", .freed,
      .socketClosed fd]
  else
    let preferred : List SshEvent := if environment.fipsEnabled then [.methodsPreferred] else []
    let opened : List SshEvent := [.allocated, .sessionOpened] ++ preferred
    if environment.handshake ≠ 0 then
      .failed user input (opened ++ [.aborted .upstreamError "SSH handshake failed.", .freed,
        .socketClosed fd])
    else
      let result := checkHost environment credentialHandler user input keepalive hostKey fd
      { result with events := opened ++ result.events }

/-- `guac_common_ssh_create_session`. -/
def createSession : SessionResult :=
  match environment.addresses with
  | none =>
      .failed user input [.aborted .serverError "Error parsing given address or port: %s"]
  | some addresses =>
      let (connecting, connection) := connectAny addresses
      match connection with
      | .failed => .failed user input connecting
      | .exhausted =>
          .failed user input (connecting ++
            [.aborted .upstreamNotFound "Unable to connect to any addresses."])
      | .connected fd =>
          let result := openSession environment credentialHandler user input keepalive hostKey fd
          { result with events := connecting ++ result.events }

end GuacNebula.Ssh
