import GuacNebula.Lib.Run
import GuacNebula.Rdp.DisplaySize

/-! # Updates of the display

A user resizes their browser window as often as they like, but the server is asked for another size
only after a while, and only if it does not have that size already. The size that is asked for last
waits until then. It is sent on the display update channel, or the connection is made again, which
waits for files to be closed and for print jobs.
-/

namespace GuacNebula.Rdp

open CInt Run

/-- `GUAC_RDP_DISP_UPDATE_INTERVAL`, in milliseconds. -/
def dispUpdateInterval : Int := 500

/-- `guac_rdp_resize_method`. -/
inductive ResizeMethod where
  | none | displayUpdate | reconnect
  deriving DecidableEq, Repr

/-- A size that the server is asked for, on the display update channel or by a new connection. -/
structure DispRequest where
  time : Int
  width : Int
  height : Int
  deriving DecidableEq, Repr

/-- `guac_rdp_disp` beside the size, with what its functions read of the client and its settings,
and what they have asked for, latest first. There is no server size without a connection. -/
structure DispSession extends Disp where
  lastRequest : Int
  reconnectNeeded : Bool
  channel : Bool
  resizeMethod : ResizeMethod
  resolution : Int
  settingsWidth : Int
  settingsHeight : Int
  server : Option (Int × Int)
  openFiles : Option Int
  activeJob : Bool
  requests : List DispRequest
  deriving DecidableEq, Repr

namespace DispSession

/-- `guac_rdp_disp_alloc`, before there is a connection. -/
def alloc (resizeMethod : ResizeMethod) (resolution settingsWidth settingsHeight now : Int) :
    DispSession where
  requestedWidth := 0
  requestedHeight := 0
  lastRequest := now
  reconnectNeeded := false
  channel := false
  resizeMethod := resizeMethod
  resolution := resolution
  settingsWidth := settingsWidth
  settingsHeight := settingsHeight
  server := none
  openFiles := none
  activeJob := false
  requests := []

variable (session : DispSession)

/-- `guac_rdp_disp_update_size`, with the size of the instance if there is one. -/
def updateSize (instanceSize : Option (Int × Int)) (now : Int) : DispSession :=
  let width := session.requestedWidth
  let height := session.requestedHeight
  if width = 0 ∨ height = 0 then session
  else if now - session.lastRequest ≤ dispUpdateInterval then session
  else if instanceSize = some (width, height) then session
  else
    let session := { session with lastRequest := now }
    match session.resizeMethod with
    | .reconnect =>
        { session with
          settingsWidth := width
          settingsHeight := height
          reconnectNeeded := true
          requests := ⟨now, width, height⟩ :: session.requests }
    | .displayUpdate =>
        if session.channel then
          { session with requests := ⟨now, width, height⟩ :: session.requests }
        else session
    | .none => session

/-- `guac_rdp_disp_set_size`. -/
def setSize (instanceSize : Option (Int × Int)) (width height now : Int) : Option DispSession :=
  (dispSetSize width height).map fun disp =>
    { session with toDisp := disp }.updateSize instanceSize now

/-- The size in pixels of the server that a user's size stands for. -/
def remoteSize (optimalResolution width height : Int) : Option (Int × Int) :=
  (divInt (toInt (width * session.resolution)) optimalResolution).bind fun width =>
    (divInt (toInt (height * session.resolution)) optimalResolution).map fun height =>
      (width, height)

/-- `guac_rdp_user_size_handler`. -/
def sizeHandler (optimalResolution width height now : Int) : Option DispSession :=
  (session.remoteSize optimalResolution width height).bind fun (width, height) =>
    session.setSize session.server width height now

/-- `guac_rdp_disp_channel_connected`, where the instance has the given size. -/
def channelConnected (width height now : Int) : Option DispSession :=
  (session.setSize (some (width, height)) width height now).map fun session =>
    { session with channel := true }

/-- `guac_rdp_disp_reconnect_needed`. -/
def needsReconnect : Bool :=
  if session.openFiles.any (0 < ·) then false
  else if session.activeJob then false
  else session.reconnectNeeded

/-- `guac_rdp_disp_reconnect_complete`. -/
def reconnectComplete (now : Int) : DispSession :=
  { session with reconnectNeeded := false, lastRequest := now }

/-- The loop of `guac_rdp_handle_connection` comes to its condition: it ends with the connection, or
the size is updated. -/
def round (now : Int) : DispSession :=
  if session.server = none then session
  else if session.needsReconnect then { session with server := none, channel := false }
  else session.updateSize session.server now

end DispSession

/-- Something that concerns the size of the display. -/
inductive DispEvent where
  | resize (optimalResolution width height : Int)
  | channelConnected (width height : Int)
  | channelDisconnected
  | round
  | connected (width height : Int)
  | serverResized (width height : Int)
  | files (openFiles : Option Int)
  | job (active : Bool)
  deriving DecidableEq, Repr

/-- The effect of an event, unless a division traps. -/
def dispStep (session : DispSession) : Int × DispEvent → Option DispSession
  | (now, .resize optimalResolution width height) =>
      session.sizeHandler optimalResolution width height now
  | (now, .channelConnected width height) => session.channelConnected width height now
  | (_, .channelDisconnected) => some { session with channel := false }
  | (now, .round) => some (session.round now)
  | (now, .connected width height) =>
      some ({ session with server := some (width, height) }.reconnectComplete now)
  | (_, .serverResized width height) =>
      some { session with server := session.server.map fun _ => (width, height) }
  | (_, .files openFiles) => some { session with openFiles := openFiles }
  | (_, .job active) => some { session with activeJob := active }

/-- A run of events. -/
def dispRun (session : DispSession) (events : List (Int × DispEvent)) : Option DispSession :=
  events.foldlM dispStep session

/-- The size that an event asks for, given the resolution of the connection. -/
def DispEvent.size (resolution : Int) : DispEvent → Option (Int × Int)
  | .resize optimalResolution width height =>
      (DispSession.alloc .none resolution 0 0 0).remoteSize optimalResolution width height
  | .channelConnected width height => some (width, height)
  | _ => none

/-- The size that has been asked for last. -/
def lastSize (resolution : Int) (before : Option (Int × Int)) (events : List (Int × DispEvent)) :
    Option (Int × Int) :=
  events.foldl (fun last event => (event.2.size resolution).or last) before

/-! ## The pace of requests -/

namespace DispSession

/-- Requests are further apart than the interval, the first one from when the module was allocated.
While a new connection is needed, the settings have the size of the latest request. -/
structure Sound (began now : Int) (session : DispSession) : Prop where
  spaced : session.requests.Pairwise fun later earlier =>
    dispUpdateInterval < later.time - earlier.time
  later : ∀ request ∈ session.requests, dispUpdateInterval < request.time - began
  past : ∀ request ∈ session.requests, request.time ≤ session.lastRequest
  started : began ≤ session.lastRequest
  recent : session.lastRequest ≤ now
  reconnecting : session.reconnectNeeded = true → session.resizeMethod = .reconnect ∧
    ∃ time, session.requests.head? = some ⟨time, session.settingsWidth, session.settingsHeight⟩

variable {began clock now : Int} {session after : DispSession}

theorem Sound.mono (sound : session.Sound began clock) (passed : clock ≤ now) :
    session.Sound began now :=
  { sound with recent := Int.le_trans sound.recent passed }

/-- A request is added that is not too early. -/
theorem Sound.request (sound : session.Sound began now)
    (due : dispUpdateInterval < now - session.lastRequest) (width height : Int)
    (same : after.requests = ⟨now, width, height⟩ :: session.requests)
    (last : after.lastRequest = now)
    (reconnecting : after.reconnectNeeded = true → after.resizeMethod = .reconnect ∧
      ∃ time, after.requests.head? = some ⟨time, after.settingsWidth, after.settingsHeight⟩) :
    after.Sound began now := by
  have started := sound.started
  refine ⟨?_, ?_, ?_, ?_, Int.le_of_eq last, reconnecting⟩
  · rw [same]
    refine List.pairwise_cons.mpr ⟨fun request member => ?_, sound.spaced⟩
    have past := sound.past request member
    dsimp only
    omega
  · rw [same]
    refine List.forall_mem_cons.mpr ⟨?_, sound.later⟩
    dsimp only
    omega
  · rw [same, last]
    exact List.forall_mem_cons.mpr
      ⟨Int.le_refl now, fun request member => Int.le_trans (sound.past request member) sound.recent⟩
  · rw [last]
    exact Int.le_trans started sound.recent

theorem Sound.updateSize (sound : session.Sound began now)
    (instanceSize : Option (Int × Int)) : (session.updateSize instanceSize now).Sound began now := by
  have denied (method : session.resizeMethod ≠ .reconnect) (needed : session.reconnectNeeded = true) :
      False := method (sound.reconnecting needed).1
  have postponed (method : session.resizeMethod ≠ .reconnect) :
      { session with lastRequest := now }.Sound began now :=
    { spaced := sound.spaced
      later := sound.later
      past := fun request member => Int.le_trans (sound.past request member) sound.recent
      started := Int.le_trans sound.started sound.recent
      recent := Int.le_refl now
      reconnecting := fun needed => (denied method needed).elim }
  unfold DispSession.updateSize
  dsimp only
  split
  · exact sound
  split
  · exact sound
  split
  · exact sound
  rename_i early _
  have due := Int.not_le.mp early
  split
  · rename_i method
    exact sound.request due _ _ rfl rfl fun _ => ⟨method, now, rfl⟩
  · rename_i method
    have other : session.resizeMethod ≠ .reconnect := fun same => nomatch method.symm.trans same
    split
    · exact sound.request due _ _ rfl rfl fun needed => (denied other needed).elim
    · exact postponed other
  · rename_i method
    exact postponed fun same => nomatch method.symm.trans same

theorem Sound.setSize (sound : session.Sound began now) {instanceSize : Option (Int × Int)}
    {width height : Int} (set : session.setSize instanceSize width height now = some after) :
    after.Sound began now := by
  obtain ⟨disp, -, rfl⟩ := Option.map_eq_some_iff.mp set
  exact @Sound.updateSize began now { session with toDisp := disp } { sound with } instanceSize

theorem Sound.step (sound : session.Sound began clock) {event : DispEvent} (passed : clock ≤ now)
    (stepped : dispStep session (now, event) = some after) : after.Sound began now := by
  have current := sound.mono passed
  cases event with
  | resize optimalResolution width height =>
      obtain ⟨size, -, set⟩ := Option.bind_eq_some_iff.mp stepped
      exact current.setSize set
  | channelConnected width height =>
      obtain ⟨middle, set, rfl⟩ := Option.map_eq_some_iff.mp stepped
      exact { current.setSize set with }
  | round =>
      obtain rfl := Option.some.inj stepped
      unfold DispSession.round
      split_ifs
      · exact current
      · exact { current with }
      · exact current.updateSize _
  | connected width height =>
      obtain rfl := Option.some.inj stepped
      exact {
        spaced := current.spaced
        later := current.later
        past := fun request member => Int.le_trans (current.past request member) current.recent
        started := Int.le_trans current.started current.recent
        recent := Int.le_refl now
        reconnecting := nofun }
  | _ =>
      obtain rfl := Option.some.inj stepped
      exact { current with }

theorem alloc_sound (resizeMethod : ResizeMethod) (resolution settingsWidth settingsHeight : Int) :
    (alloc resizeMethod resolution settingsWidth settingsHeight began).Sound began began where
  spaced := .nil
  later _ none := absurd none List.not_mem_nil
  past _ none := absurd none List.not_mem_nil
  started := Int.le_refl began
  recent := Int.le_refl began
  reconnecting := nofun

/-! ## The sizes that are requested -/

/-- Whatever has been asked for is allowed. -/
structure Allowed (session : DispSession) : Prop where
  asked : session.requestedWidth = 0 ∨ DispSizeAllowed session.toDisp
  requested : ∀ request ∈ session.requests, DispSizeAllowed ⟨request.width, request.height⟩

/-- The size that waits is the one that has been asked for last. -/
def Asked (last : Option (Int × Int)) (session : DispSession) : Prop :=
  ∀ size ∈ last, dispSetSize size.1 size.2 = some session.toDisp

theorem updateSize_kept (session : DispSession) (instanceSize : Option (Int × Int)) (now : Int) :
    (session.updateSize instanceSize now).toDisp = session.toDisp ∧
      (session.updateSize instanceSize now).resolution = session.resolution ∧
      (session.updateSize instanceSize now).server = session.server ∧
      ((session.updateSize instanceSize now).requests = session.requests ∨
        session.requestedWidth ≠ 0 ∧ (session.updateSize instanceSize now).requests =
          ⟨now, session.requestedWidth, session.requestedHeight⟩ :: session.requests) := by
  unfold DispSession.updateSize
  dsimp only
  split
  · exact ⟨rfl, rfl, rfl, .inl rfl⟩
  rename_i sized
  have wide : session.requestedWidth ≠ 0 := fun zero => sized (.inl zero)
  split
  · exact ⟨rfl, rfl, rfl, .inl rfl⟩
  split
  · exact ⟨rfl, rfl, rfl, .inl rfl⟩
  split
  · exact ⟨rfl, rfl, rfl, .inr ⟨wide, rfl⟩⟩
  · split
    · exact ⟨rfl, rfl, rfl, .inr ⟨wide, rfl⟩⟩
    · exact ⟨rfl, rfl, rfl, .inl rfl⟩
  · exact ⟨rfl, rfl, rfl, .inl rfl⟩

theorem Allowed.updateSize (allowed : session.Allowed) (instanceSize : Option (Int × Int))
    (now : Int) : (session.updateSize instanceSize now).Allowed := by
  obtain ⟨disp, -, -, requests⟩ := session.updateSize_kept instanceSize now
  refine ⟨disp ▸ allowed.asked, ?_⟩
  rcases requests with same | ⟨wide, more⟩
  · rw [same]
    exact allowed.requested
  · rw [more]
    exact List.forall_mem_cons.mpr ⟨allowed.asked.resolve_left wide, allowed.requested⟩

theorem setSize_eq {instanceSize : Option (Int × Int)} {width height : Int}
    (set : session.setSize instanceSize width height now = some after) :
    dispSetSize width height = some after.toDisp ∧ after.resolution = session.resolution ∧
      (session.Allowed → DispSizeAllowed after.toDisp → after.Allowed) := by
  obtain ⟨disp, fitted, rfl⟩ := Option.map_eq_some_iff.mp set
  obtain ⟨same, resolution, -⟩ := updateSize_kept { session with toDisp := disp } instanceSize now
  rw [same]
  refine ⟨fitted, resolution, fun allowed fits => ?_⟩
  have stored : DispSession.Allowed { session with toDisp := disp } :=
    ⟨.inr fits, allowed.requested⟩
  exact stored.updateSize instanceSize now

/-- An event that asks for a size leaves that one to be requested, and others the one before. -/
theorem dispStep_asked {event : DispEvent} {last : Option (Int × Int)}
    (asked : Asked last session) (stepped : dispStep session (now, event) = some after) :
    Asked ((event.size session.resolution).or last) after ∧
      after.resolution = session.resolution ∧
      ((∀ size ∈ event.size session.resolution, SizeFitted size.1 size.2) → session.Allowed →
        after.Allowed) := by
  have sized {size : Int × Int} {middle : DispSession} {instanceSize : Option (Int × Int)}
      (set : session.setSize instanceSize size.1 size.2 now = some middle) :
      Asked (some size) middle ∧ middle.resolution = session.resolution ∧
        (SizeFitted size.1 size.2 → session.Allowed → middle.Allowed) := by
    obtain ⟨fitted, resolution, allows⟩ := setSize_eq set
    refine ⟨fun other same => Option.some.inj same ▸ fitted, resolution, fun fits allowed => ?_⟩
    obtain ⟨-, _, _, -, -, disp, stored, within⟩ := fits
    exact allows allowed (Option.some.inj (stored.symm.trans fitted) ▸ within)
  cases event with
  | resize optimalResolution width height =>
      obtain ⟨size, remote, set⟩ := Option.bind_eq_some_iff.mp stepped
      have same : DispEvent.size session.resolution (.resize optimalResolution width height) =
          some size := remote
      obtain ⟨waits, resolution, allows⟩ := sized set
      rw [same]
      exact ⟨waits, resolution, fun fits => allows (fits size rfl)⟩
  | channelConnected width height =>
      obtain ⟨middle, set, rfl⟩ := Option.map_eq_some_iff.mp stepped
      obtain ⟨waits, resolution, allows⟩ := @sized (width, height) _ _ set
      exact ⟨waits, resolution, fun fits allowed => { allows (fits _ rfl) allowed with }⟩
  | round =>
      obtain rfl := Option.some.inj stepped
      unfold DispSession.round
      split_ifs
      · exact ⟨asked, rfl, fun _ allowed => allowed⟩
      · exact ⟨asked, rfl, fun _ allowed => { allowed with }⟩
      · obtain ⟨same, resolution, -⟩ := session.updateSize_kept session.server now
        refine ⟨fun size found => ?_, resolution, fun _ allowed => allowed.updateSize _ now⟩
        rw [same]
        exact asked size found
  | _ =>
      obtain rfl := Option.some.inj stepped
      exact ⟨asked, rfl, fun _ allowed => { allowed with }⟩

/-! ## Runs -/

/-- What holds of every size that is asked for holds of the last one. -/
theorem lastSize_of_all {resolution : Int} {holds : Int × Int → Prop} {last : Option (Int × Int)}
    {events : List (Int × DispEvent)} (before : ∀ size ∈ last, holds size)
    (all : ∀ event ∈ events, ∀ size ∈ event.2.size resolution, holds size) :
    ∀ size ∈ lastSize resolution last events, holds size := by
  induction events generalizing last with
  | nil => exact before
  | cons event events ih =>
      refine ih (fun size found => ?_) fun other member => all other (List.mem_cons_of_mem _ member)
      rcases Option.or_eq_some_iff.mp found with here | ⟨-, earlier⟩
      · exact all event (List.mem_cons_self ..) size here
      · exact before size earlier

/-- A round requests the size that waits, if there is a way to and the server does not have it. -/
theorem round_requests {size : Int × Int} (allowed : DispSizeAllowed session.toDisp)
    (connected : session.server = some size) (idle : session.needsReconnect = false)
    (due : dispUpdateInterval < now - session.lastRequest)
    (possible : session.resizeMethod = .reconnect ∨
      session.resizeMethod = .displayUpdate ∧ session.channel = true) :
    size = (session.requestedWidth, session.requestedHeight) ∨
      (session.round now).requests.head? =
        some ⟨now, session.requestedWidth, session.requestedHeight⟩ := by
  by_cases same : size = (session.requestedWidth, session.requestedHeight)
  · exact .inl same
  right
  have wide : 200 ≤ session.requestedWidth := allowed.width.1
  have high : 200 ≤ session.requestedHeight := allowed.height.1
  have other : ¬ session.server = some (session.requestedWidth, session.requestedHeight) :=
    fun equal => same (Option.some.inj (connected.symm.trans equal))
  unfold DispSession.round
  rw [if_neg (by rw [connected]; exact Option.some_ne_none size),
    if_neg (by rw [idle]; exact Bool.false_ne_true)]
  unfold DispSession.updateSize
  dsimp only
  rw [if_neg (by omega), if_neg (by omega), if_neg other]
  rcases possible with method | ⟨method, channel⟩
  · rw [method]
    rfl
  · rw [method, if_pos channel]
    rfl

/-- A round ends a connection only if that is needed. -/
theorem round_ends {size : Int × Int} (connected : session.server = some size)
    (ended : (session.round now).server = none) :
    (∀ opened ∈ session.openFiles, opened ≤ 0) ∧ session.activeJob = false ∧
      session.reconnectNeeded = true := by
  have needed : session.needsReconnect = true := by
    refine Decidable.byContradiction fun other => ?_
    unfold DispSession.round at ended
    rw [if_neg (by rw [connected]; exact Option.some_ne_none size), if_neg other,
      (session.updateSize_kept session.server now).2.2.1, connected] at ended
    exact Option.some_ne_none size ended
  unfold needsReconnect at needed
  split_ifs at needed with files job
  refine ⟨fun opened found => Int.not_lt.mp fun positive => files ?_, Bool.eq_false_iff.mpr job,
    needed⟩
  rw [Option.mem_def.mp found]
  exact decide_eq_true positive

/-- What holds throughout a run whose events are in the order of time. -/
structure Invariant (began clock resolution : Int) (last : Option (Int × Int))
    (session : DispSession) : Prop where
  sound : session.Sound began clock
  resolution : session.resolution = resolution
  asked : Asked last session
  allowed : session.Allowed

theorem Invariant.run {resolution : Int} {last : Option (Int × Int)}
    (invariant : Invariant began clock resolution last session) {events : List (Int × DispEvent)}
    (ordered : (clock :: events.map Prod.fst).Pairwise (· ≤ ·))
    (fitted : ∀ event ∈ events, ∀ size ∈ event.2.size resolution, SizeFitted size.1 size.2)
    (ran : dispRun session events = some after) :
    ∃ finish, Invariant began finish resolution (lastSize resolution last events) after := by
  induction events generalizing session clock last with
  | nil => exact ⟨clock, Option.some.inj ran ▸ invariant⟩
  | cons event events ih =>
      obtain ⟨middle, stepped, rest⟩ := Option.bind_eq_some_iff.mp ran
      obtain ⟨passed, later⟩ := List.pairwise_cons.mp ordered
      have waits := dispStep_asked invariant.asked stepped
      rw [invariant.resolution] at waits
      obtain ⟨asked, same, allows⟩ := waits
      refine ih ⟨?_, same, asked, ?_⟩ later
        (fun other member => fitted other (List.mem_cons_of_mem _ member)) rest
      · exact invariant.sound.step (passed event.1 (List.mem_cons_self ..)) stepped
      · exact allows (fitted event (List.mem_cons_self ..)) invariant.allowed

theorem alloc_invariant (resizeMethod : ResizeMethod)
    (resolution settingsWidth settingsHeight : Int) :
    Invariant began began resolution none
      (alloc resizeMethod resolution settingsWidth settingsHeight began) where
  sound := alloc_sound ..
  resolution := rfl
  asked _ none := absurd none.symm (Option.some_ne_none _)
  allowed := ⟨.inl rfl, fun _ none => absurd none List.not_mem_nil⟩

end DispSession

section Runs

variable (resizeMethod : ResizeMethod) (resolution settingsWidth settingsHeight began : Int)
  (events : List (Int × DispEvent)) {session : DispSession}
  (ordered : (began :: events.map Prod.fst).Pairwise (· ≤ ·))
  (fitted : ∀ event ∈ events, ∀ size ∈ event.2.size resolution, SizeFitted size.1 size.2)
  (ran : dispRun (.alloc resizeMethod resolution settingsWidth settingsHeight began) events =
    some session)

include ordered fitted ran

end Runs

/-- A user resizes the display twice within the interval before a round comes. -/
def resizedTwice : List (Int × DispEvent) :=
  [(10, .connected 1024 768), (20, .channelConnected 1024 768), (700, .resize 96 800 600),
   (750, .round), (800, .resize 96 641 480), (900, .round)]

/-- A size within the limits can be asked for. -/
theorem sizeFitted_within {width height : Int} (wide : WithinDispSize width)
    (high : WithinDispSize height) : SizeFitted width height := by
  have products {size : Int} (other : Int) (within : WithinDispSize size) :
      FitProductFits size other := by
    unfold WithinDispSize at within
    exact ⟨fun low => by omega, fun above => by omega⟩
  have stored : dispSetSize width height = some (storedSize width height) := by
    unfold dispSetSize
    rw [dispFit_within wide, Option.bind_some]
    dsimp only
    rw [dispFit_within high, Option.map_some]
  exact ⟨products height wide, _, _, dispFit_within wide, products width high, _, stored,
    storedSize_allowed wide high⟩

theorem resizedTwice_fitted : ∀ event ∈ resizedTwice, ∀ size ∈ event.2.size 96,
    SizeFitted size.1 size.2 := by
  have within : ∀ event ∈ resizedTwice, ∀ size ∈ event.2.size 96,
      WithinDispSize size.1 ∧ WithinDispSize size.2 := by
    decide
  exact fun event member size found => sizeFitted_within (within event member size found).1
    (within event member size found).2

end GuacNebula.Rdp
