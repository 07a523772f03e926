import GuacNebula.Lib.Run
import Mathlib.Algebra.GroupWithZero.Nat
import Mathlib.Data.List.Basic
import Mathlib.Tactic.SplitIfs

/-! # The clipboard channel

When something is copied on the server, it sends a Format List, and the client requests the data in
the format it likes best. The server answers requests in the order in which they were sent. The
client remembers the format of one request only, the latest, and reads every answer in it.

The session consists of the clipboard of the client and of the PDUs in flight in both directions.
-/

namespace GuacNebula.Rdp

open Run

/-- `CF_TEXT`. -/
def cfText : UInt32 := 1

/-- `CF_UNICODETEXT`. -/
def cfUnicodeText : UInt32 := 13

/-- The settings that decide what becomes of copied data. -/
structure ClipboardSettings where
  disableCopy : Bool
  normalizeClipboard : Bool

/-- The readers of `guac_iconv` for data from the server. -/
inductive RemoteReader where
  | cp1252 | cp1252Normalized | utf16 | utf16Normalized
  deriving DecidableEq, Repr

/-- `guac_rdp_clipboard`, as far as it concerns data from the server. -/
structure Clipboard where
  requestedFormat : UInt32
  deriving DecidableEq, Repr

/-- PDUs of the client. -/
inductive ClientPdu where
  | formatListResponse
  | formatDataRequest (requestedFormatId : UInt32)
  deriving DecidableEq, Repr

/-- PDUs of the server. A response is marked with the format of the request that it answers, which
is not part of the PDU. -/
inductive ServerPdu where
  | formatList (formats : List UInt32)
  | formatDataResponse (request : UInt32) (requestedFormatData : List UInt8)
  deriving DecidableEq, Repr

/-- Data that has been read, and the format of the request that it answers. -/
structure Decoding where
  request : UInt32
  reader : RemoteReader
  data : List UInt8
  deriving DecidableEq, Repr

/-- `guac_rdp_cliprdr_format_supported`. -/
def formatSupported (formats : List UInt32) (formatId : UInt32) : Bool :=
  formats.any (· == formatId)

/-- `guac_rdp_cliprdr_send_format_data_request`. -/
def sendFormatDataRequest (_clipboard : Clipboard) (format : UInt32) :
    Clipboard × List ClientPdu :=
  ({ requestedFormat := format }, [.formatDataRequest format])

/-- `guac_rdp_cliprdr_format_list`: the clipboard and the PDUs sent. -/
def cliprdrFormatList (clipboard : Clipboard) (formats : List UInt32) :
    Clipboard × List ClientPdu :=
  if formatSupported formats cfUnicodeText then
    let (clipboard, sent) := sendFormatDataRequest clipboard cfUnicodeText
    (clipboard, .formatListResponse :: sent)
  else if formatSupported formats cfText then
    let (clipboard, sent) := sendFormatDataRequest clipboard cfText
    (clipboard, .formatListResponse :: sent)
  else (clipboard, [.formatListResponse])

/-- The reader for a format. -/
def remoteReader (settings : ClipboardSettings) (format : UInt32) : Option RemoteReader :=
  if format = cfText then
    some (if settings.normalizeClipboard then .cp1252Normalized else .cp1252)
  else if format = cfUnicodeText then
    some (if settings.normalizeClipboard then .utf16Normalized else .utf16)
  else none

/-- `guac_rdp_cliprdr_format_data_response`: the reader that the data is read with, unless it is
ignored. -/
def cliprdrFormatDataResponse (settings : ClipboardSettings) (clipboard : Clipboard) :
    Option RemoteReader :=
  if settings.disableCopy then none else remoteReader settings clipboard.requestedFormat

/-- The client, and the PDUs in flight, oldest first. -/
structure ClipboardSession where
  clipboard : Clipboard
  toServer : List ClientPdu
  toClient : List ServerPdu
  decoded : List Decoding
  deriving DecidableEq, Repr

/-- What can happen: something is copied on the server, the server handles the oldest PDU of the
client, or the client the oldest one of the server. -/
inductive ClipboardAction where
  | copy (formats : List UInt32)
  | serve (data : List UInt8)
  | deliver
  deriving DecidableEq, Repr

/-- `guac_rdp_clipboard_alloc`. -/
def ClipboardSession.start : ClipboardSession where
  clipboard := { requestedFormat := cfText }
  toServer := []
  toClient := []
  decoded := []

/-- The server handles a PDU of the client. A request is answered with the data given. -/
def serverHandle (data : List UInt8) : ClientPdu → List ServerPdu
  | .formatListResponse => []
  | .formatDataRequest format => [.formatDataResponse format data]

/-- The client handles a PDU of the server. -/
def clientHandle (settings : ClipboardSettings) (session : ClipboardSession) :
    ServerPdu → ClipboardSession
  | .formatList formats =>
      let (clipboard, sent) := cliprdrFormatList session.clipboard formats
      { session with clipboard := clipboard, toServer := session.toServer ++ sent }
  | .formatDataResponse request data =>
      match cliprdrFormatDataResponse settings session.clipboard with
      | none => session
      | some reader =>
          { session with
            decoded := { request := request, reader := reader, data := data } :: session.decoded }

/-- One step of the session. Nothing happens when there is no PDU to handle. -/
def clipboardStep (settings : ClipboardSettings) (session : ClipboardSession) :
    ClipboardAction → ClipboardSession
  | .copy formats => { session with toClient := session.toClient ++ [.formatList formats] }
  | .serve data =>
      match session.toServer with
      | [] => session
      | pdu :: rest =>
          { session with
            toServer := rest
            toClient := session.toClient ++ serverHandle data pdu }
  | .deliver =>
      match session.toClient with
      | [] => session
      | pdu :: rest => clientHandle settings { session with toClient := rest } pdu

/-- Every answer was read in the format that was requested. -/
def DecodedAsRequested (settings : ClipboardSettings) (session : ClipboardSession) : Prop :=
  ∀ decoding ∈ session.decoded, remoteReader settings decoding.request = some decoding.reader

instance (settings : ClipboardSettings) (session : ClipboardSession) :
    Decidable (DecodedAsRequested settings session) :=
  List.decidableBAll _ session.decoded

/-- The request that a PDU of the server answers. -/
def ServerPdu.request : ServerPdu → Option UInt32
  | .formatList _ => none
  | .formatDataResponse request _ => some request

/-- The request that a PDU of the client is. -/
def ClientPdu.request : ClientPdu → Option UInt32
  | .formatListResponse => none
  | .formatDataRequest format => some format

/-- The formats of the requests whose answers have not reached the client, oldest first. -/
def ClipboardSession.unanswered (session : ClipboardSession) : List UInt32 :=
  session.toClient.filterMap ServerPdu.request ++ session.toServer.filterMap ClientPdu.request

/-- The format that the client requests when it is given a Format List. -/
def preferredFormat (formats : List UInt32) : Option UInt32 :=
  if formatSupported formats cfUnicodeText then some cfUnicodeText
  else if formatSupported formats cfText then some cfText
  else none

/-- The format that the client requests in a step. -/
def ClipboardSession.requests (session : ClipboardSession) (action : ClipboardAction) :
    Option UInt32 :=
  match action, session.toClient with
  | .deliver, .formatList formats :: _ => preferredFormat formats
  | _, _ => none

/-- The client requests nothing while a request for another format is unanswered, unless data from
the server is ignored anyway. -/
def RequestsAlike (settings : ClipboardSettings) (session : ClipboardSession)
    (action : ClipboardAction) : Prop :=
  settings.disableCopy = true
    ∨ ∀ format ∈ session.requests action, ∀ other ∈ session.unanswered, other = format

instance (settings : ClipboardSettings) (session : ClipboardSession) (action : ClipboardAction) :
    Decidable (RequestsAlike settings session action) :=
  have : Decidable (∀ format ∈ session.requests action, ∀ other ∈ session.unanswered,
      other = format) :=
    @Option.decidableForallMem _ _ (fun _ => List.decidableBAll _ _) _
  inferInstanceAs (Decidable (_ ∨ _))

section Steps

variable (settings : ClipboardSettings) (session : ClipboardSession)

theorem cliprdrFormatList_eq (clipboard : Clipboard) (formats : List UInt32) :
    cliprdrFormatList clipboard formats =
      match preferredFormat formats with
      | none => (clipboard, [.formatListResponse])
      | some format =>
          ({ requestedFormat := format }, [.formatListResponse, .formatDataRequest format]) := by
  unfold cliprdrFormatList preferredFormat
  split_ifs <;> rfl

/-- Only formats that can be read are requested. -/
theorem preferredFormat_known {formats : List UInt32} {format : UInt32}
    (preferred : preferredFormat formats = some format) :
    format = cfText ∨ format = cfUnicodeText := by
  unfold preferredFormat at preferred
  split_ifs at preferred
  · exact Or.inr (Option.some.inj preferred).symm
  · exact Or.inl (Option.some.inj preferred).symm

/-- What a step does to the requests: nothing, or a request is sent, or the oldest one is
answered. -/
inductive ClipboardEffect (action : ClipboardAction) (after : ClipboardSession) : Prop where
  | none (quiet : session.requests action = .none)
      (unanswered : after.unanswered = session.unanswered)
      (clipboard : after.clipboard = session.clipboard) (decoded : after.decoded = session.decoded)
  | request (format : UInt32) (requests : session.requests action = some format)
      (known : format = cfText ∨ format = cfUnicodeText)
      (unanswered : after.unanswered = session.unanswered ++ [format])
      (clipboard : after.clipboard = { requestedFormat := format })
      (decoded : after.decoded = session.decoded)
  | answer (request : UInt32) (data : List UInt8) (quiet : session.requests action = .none)
      (unanswered : session.unanswered = request :: after.unanswered)
      (clipboard : after.clipboard = session.clipboard)
      (decoded : after.decoded =
        (cliprdrFormatDataResponse settings session.clipboard).elim session.decoded
          fun reader => { request := request, reader := reader, data := data } :: session.decoded)

theorem clipboardStep_effect (action : ClipboardAction) :
    ClipboardEffect settings session action (clipboardStep settings session action) := by
  obtain ⟨clipboard, toServer, toClient, decoded⟩ := session
  cases action with
  | copy formats =>
      refine .none rfl ?_ rfl rfl
      change (toClient ++ [ServerPdu.formatList formats]).filterMap _ ++ _ = _
      rw [List.filterMap_append]
      exact congrArg (· ++ _) (List.append_nil _)
  | serve data =>
      cases toServer with
      | nil => exact .none rfl rfl rfl rfl
      | cons pdu rest =>
          refine .none rfl ?_ rfl rfl
          change (toClient ++ serverHandle data pdu).filterMap _ ++ rest.filterMap _ = _
          rw [List.filterMap_append, List.append_assoc]
          cases pdu <;> rfl
  | deliver =>
      cases toClient with
      | nil => exact .none rfl rfl rfl rfl
      | cons pdu rest =>
          cases pdu with
          | formatList formats =>
              have step : clipboardStep settings ⟨clipboard, toServer, .formatList formats :: rest,
                  decoded⟩ .deliver =
                    { clipboard := (cliprdrFormatList clipboard formats).1
                      toServer := toServer ++ (cliprdrFormatList clipboard formats).2
                      toClient := rest
                      decoded := decoded } := rfl
              rw [step, cliprdrFormatList_eq]
              cases preferred : preferredFormat formats with
              | none =>
                  refine .none preferred ?_ rfl rfl
                  change rest.filterMap _ ++ (toServer ++ [_]).filterMap _ = _
                  rw [List.filterMap_append]
                  exact congrArg (rest.filterMap _ ++ ·) (List.append_nil _)
              | some format =>
                  refine .request format preferred (preferredFormat_known preferred) ?_ rfl rfl
                  change rest.filterMap _ ++ (toServer ++ [_, _]).filterMap _ = _
                  rw [List.filterMap_append, ← List.append_assoc]
                  rfl
          | formatDataResponse request data =>
              have step : clipboardStep settings ⟨clipboard, toServer,
                  .formatDataResponse request data :: rest, decoded⟩ .deliver =
                    clientHandle settings ⟨clipboard, toServer, rest, decoded⟩
                      (.formatDataResponse request data) := rfl
              rw [step]
              unfold clientHandle
              cases read : cliprdrFormatDataResponse settings clipboard with
              | none =>
                  refine .answer request data rfl rfl rfl ?_
                  rw [read]
                  rfl
              | some reader =>
                  refine .answer request data rfl rfl rfl ?_
                  rw [read]
                  rfl

end Steps

/-! ## Runs -/

/-- What holds of the requests in every session: the client can read what it has requested, and
remembers the format of the latest request. -/
structure RequestsKnown (session : ClipboardSession) : Prop where
  remembered : session.clipboard.requestedFormat = cfText
    ∨ session.clipboard.requestedFormat = cfUnicodeText
  unanswered : ∀ format ∈ session.unanswered, format = cfText ∨ format = cfUnicodeText
  latest : ∀ format ∈ session.unanswered.getLast?, format = session.clipboard.requestedFormat

section Runs

variable {settings : ClipboardSettings} {session : ClipboardSession}

theorem RequestsKnown.start : RequestsKnown .start :=
  ⟨Or.inl rfl, List.forall_mem_nil _, nofun⟩

theorem RequestsKnown.step (known : RequestsKnown session) (action : ClipboardAction) :
    RequestsKnown (clipboardStep settings session action) := by
  cases clipboardStep_effect settings session action with
  | none quiet unanswered clipboard decoded =>
      constructor
      · rw [clipboard]
        exact known.remembered
      · rw [unanswered]
        exact known.unanswered
      · rw [unanswered, clipboard]
        exact known.latest
  | request format requests readable unanswered clipboard decoded =>
      constructor
      · rw [clipboard]
        exact readable
      · rw [unanswered]
        intro other member
        rcases List.mem_append.mp member with earlier | last
        · exact known.unanswered other earlier
        · rw [List.mem_singleton.mp last]
          exact readable
      · rw [unanswered, clipboard, List.getLast?_concat]
        exact fun other same => (Option.some.inj same).symm
  | answer request data quiet unanswered clipboard decoded =>
      constructor
      · rw [clipboard]
        exact known.remembered
      · intro format member
        exact known.unanswered format (unanswered ▸ List.mem_cons_of_mem _ member)
      · intro format last
        rw [clipboard]
        apply known.latest format
        rw [unanswered, List.getLast?_cons, Option.mem_def.mp last]
        rfl

/-- Two formats that can be read are read differently. -/
theorem remoteReader_inj {first second : UInt32} (left : first = cfText ∨ first = cfUnicodeText)
    (right : second = cfText ∨ second = cfUnicodeText)
    (same : remoteReader settings first = remoteReader settings second) : first = second := by
  obtain ⟨disable, normalize⟩ := settings
  rcases left with rfl | rfl <;> rcases right with rfl | rfl
  · rfl
  · cases disable <;> cases normalize <;> exact absurd same (by decide)
  · cases disable <;> cases normalize <;> exact absurd same (by decide)
  · rfl

/-- All unanswered requests are for the format that the client remembers. -/
def RequestedAlike (settings : ClipboardSettings) (session : ClipboardSession) : Prop :=
  settings.disableCopy = true
    ∨ ∀ format ∈ session.unanswered, format = session.clipboard.requestedFormat

/-- While all requests are alike, every answer is read as requested. -/
theorem RequestsAlike.step {action : ClipboardAction} (alike : RequestsAlike settings session action)
    (requested : RequestedAlike settings session)
    (decodedRight : DecodedAsRequested settings session) :
    RequestedAlike settings (clipboardStep settings session action)
      ∧ DecodedAsRequested settings (clipboardStep settings session action) := by
  unfold DecodedAsRequested at decodedRight ⊢
  cases clipboardStep_effect settings session action with
  | none quiet unanswered clipboard decoded =>
      rw [RequestedAlike, unanswered, clipboard, decoded]
      exact ⟨requested, decodedRight⟩
  | request format requests readable unanswered clipboard decoded =>
      rw [RequestedAlike, unanswered, clipboard, decoded]
      refine ⟨alike.imp_right fun same other member => ?_, decodedRight⟩
      rcases List.mem_append.mp member with earlier | last
      · exact same format requests other earlier
      · exact List.mem_singleton.mp last
  | answer request data quiet unanswered clipboard decoded =>
      rw [RequestedAlike, clipboard, decoded]
      rw [RequestedAlike, unanswered] at requested
      refine ⟨requested.imp_right fun same format member =>
        same format (List.mem_cons_of_mem _ member), ?_⟩
      unfold cliprdrFormatDataResponse
      split_ifs with disabled
      · exact decodedRight
      cases read : remoteReader settings session.clipboard.requestedFormat with
      | none => exact decodedRight
      | some reader =>
          intro decoding member
          rcases List.mem_cons.mp member with rfl | earlier
          · rw [(requested.resolve_left disabled) request (List.mem_cons_self ..)]
            exact read
          · exact decodedRight decoding earlier

/-- A request for another format than the remembered one is unanswered. -/
def Mixed (session : ClipboardSession) : Prop :=
  ∃ format ∈ session.unanswered, format ≠ session.clipboard.requestedFormat

/-- Unanswered requests for different formats remain until an answer is read wrongly. -/
theorem Mixed.step (mixed : Mixed session) (known : RequestsKnown session)
    (enabled : settings.disableCopy ≠ true) (action : ClipboardAction) :
    Mixed (clipboardStep settings session action)
      ∨ ¬ DecodedAsRequested settings (clipboardStep settings session action) := by
  obtain ⟨other, waiting, different⟩ := mixed
  cases clipboardStep_effect settings session action with
  | none quiet unanswered clipboard decoded =>
      refine Or.inl ⟨other, ?_, ?_⟩
      · rw [unanswered]
        exact waiting
      · rw [clipboard]
        exact different
  | request format requests readable unanswered clipboard decoded =>
      -- The new request differs from one of the two before it.
      refine Or.inl ?_
      rw [Mixed, unanswered, clipboard]
      by_cases same : other = format
      · obtain ⟨last, found⟩ := Option.ne_none_iff_exists'.mp
          (mt List.getLast?_eq_none_iff.mp (List.ne_nil_of_mem waiting))
        have remembered := known.latest last found
        refine ⟨last, List.mem_append_left _ (List.mem_of_getLast? found), ?_⟩
        rw [remembered, ← same]
        exact different.symm
      · exact ⟨other, List.mem_append_left _ waiting, same⟩
  | answer request data quiet unanswered clipboard decoded =>
      rw [unanswered] at waiting
      by_cases right : request = session.clipboard.requestedFormat
      · refine Or.inl ⟨other, ?_, ?_⟩
        · exact (List.mem_cons.mp waiting).resolve_left fun first => different (first.trans right)
        · rw [clipboard]
          exact different
      · refine Or.inr fun decodedRight => right ?_
        have readable := known.unanswered request (unanswered ▸ List.mem_cons_self ..)
        obtain ⟨reader, read⟩ :
            ∃ reader, remoteReader settings session.clipboard.requestedFormat = some reader := by
          rcases known.remembered with remembered | remembered <;> rw [remembered] <;>
            exact ⟨_, rfl⟩
        unfold DecodedAsRequested at decodedRight
        rw [decoded, cliprdrFormatDataResponse, if_neg enabled, read] at decodedRight
        have asked := decodedRight _ (List.mem_cons_self ..)
        exact remoteReader_inj readable known.remembered (asked.trans read.symm)

/-- The number of steps that a PDU in flight can still cause, its answers included. -/
def ServerPdu.price : ServerPdu → Nat
  | .formatList _ => 4
  | .formatDataResponse _ _ => 1

/-- The number of steps that a PDU in flight can still cause, its answers included. -/
def ClientPdu.price : ClientPdu → Nat
  | .formatListResponse => 1
  | .formatDataRequest _ => 2

/-- The number of steps until nothing is in flight, if nothing else is copied. -/
def ClipboardSession.inFlight (session : ClipboardSession) : Nat :=
  (session.toClient.map ServerPdu.price).sum + (session.toServer.map ClientPdu.price).sum

/-- While something is in flight, there is a step that leaves less in flight. -/
theorem inFlight_decreases (settings : ClipboardSettings) (session : ClipboardSession)
    (waiting : session.unanswered ≠ []) :
    ∃ action, (∀ formats, action ≠ .copy formats)
      ∧ (clipboardStep settings session action).inFlight < session.inFlight := by
  obtain ⟨clipboard, toServer, toClient, decoded⟩ := session
  cases toClient with
  | cons pdu rest =>
      refine ⟨.deliver, nofun, ?_⟩
      cases pdu with
      | formatList formats =>
          simp only [clipboardStep, clientHandle, cliprdrFormatList_eq, ClipboardSession.inFlight,
            List.map_cons, List.sum_cons, ServerPdu.price, List.map_append, List.sum_append]
          cases preferredFormat formats <;>
            simp only [List.map_cons, List.map_nil, List.sum_cons, List.sum_nil, ClientPdu.price] <;>
            omega
      | formatDataResponse request data =>
          simp only [clipboardStep, clientHandle, ClipboardSession.inFlight, List.map_cons,
            List.sum_cons, ServerPdu.price]
          cases cliprdrFormatDataResponse settings clipboard <;> dsimp only <;> omega
  | nil =>
      cases toServer with
      | nil => exact absurd rfl waiting
      | cons pdu rest =>
          refine ⟨.serve [], nofun, ?_⟩
          cases pdu <;>
            simp only [clipboardStep, serverHandle, ClipboardSession.inFlight, List.map_cons,
              List.map_nil, List.nil_append, List.sum_cons, List.sum_nil, ServerPdu.price,
              ClientPdu.price] <;>
            omega

/-- Unanswered requests for different formats lead to an answer that is read wrongly, though
nothing else is copied. -/
theorem Mixed.finish (enabled : settings.disableCopy ≠ true) :
    ∀ (session : ClipboardSession), Mixed session → RequestsKnown session →
      ∃ rest, (∀ action ∈ rest, ∀ formats, action ≠ .copy formats)
        ∧ ¬ Always (clipboardStep settings) (DecodedAsRequested settings) session rest := by
  intro session
  induction left : session.inFlight using Nat.strongRecOn generalizing session with
  | ind count ih =>
      intro mixed known
      obtain ⟨format, waiting, _⟩ := id mixed
      obtain ⟨action, noCopy, fewer⟩ :=
        inFlight_decreases settings session (List.ne_nil_of_mem waiting)
      rcases mixed.step known enabled action with mixed' | wrong
      · obtain ⟨rest, quiet, broken⟩ := ih _ (left ▸ fewer) _ rfl mixed' (known.step action)
        exact ⟨action :: rest, List.forall_mem_cons.mpr ⟨noCopy, quiet⟩,
          fun always => broken always.2⟩
      · exact ⟨[action], List.forall_mem_singleton.mpr noCopy, fun always => wrong always.2⟩

/-- They do so whatever happens next. -/
theorem Mixed.always (enabled : settings.disableCopy ≠ true) {session : ClipboardSession}
    (mixed : Mixed session) (known : RequestsKnown session) (actions : List ClipboardAction) :
    ∃ rest, (∀ action ∈ rest, ∀ formats, action ≠ .copy formats)
      ∧ ¬ Always (clipboardStep settings) (DecodedAsRequested settings) session
        (actions ++ rest) := by
  induction actions generalizing session with
  | nil => exact mixed.finish enabled session known
  | cons action actions ih =>
      rcases mixed.step known enabled action with mixed' | wrong
      · obtain ⟨rest, quiet, broken⟩ := ih mixed' (known.step action)
        exact ⟨rest, quiet, fun always => broken always.2⟩
      · exact ⟨[], List.forall_mem_nil _, fun always => wrong always.2.head⟩

/-- A step that requests another format than the unanswered one leaves them mixed. -/
theorem not_requestsAlike {action : ClipboardAction}
    (differs : ¬ RequestsAlike settings session action) :
    settings.disableCopy ≠ true ∧ Mixed (clipboardStep settings session action) := by
  obtain ⟨enabled, differs⟩ := not_or.mp differs
  push Not at differs
  obtain ⟨format, requests, other, waiting, different⟩ := differs
  refine ⟨enabled, ?_⟩
  cases clipboardStep_effect settings session action with
  | none quiet => cases quiet.symm.trans requests
  | answer request data quiet => cases quiet.symm.trans requests
  | request format' requests' readable unanswered clipboard decoded =>
      obtain rfl := Option.some.inj (requests'.symm.trans requests)
      refine ⟨other, ?_, ?_⟩
      · rw [unanswered]
        exact List.mem_append_left _ waiting
      · rw [clipboard]
        exact different

end Runs

/-- **Every answer is read in the format that was requested as long as the client requests nothing
while a request for another format is unanswered. Once it does, the PDUs then in flight lead to an
answer that is read wrongly.** -/
theorem decodedAsRequested_of_requestsAlike (settings : ClipboardSettings)
    (actions : List ClipboardAction) :
    (Guarded (clipboardStep settings) (RequestsAlike settings) .start actions →
        Always (clipboardStep settings) (DecodedAsRequested settings) .start actions)
      ∧ (¬ Guarded (clipboardStep settings) (RequestsAlike settings) .start actions →
        ∃ rest, (∀ action ∈ rest, ∀ formats, action ≠ .copy formats)
          ∧ ¬ Always (clipboardStep settings) (DecodedAsRequested settings) .start
            (actions ++ rest)) := by
  constructor
  · intro alike
    have both : Always (clipboardStep settings)
        (fun session => RequestedAlike settings session ∧ DecodedAsRequested settings session)
        .start actions :=
      alike.always ⟨Or.inr (List.forall_mem_nil _), List.forall_mem_nil _⟩
        fun session action holds alike => alike.step holds.1 holds.2
    exact both.mono fun session holds => holds.2
  · have known := RequestsKnown.start
    generalize ClipboardSession.start = session at known ⊢
    induction actions generalizing session with
    | nil => exact fun broken => absurd trivial broken
    | cons action actions ih =>
        intro broken
        by_cases alike : RequestsAlike settings session action
        · obtain ⟨rest, quiet, wrong⟩ :=
            ih _ (known.step action) fun guarded => broken ⟨alike, guarded⟩
          exact ⟨rest, quiet, fun always => wrong always.2⟩
        · obtain ⟨enabled, mixed⟩ := not_requestsAlike alike
          obtain ⟨rest, quiet, wrong⟩ := mixed.always enabled (known.step action) actions
          exact ⟨rest, quiet, fun always => wrong always.2⟩

/-- Text that is copied while other text is being fetched, in the same format. -/
theorem decodedAsRequested_unicode :
    Always (clipboardStep ⟨false, false⟩) (DecodedAsRequested ⟨false, false⟩) .start
      [.copy [13, 1], .copy [13], .deliver, .deliver, .serve [], .serve [0x41, 0],
        .serve [], .serve [0x42, 0], .deliver, .deliver] :=
  (decodedAsRequested_of_requestsAlike ⟨false, false⟩ _).1 (by decide)

/-- Unicode text is copied, and then text without Unicode, before the first is fetched. -/
theorem decodedAsRequested_mixed :
    ¬ Always (clipboardStep ⟨false, false⟩) (DecodedAsRequested ⟨false, false⟩) .start
      [.copy [13, 1], .copy [1], .deliver, .deliver, .serve [], .serve [0x41, 0], .deliver] := by
  intro always
  exact absurd always.last (by decide)

end GuacNebula.Rdp
