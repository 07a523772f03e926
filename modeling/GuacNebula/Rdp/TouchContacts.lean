import GuacNebula.Lib.Run
import Mathlib.Data.Fin.Basic
import Mathlib.Data.List.FinRange
import Mathlib.Data.UInt
import Mathlib.Logic.Function.Basic

/-! # Touch contacts

Touches of the user are tracked in a table of slots and sent to the server through the RDPEI channel.
The slots stay active when the channel is disconnected, so that a touch can be continued on a
connection where it never began.

The main result is `contacts_iff`: what is sent on every connection consists of whole contacts if and
only if no touch is updated whose slot was left active by an earlier connection.
-/

namespace GuacNebula.Rdp

open Run

/-- `GUAC_RDP_RDPEI_MAX_TOUCHES`. -/
def maxTouches : Nat := 10

/-- `guac_rdp_rdpei_touch`, whose coordinates are never used. The program has no `since`: it is the
number of the connection on which the touch became active. -/
structure Touch where
  active : Bool
  id : Int
  since : Nat := 0
  deriving DecidableEq, Repr

/-- `guac_rdp_rdpei`. The program has no `connection`: it counts the connections of the channel. -/
structure Rdpei where
  connected : Bool
  connection : Nat := 0
  touch : Fin maxTouches → Touch

/-- What is sent for a touch. -/
inductive TouchKind
  | touchBegin | touchUpdate | touchEnd
  deriving DecidableEq, Repr

/-- A call of the RDPEI interface. -/
structure TouchEvent where
  kind : TouchKind
  id : Int
  x : Int
  y : Int
  deriving DecidableEq, Repr

/-- A force, as a double by its bits, equals zero. -/
def isZero (force : UInt64) : Bool := force <<< 1 = 0

namespace Rdpei

variable (rdpei : Rdpei)

/-- `guac_rdp_rdpei_alloc`. What memory held as the IDs of the slots is not read. -/
def alloc (ids : Fin maxTouches → Int) : Rdpei where
  connected := false
  touch := fun slot => { active := false, id := ids slot }

/-- `guac_rdp_rdpei_channel_connected`, for a channel that may be another one. -/
def channelConnected (isRdpei : Bool) : Rdpei :=
  if !isRdpei then rdpei
  else { rdpei with connected := true, connection := rdpei.connection + 1 }

/-- `guac_rdp_rdpei_channel_disconnected`. -/
def channelDisconnected (isRdpei : Bool) : Rdpei :=
  if !isRdpei then rdpei else { rdpei with connected := false }

/-- The first slot that meets a condition. -/
def findSlot (condition : Touch → Bool) : Option (Fin maxTouches) :=
  (List.finRange maxTouches).find? fun slot => condition (rdpei.touch slot)

/-- The touch in a slot is replaced. -/
def setSlot (slot : Fin maxTouches) (touch : Touch) : Rdpei :=
  { rdpei with touch := Function.update rdpei.touch slot touch }

/-- The slot that is used for an ID, which is set if the slot is a new one. -/
def locate (id : Int) : Option (Fin maxTouches × Touch) :=
  match rdpei.findSlot fun touch => touch.active && touch.id = id with
  | some slot => some (slot, rdpei.touch slot)
  | none =>
      match rdpei.findSlot fun touch => !touch.active with
      | some slot => some (slot, { rdpei.touch slot with id := id })
      | none => none

/-- `guac_rdp_rdpei_touch_update`: the module, what is sent, and the result. -/
def touchUpdate (id x y : Int) (force : UInt64) : Rdpei × List TouchEvent × Int :=
  if !rdpei.connected then (rdpei, [], 1)
  else
    match rdpei.locate id with
    | none => (rdpei, [], 1)
    | some (slot, touch) =>
        if isZero force then
          if !touch.active then (rdpei.setSlot slot touch, [], 1)
          else (rdpei.setSlot slot { touch with active := false }, [⟨.touchEnd, id, x, y⟩], 0)
        else if !touch.active then
          (rdpei.setSlot slot { touch with active := true, since := rdpei.connection },
            [⟨.touchBegin, id, x, y⟩], 0)
        else (rdpei.setSlot slot touch, [⟨.touchUpdate, id, x, y⟩], 0)

end Rdpei

/-! ## Contacts -/

/-- A contact with a number of updates. -/
def contact (updates : Nat) : List TouchKind :=
  .touchBegin :: List.replicate updates .touchUpdate ++ [.touchEnd]

/-- Whole contacts one after the other. -/
def ContactsClosed (kinds : List TouchKind) : Prop :=
  ∃ whole : List Nat, kinds = whole.flatMap contact

/-- Whole contacts one after the other, and the beginning of another one. -/
def ContactsOpen (kinds : List TouchKind) : Prop :=
  ∃ (whole : List Nat) (updates : Nat),
    kinds = whole.flatMap contact ++ .touchBegin :: List.replicate updates .touchUpdate

/-- A sequence of contacts, of which the last one may go on. -/
def Contacts (kinds : List TouchKind) : Prop := ContactsClosed kinds ∨ ContactsOpen kinds

theorem ContactsClosed.touchBegin {kinds : List TouchKind} (closed : ContactsClosed kinds) :
    ContactsOpen (kinds ++ [.touchBegin]) := by
  obtain ⟨whole, rfl⟩ := closed
  exact ⟨whole, 0, rfl⟩

theorem ContactsOpen.touchUpdate {kinds : List TouchKind} (opened : ContactsOpen kinds) :
    ContactsOpen (kinds ++ [.touchUpdate]) := by
  obtain ⟨whole, updates, rfl⟩ := opened
  refine ⟨whole, updates + 1, ?_⟩
  rw [List.replicate_succ', List.append_assoc, List.cons_append]

theorem ContactsOpen.touchEnd {kinds : List TouchKind} (opened : ContactsOpen kinds) :
    ContactsClosed (kinds ++ [.touchEnd]) := by
  obtain ⟨whole, updates, rfl⟩ := opened
  refine ⟨whole ++ [updates], ?_⟩
  rw [List.flatMap_append, List.flatMap_singleton, List.append_assoc]
  rfl

/-- Whether a contact is open, as the server follows what it is sent. -/
def follow : Option Bool → TouchKind → Option Bool
  | some false, .touchBegin => some true
  | some true, .touchUpdate => some true
  | some true, .touchEnd => some false
  | _, _ => none

theorem follow_updates (updates : Nat) :
    (List.replicate updates TouchKind.touchUpdate).foldl follow (some true) = some true := by
  induction updates with
  | zero => rfl
  | succ updates ih => exact ih

theorem follow_contact (updates : Nat) :
    (contact updates).foldl follow (some false) = some false := by
  unfold contact
  rw [List.foldl_append]
  exact congrArg (follow · .touchEnd) (follow_updates updates)

theorem follow_whole (whole : List Nat) :
    (whole.flatMap contact).foldl follow (some false) = some false := by
  induction whole with
  | nil => rfl
  | cons updates whole ih => rw [List.flatMap_cons, List.foldl_append, follow_contact, ih]

theorem ContactsClosed.follow {kinds : List TouchKind} (closed : ContactsClosed kinds) :
    kinds.foldl follow (some false) = some false := by
  obtain ⟨whole, rfl⟩ := closed
  exact follow_whole whole

theorem Contacts.follow {kinds : List TouchKind} (contacts : Contacts kinds) :
    kinds.foldl follow (some false) ≠ none := by
  rcases contacts with closed | ⟨whole, updates, rfl⟩
  · rw [closed.follow]
    exact Option.some_ne_none _
  · rw [List.foldl_append, follow_whole]
    exact ne_of_eq_of_ne (follow_updates updates) (Option.some_ne_none _)

/-- Without an open contact there is nothing to update or to end. -/
theorem ContactsClosed.not_contacts {kinds : List TouchKind} (closed : ContactsClosed kinds)
    {kind : TouchKind} (late : kind ≠ .touchBegin) : ¬ Contacts (kinds ++ [kind]) := by
  intro contacts
  have followed := contacts.follow
  rw [List.foldl_append, closed.follow] at followed
  cases kind with
  | touchBegin => exact late rfl
  | touchUpdate => exact followed rfl
  | touchEnd => exact followed rfl

/-- What was sent for an ID. -/
def kindsOf (id : Int) (events : List TouchEvent) : List TouchKind :=
  (events.filter fun event => event.id = id).map TouchEvent.kind

theorem kindsOf_same (events : List TouchEvent) (event : TouchEvent) :
    kindsOf event.id (events ++ [event]) = kindsOf event.id events ++ [event.kind] := by
  simp [kindsOf]

theorem kindsOf_other {id : Int} {event : TouchEvent} (differs : event.id ≠ id)
    (events : List TouchEvent) : kindsOf id (events ++ [event]) = kindsOf id events := by
  simp [kindsOf, differs]

/-! ## Slots -/

namespace Rdpei

variable {rdpei : Rdpei} {id : Int} {slot : Fin maxTouches} {touch : Touch}

/-- The slot is active for the ID. -/
def ActiveFor (rdpei : Rdpei) (slot : Fin maxTouches) (id : Int) : Prop :=
  (rdpei.touch slot).active = true ∧ (rdpei.touch slot).id = id

/-- No ID has two active slots. -/
def Distinct (rdpei : Rdpei) : Prop :=
  ∀ id first second, rdpei.ActiveFor first id → rdpei.ActiveFor second id → first = second

theorem findSlot_some {condition : Touch → Bool} (found : rdpei.findSlot condition = some slot) :
    condition (rdpei.touch slot) = true := by
  unfold findSlot at found
  exact List.find?_some (p := fun slot => condition (rdpei.touch slot)) found

theorem findSlot_none {condition : Touch → Bool} (found : rdpei.findSlot condition = none)
    (slot : Fin maxTouches) : condition (rdpei.touch slot) = false :=
  Bool.not_eq_true _ ▸ List.find?_eq_none.mp found slot (List.mem_finRange slot)

theorem not_activeFor_of_findSlot
    (found : rdpei.findSlot (fun touch => touch.active && touch.id = id) = none)
    (slot : Fin maxTouches) : ¬ rdpei.ActiveFor slot id := by
  rintro ⟨active, same⟩
  have missed := findSlot_none found slot
  simp [active, same] at missed

/-- What is found for an ID is its active slot, or an inactive one that is given to it. -/
theorem locate_some (found : rdpei.locate id = some (slot, touch)) :
    rdpei.ActiveFor slot id ∧ touch = rdpei.touch slot
      ∨ (∀ other, ¬ rdpei.ActiveFor other id) ∧ (rdpei.touch slot).active = false
        ∧ touch = { rdpei.touch slot with id := id } := by
  unfold locate at found
  split at found
  next active tracked =>
    obtain ⟨rfl, rfl⟩ := Prod.mk.inj (Option.some.inj found)
    have both := findSlot_some tracked
    rw [Bool.and_eq_true, decide_eq_true_eq] at both
    exact Or.inl ⟨both, rfl⟩
  next untracked =>
    split at found
    next free empty =>
      obtain ⟨rfl, rfl⟩ := Prod.mk.inj (Option.some.inj found)
      refine Or.inr ⟨not_activeFor_of_findSlot untracked, ?_, rfl⟩
      simpa using findSlot_some empty
    next => exact absurd found.symm (Option.some_ne_none _)

theorem locate_none (found : rdpei.locate id = none) (slot : Fin maxTouches) :
    ¬ rdpei.ActiveFor slot id := by
  unfold locate at found
  split at found
  next => exact absurd found (Option.some_ne_none _)
  next untracked => exact not_activeFor_of_findSlot untracked slot

@[simp] theorem setSlot_activeFor {other : Fin maxTouches} :
    (rdpei.setSlot slot touch).ActiveFor other id ↔
      if other = slot then touch.active = true ∧ touch.id = id else rdpei.ActiveFor other id := by
  unfold ActiveFor setSlot
  dsimp only
  by_cases same : other = slot
  · rw [same, Function.update_self, if_pos rfl]
  · rw [Function.update_of_ne same, if_neg same]

@[simp] theorem setSlot_self : rdpei.setSlot slot (rdpei.touch slot) = rdpei := by
  unfold setSlot
  rw [Function.update_eq_self]

/-- The slots are active as before, and nothing was known of the ID. -/
structure Idle (rdpei : Rdpei) (id : Int) (updated : Rdpei) : Prop where
  connection : updated.connection = rdpei.connection
  unknown : rdpei.connected = true → ∀ slot, ¬ rdpei.ActiveFor slot id
  active : ∀ slot other, updated.ActiveFor slot other ↔ rdpei.ActiveFor slot other
  since : ∀ slot, (updated.touch slot).since = (rdpei.touch slot).since

/-- What a touch does to the slots, and what is sent of it. -/
theorem touchUpdate_cases (rdpei : Rdpei) (id x y : Int) (force : UInt64) :
    rdpei.Idle id (rdpei.touchUpdate id x y force).1 ∧ (rdpei.touchUpdate id x y force).2.1 = []
      ∨ (∃ slot, (∀ other, ¬ rdpei.ActiveFor other id)
          ∧ (rdpei.touch slot).active = false
          ∧ (rdpei.touchUpdate id x y force).1
              = rdpei.setSlot slot { active := true, id := id, since := rdpei.connection }
          ∧ (rdpei.touchUpdate id x y force).2.1 = [⟨.touchBegin, id, x, y⟩])
      ∨ ∃ slot, rdpei.connected = true ∧ rdpei.ActiveFor slot id
          ∧ ((rdpei.touchUpdate id x y force).1 = rdpei
              ∧ (rdpei.touchUpdate id x y force).2.1 = [⟨.touchUpdate, id, x, y⟩]
            ∨ (rdpei.touchUpdate id x y force).1
                = rdpei.setSlot slot { rdpei.touch slot with active := false }
              ∧ (rdpei.touchUpdate id x y force).2.1 = [⟨.touchEnd, id, x, y⟩]) := by
  unfold touchUpdate
  by_cases away : (!rdpei.connected) = true
  · simp only [if_pos away]
    refine Or.inl ⟨⟨rfl, fun connected => ?_, fun _ _ => Iff.rfl, fun _ => rfl⟩, trivial⟩
    rw [connected] at away
    exact absurd away Bool.false_ne_true
  · have connected : rdpei.connected = true := by simpa using away
    simp only [if_neg away]
    cases found : rdpei.locate id with
    | none =>
        exact Or.inl ⟨⟨rfl, fun _ => locate_none found, fun _ _ => Iff.rfl, fun _ => rfl⟩, rfl⟩
    | some located =>
        obtain ⟨slot, touch⟩ := located
        dsimp only
        rcases locate_some found with ⟨active, rfl⟩ | ⟨unknown, free, rfl⟩
        · refine Or.inr (Or.inr ⟨slot, connected, active, ?_⟩)
          simp only [active.1, Bool.not_true, Bool.false_eq_true, if_false]
          by_cases zero : isZero force = true
          · rw [if_pos zero]
            exact Or.inr ⟨rfl, rfl⟩
          · rw [if_neg zero]
            exact Or.inl ⟨setSlot_self, rfl⟩
        · simp only [free, Bool.not_false, if_true]
          by_cases zero : isZero force = true
          · rw [if_pos zero]
            refine Or.inl ⟨⟨rfl, fun _ => unknown, fun other known => ?_, fun other => ?_⟩, rfl⟩
            · rw [setSlot_activeFor]
              split_ifs with same
              · simp [same, ActiveFor, free]
              · exact Iff.rfl
            · change (Function.update rdpei.touch slot _ other).since = _
              by_cases same : other = slot
              · rw [same, Function.update_self]
              · rw [Function.update_of_ne same]
          · rw [if_neg zero]
            exact Or.inr (Or.inl ⟨slot, unknown, free, rfl, rfl⟩)

end Rdpei

/-! ## Sessions -/

/-- The module with what was sent on the present connection. -/
structure TouchSession where
  rdpei : Rdpei
  events : List TouchEvent := []

/-- Something that happens to the module. -/
inductive TouchAction
  | touch (id x y : Int) (force : UInt64)
  | channelConnected (isRdpei : Bool)
  | channelDisconnected (isRdpei : Bool)

/-- A touch is sent on the present connection. -/
def touchStep (session : TouchSession) : TouchAction → TouchSession
  | .touch id x y force =>
      let updated := session.rdpei.touchUpdate id x y force
      { rdpei := updated.1, events := session.events ++ updated.2.1 }
  | .channelConnected isRdpei =>
      { rdpei := session.rdpei.channelConnected isRdpei
        events := if isRdpei then [] else session.events }
  | .channelDisconnected isRdpei =>
      { session with rdpei := session.rdpei.channelDisconnected isRdpei }

/-- Active slots have distinct IDs, and for every ID contacts were sent on the present connection. -/
structure ContactsKept (session : TouchSession) : Prop where
  distinct : session.rdpei.Distinct
  contacts : ∀ id, Contacts (kindsOf id session.events)

/-- If the touch has an active slot, it became active on the present connection. -/
def BegunHere (session : TouchSession) : TouchAction → Prop
  | .touch id _ _ _ => session.rdpei.connected = true → ∀ slot, session.rdpei.ActiveFor slot id →
      (session.rdpei.touch slot).since = session.rdpei.connection
  | .channelConnected _ => True
  | .channelDisconnected _ => True

/-- The slots of the present connection are the contacts that are open on it. -/
structure Tracked (session : TouchSession) : Prop where
  distinct : session.rdpei.Distinct
  since : ∀ slot id, session.rdpei.ActiveFor slot id →
    (session.rdpei.touch slot).since ≤ session.rdpei.connection
  opened : ∀ slot id, session.rdpei.ActiveFor slot id →
    (session.rdpei.touch slot).since = session.rdpei.connection →
    ContactsOpen (kindsOf id session.events)
  closed : ∀ id, (∀ slot, session.rdpei.ActiveFor slot id →
      (session.rdpei.touch slot).since ≠ session.rdpei.connection) →
    ContactsClosed (kindsOf id session.events)

variable {session : TouchSession}

theorem Tracked.contactsKept (tracked : Tracked session) : ContactsKept session := by
  refine ⟨tracked.distinct, fun id => ?_⟩
  by_cases idle : ∀ slot, session.rdpei.ActiveFor slot id →
      (session.rdpei.touch slot).since ≠ session.rdpei.connection
  · exact Or.inl (tracked.closed id idle)
  · push Not at idle
    obtain ⟨slot, active, here⟩ := idle
    exact Or.inr (tracked.opened slot id active here)

/-- A touch concerns the slots and the contacts of its ID alone. -/
theorem Tracked.sent (tracked : Tracked session) {updated : Rdpei} {event : TouchEvent}
    (connection : updated.connection = session.rdpei.connection)
    (elsewhere : ∀ slot id, id ≠ event.id → updated.ActiveFor slot id →
      session.rdpei.ActiveFor slot id ∧ (updated.touch slot).since = (session.rdpei.touch slot).since)
    (left : ∀ slot id, id ≠ event.id → session.rdpei.ActiveFor slot id →
      updated.ActiveFor slot id)
    (here : (∃ slot, (∀ other, updated.ActiveFor other event.id → other = slot)
          ∧ updated.ActiveFor slot event.id
          ∧ (updated.touch slot).since = updated.connection
          ∧ ContactsOpen (kindsOf event.id session.events ++ [event.kind]))
        ∨ (∀ slot, ¬ updated.ActiveFor slot event.id)
          ∧ ContactsClosed (kindsOf event.id session.events ++ [event.kind])) :
    Tracked { rdpei := updated, events := session.events ++ [event] } := by
  rw [← kindsOf_same] at here
  constructor
  · intro id first second active again
    dsimp only at active again
    by_cases same : id = event.id
    · subst same
      rcases here with ⟨slot, only, -⟩ | ⟨idle, -⟩
      · rw [only first active, only second again]
      · exact absurd active (idle first)
    · exact tracked.distinct id first second (elsewhere _ _ same active).1
        (elsewhere _ _ same again).1
  · intro slot id active
    dsimp only at active ⊢
    by_cases same : id = event.id
    · subst same
      rcases here with ⟨begun, only, -, since, -⟩ | ⟨idle, -⟩
      · rw [only slot active, since]
      · exact absurd active (idle slot)
    · obtain ⟨before, kept⟩ := elsewhere _ _ same active
      rw [kept, connection]
      exact tracked.since slot id before
  · intro slot id active present
    dsimp only at active present ⊢
    by_cases same : id = event.id
    · subst same
      rcases here with ⟨begun, -, -, -, opened⟩ | ⟨idle, -⟩
      · exact opened
      · exact absurd active (idle slot)
    · obtain ⟨before, kept⟩ := elsewhere _ _ same active
      rw [kindsOf_other (Ne.symm same)]
      exact tracked.opened slot id before (by rw [← kept, present, connection])
  · intro id absent
    dsimp only at absent ⊢
    by_cases same : id = event.id
    · subst same
      rcases here with ⟨begun, -, active, since, -⟩ | ⟨-, closed⟩
      · exact absurd since (absent begun active)
      · exact closed
    · rw [kindsOf_other (Ne.symm same)]
      refine tracked.closed id fun slot before => ?_
      have active := left slot id same before
      rw [← (elsewhere _ _ same active).2, ← connection]
      exact absent slot active

/-- A touch that sends nothing leaves the contacts as they are. -/
theorem Tracked.idle (tracked : Tracked session) {id : Int} {updated : Rdpei}
    (idle : session.rdpei.Idle id updated) :
    Tracked { rdpei := updated, events := session.events ++ [] } := by
  rw [List.append_nil]
  refine ⟨fun other first second active again => ?_, fun slot other active => ?_,
    fun slot other active present => ?_, fun other absent => ?_⟩
  · exact tracked.distinct other first second ((idle.active _ _).mp active)
      ((idle.active _ _).mp again)
  · rw [idle.since, idle.connection]
    exact tracked.since slot other ((idle.active _ _).mp active)
  · rw [idle.since, idle.connection] at present
    exact tracked.opened slot other ((idle.active _ _).mp active) present
  · refine tracked.closed other fun slot active => ?_
    have differs := absent slot ((idle.active _ _).mpr active)
    rwa [idle.since, idle.connection] at differs

/-- A new slot is given to an ID that has no contact. -/
theorem Tracked.begin_touch (tracked : Tracked session) {id x y : Int} {slot : Fin maxTouches}
    (unknown : ∀ other, ¬ session.rdpei.ActiveFor other id)
    (free : (session.rdpei.touch slot).active = false) :
    Tracked
      { rdpei := session.rdpei.setSlot slot
          { active := true, id := id, since := session.rdpei.connection }
        events := session.events ++ [⟨.touchBegin, id, x, y⟩] } := by
  have closed := tracked.closed id fun other active => absurd active (unknown other)
  refine tracked.sent ?_ ?_ ?_ ?_
  · rfl
  · intro other key differs active
    rw [Rdpei.setSlot_activeFor] at active
    split_ifs at active with same
    · exact absurd active.2.symm differs
    · exact ⟨active, congrArg Touch.since (Function.update_of_ne same _ _)⟩
  · intro other key differs active
    rw [Rdpei.setSlot_activeFor]
    split_ifs with same
    · rw [same] at active
      exact absurd (free.symm.trans active.1) Bool.false_ne_true
    · exact active
  · refine Or.inl ⟨slot, fun other active => ?_, ?_, ?_, closed.touchBegin⟩
    · rw [Rdpei.setSlot_activeFor] at active
      split_ifs at active with same
      · exact same
      · exact absurd active (unknown other)
    · rw [Rdpei.setSlot_activeFor, if_pos rfl]
      exact ⟨rfl, rfl⟩
    · change (Function.update session.rdpei.touch slot _ slot).since = session.rdpei.connection
      rw [Function.update_self]

/-- A slot whose contact began here is updated. -/
theorem Tracked.update_touch (tracked : Tracked session) {id x y : Int} {slot : Fin maxTouches}
    (active : session.rdpei.ActiveFor slot id)
    (here : (session.rdpei.touch slot).since = session.rdpei.connection) :
    Tracked { session with events := session.events ++ [⟨.touchUpdate, id, x, y⟩] } := by
  refine tracked.sent ?_ ?_ ?_ ?_
  · rfl
  · exact fun _ _ _ before => ⟨before, rfl⟩
  · exact fun _ _ _ before => before
  · exact Or.inl ⟨slot, fun other again => tracked.distinct id other slot again active, active, here,
      (tracked.opened slot id active here).touchUpdate⟩

/-- A slot whose contact began here is released. -/
theorem Tracked.end_touch (tracked : Tracked session) {id x y : Int} {slot : Fin maxTouches}
    (active : session.rdpei.ActiveFor slot id)
    (here : (session.rdpei.touch slot).since = session.rdpei.connection) :
    Tracked
      { rdpei := session.rdpei.setSlot slot { session.rdpei.touch slot with active := false }
        events := session.events ++ [⟨.touchEnd, id, x, y⟩] } := by
  refine tracked.sent ?_ ?_ ?_ ?_
  · rfl
  · intro other key differs again
    rw [Rdpei.setSlot_activeFor] at again
    split_ifs at again with same
    · exact again.1.elim
    · exact ⟨again, congrArg Touch.since (Function.update_of_ne same _ _)⟩
  · intro other key differs again
    rw [Rdpei.setSlot_activeFor]
    split_ifs with same
    · rw [same] at again
      exact absurd (again.2.symm.trans active.2) differs
    · exact again
  · refine Or.inr ⟨fun other again => ?_, (tracked.opened slot id active here).touchEnd⟩
    rw [Rdpei.setSlot_activeFor] at again
    split_ifs at again with same
    · exact again.1.elim
    · exact same (tracked.distinct id other slot again active)

/-- Slots and contacts stay together as long as touches are continued where they began. -/
theorem step_tracked (tracked : Tracked session) {action : TouchAction}
    (begun : BegunHere session action) : Tracked (touchStep session action) := by
  cases action with
  | touch id x y force =>
      change Tracked
        { rdpei := (session.rdpei.touchUpdate id x y force).1
          events := session.events ++ (session.rdpei.touchUpdate id x y force).2.1 }
      rcases session.rdpei.touchUpdate_cases id x y force with
        ⟨idle, silent⟩ | ⟨slot, unknown, free, started, sent⟩
        | ⟨slot, connected, active, ⟨kept, sent⟩ | ⟨released, sent⟩⟩
      · rw [silent]
        exact tracked.idle idle
      · rw [started, sent]
        exact tracked.begin_touch unknown free
      · rw [kept, sent]
        exact tracked.update_touch active (begun connected slot active)
      · rw [released, sent]
        exact tracked.end_touch active (begun connected slot active)
  | channelConnected isRdpei =>
      cases isRdpei with
      | false => exact tracked
      | true =>
          -- Every slot became active on an earlier connection.
          have older : ∀ slot id, session.rdpei.ActiveFor slot id →
              (session.rdpei.touch slot).since < session.rdpei.connection + 1 :=
            fun slot id active => Nat.lt_succ_of_le (tracked.since slot id active)
          exact ⟨tracked.distinct, fun slot id active => (older slot id active).le,
            fun slot id active here => absurd here (older slot id active).ne,
            fun id _ => ⟨[], rfl⟩⟩
  | channelDisconnected isRdpei =>
      cases isRdpei with
      | false => exact tracked
      | true => exact ⟨tracked.distinct, tracked.since, tracked.opened, tracked.closed⟩

/-- A touch that began on another connection is continued or ended here without a beginning. -/
theorem begunHere_of_contactsKept (tracked : Tracked session) {action : TouchAction}
    (kept : ContactsKept (touchStep session action)) : BegunHere session action := by
  cases action with
  | touch id x y force =>
      intro connected slot active
      by_contra elsewhere
      have closed : ContactsClosed (kindsOf id session.events) := by
        refine tracked.closed id fun other again => ?_
        rw [tracked.distinct id other slot again active]
        exact elsewhere
      have contacts : Contacts
          (kindsOf id (session.events ++ (session.rdpei.touchUpdate id x y force).2.1)) :=
        kept.contacts id
      rcases session.rdpei.touchUpdate_cases id x y force with
        ⟨idle, -⟩ | ⟨_, unknown, -⟩ | ⟨_, -, -, ⟨-, sent⟩ | ⟨-, sent⟩⟩
      · exact idle.unknown connected slot active
      · exact unknown slot active
      · rw [sent, kindsOf_same _ ⟨.touchUpdate, id, x, y⟩] at contacts
        exact closed.not_contacts TouchKind.noConfusion contacts
      · rw [sent, kindsOf_same _ ⟨.touchEnd, id, x, y⟩] at contacts
        exact closed.not_contacts TouchKind.noConfusion contacts
  | channelConnected => trivial
  | channelDisconnected => trivial

/-- Before the first connection. -/
def TouchSession.start (ids : Fin maxTouches → Int) : TouchSession where
  rdpei := Rdpei.alloc ids

theorem start_tracked (ids : Fin maxTouches → Int) : Tracked (TouchSession.start ids) := by
  have idle : ∀ slot id, ¬ (TouchSession.start ids).rdpei.ActiveFor slot id :=
    fun slot id active => Bool.false_ne_true active.1
  exact ⟨fun id first second active => absurd active (idle first id),
    fun slot id active => absurd active (idle slot id),
    fun slot id active => absurd active (idle slot id), fun id _ => ⟨[], rfl⟩⟩

/-- Active slots have distinct IDs and whole contacts are sent on every connection if and only if no
touch is continued that began on an earlier connection. -/
theorem contacts_iff (ids : Fin maxTouches → Int) (actions : List TouchAction) :
    Always touchStep ContactsKept (TouchSession.start ids) actions ↔
      Guarded touchStep BegunHere (TouchSession.start ids) actions := by
  have start := start_tracked ids
  apply always_iff_guarded start.contactsKept start
  · exact fun _ _ tracked _ kept => step_tracked tracked (begunHere_of_contactsKept tracked kept)
  · exact fun _ _ tracked _ => ⟨begunHere_of_contactsKept tracked,
      fun begun => (step_tracked tracked begun).contactsKept⟩

/-- A touch that is held while the channel is connected again is updated without having begun. -/
theorem not_contacts_of_reconnect :
    ¬ Always touchStep ContactsKept (TouchSession.start fun _ => 0)
      [.channelConnected true, .touch 1 5 5 0x3FF0000000000000, .channelDisconnected true,
        .channelConnected true, .touch 1 6 6 0x3FF0000000000000] := by
  intro kept
  have contacts : Contacts [.touchUpdate] := kept.last.contacts 1
  have nothing : ContactsClosed [] := ⟨[], rfl⟩
  exact nothing.not_contacts TouchKind.noConfusion contacts

end GuacNebula.Rdp
