import GuacNebula.Lib.Matching
import GuacNebula.Lib.Run
import GuacNebula.Rdp.KeyboardRequirements

/-! # No stuck keys

Keys are pressed and released on behalf of the user and of the keyboard itself. What was pressed on
the server and not released is at all times what the keys of the keyboard remember, so once the user
lets go of the last key, and every key is released, nothing is left pressed on the server.
-/

namespace GuacNebula.Rdp.Keyboard

open Matching Run

variable {keyboard : Keyboard}

/-! ## Events and keys -/

/-- An event presses one of the keys that are looked at, which are told by scancode and flags. -/
def presses (physical : Int → Int → Bool) (sent : SentEvent) : Bool :=
  match sent.event with
  | .key scancode flags true => physical scancode flags
  | _ => false

/-- An event releases one of them. -/
def releases (physical : Int → Int → Bool) (sent : SentEvent) : Bool :=
  match sent.event with
  | .key scancode flags false => physical scancode flags
  | _ => false

/-- A key is held under a definition for one of them. -/
def holding (physical : Int → Int → Bool) (key : Key) : Nat :=
  match key.pressed with
  | none => 0
  | some definition => if physical definition.scancode definition.flags then 1 else 0

/-- The number of keys that are held so. -/
def heldKeys (physical : Int → Int → Bool) (keyboard : Keyboard) : Nat :=
  ∑ key ∈ Finset.range keyboard.numKeys, holding physical (keyboard.keys key)

/-- The keys remember what is pressed on the server. -/
structure Balanced (keyboard : Keyboard) : Prop where
  well : WellKeyed keyboard
  plain : PlainModifiers keyboard
  online : keyboard.connected
  held : ∀ key definition, (keyboard.keys key).pressed = some definition →
    key < keyboard.numKeys ∧ definition ∈ (keyboard.keys key).definitions
      ∧ definition.scancode ≠ 0
  matched : ∀ physical, Matched (presses physical) (releases physical) keyboard.sent
  settled : ∀ physical, keyboard.sent.countP (presses physical)
    = keyboard.sent.countP (releases physical) + heldKeys physical keyboard

/-- A keyboard is balanced by its layout, the keys that are pressed and the events. -/
theorem Balanced.congr {before after : Keyboard} (balanced : Balanced before)
    (same : SameLayout before after) (connected : after.connected = before.connected)
    (pressed : ∀ key, (after.keys key).pressed = (before.keys key).pressed)
    (sent : after.sent = before.sent) : Balanced after where
  well := same.wellKeyed balanced.well
  plain := by
    intro keysym modifier key found definition defined
    rw [same.getKey] at found
    rw [same.definitions] at defined
    exact balanced.plain keysym modifier key found definition defined
  online := connected.trans balanced.online
  held := by
    intro key definition held
    rw [pressed] at held
    rw [same.numKeys, same.definitions]
    exact balanced.held key definition held
  matched := by
    rw [sent]
    exact balanced.matched
  settled := by
    intro physical
    have held : heldKeys physical after = heldKeys physical before := by
      unfold heldKeys holding
      rw [same.numKeys]
      exact Finset.sum_congr rfl fun key _ => by rw [pressed]
    rw [sent, held]
    exact balanced.settled physical

theorem send_sent (online : keyboard.connected) (event : InputEvent) :
    (keyboard.send event).sent
      = keyboard.sent ++ [⟨event, keyboard.lockFlags, keyboard.getModifierFlags⟩] := by
  unfold send
  rw [if_pos online]

/-- An event that neither presses nor releases a key. -/
theorem Balanced.send (balanced : Balanced keyboard) (event : InputEvent)
    (other : ∀ scancode flags pressed, event ≠ .key scancode flags pressed) :
    Balanced (keyboard.send event) := by
  have quiet : ∀ physical, ¬ presses physical
        ⟨event, keyboard.lockFlags, keyboard.getModifierFlags⟩
      ∧ ¬ releases physical ⟨event, keyboard.lockFlags, keyboard.getModifierFlags⟩ := by
    intro physical
    unfold presses releases
    cases event with
    | key scancode flags pressed => exact absurd rfl (other scancode flags pressed)
    | unicode codepoint => exact ⟨Bool.false_ne_true, Bool.false_ne_true⟩
    | synchronize flags => exact ⟨Bool.false_ne_true, Bool.false_ne_true⟩
  have frame := @send_frame keyboard event
  have settled : ∀ physical, (keyboard.send event).sent.countP (presses physical)
      = (keyboard.send event).sent.countP (releases physical)
        + heldKeys physical (keyboard.send event) := by
    intro physical
    have held : heldKeys physical (keyboard.send event) = heldKeys physical keyboard := by
      unfold heldKeys
      rw [frame.numKeys, send_keys]
    rw [send_sent balanced.online, List.countP_append, List.countP_append, List.countP_singleton,
      List.countP_singleton, if_neg (quiet physical).1, if_neg (quiet physical).2, held,
      Nat.add_zero, Nat.add_zero]
    exact balanced.settled physical
  exact
    { well := frame.toSameLayout.wellKeyed balanced.well
      plain := frame.plainModifiers balanced.plain
      online := frame.connected.trans balanced.online
      held := by
        rw [send_keys, frame.numKeys]
        exact balanced.held
      matched := by
        intro physical
        have whole := settled physical
        rw [send_sent balanced.online] at whole ⊢
        exact matched_concat.mpr ⟨balanced.matched physical, by omega⟩
      settled := settled }

theorem Balanced.synchronize (balanced : Balanced keyboard) : Balanced keyboard.synchronize := by
  unfold Keyboard.synchronize
  split
  · exact balanced
  · exact (balanced.send (.synchronize _) nofun).congr ⟨rfl, rfl, fun _ => rfl⟩ rfl (fun _ => rfl) rfl

theorem Balanced.updateLocks (balanced : Balanced keyboard) (setFlags clearFlags : BitVec 32) :
    Balanced (keyboard.updateLocks setFlags clearFlags) := by
  unfold Keyboard.updateLocks
  dsimp only
  split
  · exact (balanced.send (.synchronize _) nofun).congr ⟨rfl, rfl, fun _ => rfl⟩ rfl (fun _ => rfl) rfl
  · exact balanced

/-- A key event that goes along with the state of its key. -/
theorem Balanced.changeKey (balanced : Balanced keyboard) {key : Nat}
    (inside : key < keyboard.numKeys) {definition : KeysymDesc} {pressed : Bool}
    {state : Option KeysymDesc}
    (held : ∀ chosen, state = some chosen →
      chosen ∈ (keyboard.keys key).definitions ∧ chosen.scancode ≠ 0)
    (change : (pressed = true ∧ (keyboard.keys key).pressed = none ∧ state = some definition)
      ∨ (pressed = false ∧ (keyboard.keys key).pressed = some definition ∧ state = none)) :
    Balanced ((keyboard.sendKeyEvent definition pressed).setPressed key state) := by
  have frame : Frame keyboard ((keyboard.sendKeyEvent definition pressed).setPressed key state) :=
    (send_frame _).trans (setPressed_frame state)
  have sent : ((keyboard.sendKeyEvent definition pressed).setPressed key state).sent
      = keyboard.sent ++ [⟨.key definition.scancode definition.flags pressed, keyboard.lockFlags,
        keyboard.getModifierFlags⟩] :=
    send_sent balanced.online _
  have keys : ∀ physical,
      heldKeys physical ((keyboard.sendKeyEvent definition pressed).setPressed key state)
          + holding physical (keyboard.keys key)
        = heldKeys physical keyboard
          + holding physical { keyboard.keys key with pressed := state } := by
    intro physical
    have update := sum_update (holding physical) keyboard.keys inside
      { keyboard.keys key with pressed := state }
    unfold heldKeys
    rw [frame.numKeys, ← update]
    simp only [setPressed, setKey, sendKeyEvent, send_keys]
  have settled : ∀ physical,
      ((keyboard.sendKeyEvent definition pressed).setPressed key state).sent.countP
          (presses physical)
        = ((keyboard.sendKeyEvent definition pressed).setPressed key state).sent.countP
            (releases physical)
          + heldKeys physical ((keyboard.sendKeyEvent definition pressed).setPressed key state) := by
    intro physical
    have before := balanced.settled physical
    have keys := keys physical
    rw [sent, List.countP_append, List.countP_append, List.countP_singleton,
      List.countP_singleton]
    rcases change with ⟨rfl, was, rfl⟩ | ⟨rfl, was, rfl⟩
    all_goals
      cases looked : physical definition.scancode definition.flags
      all_goals
        simp only [holding, was, presses, releases, looked, Bool.false_eq_true, ↓reduceIte]
          at keys ⊢
        omega
  exact
    { well := frame.toSameLayout.wellKeyed balanced.well
      plain := frame.plainModifiers balanced.plain
      online := frame.connected.trans balanced.online
      held := by
        intro other chosen isHeld
        rw [frame.numKeys, frame.definitions]
        by_cases same : other = key
        · subst same
          rw [setPressed_self] at isHeld
          exact ⟨inside, held chosen isHeld⟩
        · rw [setPressed_of_ne same, sendKeyEvent, send_keys] at isHeld
          exact balanced.held other chosen isHeld
      matched := by
        intro physical
        have whole := settled physical
        rw [sent] at whole ⊢
        exact matched_concat.mpr ⟨balanced.matched physical, by omega⟩
      settled := settled }

/-! ## Single keys -/

theorem Balanced.pressKey (balanced : Balanced keyboard) {key : Nat} {definition : KeysymDesc}
    (inside : key < keyboard.numKeys) (released : (keyboard.keys key).pressed = none)
    (defined : definition ∈ (keyboard.keys key).definitions) (usable : definition.scancode ≠ 0) :
    Balanced (keyboard.pressKey key definition) := by
  refine balanced.changeKey inside ?_ (.inl ⟨rfl, released, rfl⟩)
  rintro chosen ⟨rfl⟩
  exact ⟨defined, usable⟩

theorem Balanced.releaseKey (balanced : Balanced keyboard) (key : Nat) :
    Balanced (keyboard.releaseKey key) := by
  unfold Keyboard.releaseKey
  cases held : (keyboard.keys key).pressed with
  | none => exact balanced
  | some definition =>
      obtain ⟨inside, _, usable⟩ := balanced.held key definition held
      dsimp only
      rw [if_neg usable]
      exact balanced.changeKey inside nofun (.inr ⟨rfl, held, rfl⟩)

theorem Balanced.releaseKeysym (balanced : Balanced keyboard) (keysym : Int) :
    Balanced (keyboard.releaseKeysym keysym) := by
  unfold Keyboard.releaseKeysym
  cases keyboard.synchronize.getKey keysym with
  | none => exact balanced.synchronize
  | some key => exact balanced.synchronize.releaseKey key

theorem Balanced.releaseKeysyms (balanced : Balanced keyboard) (keysyms : List Int) :
    Balanced (keysyms.foldl Keyboard.releaseKeysym keyboard) := by
  induction keysyms generalizing keyboard with
  | nil => exact balanced
  | cons keysym keysyms ih => exact ih (balanced.releaseKeysym keysym)

theorem Balanced.pressKeysym (balanced : Balanced keyboard) (keysym : Int) :
    Balanced (keyboard.pressKeysym keysym) := by
  have balanced := balanced.synchronize
  unfold Keyboard.pressKeysym
  generalize keyboard.synchronize = keyboard at balanced ⊢
  dsimp only
  split
  · exact balanced
  · split
    · split
      · exact balanced
      · exact balanced.pressKey (balanced.well.lt_numKeys ‹_›) ‹_› (getDefinition_mem ‹_› ‹_›) ‹_›
    · exact balanced

theorem Balanced.applyModifier (balanced : Balanced keyboard) (set clear : Prop) [Decidable set]
    [Decidable clear] (pressed : Int) (released : List Int) :
    Balanced (keyboard.applyModifier set clear pressed released) := by
  unfold Keyboard.applyModifier
  split
  · exact balanced.pressKeysym pressed
  · split
    · exact balanced.releaseKeysyms released
    · exact balanced

theorem Balanced.applyModifiers (balanced : Balanced keyboard) (setFlags clearFlags : BitVec 32) :
    Balanced (keyboard.applyModifiers setFlags clearFlags) :=
  (balanced.applyModifier _ _ _ _).applyModifier _ _ _ _

/-! ## Keys that stay released -/

/-- A key that is not pressed does not get pressed. -/
def StaysReleased (key : Nat) (before after : Keyboard) : Prop :=
  (before.keys key).pressed = none → (after.keys key).pressed = none

theorem staysReleased_releaseKeysym (key : Nat) (keyboard : Keyboard) (keysym : Int) :
    StaysReleased key keyboard (keyboard.releaseKeysym keysym) := by
  intro released
  rw [← @synchronize_keys keyboard] at released
  unfold Keyboard.releaseKeysym
  cases keyboard.synchronize.getKey keysym with
  | none => exact released
  | some other =>
      dsimp only
      by_cases same : key = other
      · rw [same]
        exact releaseKey_self
      · rw [releaseKey_of_ne same]
        exact released

theorem staysReleased_applyModifier {key : Nat} {set clear : Prop} [Decidable set]
    [Decidable clear] {pressed : Int} (apart : keyboard.getKey pressed ≠ some key)
    (released : List Int) :
    StaysReleased key keyboard (keyboard.applyModifier set clear pressed released) := by
  unfold Keyboard.applyModifier
  split
  · intro isReleased
    rw [← (@synchronize_frame keyboard).getKey] at apart
    rw [← @synchronize_keys keyboard] at isReleased
    unfold Keyboard.pressKeysym
    generalize keyboard.synchronize = keyboard at apart isReleased ⊢
    dsimp only
    split
    · exact isReleased
    · have ne : key ≠ _ := fun same => apart (same ▸ ‹keyboard.getKey pressed = some _›)
      split
      · split
        · exact isReleased
        · rw [pressKey_of_ne ne]
          exact isReleased
      · exact isReleased
  · split
    · induction released generalizing keyboard with
      | nil => exact id
      | cons keysym keysyms ih =>
          intro isReleased
          refine ih ?_ (staysReleased_releaseKeysym key keyboard keysym isReleased)
          rw [(releaseKeysym_frame keyboard keysym).getKey]
          exact apart
    · exact id

/-- The requirements of a key are seen to without pressing the key itself. -/
theorem Balanced.meetRequirements (balanced : Balanced keyboard) (depth : Nat) {key : Nat}
    (released : (keyboard.keys key).pressed = none) {definition : KeysymDesc}
    (defined : definition ∈ (keyboard.keys key).definitions) :
    ∃ met, keyboard.meetRequirements (updateKeysym (depth + 1)) definition = some met
      ∧ Balanced met ∧ Frame keyboard met ∧ (met.keys key).pressed = none := by
  by_cases apart : keyboard.getKey keysymLshift ≠ some key
      ∧ keyboard.getKey keysymAltgr ≠ some key
  · have locked := @updateLocks_frame keyboard definition.setLocks definition.clearLocks
    have balanced := balanced.updateLocks definition.setLocks definition.clearLocks
    rw [← @updateLocks_keys keyboard definition.setLocks definition.clearLocks] at released
    rw [← locked.getKey, ← locked.getKey] at apart
    unfold Keyboard.meetRequirements
    generalize keyboard.updateLocks definition.setLocks definition.clearLocks = locks
      at locked balanced released apart ⊢
    refine ⟨_, updateModifiers_eq depth balanced.plain _ _, balanced.applyModifiers _ _,
      locked.trans (applyModifiers_frame _ _ _), ?_⟩
    refine staysReleased_applyModifier ?_ _ (staysReleased_applyModifier apart.1 _ released)
    rw [(applyModifier_frame _ _ _ _ _).getKey]
    exact apart.2
  · -- Shift and AltGr themselves require nothing.
    have plain : Plain definition := by
      by_cases shift : keyboard.getKey keysymLshift = some key
      · exact balanced.plain _ (by decide) key shift definition defined
      · have altgr : keyboard.getKey keysymAltgr = some key :=
          not_not.mp fun ne => apart ⟨shift, ne⟩
        exact balanced.plain _ (by decide) key altgr definition defined
    exact ⟨keyboard, meetRequirements_plain _ plain, balanced, .refl _, released⟩

/-! ## Changes of a key -/

/-- What is done for a keysym that no key is sent for, with an update of some depth. -/
def MissingBalanced (update : Update) (keysym : Int) : Prop :=
  ∀ keyboard, Balanced keyboard → ∃ after, keyboard.sendMissingKey update keysym = some after
    ∧ Balanced after ∧ Frame keyboard after

/-- A keysym that cannot be decomposed is sent as a character, or not at all. -/
theorem Balanced.sendMissingKey (balanced : Balanced keyboard) {update : Update} {keysym : Int}
    (whole : keyboard.decomposeKeysym update keysym = none) :
    ∃ after, keyboard.sendMissingKey update keysym = some after
      ∧ Balanced after ∧ Frame keyboard after := by
  unfold Keyboard.sendMissingKey
  rw [whole]
  dsimp only
  cases unicodeCodepoint keysym with
  | none => exact ⟨keyboard, rfl, balanced, .refl _⟩
  | some codepoint => exact ⟨_, rfl, balanced.send (.unicode codepoint) nofun, send_frame _⟩

theorem missingBalanced_of_whole (update : Update) {keysym : Int}
    (whole : decomposedKeys.lookup keysym = none) : MissingBalanced update keysym := by
  intro keyboard balanced
  refine balanced.sendMissingKey ?_
  unfold decomposeKeysym
  rw [whole]

/-- The change of a key sends events that the key remembers. -/
theorem Balanced.sendChange (balanced : Balanced keyboard) {depth : Nat} {keysym : Int}
    (missing : MissingBalanced (updateKeysym (depth + 1)) keysym) {pressed : Bool}
    (changed : keyboard.isChanged (keyboard.getKey keysym) pressed) :
    ∃ after, keyboard.sendChange (updateKeysym (depth + 1)) keysym (keyboard.getKey keysym) pressed
        = some after
      ∧ Balanced after ∧ Frame keyboard after := by
  cases pressed with
  | false =>
      cases found : keyboard.getKey keysym with
      | none => exact ⟨keyboard, rfl, balanced, .refl _⟩
      | some key =>
          rw [found] at changed
          refine ⟨keyboard.releaseKey key, sendChange_release _ keysym ?_, balanced.releaseKey key,
            releaseKey_frame⟩
          simpa [isChanged] using changed
  | true =>
      have frame := @toggleLock_frame keyboard keysym
      have toggled := balanced.congr frame.toSameLayout rfl (fun _ => rfl) rfl
      rcases sendChange_press (updateKeysym (depth + 1)) changed
        with typed | ⟨key, definition, found, released, defined, usable, sent⟩
      · obtain ⟨after, sent, balanced, later⟩ := missing _ toggled
        rw [typed]
        exact ⟨after, sent, balanced, frame.trans later⟩
      · obtain ⟨met, seen, metBalanced, later, stays⟩ :=
          toggled.meetRequirements depth released defined
        have inside : key < met.numKeys := by
          rw [later.numKeys]
          exact balanced.well.lt_numKeys found
        rw [sent, seen]
        refine ⟨met.pressKey key definition, rfl,
          metBalanced.pressKey inside stays ?_ usable,
          frame.trans (later.trans (pressKey_frame _))⟩
        rw [later.definitions]
        exact defined

/-! ## Updates -/

/-- An update by the keyboard itself does not concern the user. -/
theorem updateKeysym_synthetic_eq (depth : Nat) (keyboard : Keyboard) (keysym : Int)
    (pressed : Bool) :
    Keyboard.updateKeysym (depth + 1) keyboard keysym pressed .synthetic
      = if keyboard.synchronize.isChanged (keyboard.synchronize.getKey keysym) pressed then
          keyboard.synchronize.sendChange (Keyboard.updateKeysym depth) keysym
            (keyboard.synchronize.getKey keysym) pressed
        else some keyboard.synchronize := by
  have untracked : keyboard.synchronize.trackUser (keyboard.synchronize.getKey keysym) pressed
      .synthetic = keyboard.synchronize := by
    unfold trackUser
    split
    · contradiction
    · rfl
  unfold Keyboard.updateKeysym
  dsimp only
  rw [untracked]
  exact Option.bind_fun_some _

/-- An update by the keyboard itself. -/
theorem Balanced.updateKeysym_synthetic (balanced : Balanced keyboard) {depth : Nat} {keysym : Int}
    (missing : MissingBalanced (updateKeysym (depth + 1)) keysym) (pressed : Bool) :
    ∃ after, updateKeysym (depth + 2) keyboard keysym pressed .synthetic = some after
      ∧ Balanced after ∧ Frame keyboard after := by
  rw [updateKeysym_synthetic_eq]
  by_cases changed : keyboard.synchronize.isChanged (keyboard.synchronize.getKey keysym) pressed
  · obtain ⟨after, sent, balanced, frame⟩ := balanced.synchronize.sendChange missing changed
    rw [if_pos changed, sent]
    exact ⟨after, rfl, balanced, synchronize_frame.trans frame⟩
  · rw [if_neg changed]
    exact ⟨keyboard.synchronize, rfl, balanced.synchronize, synchronize_frame⟩

/-- Dead keys and base keys are typed as they are. -/
theorem lookup_decomposed {keysym dead base : Int}
    (found : decomposedKeys.lookup keysym = some (dead, base)) :
    decomposedKeys.lookup dead = none ∧ decomposedKeys.lookup base = none := by
  have all : ∀ entry ∈ decomposedKeys, decomposedKeys.lookup entry.2.1 = none
      ∧ decomposedKeys.lookup entry.2.2 = none := by
    decide
  obtain ⟨before, after, split, _⟩ := List.lookup_eq_some_iff.mp found
  exact all (keysym, dead, base) (by rw [split]; simp)

/-- A key that is not decomposed is typed by the keyboard itself. -/
theorem Balanced.tapKeysym (balanced : Balanced keyboard) (depth : Nat) {whole : Int}
    (isWhole : decomposedKeys.lookup whole = none) :
    ∃ after, keyboard.tapKeysym (updateKeysym (depth + 2)) whole = some after
      ∧ Balanced after ∧ Frame keyboard after := by
  have missing := missingBalanced_of_whole (updateKeysym (depth + 1)) isWhole
  obtain ⟨down, pressed, balanced, first⟩ := balanced.updateKeysym_synthetic missing true
  obtain ⟨up, released, balanced, second⟩ := balanced.updateKeysym_synthetic missing false
  refine ⟨up, ?_, balanced, first.trans second⟩
  unfold Keyboard.tapKeysym
  rw [pressed, Option.bind_some, released]

/-- Every keysym that no key is sent for is typed, deep enough. -/
theorem missingBalanced (depth : Nat) (keysym : Int) :
    MissingBalanced (updateKeysym (depth + 2)) keysym := by
  cases found : decomposedKeys.lookup keysym with
  | none => exact missingBalanced_of_whole _ found
  | some entry =>
      obtain ⟨dead, base⟩ := entry
      obtain ⟨deadWhole, baseWhole⟩ := lookup_decomposed found
      intro keyboard balanced
      by_cases defined : (keyboard.getKey dead).isNone ∨ (keyboard.getKey base).isNone
      · refine balanced.sendMissingKey ?_
        unfold decomposeKeysym
        simp only [found, defined, ↓reduceIte]
      · obtain ⟨first, typed, balanced, left⟩ := balanced.tapKeysym depth deadWhole
        obtain ⟨second, typed', balanced, right⟩ := balanced.tapKeysym depth baseWhole
        refine ⟨second, ?_, balanced, left.trans right⟩
        unfold Keyboard.sendMissingKey decomposeKeysym
        simp only [found, defined, ↓reduceIte, typed, Option.bind_some, typed']

/-! ## The user -/

/-- The total is the number of keys that the user holds. -/
def Counted (keyboard : Keyboard) : Prop :=
  keyboard.userPressedKeys
    = ((Finset.range keyboard.numKeys).filter fun key => (keyboard.keys key).userPressed).card

/-- What a key adds to the total. -/
def userHolds (key : Key) : Nat := if key.userPressed then 1 else 0

theorem counted_iff : Counted keyboard ↔ keyboard.userPressedKeys
    = ((∑ key ∈ Finset.range keyboard.numKeys, userHolds (keyboard.keys key) : Nat) : Int) := by
  unfold Counted userHolds
  rw [Finset.card_filter]

theorem Frame.counted {before after : Keyboard} (frame : Frame before after)
    (counted : Counted before) : Counted after := by
  unfold Counted at counted ⊢
  rw [frame.userPressedKeys, frame.numKeys, counted]
  simp only [frame.userPressed]

/-- A key that the user takes or lets go counts. -/
theorem Counted.trackUser (counted : Counted keyboard) (well : WellKeyed keyboard) (keysym : Int)
    (pressed : Bool) (source : KeySource) :
    Counted (keyboard.trackUser (keyboard.getKey keysym) pressed source) := by
  rcases @trackUser_cases keyboard (keyboard.getKey keysym) pressed source
    with same | ⟨key, found, was, changed⟩
  · rw [same]
    exact counted
  · have update := sum_update userHolds keyboard.keys (well.lt_numKeys found)
      { keyboard.keys key with userPressed := pressed }
    rw [counted_iff] at counted ⊢
    rw [changed]
    simp only [setUserPressed, setKey]
    cases pressed
    all_goals
      simp only [userHolds, was, Bool.not_true, Bool.not_false, Bool.false_eq_true, ↓reduceIte]
        at update counted ⊢
      omega

/-- No key is pressed. -/
def AllReleased (keyboard : Keyboard) : Prop := ∀ key, (keyboard.keys key).pressed = none

theorem AllReleased.heldKeys (released : AllReleased keyboard) (physical : Int → Int → Bool) :
    heldKeys physical keyboard = 0 := by
  refine Finset.sum_eq_zero fun key _ => ?_
  unfold holding
  rw [released key]

/-- A reset releases every key, one after the other. -/
theorem Balanced.reset (balanced : Balanced keyboard) (depth : Nat) :
    ∃ after, keyboard.reset (updateKeysym (depth + 1)) = some after ∧ Balanced after
      ∧ Frame keyboard after ∧ AllReleased after := by
  have loop : ∀ n, Balanced ((List.range n).foldl releaseHeld keyboard)
      ∧ ∀ key < n, (((List.range n).foldl releaseHeld keyboard).keys key).pressed = none := by
    intro n
    induction n with
    | zero => exact ⟨balanced, fun key below => absurd below (Nat.not_lt_zero _)⟩
    | succ n ih =>
        rw [List.range_succ, List.foldl_append, List.foldl_cons, List.foldl_nil]
        generalize (List.range n).foldl releaseHeld keyboard = keyboard at ih ⊢
        obtain ⟨balanced, released⟩ := ih
        unfold releaseHeld
        cases held : (keyboard.keys n).pressed with
        | none =>
            refine ⟨balanced, fun key below => ?_⟩
            rcases Nat.lt_succ_iff_lt_or_eq.mp below with earlier | rfl
            · exact released key earlier
            · exact held
        | some definition =>
            refine ⟨balanced.releaseKeysym definition.keysym, fun key below => ?_⟩
            dsimp only
            rcases Nat.lt_succ_iff_lt_or_eq.mp below with earlier | rfl
            · exact staysReleased_releaseKeysym key keyboard _ (released key earlier)
            · -- The keysym of the definition leads back to the key.
              obtain ⟨inside, defined, _⟩ := balanced.held key definition held
              have found := (synchronize_frame.getKey definition.keysym).trans
                (balanced.well.getKey_definition inside defined)
              unfold Keyboard.releaseKeysym
              rw [found]
              exact releaseKey_self
  have frame := releaseHeld_foldl_frame keyboard (List.range keyboard.numKeys)
  obtain ⟨after, released⟩ := loop keyboard.numKeys
  refine ⟨_, releaseKeys_eq depth keyboard _, after, frame, fun key => ?_⟩
  cases held : (((List.range keyboard.numKeys).foldl releaseHeld keyboard).keys key).pressed with
  | none => rfl
  | some definition =>
      have inside := (after.held key definition held).1
      rw [frame.numKeys] at inside
      rw [released key inside] at held
      cases held

/-- The part of an update that sends a change, or nothing if there is none. -/
theorem Balanced.change (balanced : Balanced keyboard) (depth : Nat) (keysym : Int)
    (pressed : Bool) :
    ∃ after,
      (if keyboard.isChanged (keyboard.getKey keysym) pressed then
          keyboard.sendChange (Keyboard.updateKeysym (depth + 2)) keysym (keyboard.getKey keysym)
            pressed
        else some keyboard) = some after ∧ Balanced after ∧ Frame keyboard after := by
  by_cases changed : keyboard.isChanged (keyboard.getKey keysym) pressed
  · rw [if_pos changed]
    exact balanced.sendChange (missingBalanced depth keysym) changed
  · rw [if_neg changed]
    exact ⟨keyboard, rfl, balanced, .refl _⟩

/-- An update by the user or by the keyboard keeps the balance and the total, and once the user has
let go of all keys none is pressed. -/
theorem Balanced.updateKeysym (balanced : Balanced keyboard) (counted : Counted keyboard)
    (depth : Nat) (keysym : Int) (pressed : Bool) (source : KeySource) :
    ∃ after, Keyboard.updateKeysym (depth + 3) keyboard keysym pressed source = some after
      ∧ Balanced after ∧ Counted after
      ∧ (source = .client → after.userPressedKeys = 0 → AllReleased after) := by
  have balanced := balanced.synchronize
  have counted := (@synchronize_frame keyboard).counted counted
  unfold Keyboard.updateKeysym
  generalize keyboard.synchronize = keyboard at balanced counted ⊢
  have same := @trackUser_sameLayout keyboard (keyboard.getKey keysym) pressed source
  have sent := @trackUser_sent keyboard (keyboard.getKey keysym) pressed source
  have found := same.getKey keysym
  have counted := counted.trackUser balanced.well keysym pressed source
  have balanced := balanced.congr same sent.2 (trackUser_pressed _ _ _) sent.1
  dsimp only
  generalize keyboard.trackUser (keyboard.getKey keysym) pressed source = tracked
    at found counted balanced ⊢
  rw [← found]
  obtain ⟨after, changed, balanced, frame⟩ := balanced.change depth keysym pressed
  have counted := frame.counted counted
  rw [changed, Option.bind_some]
  by_cases resets : source = .client ∧ after.userPressedKeys = 0
  · obtain ⟨last, reset, balanced, frame, released⟩ := balanced.reset (depth + 1)
    rw [if_pos resets]
    exact ⟨last, reset, balanced, frame.counted counted, fun _ _ => released⟩
  · rw [if_neg resets]
    exact ⟨after, rfl, balanced, counted, fun client zero => absurd ⟨client, zero⟩ resets⟩

/-! ## Runs -/

/-- What happens to a keyboard: the client presses or releases a keysym, or the server sends its
lock indicators. -/
inductive KeyboardAction
  | client (keysym : Int) (pressed : Bool)
  | indicators (flags : BitVec 16)

/-- The next keyboard, unless updates called each other too deep. -/
def keyboardStep (depth : Nat) (state : Option Keyboard) (action : KeyboardAction) :
    Option Keyboard :=
  state.bind fun keyboard =>
    match action with
    | .client keysym pressed => updateKeysym depth keyboard keysym pressed .client
    | .indicators flags => some (keyboard.setIndicators flags)

/-- The last event that was sent for a scancode. -/
def lastKeyEvent (scancode : Int) (sent : List SentEvent) : Option SentEvent :=
  (sent.filter fun event =>
    presses (fun code _ => code == scancode) event
      || releases (fun code _ => code == scancode) event).getLast?

/-- The total is right, every release has a press of its own before it, and once the user holds no
key, no key is pressed and the last event of every scancode was a release. -/
structure Consistent (keyboard : Keyboard) : Prop where
  counted : Counted keyboard
  matched : ∀ scancode flags, Matched (presses fun code flag => code == scancode && flag == flags)
    (releases fun code flag => code == scancode && flag == flags) keyboard.sent
  released : keyboard.userPressedKeys = 0 → AllReleased keyboard
    ∧ ∀ scancode last, lastKeyEvent scancode keyboard.sent = some last →
      releases (fun code _ => code == scancode) last

theorem Balanced.consistent (balanced : Balanced keyboard) (counted : Counted keyboard)
    (released : keyboard.userPressedKeys = 0 → AllReleased keyboard) : Consistent keyboard where
  counted := counted
  matched scancode flags := balanced.matched _
  released := by
    intro zero
    refine ⟨released zero, fun scancode last isLast => ?_⟩
    have settled := balanced.settled fun code _ => code == scancode
    rw [(released zero).heldKeys, Nat.add_zero] at settled
    exact (balanced.matched _).closes_getLast settled isLast

theorem balanced_alloc {keymap : Keymap} (plain : PlainModifiers (alloc keymap true)) :
    Balanced (alloc keymap true) ∧ Counted (alloc keymap true)
      ∧ AllReleased (alloc keymap true) := by
  have untouched := untouched_alloc keymap true
  have released : AllReleased (alloc keymap true) := untouched.pressed
  refine ⟨?_, ?_, released⟩
  · exact
      { well := wellKeyed_alloc keymap true
        plain := plain
        online := untouched.connected
        held := by
          intro key definition held
          rw [untouched.pressed] at held
          cases held
        matched := by
          rw [untouched.sent]
          exact fun _ => matched_nil
        settled := by
          intro physical
          rw [untouched.sent, released.heldKeys]
          rfl }
  · rw [counted_iff, untouched.userPressedKeys, Finset.sum_eq_zero]
    · rfl
    · intro key _
      unfold userHolds
      rw [untouched.userPressed]
      rfl

/-- From a keymap in which Shift and AltGr require nothing, the keyboard is consistent throughout
every run, and updates go no deeper than three. -/
theorem keyboard_consistent (keymap : Keymap) (plain : PlainModifiers (alloc keymap true))
    (depth : Nat) (actions : List KeyboardAction) :
    Always (keyboardStep (depth + 3))
      (fun state => ∃ keyboard, state = some keyboard ∧ Consistent keyboard)
      (some (alloc keymap true)) actions := by
  obtain ⟨balanced, counted, released⟩ := balanced_alloc plain
  have tracked : Always (keyboardStep (depth + 3))
      (fun state => ∃ keyboard, state = some keyboard ∧ Balanced keyboard ∧ Counted keyboard
        ∧ (keyboard.userPressedKeys = 0 → AllReleased keyboard))
      (some (alloc keymap true)) actions := by
    have guarded : Guarded (keyboardStep (depth + 3)) (fun _ _ => True)
        (some (alloc keymap true)) actions := by
      generalize some (alloc keymap true) = state
      induction actions generalizing state with
      | nil => trivial
      | cons action actions ih => exact ⟨trivial, ih _⟩
    refine guarded.always ⟨_, rfl, balanced, counted, fun _ => released⟩ ?_
    rintro _ action ⟨keyboard, rfl, balanced, counted, released⟩ _
    cases action with
    | client keysym pressed =>
        obtain ⟨after, updated, balanced, counted, released⟩ :=
          balanced.updateKeysym counted depth keysym pressed .client
        exact ⟨after, updated, balanced, counted, released rfl⟩
    | indicators flags =>
        exact ⟨keyboard.setIndicators flags, rfl,
          balanced.congr ⟨rfl, rfl, fun _ => rfl⟩ rfl (fun _ => rfl) rfl, counted, released⟩
  exact tracked.mono fun state ⟨keyboard, is, balanced, counted, released⟩ =>
    ⟨keyboard, is, balanced.consistent counted released⟩

/-- A letter is pressed and released in the keymap with one. -/
theorem keyboard_consistent_letter :
    Always (keyboardStep 3) (fun state => ∃ keyboard, state = some keyboard ∧ Consistent keyboard)
      (some (alloc letterKeymap true)) [.client 0x41 true, .indicators 4, .client 0x41 false] := by
  refine keyboard_consistent letterKeymap ?_ 0 _
  intro keysym modifier key found definition defined
  simp only [List.mem_cons, List.not_mem_nil, or_false] at modifier
  rcases modifier with rfl | rfl
  · obtain rfl := Option.some.inj found
    rw [List.mem_singleton.mp defined]
    exact ⟨rfl, rfl, rfl, rfl⟩
  · obtain rfl := Option.some.inj found
    rw [List.mem_singleton.mp defined]
    exact ⟨rfl, rfl, rfl, rfl⟩

end GuacNebula.Rdp.Keyboard
