import GuacNebula.Rdp.KeyboardBalance

/-! # Outcomes of updates

What the requirements of a definition change and send: Shift and AltGr where they are required, and
the locks. Over a run, the keys that are pressed though the user does not hold them are those of
Shift and AltGr.
-/

namespace GuacNebula.Rdp.Keyboard

open Run

variable {keyboard : Keyboard} {key : Nat}

/-! ## Keys that are left alone -/

theorem releaseKeysyms_keys (keysyms : List Int)
    (apart : ∀ keysym ∈ keysyms, keyboard.getKey keysym ≠ some key) :
    (keysyms.foldl releaseKeysym keyboard).keys key = keyboard.keys key := by
  induction keysyms generalizing keyboard with
  | nil => rfl
  | cons keysym keysyms ih =>
      rw [List.foldl_cons, ih, releaseKeysym_keys (apart keysym (.head _))]
      intro later member
      rw [(releaseKeysym_frame keyboard keysym).getKey]
      exact apart later (.tail _ member)

/-- A modifier that is updated leaves all keys alone but those of its keysyms. -/
theorem applyModifier_keys {set clear : Prop} [Decidable set] [Decidable clear] {pressed : Int}
    {released : List Int} (member : pressed ∈ released)
    (apart : set ∨ clear → ∀ keysym ∈ released, keyboard.getKey keysym ≠ some key) :
    (keyboard.applyModifier set clear pressed released).keys key = keyboard.keys key := by
  unfold applyModifier
  by_cases isSet : set
  · rw [if_pos isSet]
    exact pressKeysym_keys (apart (.inl isSet) pressed member)
  · rw [if_neg isSet]
    by_cases isClear : clear
    · rw [if_pos isClear]
      exact releaseKeysyms_keys released (apart (.inr isClear))
    · rw [if_neg isClear]

/-- The keysyms that count as the modifiers a definition requires to be set or clear. -/
def modifierKeysyms (definition : KeysymDesc) : List Int :=
  (if (definition.setModifiers ||| definition.clearModifiers) &&& modifierShift ≠ 0
    then shiftKeysyms else [])
  ++ (if (definition.setModifiers ||| definition.clearModifiers) &&& modifierAltgr ≠ 0
    then altgrKeysyms else [])

/-- A modifier that is changed for a definition is one that it requires. -/
theorem required_of_changed {setFlags clearFlags flags modifier : BitVec 32}
    (changed : setFlags &&& ~~~flags &&& modifier ≠ 0 ∨ clearFlags &&& flags &&& modifier ≠ 0) :
    (setFlags ||| clearFlags) &&& modifier ≠ 0 := by
  intro none
  rw [BitVec.and_or_distrib_right] at none
  obtain ⟨noSet, noClear⟩ := BitVec.or_eq_zero_iff.mp none
  have swap : ∀ first second third : BitVec 32,
      first &&& second &&& third = first &&& third &&& second := by
    intro first second third
    rw [BitVec.and_assoc, BitVec.and_comm second, BitVec.and_assoc]
  rw [swap, swap clearFlags, noSet, noClear, BitVec.zero_and, BitVec.zero_and] at changed
  rcases changed with set | clear
  · exact set rfl
  · exact clear rfl

/-! ## Requirements -/

/-- The keyboard once the requirements of a definition have been seen to. -/
def meet (keyboard : Keyboard) (definition : KeysymDesc) : Keyboard :=
  (keyboard.updateLocks definition.setLocks definition.clearLocks).applyModifiers
    definition.setModifiers definition.clearModifiers

theorem meetRequirements_eq (depth : Nat) (plain : PlainModifiers keyboard)
    (definition : KeysymDesc) :
    keyboard.meetRequirements (updateKeysym (depth + 1)) definition
      = some (keyboard.meet definition) :=
  updateModifiers_eq depth ((updateLocks_frame _ _).plainModifiers plain) _ _

theorem meet_frame (keyboard : Keyboard) (definition : KeysymDesc) :
    Frame keyboard (keyboard.meet definition) :=
  (updateLocks_frame _ _).trans (applyModifiers_frame _ _ _)

theorem Balanced.meet (balanced : Balanced keyboard) (definition : KeysymDesc) :
    Balanced (keyboard.meet definition) :=
  (balanced.updateLocks _ _).applyModifiers _ _

theorem meet_lockFlags (definition : KeysymDesc) :
    (keyboard.meet definition).lockFlags
      = (keyboard.lockFlags ||| definition.setLocks) &&& ~~~definition.clearLocks :=
  (applyModifiers_lockFlags _ _ _).trans (updateLocks_lockFlags _ _)

/-- The requirements of a definition leave all keys alone but those of its modifiers. -/
theorem meet_keys {definition : KeysymDesc}
    (apart : ∀ keysym ∈ modifierKeysyms definition, keyboard.getKey keysym ≠ some key) :
    (keyboard.meet definition).keys key = keyboard.keys key := by
  have locked := @updateLocks_frame keyboard definition.setLocks definition.clearLocks
  have keys := @updateLocks_keys keyboard definition.setLocks definition.clearLocks
  unfold modifierKeysyms at apart
  unfold meet
  generalize keyboard.updateLocks definition.setLocks definition.clearLocks = locks
    at locked keys ⊢
  unfold applyModifiers
  dsimp only
  rw [applyModifier_keys (by decide), applyModifier_keys (by decide), keys]
  · intro changed keysym member
    rw [locked.getKey]
    refine apart keysym (List.mem_append_left _ ?_)
    rw [if_pos (required_of_changed changed)]
    exact member
  · intro changed keysym member
    rw [(applyModifier_frame _ _ _ _ _).getKey, locked.getKey]
    refine apart keysym (List.mem_append_right _ ?_)
    rw [if_pos (required_of_changed changed)]
    exact member

/-- A key that is none of the two that the keyboard presses by itself. -/
def NotAutomatic (keyboard : Keyboard) (key : Nat) : Prop :=
  keyboard.getKey keysymLshift ≠ some key ∧ keyboard.getKey keysymAltgr ≠ some key

theorem staysReleased_meet (apart : NotAutomatic keyboard key) (definition : KeysymDesc) :
    StaysReleased key keyboard (keyboard.meet definition) := by
  intro released
  have locked := @updateLocks_frame keyboard definition.setLocks definition.clearLocks
  rw [← @updateLocks_keys keyboard definition.setLocks definition.clearLocks] at released
  unfold NotAutomatic at apart
  rw [← locked.getKey, ← locked.getKey] at apart
  unfold meet
  refine staysReleased_applyModifier ?_ _ (staysReleased_applyModifier apart.1 _ released)
  rw [(applyModifier_frame _ _ _ _ _).getKey]
  exact apart.2

theorem SameLayout.notAutomatic {before after : Keyboard} (same : SameLayout before after)
    (apart : NotAutomatic before key) : NotAutomatic after key := by
  unfold NotAutomatic
  rw [same.getKey, same.getKey]
  exact apart

/-! ## Events -/

/-- The events that were sent, without the flags that were tracked. -/
def events (keyboard : Keyboard) : List InputEvent := keyboard.sent.map (·.event)

/-- Only events of a kind are sent, and the locks stay synchronized. -/
structure Sends (allowed : InputEvent → Prop) (before after : Keyboard) : Prop where
  events : ∃ late, after.events = before.events ++ late ∧ ∀ event ∈ late, allowed event
  synchronized : before.synchronized = true → after.synchronized = true

variable {allowed : InputEvent → Prop}

theorem Sends.refl (keyboard : Keyboard) : Sends allowed keyboard keyboard :=
  ⟨⟨[], (List.append_nil _).symm, nofun⟩, id⟩

theorem Sends.trans {first second third : Keyboard} (left : Sends allowed first second)
    (right : Sends allowed second third) : Sends allowed first third := by
  obtain ⟨early, leftEvents, leftAllowed⟩ := left.events
  obtain ⟨late, rightEvents, rightAllowed⟩ := right.events
  refine ⟨⟨early ++ late, ?_, ?_⟩, right.synchronized ∘ left.synchronized⟩
  · rw [rightEvents, leftEvents, List.append_assoc]
  · exact List.forall_mem_append.mpr ⟨leftAllowed, rightAllowed⟩

theorem send_events (online : keyboard.connected) (event : InputEvent) :
    (keyboard.send event).events = keyboard.events ++ [event] := by
  unfold events
  rw [send_sent online, List.map_append]
  rfl

theorem send_sends {event : InputEvent} (is : allowed event) :
    Sends allowed keyboard (keyboard.send event) := by
  unfold send
  by_cases online : keyboard.connected
  · rw [if_pos online]
    refine ⟨⟨[event], ?_, List.forall_mem_singleton.mpr is⟩, id⟩
    unfold events
    rw [List.map_append]
    rfl
  · rw [if_neg online]
    exact .refl _

/-- Every synchronization of the locks is allowed. -/
def AllowsLocks (allowed : InputEvent → Prop) : Prop := ∀ flags, allowed (.synchronize flags)

/-- All events of a key are allowed, under any of its definitions. -/
def AllowsKey (allowed : InputEvent → Prop) (keyboard : Keyboard) (key : Nat) : Prop :=
  ∀ definition ∈ (keyboard.keys key).definitions, ∀ pressed,
    allowed (.key definition.scancode definition.flags pressed)

theorem SameLayout.allowsKey {before after : Keyboard} (same : SameLayout before after)
    (allows : AllowsKey allowed before key) : AllowsKey allowed after key := by
  unfold AllowsKey
  rw [same.definitions]
  exact allows

theorem synchronize_sends (locks : AllowsLocks allowed) :
    Sends allowed keyboard keyboard.synchronize := by
  unfold synchronize
  split
  · exact .refl _
  · exact ⟨(send_sends (locks keyboard.lockFlags)).events, fun _ => rfl⟩

theorem synchronize_synchronized : keyboard.synchronize.synchronized = true := by
  unfold synchronize
  split
  · assumption
  · rfl

theorem synchronize_eq (synchronized : keyboard.synchronized = true) :
    keyboard.synchronize = keyboard := by
  unfold synchronize
  rw [if_pos synchronized]

theorem updateLocks_sends (locks : AllowsLocks allowed) (setFlags clearFlags : BitVec 32) :
    Sends allowed keyboard (keyboard.updateLocks setFlags clearFlags) := by
  unfold updateLocks
  dsimp only
  split
  · have sends := @send_sends keyboard allowed _
      (locks ((keyboard.lockFlags ||| setFlags) &&& ~~~clearFlags))
    exact ⟨sends.events, sends.synchronized⟩
  · exact .refl _

theorem releaseKey_sends (balanced : Balanced keyboard) (allows : AllowsKey allowed keyboard key) :
    Sends allowed keyboard (keyboard.releaseKey key) := by
  unfold releaseKey
  cases held : (keyboard.keys key).pressed with
  | none => exact .refl _
  | some definition =>
      obtain ⟨_, defined, usable⟩ := balanced.held key definition held
      dsimp only
      rw [if_neg usable]
      have sends := @send_sends keyboard allowed _ (allows definition defined false)
      exact ⟨sends.events, sends.synchronized⟩

theorem pressKey_sends {definition : KeysymDesc}
    (is : allowed (.key definition.scancode definition.flags true)) :
    Sends allowed keyboard (keyboard.pressKey key definition) :=
  have sends := @send_sends keyboard allowed _ is
  ⟨sends.events, sends.synchronized⟩

/-- All events of the key of a keysym are allowed. -/
def AllowsKeysym (allowed : InputEvent → Prop) (keyboard : Keyboard) (keysym : Int) : Prop :=
  ∀ key, keyboard.getKey keysym = some key → AllowsKey allowed keyboard key

theorem SameLayout.allowsKeysym {before after : Keyboard} (same : SameLayout before after)
    {keysym : Int} (allows : AllowsKeysym allowed before keysym) :
    AllowsKeysym allowed after keysym := by
  intro key found
  rw [same.getKey] at found
  exact same.allowsKey (allows key found)

theorem releaseKeysym_sends (balanced : Balanced keyboard) (locks : AllowsLocks allowed)
    {keysym : Int} (allows : AllowsKeysym allowed keyboard keysym) :
    Sends allowed keyboard (keyboard.releaseKeysym keysym) := by
  refine (synchronize_sends locks).trans ?_
  have allows := (@synchronize_frame keyboard).toSameLayout.allowsKeysym allows
  unfold releaseKeysym
  cases found : keyboard.synchronize.getKey keysym with
  | none => exact .refl _
  | some key => exact releaseKey_sends balanced.synchronize (allows key found)

theorem releaseKeysyms_sends (balanced : Balanced keyboard) (locks : AllowsLocks allowed)
    (keysyms : List Int) (allows : ∀ keysym ∈ keysyms, AllowsKeysym allowed keyboard keysym) :
    Sends allowed keyboard (keysyms.foldl releaseKeysym keyboard) := by
  induction keysyms generalizing keyboard with
  | nil => exact .refl _
  | cons keysym keysyms ih =>
      have frame := releaseKeysym_frame keyboard keysym
      exact (releaseKeysym_sends balanced locks (allows keysym (.head _))).trans
        (ih (balanced.releaseKeysym keysym) fun later member =>
          frame.toSameLayout.allowsKeysym (allows later (.tail _ member)))

theorem pressKeysym_sends (locks : AllowsLocks allowed) {keysym : Int}
    (allows : AllowsKeysym allowed keyboard keysym) :
    Sends allowed keyboard (keyboard.pressKeysym keysym) := by
  refine (synchronize_sends locks).trans ?_
  have allows := (@synchronize_frame keyboard).toSameLayout.allowsKeysym allows
  unfold pressKeysym
  generalize keyboard.synchronize = keyboard at allows ⊢
  dsimp only
  split
  · exact .refl _
  · split
    · split
      · exact .refl _
      · exact pressKey_sends (allows _ ‹_› _ (getDefinition_mem ‹_› ‹_›) true)
    · exact .refl _

theorem applyModifier_sends (balanced : Balanced keyboard) (locks : AllowsLocks allowed)
    {set clear : Prop} [Decidable set] [Decidable clear] {pressed : Int} {released : List Int}
    (member : pressed ∈ released)
    (allows : set ∨ clear → ∀ keysym ∈ released, AllowsKeysym allowed keyboard keysym) :
    Sends allowed keyboard (keyboard.applyModifier set clear pressed released) := by
  unfold applyModifier
  by_cases isSet : set
  · rw [if_pos isSet]
    exact pressKeysym_sends locks (allows (.inl isSet) pressed member)
  · rw [if_neg isSet]
    by_cases isClear : clear
    · rw [if_pos isClear]
      exact releaseKeysyms_sends balanced locks released (allows (.inr isClear))
    · rw [if_neg isClear]
      exact .refl _

/-- The requirements of a definition send events of the locks and of its modifiers. -/
theorem meet_sends (balanced : Balanced keyboard) (locks : AllowsLocks allowed)
    {definition : KeysymDesc}
    (allows : ∀ keysym ∈ modifierKeysyms definition, AllowsKeysym allowed keyboard keysym) :
    Sends allowed keyboard (keyboard.meet definition) := by
  have locked := @updateLocks_frame keyboard definition.setLocks definition.clearLocks
  have balanced := balanced.updateLocks definition.setLocks definition.clearLocks
  refine (@updateLocks_sends keyboard allowed locks definition.setLocks definition.clearLocks).trans
    ?_
  unfold modifierKeysyms at allows
  unfold meet
  generalize keyboard.updateLocks definition.setLocks definition.clearLocks = locked'
    at locked balanced ⊢
  unfold applyModifiers
  dsimp only
  refine (applyModifier_sends balanced locks (by decide) ?_).trans
    (applyModifier_sends (balanced.applyModifier _ _ _ _) locks (by decide) ?_)
  · intro changed keysym member
    refine locked.toSameLayout.allowsKeysym (allows keysym (List.mem_append_left _ ?_))
    rw [if_pos (required_of_changed changed)]
    exact member
  · intro changed keysym member
    refine (applyModifier_frame _ _ _ _ _).toSameLayout.allowsKeysym
      (locked.toSameLayout.allowsKeysym (allows keysym (List.mem_append_right _ ?_)))
    rw [if_pos (required_of_changed changed)]
    exact member

/-! ## Keys that the user does not hold -/

theorem StaysReleased.trans {first second third : Keyboard}
    (left : StaysReleased key first second) (right : StaysReleased key second third) :
    StaysReleased key first third :=
  right ∘ left

theorem staysReleased_of_pressed {before after : Keyboard}
    (same : (after.keys key).pressed = (before.keys key).pressed) :
    StaysReleased key before after :=
  fun released => same.trans released

/-- What is sent for a missing key does not press another one. -/
def MissingStays (key : Nat) (update : Update) (keysym : Int) : Prop :=
  ∀ before after : Keyboard, Balanced before → NotAutomatic before key →
    before.sendMissingKey update keysym = some after → StaysReleased key before after

theorem staysReleased_missing {update : Update} {keysym : Int}
    (whole : keyboard.decomposeKeysym update keysym = none) {after : Keyboard}
    (sent : keyboard.sendMissingKey update keysym = some after) :
    StaysReleased key keyboard after := by
  unfold sendMissingKey at sent
  rw [whole] at sent
  dsimp only at sent
  cases codepoint : unicodeCodepoint keysym with
  | none =>
      rw [codepoint] at sent
      obtain rfl := Option.some.inj sent
      exact id
  | some codepoint' =>
      rw [codepoint] at sent
      obtain rfl := Option.some.inj sent
      exact staysReleased_of_pressed (by rw [send_keys])

/-- A change of a keysym presses its own key, and by itself the keyboard presses modifiers. -/
theorem staysReleased_sendChange (balanced : Balanced keyboard) (apart : NotAutomatic keyboard key)
    {depth : Nat} {keysym : Int} (missing : MissingStays key (updateKeysym (depth + 1)) keysym)
    (other : keyboard.getKey keysym ≠ some key) {pressed : Bool}
    (changed : keyboard.isChanged (keyboard.getKey keysym) pressed) {after : Keyboard}
    (sent : keyboard.sendChange (updateKeysym (depth + 1)) keysym (keyboard.getKey keysym) pressed
      = some after) :
    StaysReleased key keyboard after := by
  cases pressed with
  | false =>
      cases found : keyboard.getKey keysym with
      | none =>
          rw [found] at sent
          obtain rfl := Option.some.inj sent
          exact id
      | some own =>
          have ne : key ≠ own := fun same => other (same ▸ found)
          rw [found] at changed sent
          rw [sendChange_release _ keysym (by simpa [isChanged] using changed)] at sent
          obtain rfl := Option.some.inj sent
          exact staysReleased_of_pressed (by rw [releaseKey_of_ne ne])
  | true =>
      have frame := @toggleLock_frame keyboard keysym
      have toggled : Balanced (keyboard.toggleLock keysym) :=
        balanced.congr frame.toSameLayout rfl (fun _ => rfl) rfl
      have apart := frame.toSameLayout.notAutomatic apart
      rcases sendChange_press (updateKeysym (depth + 1)) changed
        with typed | ⟨own, definition, found, _, _, _, pressed⟩
      · rw [typed] at sent
        have stays := missing (keyboard.toggleLock keysym) after toggled apart sent
        exact stays
      · have ne : key ≠ own := fun same => other (same ▸ found)
        rw [pressed, meetRequirements_eq depth toggled.plain] at sent
        obtain rfl := Option.some.inj sent
        have met : StaysReleased key keyboard ((keyboard.toggleLock keysym).meet definition) :=
          staysReleased_meet apart definition
        exact met.trans (staysReleased_of_pressed (by rw [pressKey_of_ne ne]))

/-- An update by the keyboard itself presses no key but that of the keysym and modifiers. -/
theorem staysReleased_synthetic (balanced : Balanced keyboard) (apart : NotAutomatic keyboard key)
    {depth : Nat} {keysym : Int} (missing : MissingStays key (updateKeysym (depth + 1)) keysym)
    (other : keyboard.getKey keysym ≠ some key) {pressed : Bool} {after : Keyboard}
    (sent : updateKeysym (depth + 2) keyboard keysym pressed .synthetic = some after) :
    StaysReleased key keyboard after := by
  have synchronized := @synchronize_frame keyboard
  rw [updateKeysym_synthetic_eq] at sent
  refine (staysReleased_of_pressed (by rw [synchronize_keys]) :
    StaysReleased key keyboard keyboard.synchronize).trans ?_
  rw [← synchronized.getKey] at other
  have apart := synchronized.toSameLayout.notAutomatic apart
  have balanced := balanced.synchronize
  generalize keyboard.synchronize = keyboard at *
  by_cases changed : keyboard.isChanged (keyboard.getKey keysym) pressed
  · rw [if_pos changed] at sent
    exact staysReleased_sendChange balanced apart missing other changed sent
  · rw [if_neg changed] at sent
    obtain rfl := Option.some.inj sent
    exact id

/-- A keysym that cannot be decomposed is typed without pressing any key. -/
theorem missingStays_of_whole (key : Nat) (update : Update) {keysym : Int}
    (whole : decomposedKeys.lookup keysym = none) : MissingStays key update keysym := by
  intro before after _ _ sent
  refine staysReleased_missing ?_ sent
  unfold decomposeKeysym
  rw [whole]

/-- A key that is typed is released in the end, whether or not it was pressed before. -/
theorem tapKeysym_released (balanced : Balanced keyboard) {depth : Nat} {keysym : Int}
    (whole : decomposedKeys.lookup keysym = none) {after : Keyboard}
    (sent : keyboard.tapKeysym (updateKeysym (depth + 2)) keysym = some after)
    (own : keyboard.getKey keysym = some key) : (after.keys key).pressed = none := by
  obtain ⟨down, pressed, _, frame⟩ := balanced.updateKeysym_synthetic
    (missingBalanced_of_whole (updateKeysym (depth + 1)) whole) true
  unfold tapKeysym at sent
  rw [pressed, Option.bind_some, updateKeysym_release] at sent
  obtain rfl := Option.some.inj sent
  exact releaseKeysym_pressed ((frame.getKey keysym).trans own)

/-- Only modifiers are pressed with a key that is typed. -/
theorem staysReleased_tap (balanced : Balanced keyboard) (apart : NotAutomatic keyboard key)
    {depth : Nat} {keysym : Int} (whole : decomposedKeys.lookup keysym = none) {after : Keyboard}
    (sent : keyboard.tapKeysym (updateKeysym (depth + 2)) keysym = some after) :
    StaysReleased key keyboard after := by
  by_cases own : keyboard.getKey keysym = some key
  · exact fun _ => tapKeysym_released balanced whole sent own
  · unfold tapKeysym at sent
    obtain ⟨down, pressed, released⟩ := Option.bind_eq_some_iff.mp sent
    rw [updateKeysym_release] at released
    obtain rfl := Option.some.inj released
    have missing := missingStays_of_whole key (updateKeysym (depth + 1)) whole
    exact (staysReleased_synthetic balanced apart missing own pressed).trans
      (staysReleased_releaseKeysym key down keysym)

/-- Nothing that is sent for a missing key leaves a key pressed, but for modifiers. -/
theorem missingStays (key : Nat) (depth : Nat) (keysym : Int) :
    MissingStays key (updateKeysym (depth + 2)) keysym := by
  intro before after balanced apart sent
  cases found : decomposedKeys.lookup keysym with
  | none => exact missingStays_of_whole key _ found before after balanced apart sent
  | some entry =>
      obtain ⟨dead, base⟩ := entry
      obtain ⟨deadWhole, baseWhole⟩ := lookup_decomposed found
      by_cases defined : (before.getKey dead).isNone ∨ (before.getKey base).isNone
      · refine staysReleased_missing ?_ sent
        unfold decomposeKeysym
        simp only [found, defined, ↓reduceIte]
      · obtain ⟨first, typed, firstBalanced, frame⟩ := balanced.tapKeysym depth deadWhole
        unfold sendMissingKey decomposeKeysym at sent
        simp only [found, defined, ↓reduceIte, typed, Option.bind_some] at sent
        exact (staysReleased_tap balanced apart deadWhole typed).trans
          (staysReleased_tap firstBalanced (frame.toSameLayout.notAutomatic apart) baseWhole sent)

theorem staysReleased_releaseHeld (keys : List Nat) :
    StaysReleased key keyboard (keys.foldl releaseHeld keyboard) := by
  induction keys generalizing keyboard with
  | nil => exact id
  | cons next keys ih =>
      refine StaysReleased.trans ?_ ih
      unfold releaseHeld
      cases (keyboard.keys next).pressed with
      | none => exact id
      | some definition => exact staysReleased_releaseKeysym key keyboard definition.keysym

/-- A keyboard between updates: what is pressed but not held by the user are modifiers. -/
structure Attended (keyboard : Keyboard) : Prop where
  balanced : Balanced keyboard
  counted : Counted keyboard
  attended : ∀ key, (keyboard.keys key).pressed.isSome → NotAutomatic keyboard key →
    (keyboard.keys key).userPressed

/-- The user holds the key that the client has pressed last, and no other key is affected. -/
theorem trackUser_userPressed (pressed : Bool) (key : Option Nat) (other : Nat) :
    ((keyboard.trackUser key pressed .client).keys other).userPressed
      = if key = some other then pressed else (keyboard.keys other).userPressed := by
  cases key with
  | none => rfl
  | some key =>
      by_cases same : key = other
      · subst same
        rw [if_pos rfl]
        unfold trackUser
        cases pressed <;> cases held : (keyboard.keys key).userPressed <;> simp [held]
      · rw [if_neg (Option.some_inj.not.mpr same)]
        unfold trackUser
        dsimp only
        split
        · rw [setUserPressed_of_ne (Ne.symm same)]
        · split
          · rw [setUserPressed_of_ne (Ne.symm same)]
          · rfl

/-- What a change presses, and that a change releases its own key if it is to. -/
theorem changed_pressed (balanced : Balanced keyboard) {depth : Nat} {keysym : Int}
    {pressed : Bool} {after : Keyboard}
    (sent : (if keyboard.isChanged (keyboard.getKey keysym) pressed then
        keyboard.sendChange (updateKeysym (depth + 2)) keysym (keyboard.getKey keysym) pressed
      else some keyboard) = some after) (apart : NotAutomatic keyboard key)
    (isPressed : (after.keys key).pressed.isSome) :
    if keyboard.getKey keysym = some key then pressed else (keyboard.keys key).pressed.isSome := by
  by_cases own : keyboard.getKey keysym = some key
  · rw [if_pos own]
    cases pressed with
    | true => rfl
    | false =>
        rw [own] at sent
        cases held : (keyboard.keys key).pressed with
        | none =>
            simp only [isChanged, held, Option.isSome_none, bne_self_eq_false, Bool.false_eq_true,
              ↓reduceIte, Option.some.injEq] at sent
            rw [← sent, held] at isPressed
            exact isPressed
        | some definition =>
            have some : (keyboard.keys key).pressed.isSome := by rw [held]; rfl
            rw [sendChange_release _ keysym some, if_pos (by rw [isChanged, some]; rfl)] at sent
            rw [← Option.some.inj sent, releaseKey_self] at isPressed
            exact isPressed
  · rw [if_neg own]
    have stays : StaysReleased key keyboard after := by
      by_cases changed : keyboard.isChanged (keyboard.getKey keysym) pressed
      · rw [if_pos changed] at sent
        exact staysReleased_sendChange balanced apart (missingStays key depth keysym) own changed
          sent
      · rw [if_neg changed] at sent
        rw [Option.some.inj sent]
        exact id
    cases held : (keyboard.keys key).pressed with
    | none =>
        rw [stays held] at isPressed
        exact absurd isPressed Bool.false_ne_true
    | some definition => rfl

/-- The user attends to a keyboard after every event of the client. -/
theorem Attended.updateKeysym (attended : Attended keyboard) (depth : Nat) (keysym : Int)
    (pressed : Bool) :
    ∃ after, Keyboard.updateKeysym (depth + 3) keyboard keysym pressed .client = some after
      ∧ Attended after := by
  obtain ⟨after, updated, balanced, counted, _⟩ :=
    attended.balanced.updateKeysym attended.counted depth keysym pressed .client
  refine ⟨after, updated, balanced, counted, fun key isPressed apart => ?_⟩
  have synchronized := @synchronize_frame keyboard
  have same := @trackUser_sameLayout keyboard.synchronize (keyboard.synchronize.getKey keysym)
    pressed .client
  have sent := @trackUser_sent keyboard.synchronize (keyboard.synchronize.getKey keysym)
    pressed .client
  have held := @trackUser_userPressed keyboard.synchronize pressed
    (keyboard.synchronize.getKey keysym) key
  have was := @trackUser_pressed keyboard.synchronize (keyboard.synchronize.getKey keysym)
    pressed .client key
  have tracked := attended.balanced.synchronize.congr same sent.2 (trackUser_pressed _ _ _) sent.1
  unfold Keyboard.updateKeysym at updated
  dsimp only at updated
  rw [synchronized.userPressed] at held
  rw [synchronize_keys] at was
  have found := same.getKey keysym
  generalize keyboard.synchronize.trackUser (keyboard.synchronize.getKey keysym) pressed .client
    = user at same found held was tracked updated
  rw [← found] at held updated
  obtain ⟨middle, changed, _, frame⟩ := tracked.change depth keysym pressed
  rw [changed, Option.bind_some] at updated
  obtain ⟨last, stays⟩ : Frame middle after ∧ StaysReleased key middle after := by
    split at updated
    · unfold Keyboard.reset at updated
      rw [releaseKeys_eq] at updated
      obtain rfl := Option.some.inj updated
      exact ⟨releaseHeld_foldl_frame _ _, staysReleased_releaseHeld _⟩
    · obtain rfl := Option.some.inj updated
      exact ⟨.refl _, id⟩
  have there : (middle.keys key).pressed.isSome := by
    cases held : (middle.keys key).pressed with
    | none =>
        rw [stays held] at isPressed
        exact isPressed
    | some definition => rfl
  have apart : NotAutomatic user key := by
    unfold NotAutomatic at apart ⊢
    rw [last.getKey, last.getKey, frame.getKey, frame.getKey] at apart
    exact apart
  have own := changed_pressed tracked changed apart there
  rw [last.userPressed, frame.userPressed, held]
  split at own
  · rw [if_pos ‹_›]
    exact own
  · rw [if_neg ‹_›]
    rw [was] at own
    refine attended.attended key own ?_
    unfold NotAutomatic at apart ⊢
    rw [same.getKey, same.getKey, synchronized.getKey, synchronized.getKey] at apart
    exact apart

/-- The user attends to a keyboard throughout a run. -/
theorem attended_exec {keymap : Keymap} (plain : PlainModifiers (alloc keymap true)) (depth : Nat)
    (actions : List KeyboardAction) :
    ∃ keyboard, exec (keyboardStep (depth + 3)) (some (alloc keymap true)) actions = some keyboard
      ∧ Attended keyboard := by
  obtain ⟨balanced, counted, released⟩ := balanced_alloc plain
  refine @exec_invariant _ _ _ (fun state => ∃ keyboard, state = some keyboard ∧ Attended keyboard)
    _ _ ⟨_, rfl, balanced, counted, fun key isPressed => ?_⟩ ?_
  · rw [released key] at isPressed
    cases isPressed
  · rintro _ action ⟨keyboard, rfl, attended⟩
    cases action with
    | client keysym pressed => exact attended.updateKeysym depth keysym pressed
    | indicators flags =>
        exact ⟨keyboard.setIndicators flags, rfl,
          attended.balanced.congr ⟨rfl, rfl, fun _ => rfl⟩ rfl (fun _ => rfl) rfl,
          attended.counted, attended.attended⟩

end GuacNebula.Rdp.Keyboard
