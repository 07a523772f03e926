import GuacNebula.Rdp.KeyboardLayout

/-! # Updates of single keys

The updates that the keyboard makes of its own accord release keys, and press keys that require
nothing. They send at most one event for the key, and leave all else as it was.
-/

namespace GuacNebula.Rdp.Keyboard

variable {keyboard : Keyboard} {key : Nat}

/-! ## Frames -/

/-- The layout, the connection and the keys that the user holds are the same, and nothing that was
sent is undone. -/
structure Frame (before after : Keyboard) : Prop extends SameLayout before after where
  connected : after.connected = before.connected
  userPressedKeys : after.userPressedKeys = before.userPressedKeys
  userPressed : ∀ key, (after.keys key).userPressed = (before.keys key).userPressed
  sent : before.sent <+: after.sent

theorem Frame.refl (keyboard : Keyboard) : Frame keyboard keyboard :=
  ⟨⟨rfl, rfl, fun _ => rfl⟩, rfl, rfl, fun _ => rfl, List.prefix_refl _⟩

theorem Frame.trans {first second third : Keyboard} (left : Frame first second)
    (right : Frame second third) : Frame first third where
  numKeys := right.numKeys.trans left.numKeys
  keysByKeysym := right.keysByKeysym.trans left.keysByKeysym
  definitions key := (right.definitions key).trans (left.definitions key)
  connected := right.connected.trans left.connected
  userPressedKeys := right.userPressedKeys.trans left.userPressedKeys
  userPressed key := (right.userPressed key).trans (left.userPressed key)
  sent := left.sent.trans right.sent

/-- What is read of the keys alone is the same where the keys are. -/
theorem isPressed_congr {before after : Keyboard} {keysym : Int}
    (same : after.getKey keysym = before.getKey keysym)
    (pressed : ∀ key, before.getKey keysym = some key →
      (after.keys key).pressed = (before.keys key).pressed) :
    after.isPressed keysym = before.isPressed keysym := by
  unfold isPressed
  rw [same]
  cases found : before.getKey keysym with
  | none => rfl
  | some key => exact congrArg Option.isSome (pressed key found)

/-! ## Sending -/

@[simp] theorem send_keys (event : InputEvent) : (keyboard.send event).keys = keyboard.keys := by
  unfold send
  split <;> rfl

@[simp] theorem send_lockFlags (event : InputEvent) :
    (keyboard.send event).lockFlags = keyboard.lockFlags := by
  unfold send
  split <;> rfl

theorem send_frame (event : InputEvent) : Frame keyboard (keyboard.send event) := by
  unfold send
  split
  · exact ⟨⟨rfl, rfl, fun _ => rfl⟩, rfl, rfl, fun _ => rfl, List.prefix_append _ _⟩
  · exact .refl _

@[simp] theorem synchronize_keys : keyboard.synchronize.keys = keyboard.keys := by
  unfold synchronize
  split
  · rfl
  · exact send_keys _

@[simp] theorem synchronize_lockFlags : keyboard.synchronize.lockFlags = keyboard.lockFlags := by
  unfold synchronize
  split
  · rfl
  · exact send_lockFlags _

theorem synchronize_frame : Frame keyboard keyboard.synchronize := by
  unfold synchronize
  split
  · exact .refl _
  · have sent := @send_frame keyboard (.synchronize keyboard.lockFlags)
    exact ⟨⟨sent.numKeys, sent.keysByKeysym, sent.definitions⟩, sent.connected,
      sent.userPressedKeys, sent.userPressed, sent.sent⟩

theorem updateLocks_keys (setFlags clearFlags : BitVec 32) :
    (keyboard.updateLocks setFlags clearFlags).keys = keyboard.keys := by
  unfold updateLocks
  dsimp only
  split
  · exact send_keys _
  · rfl

theorem updateLocks_lockFlags (setFlags clearFlags : BitVec 32) :
    (keyboard.updateLocks setFlags clearFlags).lockFlags
      = (keyboard.lockFlags ||| setFlags) &&& ~~~clearFlags := by
  unfold updateLocks
  dsimp only
  by_cases changed : (keyboard.lockFlags ||| setFlags) &&& ~~~clearFlags ≠ keyboard.lockFlags
  · rw [if_pos changed]
  · rw [if_neg changed]
    exact (not_not.mp changed).symm

theorem updateLocks_frame (setFlags clearFlags : BitVec 32) :
    Frame keyboard (keyboard.updateLocks setFlags clearFlags) := by
  unfold updateLocks
  dsimp only
  split
  · have sent := @send_frame keyboard
      (.synchronize ((keyboard.lockFlags ||| setFlags) &&& ~~~clearFlags))
    exact ⟨⟨sent.numKeys, sent.keysByKeysym, sent.definitions⟩, sent.connected,
      sent.userPressedKeys, sent.userPressed, sent.sent⟩
  · exact .refl _

/-- No lock is changed for a key that requires none. -/
theorem updateLocks_zero : keyboard.updateLocks 0 0 = keyboard := by
  have ones : ~~~(0 : BitVec 32) = BitVec.allOnes 32 := by decide
  have same : (keyboard.lockFlags ||| 0) &&& ~~~0 = keyboard.lockFlags := by
    rw [ones, BitVec.and_allOnes]
    exact BitVec.or_zero
  unfold updateLocks
  rw [same, if_neg (not_not.mpr rfl)]

/-! ## Keys that are pressed and released -/

@[simp] theorem setPressed_self (pressed : Option KeysymDesc) :
    ((keyboard.setPressed key pressed).keys key).pressed = pressed := by
  simp [setPressed]

theorem setPressed_of_ne {other : Nat} (ne : other ≠ key) (pressed : Option KeysymDesc) :
    (keyboard.setPressed key pressed).keys other = keyboard.keys other :=
  setKey_of_ne _ ne _

/-- A key that was not pressed is left as it was. -/
theorem setPressed_none (released : (keyboard.keys key).pressed = none) :
    keyboard.setPressed key none = keyboard := by
  unfold setPressed setKey
  rw [← released, Function.update_eq_self]

theorem setPressed_frame (pressed : Option KeysymDesc) :
    Frame keyboard (keyboard.setPressed key pressed) := by
  refine ⟨⟨rfl, rfl, fun other => ?_⟩, rfl, rfl, fun other => ?_, List.prefix_refl _⟩
  all_goals
    by_cases same : other = key
    · subst same
      simp [setPressed]
    · rw [setPressed_of_ne same]

/-- A key is released, under the definition it was pressed with. -/
def releaseKey (keyboard : Keyboard) (key : Nat) : Keyboard :=
  match (keyboard.keys key).pressed with
  | none => keyboard
  | some definition =>
      (if definition.scancode = 0 then keyboard else keyboard.sendKeyEvent definition false).setPressed
        key none

/-- A key is pressed, under a definition. -/
def pressKey (keyboard : Keyboard) (key : Nat) (definition : KeysymDesc) : Keyboard :=
  (keyboard.sendKeyEvent definition true).setPressed key (some definition)

theorem releaseKey_frame : Frame keyboard (keyboard.releaseKey key) := by
  unfold releaseKey
  cases (keyboard.keys key).pressed with
  | none => exact .refl _
  | some definition =>
      dsimp only
      split
      · exact setPressed_frame none
      · exact (send_frame _).trans (setPressed_frame none)

theorem pressKey_frame (definition : KeysymDesc) :
    Frame keyboard (keyboard.pressKey key definition) :=
  (send_frame _).trans (setPressed_frame _)

@[simp] theorem releaseKey_self : ((keyboard.releaseKey key).keys key).pressed = none := by
  unfold releaseKey
  cases released : (keyboard.keys key).pressed with
  | none => exact released
  | some definition => exact setPressed_self none

theorem releaseKey_of_ne {other : Nat} (ne : other ≠ key) :
    (keyboard.releaseKey key).keys other = keyboard.keys other := by
  unfold releaseKey
  cases (keyboard.keys key).pressed with
  | none => rfl
  | some definition =>
      dsimp only
      rw [setPressed_of_ne ne]
      split
      · rfl
      · rw [sendKeyEvent, send_keys]

theorem pressKey_of_ne {other : Nat} (ne : other ≠ key) (definition : KeysymDesc) :
    (keyboard.pressKey key definition).keys other = keyboard.keys other := by
  unfold pressKey
  rw [setPressed_of_ne ne, sendKeyEvent, send_keys]

@[simp] theorem releaseKey_lockFlags :
    (keyboard.releaseKey key).lockFlags = keyboard.lockFlags := by
  unfold releaseKey
  cases (keyboard.keys key).pressed with
  | none => rfl
  | some definition =>
      dsimp only
      split
      · rfl
      · exact send_lockFlags _

@[simp] theorem pressKey_lockFlags (definition : KeysymDesc) :
    (keyboard.pressKey key definition).lockFlags = keyboard.lockFlags :=
  send_lockFlags _

/-! ## Updates without requirements -/

/-- A keysym is released, after the locks have been synchronized. -/
def releaseKeysym (keyboard : Keyboard) (keysym : Int) : Keyboard :=
  match keyboard.synchronize.getKey keysym with
  | none => keyboard.synchronize
  | some key => keyboard.synchronize.releaseKey key

/-- A keysym of the keyboard itself is released at any depth. -/
theorem updateKeysym_release (depth : Nat) (keyboard : Keyboard) (keysym : Int) :
    updateKeysym (depth + 1) keyboard keysym false .synthetic
      = some (keyboard.releaseKeysym keysym) := by
  unfold updateKeysym releaseKeysym
  generalize keyboard.synchronize = keyboard
  cases found : keyboard.getKey keysym with
  | none => simp [found, trackUser, isChanged, sendChange, changeKey]
  | some key =>
      unfold releaseKey
      cases pressed : (keyboard.keys key).pressed with
      | none => simp [found, trackUser, isChanged, pressed]
      | some definition =>
          by_cases unusable : definition.scancode = 0
          all_goals
            simp [found, trackUser, isChanged, sendChange, changeKey, sendDefinedKey,
              getDefinition, pressed, unusable]

/-- A key that is defined without requirements. -/
structure Plain (definition : KeysymDesc) : Prop where
  setModifiers : definition.setModifiers = 0
  clearModifiers : definition.clearModifiers = 0
  setLocks : definition.setLocks = 0
  clearLocks : definition.clearLocks = 0

/-- A keysym is pressed, after the locks have been synchronized. -/
def pressKeysym (keyboard : Keyboard) (keysym : Int) : Keyboard :=
  let keyboard := keyboard.synchronize
  match keyboard.getKey keysym with
  | none => keyboard
  | some key =>
      match (keyboard.keys key).pressed, keyboard.getDefinition (keyboard.keys key) with
      | none, some definition =>
          if definition.scancode = 0 then keyboard else keyboard.pressKey key definition
      | _, _ => keyboard

/-- The definition of a key is one of those it has. -/
theorem getDefinition_mem {definition : KeysymDesc} (released : (keyboard.keys key).pressed = none)
    (chosen : keyboard.getDefinition (keyboard.keys key) = some definition) :
    definition ∈ (keyboard.keys key).definitions := by
  unfold getDefinition at chosen
  rw [released] at chosen
  cases definitions : (keyboard.keys key).definitions with
  | nil =>
      rw [definitions] at chosen
      cases chosen
  | cons first further =>
      rw [definitions] at chosen
      obtain rfl := Option.some.inj chosen
      clear chosen definitions
      induction further generalizing first with
      | nil => exact List.mem_singleton_self _
      | cons next further ih =>
          rw [List.foldl_cons]
          by_cases better : keyboard.getCost next < keyboard.getCost first
          · rw [if_pos better]
            exact List.mem_cons_of_mem _ (ih next)
          · rw [if_neg better]
            rcases List.mem_cons.mp (ih first) with same | later
            · exact List.mem_cons.mpr (Or.inl same)
            · exact List.mem_cons_of_mem _ (List.mem_cons_of_mem _ later)

/-- Nothing is done for the requirements of a key that has none. -/
theorem meetRequirements_plain (update : Update) {definition : KeysymDesc}
    (plain : Plain definition) : keyboard.meetRequirements update definition = some keyboard := by
  unfold meetRequirements
  rw [plain.setLocks, plain.clearLocks, plain.setModifiers, plain.clearModifiers, updateLocks_zero]
  simp [updateModifiers, updateModifier]

/-- The keyboard with the lock of a keysym toggled, if it has one. -/
def toggleLock (keyboard : Keyboard) (keysym : Int) : Keyboard :=
  { keyboard with lockFlags := keyboard.lockFlags ^^^ lockFlag keysym }

theorem toggleLock_frame (keysym : Int) : Frame keyboard (keyboard.toggleLock keysym) :=
  ⟨⟨rfl, rfl, fun _ => rfl⟩, rfl, rfl, fun _ => rfl, List.prefix_refl _⟩

/-- A key that is pressed is released by its change. -/
theorem sendChange_release (update : Update) (keysym : Int)
    (held : (keyboard.keys key).pressed.isSome) :
    keyboard.sendChange update keysym (some key) false = some (keyboard.releaseKey key) := by
  obtain ⟨definition, held⟩ := Option.isSome_iff_exists.mp held
  unfold sendChange changeKey sendDefinedKey getDefinition releaseKey
  by_cases unusable : definition.scancode = 0
  all_goals simp [held, unusable]

/-- A keysym that is not pressed is typed otherwise, or its key is pressed once the requirements of
the definition that is chosen are met. -/
theorem sendChange_press (update : Update) {keysym : Int}
    (changed : keyboard.isChanged (keyboard.getKey keysym) true) :
    keyboard.sendChange update keysym (keyboard.getKey keysym) true
        = (keyboard.toggleLock keysym).sendMissingKey update keysym
      ∨ ∃ key definition, keyboard.getKey keysym = some key
        ∧ (keyboard.keys key).pressed = none
        ∧ definition ∈ (keyboard.keys key).definitions ∧ definition.scancode ≠ 0
        ∧ keyboard.sendChange update keysym (keyboard.getKey keysym) true
          = ((keyboard.toggleLock keysym).meetRequirements update definition).map
            (·.pressKey key definition) := by
  cases found : keyboard.getKey keysym with
  | none => exact .inl rfl
  | some key =>
      have released : (keyboard.keys key).pressed = none := by
        rw [found] at changed
        cases held : (keyboard.keys key).pressed with
        | none => rfl
        | some definition => simp [isChanged, held] at changed
      have stays : (keyboard.toggleLock keysym).setPressed key none = keyboard.toggleLock keysym :=
        setPressed_none released
      unfold sendChange changeKey sendDefinedKey
      cases chosen : (keyboard.toggleLock keysym).getDefinition
          ((keyboard.toggleLock keysym).keys key) with
      | none =>
          refine .inl ?_
          unfold toggleLock at chosen stays ⊢
          simp [chosen, stays]
      | some definition =>
          by_cases unusable : definition.scancode = 0
          · refine .inl ?_
            unfold toggleLock at chosen stays ⊢
            simp [chosen, stays, unusable]
          · refine .inr ⟨key, definition, rfl, released,
              @getDefinition_mem (keyboard.toggleLock keysym) key definition released chosen,
              unusable, ?_⟩
            unfold toggleLock at chosen ⊢
            simp only [chosen, unusable, ↓reduceIte, Option.map_map]
            cases meetRequirements update _ definition with
            | none => rfl
            | some met => rfl

/-- A keysym that is neither a lock nor typed as a character is pressed at any depth, if it is
defined without requirements. -/
theorem updateKeysym_press (depth : Nat) (keyboard : Keyboard) {keysym : Int}
    (noLock : lockFlag keysym = 0) (noDead : decomposedKeys.lookup keysym = none)
    (noCharacter : unicodeCodepoint keysym = none)
    (plain : ∀ key, keyboard.getKey keysym = some key →
      ∀ definition ∈ (keyboard.keys key).definitions, Plain definition) :
    updateKeysym (depth + 1) keyboard keysym true .synthetic
      = some (keyboard.pressKeysym keysym) := by
  have missing : ∀ keyboard : Keyboard,
      keyboard.sendMissingKey (updateKeysym depth) keysym = some keyboard := by
    intro keyboard
    unfold sendMissingKey decomposeKeysym
    rw [noDead, noCharacter]
  rw [← @synchronize_frame keyboard |>.getKey, ← @synchronize_keys keyboard] at plain
  unfold updateKeysym pressKeysym
  generalize keyboard.synchronize = keyboard at plain ⊢
  cases found : keyboard.getKey keysym with
  | none => simp [found, trackUser, isChanged, sendChange, changeKey, noLock, missing]
  | some key =>
      have plain := plain key found
      cases pressed : (keyboard.keys key).pressed with
      | some definition => simp [found, trackUser, isChanged, pressed]
      | none =>
          cases chosen : keyboard.getDefinition (keyboard.keys key) with
          | none =>
              simp [found, trackUser, isChanged, sendChange, changeKey, sendDefinedKey, noLock,
                missing, pressed, chosen, setPressed_none]
          | some definition =>
              have plain := plain definition (getDefinition_mem pressed chosen)
              by_cases unusable : definition.scancode = 0
              · simp [found, trackUser, isChanged, sendChange, changeKey, sendDefinedKey, noLock,
                  missing, pressed, chosen, unusable, setPressed_none]
              · simp [found, trackUser, isChanged, sendChange, changeKey, sendDefinedKey, noLock,
                  missing, pressed, chosen, unusable, meetRequirements_plain _ plain, pressKey]

/-! ## Modifiers -/

/-- Shift and AltGr, where they are defined, require nothing. -/
def PlainModifiers (keyboard : Keyboard) : Prop :=
  ∀ keysym ∈ [keysymLshift, keysymAltgr], ∀ key, keyboard.getKey keysym = some key →
    ∀ definition ∈ (keyboard.keys key).definitions, Plain definition

theorem Frame.plainModifiers {before after : Keyboard} (frame : Frame before after)
    (plain : PlainModifiers before) : PlainModifiers after := by
  intro keysym modifier key found definition defined
  rw [frame.getKey] at found
  rw [frame.definitions] at defined
  exact plain keysym modifier key found definition defined

/-- The outcome of pressing or releasing a modifier as needed. -/
def applyModifier (keyboard : Keyboard) (set clear : Prop) [Decidable set] [Decidable clear]
    (pressed : Int) (released : List Int) : Keyboard :=
  if set then keyboard.pressKeysym pressed
  else if clear then released.foldl releaseKeysym keyboard
  else keyboard

/-- The outcome of `guac_rdp_keyboard_update_modifiers`. -/
def applyModifiers (keyboard : Keyboard) (setFlags clearFlags : BitVec 32) : Keyboard :=
  let modifierFlags := keyboard.getModifierFlags
  let clearFlags := clearFlags &&& modifierFlags
  let setFlags := setFlags &&& ~~~modifierFlags
  (keyboard.applyModifier (setFlags &&& modifierShift ≠ 0) (clearFlags &&& modifierShift ≠ 0)
      keysymLshift [keysymLshift, keysymRshift]).applyModifier
    (setFlags &&& modifierAltgr ≠ 0) (clearFlags &&& modifierAltgr ≠ 0) keysymAltgr
    [keysymAltgr, keysymLalt, keysymRalt, keysymLctrl, keysymRctrl]

theorem releaseKeysyms_eq (depth : Nat) (keyboard : Keyboard) (keysyms : List Int) :
    keyboard.releaseKeysyms (updateKeysym (depth + 1)) keysyms
      = some (keysyms.foldl releaseKeysym keyboard) := by
  induction keysyms generalizing keyboard with
  | nil => rfl
  | cons keysym keysyms ih =>
      unfold releaseKeysyms
      rw [updateKeysym_release, Option.bind_some, ih]
      rfl

theorem releaseKeysym_frame (keyboard : Keyboard) (keysym : Int) :
    Frame keyboard (keyboard.releaseKeysym keysym) := by
  unfold releaseKeysym
  cases keyboard.synchronize.getKey keysym with
  | none => exact synchronize_frame
  | some key => exact synchronize_frame.trans releaseKey_frame

theorem releaseKeysym_pressed {keysym : Int} (found : keyboard.getKey keysym = some key) :
    ((keyboard.releaseKeysym keysym).keys key).pressed = none := by
  unfold releaseKeysym
  rw [synchronize_frame.getKey, found]
  exact releaseKey_self

/-- Releasing a keysym leaves all keys alone but its own. -/
theorem releaseKeysym_keys {keysym : Int} (apart : keyboard.getKey keysym ≠ some key) :
    (keyboard.releaseKeysym keysym).keys key = keyboard.keys key := by
  unfold releaseKeysym
  rw [synchronize_frame.getKey]
  cases found : keyboard.getKey keysym with
  | none => rw [synchronize_keys]
  | some released =>
      have ne : key ≠ released := fun same => apart (same ▸ found)
      dsimp only
      rw [releaseKey_of_ne ne, synchronize_keys]

theorem releaseKeysyms_frame (keyboard : Keyboard) (keysyms : List Int) :
    Frame keyboard (keysyms.foldl releaseKeysym keyboard) := by
  induction keysyms generalizing keyboard with
  | nil => exact .refl _
  | cons keysym keysyms ih => exact (releaseKeysym_frame keyboard keysym).trans (ih _)

theorem pressKeysym_frame (keyboard : Keyboard) (keysym : Int) :
    Frame keyboard (keyboard.pressKeysym keysym) := by
  refine synchronize_frame.trans ?_
  unfold pressKeysym
  generalize keyboard.synchronize = keyboard
  dsimp only
  split
  · exact .refl _
  · split
    · split
      · exact .refl _
      · exact pressKey_frame _
    · exact .refl _

/-- Pressing a keysym leaves all keys alone but its own. -/
theorem pressKeysym_keys {keysym : Int} (apart : keyboard.getKey keysym ≠ some key) :
    (keyboard.pressKeysym keysym).keys key = keyboard.keys key := by
  unfold pressKeysym
  dsimp only
  rw [synchronize_frame.getKey]
  cases found : keyboard.getKey keysym with
  | none => rw [synchronize_keys]
  | some pressed =>
      have ne : key ≠ pressed := fun same => apart (same ▸ found)
      dsimp only
      split
      · split
        · rw [synchronize_keys]
        · rw [pressKey_of_ne ne, synchronize_keys]
      · rw [synchronize_keys]

theorem applyModifier_frame (keyboard : Keyboard) (set clear : Prop) [Decidable set]
    [Decidable clear] (pressed : Int) (released : List Int) :
    Frame keyboard (keyboard.applyModifier set clear pressed released) := by
  unfold applyModifier
  split
  · exact pressKeysym_frame keyboard pressed
  · split
    · exact releaseKeysyms_frame keyboard released
    · exact .refl _

theorem updateModifier_eq (depth : Nat) (plain : PlainModifiers keyboard) (set clear : Prop)
    [Decidable set] [Decidable clear] {pressed : Int}
    (modifier : pressed ∈ [keysymLshift, keysymAltgr]) (released : List Int) :
    keyboard.updateModifier (updateKeysym (depth + 1)) set clear pressed released
      = some (keyboard.applyModifier set clear pressed released) := by
  have known : lockFlag pressed = 0 ∧ decomposedKeys.lookup pressed = none
      ∧ unicodeCodepoint pressed = none := by
    simp only [List.mem_cons, List.not_mem_nil, or_false] at modifier
    rcases modifier with rfl | rfl
    all_goals decide
  unfold updateModifier applyModifier
  rw [releaseKeysyms_eq,
    updateKeysym_press depth keyboard known.1 known.2.1 known.2.2 (plain pressed modifier)]
  split
  · rfl
  · split <;> rfl

/-- Modifiers are updated at any depth, if Shift and AltGr require nothing themselves. -/
theorem updateModifiers_eq (depth : Nat) (plain : PlainModifiers keyboard)
    (setFlags clearFlags : BitVec 32) :
    keyboard.updateModifiers (updateKeysym (depth + 1)) setFlags clearFlags
      = some (keyboard.applyModifiers setFlags clearFlags) := by
  unfold updateModifiers applyModifiers
  dsimp only
  rw [updateModifier_eq depth plain _ _ (by decide), Option.bind_some]
  exact updateModifier_eq depth ((applyModifier_frame _ _ _ _ _).plainModifiers plain) _ _
    (by decide) _

theorem applyModifiers_frame (keyboard : Keyboard) (setFlags clearFlags : BitVec 32) :
    Frame keyboard (keyboard.applyModifiers setFlags clearFlags) :=
  (applyModifier_frame _ _ _ _ _).trans (applyModifier_frame _ _ _ _ _)

theorem applyModifiers_lockFlags (keyboard : Keyboard) (setFlags clearFlags : BitVec 32) :
    (keyboard.applyModifiers setFlags clearFlags).lockFlags = keyboard.lockFlags := by
  have release : ∀ (keyboard : Keyboard) (keysym : Int),
      (keyboard.releaseKeysym keysym).lockFlags = keyboard.lockFlags := by
    intro keyboard keysym
    unfold releaseKeysym
    cases keyboard.synchronize.getKey keysym with
    | none => exact synchronize_lockFlags
    | some key => exact releaseKey_lockFlags.trans synchronize_lockFlags
  have releases : ∀ (keysyms : List Int) (keyboard : Keyboard),
      (keysyms.foldl releaseKeysym keyboard).lockFlags = keyboard.lockFlags := by
    intro keysyms
    induction keysyms with
    | nil => exact fun _ => rfl
    | cons keysym keysyms ih => exact fun keyboard => (ih _).trans (release keyboard keysym)
  have press : ∀ (keyboard : Keyboard) (keysym : Int),
      (keyboard.pressKeysym keysym).lockFlags = keyboard.lockFlags := by
    intro keyboard keysym
    rw [← @synchronize_lockFlags keyboard]
    unfold pressKeysym
    dsimp only
    split
    · rfl
    · split
      · split
        · rfl
        · exact pressKey_lockFlags _
      · rfl
  have each : ∀ (keyboard : Keyboard) (set clear : Prop) [Decidable set] [Decidable clear]
      (pressed : Int) (released : List Int),
      (keyboard.applyModifier set clear pressed released).lockFlags = keyboard.lockFlags := by
    intro keyboard set clear _ _ pressed released
    unfold applyModifier
    split
    · exact press keyboard pressed
    · split
      · exact releases released keyboard
      · rfl
  exact (each _ _ _ _ _).trans (each _ _ _ _ _)

/-! ## Keys that the user holds -/

theorem setUserPressed_of_ne {other : Nat} (ne : other ≠ key) (userPressed : Bool)
    (change : Int) :
    (keyboard.setUserPressed key userPressed change).keys other = keyboard.keys other :=
  setKey_of_ne _ ne _

@[simp] theorem setUserPressed_self (userPressed : Bool) (change : Int) :
    (keyboard.setUserPressed key userPressed change).keys key
      = { keyboard.keys key with userPressed := userPressed } :=
  setKey_self ..

/-- Tracking the user changes nothing, or one key. -/
theorem trackUser_cases (key : Option Nat) (pressed : Bool) (source : KeySource) :
    keyboard.trackUser key pressed source = keyboard
      ∨ ∃ held, key = some held ∧ (keyboard.keys held).userPressed = !pressed
        ∧ keyboard.trackUser key pressed source
          = keyboard.setUserPressed held pressed (if pressed then 1 else -1) := by
  unfold trackUser
  split
  case h_2 => exact .inl rfl
  case h_1 held =>
    cases pressed <;> cases user : (keyboard.keys held).userPressed <;> simp [user]

theorem trackUser_sameLayout (key : Option Nat) (pressed : Bool) (source : KeySource) :
    SameLayout keyboard (keyboard.trackUser key pressed source) := by
  rcases @trackUser_cases keyboard key pressed source with same | ⟨held, _, _, changed⟩
  · rw [same]
    exact ⟨rfl, rfl, fun _ => rfl⟩
  · rw [changed]
    refine ⟨rfl, rfl, fun other => ?_⟩
    by_cases same : other = held
    · subst same
      rw [setUserPressed_self]
    · rw [setUserPressed_of_ne same]

@[simp] theorem trackUser_pressed (key : Option Nat) (pressed : Bool) (source : KeySource)
    (other : Nat) :
    ((keyboard.trackUser key pressed source).keys other).pressed
      = (keyboard.keys other).pressed := by
  rcases @trackUser_cases keyboard key pressed source with same | ⟨held, _, _, changed⟩
  · rw [same]
  · rw [changed]
    by_cases same : other = held
    · subst same
      rw [setUserPressed_self]
    · rw [setUserPressed_of_ne same]

/-- Tracking the user sends nothing and is independent of the connection. -/
theorem trackUser_sent (key : Option Nat) (pressed : Bool) (source : KeySource) :
    (keyboard.trackUser key pressed source).sent = keyboard.sent
      ∧ (keyboard.trackUser key pressed source).connected = keyboard.connected := by
  rcases @trackUser_cases keyboard key pressed source with same | ⟨held, _, _, changed⟩
  · rw [same]
    exact ⟨rfl, rfl⟩
  · rw [changed]
    exact ⟨rfl, rfl⟩

/-! ## Resets -/

/-- A key is released, under the keysym of the definition it is pressed with. -/
def releaseHeld (keyboard : Keyboard) (key : Nat) : Keyboard :=
  match (keyboard.keys key).pressed with
  | none => keyboard
  | some definition => keyboard.releaseKeysym definition.keysym

theorem releaseKeys_eq (depth : Nat) (keyboard : Keyboard) (keys : List Nat) :
    keyboard.releaseKeys (updateKeysym (depth + 1)) keys
      = some (keys.foldl releaseHeld keyboard) := by
  induction keys generalizing keyboard with
  | nil => rfl
  | cons key keys ih =>
      unfold releaseKeys
      rw [List.foldl_cons, ← ih]
      unfold releaseHeld
      cases (keyboard.keys key).pressed with
      | none => rfl
      | some definition =>
          dsimp only
          rw [updateKeysym_release, Option.bind_some]

theorem releaseHeld_frame (keyboard : Keyboard) (key : Nat) :
    Frame keyboard (keyboard.releaseHeld key) := by
  unfold releaseHeld
  cases (keyboard.keys key).pressed with
  | none => exact .refl _
  | some definition => exact releaseKeysym_frame keyboard definition.keysym

theorem releaseHeld_foldl_frame (keyboard : Keyboard) (keys : List Nat) :
    Frame keyboard (keys.foldl releaseHeld keyboard) := by
  induction keys generalizing keyboard with
  | nil => exact .refl _
  | cons key keys ih => exact (releaseHeld_frame keyboard key).trans (ih _)

end GuacNebula.Rdp.Keyboard
