import GuacNebula.Rdp.KeyboardOutcomes
import GuacNebula.Rdp.KeymapInheritance

/-! # Dead keys

A keysym without a key of its own is typed with a dead key and a base key, if the keymap has them.
Both go through the updates that press and release keys for the user, so a key that is held already
is not pressed again, and is released for the user as well. On the server, keys are scancodes: two
keys of the keyboard with one scancode are the same key there.
-/

namespace GuacNebula.Rdp.Keyboard

open Run

variable {keyboard : Keyboard} {key : Nat}

/-! ## Keys on the server -/

/-- A key is down on the server: the last of its events presses it. -/
def isDown (scancode flags : Int) (events : List InputEvent) : Bool :=
  events.foldl (fun down event =>
    match event with
    | .key code flag pressed => if code = scancode ∧ flag = flags then pressed else down
    | _ => down) false

/-- An event is of a key on the server. -/
def ofKey (scancode flags : Int) : InputEvent → Prop
  | .key code flag _ => code = scancode ∧ flag = flags
  | _ => False

theorem isDown_append_other {scancode flags : Int} {late : List InputEvent}
    (other : ∀ event ∈ late, ¬ ofKey scancode flags event) (early : List InputEvent) :
    isDown scancode flags (early ++ late) = isDown scancode flags early := by
  unfold isDown
  rw [List.foldl_append]
  generalize early.foldl _ false = down
  induction late with
  | nil => rfl
  | cons event late ih =>
      obtain ⟨first, rest⟩ := List.forall_mem_cons.mp other
      rw [List.foldl_cons]
      cases event with
      | key code flag pressed =>
          have apart : ¬ (code = scancode ∧ flag = flags) := first
          dsimp only
          rw [if_neg apart]
          exact ih rest
      | unicode codepoint => exact ih rest
      | synchronize locks => exact ih rest

/-- A key is pressed and released. -/
def tap (definition : KeysymDesc) : List InputEvent :=
  [.key definition.scancode definition.flags true, .key definition.scancode definition.flags false]

/-- A key that is typed is up afterwards. -/
theorem isDown_tap (definition : KeysymDesc) (early : List InputEvent) :
    isDown definition.scancode definition.flags (early ++ tap definition) = false := by
  unfold isDown tap
  rw [List.foldl_append]
  simp

theorem tap_other {scancode flags : Int} {definition : KeysymDesc}
    (other : ¬ (definition.scancode = scancode ∧ definition.flags = flags)) :
    ∀ event ∈ tap definition, ¬ ofKey scancode flags event := by
  intro event member
  simp only [tap, List.mem_cons, List.not_mem_nil, or_false] at member
  rcases member with rfl | rfl
  · exact other
  · exact other

/-! ## Definitions under requirements -/

/-- `getCost`, under locks and modifiers. -/
def costUnder (lockFlags modifierFlags : BitVec 32) (definition : KeysymDesc) : Nat :=
  1 + countBits
      ((definition.setLocks &&& ~~~lockFlags) ||| (definition.clearLocks &&& lockFlags)) * 2
    + countBits ((definition.clearModifiers &&& modifierFlags)
      ||| (definition.setModifiers &&& ~~~modifierFlags))

theorem getDefinition_eq_costUnder (released : (keyboard.keys key).pressed = none) :
    keyboard.getDefinition (keyboard.keys key)
      = (keyboard.keys key).definitions.argmin
        (costUnder keyboard.lockFlags keyboard.getModifierFlags) :=
  getDefinition_eq_argmin released

/-- The keyboard can press a modifier: its first definition has a scancode. -/
def pressable (keyboard : Keyboard) (keysym : Int) : Bool :=
  match keyboard.getKey keysym with
  | none => false
  | some key => (keyboard.keys key).definitions.head?.any (·.scancode ≠ 0)

/-- Of definitions without requirements the first is chosen. -/
theorem getDefinition_plain (released : (keyboard.keys key).pressed = none)
    (plain : ∀ definition ∈ (keyboard.keys key).definitions, Plain definition) :
    keyboard.getDefinition (keyboard.keys key) = (keyboard.keys key).definitions.head? := by
  have cost : ∀ definition, Plain definition → keyboard.getCost definition = 1 := by
    intro definition plain
    unfold getCost
    rw [plain.setLocks, plain.clearLocks, plain.setModifiers, plain.clearModifiers]
    have none : ∀ flags : BitVec 32, 0 &&& flags = 0 := fun _ => BitVec.zero_and
    dsimp only
    rw [none, none, none, none]
    decide
  unfold getDefinition
  rw [released]
  cases definitions : (keyboard.keys key).definitions with
  | nil => rfl
  | cons first further =>
      rw [definitions] at plain
      obtain ⟨firstPlain, furtherPlain⟩ := List.forall_mem_cons.mp plain
      dsimp only
      rw [List.head?_cons]
      clear definitions plain
      induction further with
      | nil => rfl
      | cons next further ih =>
          obtain ⟨nextPlain, furtherPlain⟩ := List.forall_mem_cons.mp furtherPlain
          rw [List.foldl_cons, cost first firstPlain, cost next nextPlain,
            if_neg (Nat.lt_irrefl 1)]
          exact ih furtherPlain

theorem isPressed_pressKeysym_plain {keysym : Int}
    (plain : ∀ key, keyboard.getKey keysym = some key →
      ∀ definition ∈ (keyboard.keys key).definitions, Plain definition)
    (released : keyboard.isPressed keysym = false) :
    (keyboard.pressKeysym keysym).isPressed keysym = keyboard.pressable keysym := by
  have same := (pressKeysym_frame keyboard keysym).getKey keysym
  have synchronized := (@synchronize_frame keyboard).getKey keysym
  unfold isPressed at released ⊢
  unfold pressable
  rw [same]
  cases found : keyboard.getKey keysym with
  | none => rfl
  | some key =>
      have plain := plain key found
      rw [found] at released synchronized
      rw [← @synchronize_keys keyboard] at plain released ⊢
      unfold pressKeysym
      dsimp only
      generalize keyboard.synchronize = keyboard at plain released synchronized ⊢
      have released : (keyboard.keys key).pressed = none := by simpa using released
      rw [synchronized]
      dsimp only
      rw [released, getDefinition_plain released plain]
      cases (keyboard.keys key).definitions.head? with
      | none =>
          dsimp only
          rw [released]
          rfl
      | some definition =>
          dsimp only
          by_cases unusable : definition.scancode = 0
          · rw [if_pos unusable, released]
            simp [unusable]
          · rw [if_neg unusable, pressKey, setPressed_self]
            simp [unusable]

/-- A modifier after the requirements for flags that are held, if it can be pressed. -/
def modifierAfter (flags setFlags clearFlags modifier : BitVec 32) (pressable held : Bool) : Bool :=
  if setFlags &&& ~~~flags &&& modifier ≠ 0 then pressable
  else if clearFlags &&& flags &&& modifier ≠ 0 then false
  else held

/-- The modifier flags after the requirements of a definition. -/
def modifiersAfter (keyboard : Keyboard) (definition : KeysymDesc) : BitVec 32 :=
  let flags := keyboard.getModifierFlags
  heldFlags
    (modifierAfter flags definition.setModifiers definition.clearModifiers modifierShift
      (keyboard.pressable keysymLshift) keyboard.shiftHeld)
    (modifierAfter flags definition.setModifiers definition.clearModifiers modifierAltgr
      (keyboard.pressable keysymAltgr) keyboard.altgrHeld)

/-- The lock flags after the requirements of a definition. -/
def locksAfter (keyboard : Keyboard) (definition : KeysymDesc) : BitVec 32 :=
  (keyboard.lockFlags ||| definition.setLocks) &&& ~~~definition.clearLocks

theorem SameLayout.pressable {before after : Keyboard} (same : SameLayout before after)
    (keysym : Int) : after.pressable keysym = before.pressable keysym := by
  unfold Keyboard.pressable
  rw [same.getKey]
  cases before.getKey keysym with
  | none => rfl
  | some key =>
      dsimp only
      rw [same.definitions]

/-- A modifier that has to be set and is not held, or is not known to. -/
theorem notHeld_of_set {setFlags modifier : BitVec 32} {shift altgr : Bool}
    (set : setFlags &&& ~~~heldFlags shift altgr &&& modifier ≠ 0) :
    (modifier = modifierShift → shift = false) ∧ (modifier = modifierAltgr → altgr = false) := by
  have clear : ∀ {flags : BitVec 32}, ~~~flags &&& modifier = 0 →
      setFlags &&& ~~~flags &&& modifier = 0 := by
    intro flags none
    rw [BitVec.and_assoc, none]
    exact BitVec.and_zero
  constructor
  · rintro rfl
    cases shift with
    | false => rfl
    | true => exact absurd (clear (by cases altgr <;> decide)) set
  · rintro rfl
    cases altgr with
    | false => rfl
    | true => exact absurd (clear (by cases shift <;> decide)) set

/-- Shift after it was updated. -/
theorem shiftHeld_applyShift_plain (well : WellKeyed keyboard) (plain : PlainModifiers keyboard)
    {set clear : Prop} [Decidable set] [Decidable clear]
    (released : set → keyboard.shiftHeld = false) :
    (keyboard.applyModifier set clear keysymLshift shiftKeysyms).shiftHeld
      = if set then keyboard.pressable keysymLshift
        else if clear then false else keyboard.shiftHeld := by
  unfold applyModifier
  by_cases isSet : set
  · have released := released isSet
    unfold shiftHeld at released ⊢
    obtain ⟨left, right⟩ := Bool.or_eq_false_iff.mp released
    rw [if_pos isSet, if_pos isSet,
      isPressed_pressKeysym_plain (plain keysymLshift (by decide)) left,
      isPressed_pressKeysym_of_apart (well.apart (by decide)), right, Bool.or_false]
  · rw [if_neg isSet, if_neg isSet]
    by_cases isClear : clear
    · unfold shiftHeld
      rw [if_pos isClear, if_pos isClear, isPressed_releaseKeysyms (by decide),
        isPressed_releaseKeysyms (by decide), Bool.or_false]
    · rw [if_neg isClear, if_neg isClear]

/-- AltGr after it was updated. -/
theorem altgrHeld_applyAltgr_plain (well : WellKeyed keyboard) (plain : PlainModifiers keyboard)
    {set clear : Prop} [Decidable set] [Decidable clear]
    (released : set → keyboard.altgrHeld = false) :
    (keyboard.applyModifier set clear keysymAltgr altgrKeysyms).altgrHeld
      = if set then keyboard.pressable keysymAltgr
        else if clear then false else keyboard.altgrHeld := by
  unfold applyModifier
  by_cases isSet : set
  · have released := released isSet
    unfold altgrHeld at released ⊢
    obtain ⟨dedicated, combined⟩ := Bool.or_eq_false_iff.mp released
    obtain ⟨right, own⟩ := Bool.or_eq_false_iff.mp dedicated
    rw [if_pos isSet, if_pos isSet,
      isPressed_pressKeysym_plain (plain keysymAltgr (by decide)) own,
      isPressed_pressKeysym_of_apart (well.apart (by decide)),
      isPressed_pressKeysym_of_apart (well.apart (by decide)),
      isPressed_pressKeysym_of_apart (well.apart (by decide)),
      isPressed_pressKeysym_of_apart (well.apart (by decide)), right, combined, Bool.or_false,
      Bool.false_or]
  · rw [if_neg isSet, if_neg isSet]
    by_cases isClear : clear
    · unfold altgrHeld
      rw [if_pos isClear, if_pos isClear, isPressed_releaseKeysyms (by decide),
        isPressed_releaseKeysyms (by decide), isPressed_releaseKeysyms (by decide),
        Bool.false_and, Bool.or_false, Bool.or_false]
    · rw [if_neg isClear, if_neg isClear]

theorem getModifierFlags_applyModifiers (well : WellKeyed keyboard)
    (plain : PlainModifiers keyboard) (setFlags clearFlags : BitVec 32) :
    (keyboard.applyModifiers setFlags clearFlags).getModifierFlags
      = heldFlags
        (modifierAfter keyboard.getModifierFlags setFlags clearFlags modifierShift
          (keyboard.pressable keysymLshift) keyboard.shiftHeld)
        (modifierAfter keyboard.getModifierFlags setFlags clearFlags modifierAltgr
          (keyboard.pressable keysymAltgr) keyboard.altgrHeld) := by
  have shifted := applyModifier_frame keyboard
    (setFlags &&& ~~~keyboard.getModifierFlags &&& modifierShift ≠ 0)
    (clearFlags &&& keyboard.getModifierFlags &&& modifierShift ≠ 0) keysymLshift shiftKeysyms
  have shift : (keyboard.applyModifiers setFlags clearFlags).shiftHeld
      = modifierAfter keyboard.getModifierFlags setFlags clearFlags modifierShift
        (keyboard.pressable keysymLshift) keyboard.shiftHeld :=
    (shiftHeld_applyAltgr (shifted.toSameLayout.wellKeyed well)).trans
      (shiftHeld_applyShift_plain well plain fun set => (notHeld_of_set set).1 rfl)
  have altgr : (keyboard.applyModifiers setFlags clearFlags).altgrHeld
      = modifierAfter keyboard.getModifierFlags setFlags clearFlags modifierAltgr
        (keyboard.pressable keysymAltgr) keyboard.altgrHeld := by
    refine (altgrHeld_applyAltgr_plain (shifted.toSameLayout.wellKeyed well)
      (shifted.plainModifiers plain) fun set => ?_).trans ?_
    · rw [altgrHeld_applyShift well]
      exact (notHeld_of_set set).2 rfl
    · rw [altgrHeld_applyShift well, shifted.toSameLayout.pressable]
      rfl
  rw [← shift, ← altgr]
  rfl

/-- The modifiers once the requirements of a definition have been seen to. -/
theorem getModifierFlags_meet (balanced : Balanced keyboard) (definition : KeysymDesc) :
    (keyboard.meet definition).getModifierFlags = keyboard.modifiersAfter definition := by
  have locked := @updateLocks_frame keyboard definition.setLocks definition.clearLocks
  have keys := @updateLocks_keys keyboard definition.setLocks definition.clearLocks
  have balanced := balanced.updateLocks definition.setLocks definition.clearLocks
  have same : ∀ keysym, (keyboard.updateLocks definition.setLocks
      definition.clearLocks).isPressed keysym = keyboard.isPressed keysym :=
    fun keysym => isPressed_congr (locked.getKey keysym) fun key _ => by rw [keys]
  have shift : (keyboard.updateLocks definition.setLocks definition.clearLocks).shiftHeld
      = keyboard.shiftHeld := by
    unfold shiftHeld
    rw [same, same]
  have altgr : (keyboard.updateLocks definition.setLocks definition.clearLocks).altgrHeld
      = keyboard.altgrHeld := by
    unfold altgrHeld
    rw [same, same, same, same, same]
  have flags : (keyboard.updateLocks definition.setLocks definition.clearLocks).getModifierFlags
      = keyboard.getModifierFlags := by
    unfold getModifierFlags
    rw [shift, altgr]
  unfold meet modifiersAfter
  rw [getModifierFlags_applyModifiers balanced.well balanced.plain, flags, shift, altgr,
    locked.toSameLayout.pressable, locked.toSameLayout.pressable]

/-! ## Typing a key -/

/-- A key that is released is typed: its requirements, its press and its release. -/
def typed (keyboard : Keyboard) (key : Nat) (definition : KeysymDesc) : Keyboard :=
  ((keyboard.meet definition).pressKey key definition).releaseKey key

theorem typed_frame (keyboard : Keyboard) (key : Nat) (definition : KeysymDesc) :
    Frame keyboard (keyboard.typed key definition) :=
  (meet_frame keyboard definition).trans ((pressKey_frame definition).trans releaseKey_frame)

/-- The key of a definition is none of those of modifiers. -/
def NoModifier (keyboard : Keyboard) (key : Nat) : Prop :=
  ∀ keysym ∈ shiftKeysyms ++ altgrKeysyms, keyboard.getKey keysym ≠ some key

theorem NoModifier.notAutomatic (apart : NoModifier keyboard key) : NotAutomatic keyboard key :=
  ⟨apart keysymLshift (by decide), apart keysymAltgr (by decide)⟩

theorem mem_modifierKeysyms {definition : KeysymDesc} {keysym : Int}
    (member : keysym ∈ modifierKeysyms definition) : keysym ∈ shiftKeysyms ++ altgrKeysyms := by
  unfold modifierKeysyms at member
  rcases List.mem_append.mp member with shift | altgr
  · split at shift
    · exact List.mem_append_left _ shift
    · cases shift
  · split at altgr
    · exact List.mem_append_right _ altgr
    · cases altgr

/-- A keysym that is released is typed at any depth. -/
theorem tapKeysym_eq (depth : Nat) {keysym : Int} (noLock : lockFlag keysym = 0)
    (plain : PlainModifiers keyboard) (synchronized : keyboard.synchronized = true)
    (found : keyboard.getKey keysym = some key) (released : (keyboard.keys key).pressed = none)
    {definition : KeysymDesc}
    (chosen : keyboard.getDefinition (keyboard.keys key) = some definition)
    (usable : definition.scancode ≠ 0) (stays : (keyboard.meet definition).synchronized = true) :
    keyboard.tapKeysym (updateKeysym (depth + 2)) keysym
      = some (keyboard.typed key definition) := by
  have choosing : keyboard.choosing keysym .synthetic = keyboard := by
    unfold Keyboard.choosing
    rw [synchronize_eq synchronized, noLock]
    have same : keyboard.trackUser (keyboard.getKey keysym) true .synthetic = keyboard := by
      rw [found]
      rfl
    have none : keyboard.lockFlags ^^^ 0 = keyboard.lockFlags := BitVec.xor_zero
    dsimp only
    rw [same, none]
  have pressed : updateKeysym (depth + 2) keyboard keysym true .synthetic
      = some ((keyboard.meet definition).pressKey key definition) := by
    rw [updateKeysym_usable (depth + 1) found released (by rw [choosing]; exact chosen) usable,
      choosing, meetRequirements_eq depth plain, Option.bind_some, if_neg]
    exact fun client => nomatch client.1
  have frame := (meet_frame keyboard definition).trans (@pressKey_frame _ key definition)
  have synchronized : ((keyboard.meet definition).pressKey key definition).synchronized = true :=
    (@pressKey_sends _ key (fun _ => True) _ trivial).synchronized stays
  unfold tapKeysym
  rw [pressed, Option.bind_some, updateKeysym_release]
  unfold releaseKeysym typed
  rw [synchronize_eq synchronized, frame.getKey, found]

section Typed

variable {definition : KeysymDesc}

theorem typed_synchronized (stays : (keyboard.meet definition).synchronized = true) :
    (keyboard.typed key definition).synchronized = true := by
  have sent : ∀ (keyboard : Keyboard) (event : InputEvent),
      (keyboard.send event).synchronized = keyboard.synchronized := by
    intro keyboard event
    unfold send
    split <;> rfl
  have held : (((keyboard.meet definition).pressKey key definition).keys key).pressed
      = some definition := setPressed_self _
  have down : ((keyboard.meet definition).pressKey key definition).synchronized = true :=
    (sent _ _).trans stays
  unfold typed releaseKey
  rw [held]
  dsimp only
  split
  · exact down
  · exact (sent _ _).trans down

/-- Of the keys that are no modifiers of a definition, typing it changes its own key alone. -/
theorem typed_keys {other : Nat} (ne : other ≠ key)
    (apart : ∀ keysym ∈ modifierKeysyms definition, keyboard.getKey keysym ≠ some other) :
    (keyboard.typed key definition).keys other = keyboard.keys other := by
  unfold typed
  rw [releaseKey_of_ne ne, pressKey_of_ne ne, meet_keys apart]

@[simp] theorem typed_self : ((keyboard.typed key definition).keys key).pressed = none :=
  releaseKey_self

theorem typed_lockFlags :
    (keyboard.typed key definition).lockFlags = keyboard.locksAfter definition := by
  unfold typed
  rw [releaseKey_lockFlags, pressKey_lockFlags, meet_lockFlags]
  rfl

theorem typed_modifierFlags (balanced : Balanced keyboard) (apart : NoModifier keyboard key) :
    (keyboard.typed key definition).getModifierFlags = keyboard.modifiersAfter definition := by
  rw [← getModifierFlags_meet balanced]
  have met := meet_frame keyboard definition
  have typed := (@pressKey_frame (keyboard.meet definition) key definition).trans
    (@releaseKey_frame _ key)
  have same : ∀ keysym ∈ shiftKeysyms ++ altgrKeysyms,
      (keyboard.typed key definition).isPressed keysym
        = (keyboard.meet definition).isPressed keysym := by
    intro keysym member
    refine isPressed_congr (typed.getKey keysym) fun other found => ?_
    rw [met.getKey] at found
    have ne : other ≠ key := fun same => apart keysym member (same ▸ found)
    unfold Keyboard.typed
    rw [releaseKey_of_ne ne, pressKey_of_ne ne]
  unfold getModifierFlags shiftHeld altgrHeld
  rw [same keysymLshift (by decide), same keysymRshift (by decide), same keysymRalt (by decide),
    same keysymAltgr (by decide), same keysymLalt (by decide), same keysymRctrl (by decide),
    same keysymLctrl (by decide)]

theorem Balanced.typed (balanced : Balanced keyboard) (apart : NoModifier keyboard key)
    (inside : key < keyboard.numKeys) (released : (keyboard.keys key).pressed = none)
    (defined : definition ∈ (keyboard.keys key).definitions) (usable : definition.scancode ≠ 0) :
    Balanced (keyboard.typed key definition) := by
  have frame := meet_frame keyboard definition
  have same : (keyboard.meet definition).keys key = keyboard.keys key :=
    meet_keys fun keysym member => apart keysym (mem_modifierKeysyms member)
  refine ((balanced.meet definition).pressKey ?_ ?_ ?_ usable).releaseKey key
  · rw [frame.numKeys]
    exact inside
  · rw [same]
    exact released
  · rw [same]
    exact defined

/-- What is sent for a key that is typed: its requirements first, and then the key. -/
theorem typed_events (balanced : Balanced keyboard) {allowed : InputEvent → Prop}
    (locks : AllowsLocks allowed)
    (allows : ∀ keysym ∈ modifierKeysyms definition, AllowsKeysym allowed keyboard keysym)
    (usable : definition.scancode ≠ 0) :
    ∃ early, (keyboard.typed key definition).events = keyboard.events ++ early ++ tap definition
      ∧ ∀ event ∈ early, allowed event := by
  obtain ⟨early, met, isAllowed⟩ := (meet_sends balanced locks allows).events
  have online := (balanced.meet definition).online
  have down : ((keyboard.meet definition).pressKey key definition).events
      = (keyboard.meet definition).events
        ++ [.key definition.scancode definition.flags true] :=
    send_events online _
  have up : (keyboard.typed key definition).events
      = ((keyboard.meet definition).pressKey key definition).events
        ++ [.key definition.scancode definition.flags false] := by
    have held : (((keyboard.meet definition).pressKey key definition).keys key).pressed
        = some definition := setPressed_self _
    unfold Keyboard.typed releaseKey
    rw [held]
    dsimp only
    rw [if_neg usable]
    refine send_events ?_ _
    rw [(@pressKey_frame (keyboard.meet definition) key definition).connected]
    exact online
  refine ⟨early, ?_, isAllowed⟩
  rw [up, down, met]
  simp [tap]

/-- A key that is released and no modifier is typed, and the keyboard is left ready to type. -/
theorem tapKeysym_typed (depth : Nat) {keysym : Int} {allowed : InputEvent → Prop}
    (balanced : Balanced keyboard) (synchronized : keyboard.synchronized = true)
    (noLock : lockFlag keysym = 0) (apart : NoModifier keyboard key)
    (found : keyboard.getKey keysym = some key) (released : (keyboard.keys key).pressed = none)
    (chosen : keyboard.getDefinition (keyboard.keys key) = some definition)
    (usable : definition.scancode ≠ 0) (locks : AllowsLocks allowed)
    (allows : ∀ keysym ∈ modifierKeysyms definition, AllowsKeysym allowed keyboard keysym) :
    keyboard.tapKeysym (updateKeysym (depth + 2)) keysym = some (keyboard.typed key definition)
      ∧ Balanced (keyboard.typed key definition)
      ∧ (keyboard.typed key definition).synchronized = true
      ∧ ∃ early, (keyboard.typed key definition).events
          = keyboard.events ++ early ++ tap definition
        ∧ ∀ event ∈ early, allowed event := by
  have stays := (meet_sends balanced locks allows).synchronized synchronized
  exact ⟨tapKeysym_eq depth noLock balanced.plain synchronized found released chosen usable stays,
    balanced.typed apart (balanced.well.lt_numKeys found) released
      (getDefinition_mem released chosen) usable,
    typed_synchronized stays, typed_events balanced locks allows usable⟩

end Typed

/-! ## Typing with a dead key -/

/-- A keysym without a key that can be typed with a dead key and a base key, which have
scancodes. -/
structure DeadKeyed (keyboard : Keyboard) (keysym : Int) (deadKey baseKey : Nat) : Prop where
  undefined : keyboard.getKey keysym = none
  decomposed : ∃ dead base, decomposedKeys.lookup keysym = some (dead, base)
    ∧ keyboard.getKey dead = some deadKey ∧ keyboard.getKey base = some baseKey
  usable : ∀ definition ∈
    (keyboard.keys deadKey).definitions ++ (keyboard.keys baseKey).definitions,
    definition.scancode ≠ 0

/-- The definitions of the dead key and the base key that cost least, the latter under the locks
and modifiers that the former requires. -/
def typedDefinitions (keyboard : Keyboard) (deadKey baseKey : Nat) : List KeysymDesc :=
  match (keyboard.keys deadKey).definitions.argmin
      (costUnder keyboard.lockFlags keyboard.getModifierFlags) with
  | none => []
  | some dead =>
      dead :: ((keyboard.keys baseKey).definitions.argmin
        (costUnder (keyboard.locksAfter dead) (keyboard.modifiersAfter dead))).toList

/-- A key of the modifiers that these definitions require. -/
def IsRequired (keyboard : Keyboard) (deadKey baseKey key : Nat) : Prop :=
  ∃ definition ∈ keyboard.typedDefinitions deadKey baseKey,
    ∃ keysym ∈ modifierKeysyms definition, keyboard.getKey keysym = some key

/-- What is such a modifier to the server. -/
def IsRequiredCode (keyboard : Keyboard) (deadKey baseKey : Nat) (scancode flags : Int) : Prop :=
  ∃ key, IsRequired keyboard deadKey baseKey key
    ∧ ∃ definition ∈ (keyboard.keys key).definitions,
      definition.scancode = scancode ∧ definition.flags = flags

/-- An event of the locks, or of a modifier that is required. -/
def IsPreparation (keyboard : Keyboard) (deadKey baseKey : Nat) : InputEvent → Prop
  | .synchronize _ => True
  | .key scancode flags _ => IsRequiredCode keyboard deadKey baseKey scancode flags
  | .unicode _ => False

/-- The dead key and the base key are typed, and every key that the user holds is as it was, but
for modifiers that are required: it is still pressed, and where it was down on the server it still
is. -/
structure TypedDead (before after : Keyboard) (deadKey baseKey : Nat) : Prop where
  events : ∃ dead ∈ (before.keys deadKey).definitions, ∃ base ∈ (before.keys baseKey).definitions,
    ∃ early between late, after.events
        = before.events ++ early ++ tap dead ++ between ++ tap base ++ late
      ∧ ∀ event ∈ early ++ between, IsPreparation before deadKey baseKey event
  pressed : ∀ key, (before.keys key).userPressed → ¬ IsRequired before deadKey baseKey key →
    (after.keys key).pressed = (before.keys key).pressed
  down : ∀ key definition, (before.keys key).userPressed →
    (before.keys key).pressed = some definition →
    ¬ IsRequiredCode before deadKey baseKey definition.scancode definition.flags →
    isDown definition.scancode definition.flags before.events →
    isDown definition.scancode definition.flags after.events

/-- Neither the dead key nor the base key is pressed, and no key that the user holds, but for
modifiers that are required, is down on the server under the scancode of one of them. -/
structure FreeToType (keyboard : Keyboard) (deadKey baseKey : Nat) : Prop where
  dead : (keyboard.keys deadKey).pressed = none
  base : (keyboard.keys baseKey).pressed = none
  apart : ∀ key definition, (keyboard.keys key).userPressed →
    (keyboard.keys key).pressed = some definition →
    ¬ IsRequiredCode keyboard deadKey baseKey definition.scancode definition.flags →
    isDown definition.scancode definition.flags keyboard.events →
    ∀ typed ∈ keyboard.typedDefinitions deadKey baseKey,
      ¬ (typed.scancode = definition.scancode ∧ typed.flags = definition.flags)

/-- What is known of the keysyms that are decomposed, of dead keys and of base keys. -/
theorem decomposed_keysyms {keysym dead base : Int}
    (found : decomposedKeys.lookup keysym = some (dead, base)) :
    lockFlag keysym = 0 ∧ lockFlag dead = 0 ∧ lockFlag base = 0 ∧ mapKey dead ≠ mapKey base
      ∧ ∀ modifier ∈ shiftKeysyms ++ altgrKeysyms,
        mapKey modifier ≠ mapKey dead ∧ mapKey modifier ≠ mapKey base := by
  have all : ∀ entry ∈ decomposedKeys, lockFlag entry.1 = 0 ∧ lockFlag entry.2.1 = 0
      ∧ lockFlag entry.2.2 = 0 ∧ mapKey entry.2.1 ≠ mapKey entry.2.2
      ∧ ∀ modifier ∈ shiftKeysyms ++ altgrKeysyms,
        mapKey modifier ≠ mapKey entry.2.1 ∧ mapKey modifier ≠ mapKey entry.2.2 := by
    decide
  obtain ⟨before, after, split, _⟩ := List.lookup_eq_some_iff.mp found
  exact all (keysym, dead, base) (by rw [split]; simp)

section

variable {keysym : Int} {deadKey baseKey : Nat}

/-- The two keys are different, and neither is of a modifier. -/
theorem DeadKeyed.apart (deadKeyed : DeadKeyed keyboard keysym deadKey baseKey)
    (well : WellKeyed keyboard) :
    deadKey ≠ baseKey ∧ NoModifier keyboard deadKey ∧ NoModifier keyboard baseKey := by
  obtain ⟨dead, base, found, isDead, isBase⟩ := deadKeyed.decomposed
  obtain ⟨_, _, _, ne, modifiers⟩ := decomposed_keysyms found
  refine ⟨?_, fun modifier member same => ?_, fun modifier member same => ?_⟩
  · rintro rfl
    exact ne (well.mapKey_eq isDead isBase)
  · exact (modifiers modifier member).1 (well.mapKey_eq same isDead)
  · exact (modifiers modifier member).2 (well.mapKey_eq same isBase)

/-- Both keys are typed, and then a keyboard that the user does not hold any key of is reset. -/
theorem DeadKeyed.updateKeysym (deadKeyed : DeadKeyed keyboard keysym deadKey baseKey)
    {dead base : Int} (found : decomposedKeys.lookup keysym = some (dead, base))
    (isDead : keyboard.getKey dead = some deadKey) (isBase : keyboard.getKey base = some baseKey)
    (depth : Nat) :
    Keyboard.updateKeysym (depth + 1) keyboard keysym true .client
      = ((keyboard.synchronize.tapKeysym (Keyboard.updateKeysym depth) dead).bind fun keyboard =>
          keyboard.tapKeysym (Keyboard.updateKeysym depth) base).bind fun keyboard =>
        if keyboard.userPressedKeys = 0 then keyboard.reset (Keyboard.updateKeysym depth)
        else some keyboard := by
  have frame := @synchronize_frame keyboard
  have noLock : ∀ flags : BitVec 32, flags ^^^ lockFlag keysym = flags := by
    intro flags
    rw [(decomposed_keysyms found).1]
    exact BitVec.xor_zero
  have undefined := (frame.getKey keysym).trans deadKeyed.undefined
  rw [← frame.getKey] at isDead isBase
  unfold Keyboard.updateKeysym
  generalize keyboard.synchronize = keyboard at undefined isDead isBase ⊢
  simp [undefined, trackUser, isChanged, sendChange, changeKey, noLock, sendMissingKey,
    decomposeKeysym, found, isDead, isBase]

/-- The definitions that are chosen for keys that are released. -/
theorem DeadKeyed.chosen (deadKeyed : DeadKeyed keyboard keysym deadKey baseKey)
    (balanced : Balanced keyboard) (deadReleased : (keyboard.keys deadKey).pressed = none)
    (baseReleased : (keyboard.keys baseKey).pressed = none) :
    ∃ dead base, keyboard.typedDefinitions deadKey baseKey = [dead, base]
      ∧ dead ∈ (keyboard.keys deadKey).definitions ∧ base ∈ (keyboard.keys baseKey).definitions
      ∧ keyboard.getDefinition (keyboard.keys deadKey) = some dead
      ∧ (keyboard.typed deadKey dead).getDefinition ((keyboard.typed deadKey dead).keys baseKey)
        = some base := by
  obtain ⟨ne, deadApart, baseApart⟩ := deadKeyed.apart balanced.well
  obtain ⟨_, _, _, isDead, isBase⟩ := deadKeyed.decomposed
  have defined : ∀ {keysym key}, keyboard.getKey keysym = some key →
      (keyboard.keys key).definitions ≠ [] := by
    intro keysym key found
    obtain ⟨index, _, placed⟩ := Option.bind_eq_some_iff.mp found
    exact balanced.well.defined placed
  obtain ⟨dead, chosen⟩ := getDefinition_isSome (defined isDead)
  have same : (keyboard.typed deadKey dead).keys baseKey = keyboard.keys baseKey :=
    typed_keys ne.symm fun keysym member => baseApart keysym (mem_modifierKeysyms member)
  have baseReleased' : ((keyboard.typed deadKey dead).keys baseKey).pressed = none := by
    rw [same]
    exact baseReleased
  have baseDefined : ((keyboard.typed deadKey dead).keys baseKey).definitions ≠ [] := by
    rw [same]
    exact defined isBase
  obtain ⟨base, chosen'⟩ := getDefinition_isSome baseDefined
  refine ⟨dead, base, ?_, getDefinition_mem deadReleased chosen, ?_, chosen, chosen'⟩
  · unfold typedDefinitions
    rw [← getDefinition_eq_costUnder deadReleased, chosen]
    dsimp only
    rw [← typed_lockFlags, ← typed_modifierFlags balanced deadApart, ← same,
      ← getDefinition_eq_costUnder baseReleased', chosen']
    rfl
  · rw [← same]
    exact getDefinition_mem baseReleased' chosen'

theorem isPreparation_locks : AllowsLocks (IsPreparation keyboard deadKey baseKey) :=
  fun _ => trivial

/-- The modifiers that a definition requires are those that are prepared for it. -/
theorem isPreparation_modifiers {definition : KeysymDesc}
    (typed : definition ∈ keyboard.typedDefinitions deadKey baseKey) :
    ∀ keysym ∈ modifierKeysyms definition,
      AllowsKeysym (IsPreparation keyboard deadKey baseKey) keyboard keysym :=
  fun keysym member _ found required defined _ =>
    ⟨_, ⟨definition, typed, keysym, member, found⟩, required, defined, rfl, rfl⟩

/-- From a keyboard whose locks are synchronized, and where neither key is pressed, both are typed,
and no key but modifiers changes. -/
theorem DeadKeyed.tapped (deadKeyed : DeadKeyed keyboard keysym deadKey baseKey)
    (balanced : Balanced keyboard) (synchronized : keyboard.synchronized = true)
    (deadReleased : (keyboard.keys deadKey).pressed = none)
    (baseReleased : (keyboard.keys baseKey).pressed = none) {dead base : Int}
    (found : decomposedKeys.lookup keysym = some (dead, base))
    (isDead : keyboard.getKey dead = some deadKey) (isBase : keyboard.getKey base = some baseKey)
    (depth : Nat) :
    ∃ after first second, ((keyboard.tapKeysym (Keyboard.updateKeysym (depth + 2)) dead).bind
        fun keyboard => keyboard.tapKeysym (Keyboard.updateKeysym (depth + 2)) base) = some after
      ∧ Frame keyboard after ∧ Balanced after
      ∧ keyboard.typedDefinitions deadKey baseKey = [first, second]
      ∧ first ∈ (keyboard.keys deadKey).definitions
      ∧ second ∈ (keyboard.keys baseKey).definitions
      ∧ (∃ early between, after.events
          = keyboard.events ++ early ++ tap first ++ between ++ tap second
        ∧ ∀ event ∈ early ++ between, IsPreparation keyboard deadKey baseKey event)
      ∧ ∀ key, ¬ IsRequired keyboard deadKey baseKey key →
        (after.keys key).pressed = (keyboard.keys key).pressed := by
  obtain ⟨ne, deadApart, baseApart⟩ := deadKeyed.apart balanced.well
  obtain ⟨_, deadLock, baseLock, _⟩ := decomposed_keysyms found
  obtain ⟨first, second, both, firstDefined, secondDefined, firstChosen, secondChosen⟩ :=
    deadKeyed.chosen balanced deadReleased baseReleased
  have firstUsable := deadKeyed.usable first (List.mem_append_left _ firstDefined)
  have secondUsable := deadKeyed.usable second (List.mem_append_right _ secondDefined)
  have firstTyped : first ∈ keyboard.typedDefinitions deadKey baseKey := by
    rw [both]
    exact .head _
  have secondTyped : second ∈ keyboard.typedDefinitions deadKey baseKey := by
    rw [both]
    exact .tail _ (.head _)
  -- The dead key is typed first.
  obtain ⟨firstTap, firstBalanced, firstSynchronized, early, firstEvents, isEarly⟩ :=
    tapKeysym_typed depth balanced synchronized deadLock deadApart isDead deadReleased firstChosen
      firstUsable isPreparation_locks (isPreparation_modifiers firstTyped)
  have firstFrame := typed_frame keyboard deadKey first
  have same : (keyboard.typed deadKey first).keys baseKey = keyboard.keys baseKey :=
    typed_keys ne.symm fun keysym member => baseApart keysym (mem_modifierKeysyms member)
  have keys : ∀ key ≠ deadKey, ¬ IsRequired keyboard deadKey baseKey key →
      (keyboard.typed deadKey first).keys key = keyboard.keys key :=
    fun key ne free => typed_keys ne fun keysym member found =>
      free ⟨first, firstTyped, keysym, member, found⟩
  have deadAfter : ((keyboard.typed deadKey first).keys deadKey).pressed = none := typed_self
  generalize keyboard.typed deadKey first = middle at *
  -- The base key is typed from there.
  have secondAllows : ∀ keysym ∈ modifierKeysyms second,
      AllowsKeysym (IsPreparation keyboard deadKey baseKey) middle keysym :=
    fun keysym member => firstFrame.toSameLayout.allowsKeysym
      (isPreparation_modifiers secondTyped keysym member)
  have baseApart : NoModifier middle baseKey := by
    intro keysym member
    rw [firstFrame.getKey]
    exact baseApart keysym member
  rw [← same] at baseReleased
  obtain ⟨secondTap, secondBalanced, _, between, secondEvents, isBetween⟩ :=
    tapKeysym_typed depth firstBalanced firstSynchronized baseLock baseApart
      ((firstFrame.getKey base).trans isBase) baseReleased secondChosen secondUsable
      isPreparation_locks secondAllows
  refine ⟨middle.typed baseKey second, first, second, ?_,
    firstFrame.trans (typed_frame middle baseKey second), secondBalanced, both, firstDefined,
    secondDefined, ⟨early, between, ?_, List.forall_mem_append.mpr ⟨isEarly, isBetween⟩⟩, ?_⟩
  · rw [firstTap, Option.bind_some]
    exact secondTap
  · rw [secondEvents, firstEvents]
  · intro key free
    by_cases isBaseKey : key = baseKey
    · subst isBaseKey
      rw [typed_self, ← same, baseReleased]
    · rw [typed_keys isBaseKey fun keysym member found =>
        free ⟨second, secondTyped, keysym, member, (firstFrame.getKey keysym) ▸ found⟩]
      by_cases isDeadKey : key = deadKey
      · subst isDeadKey
        rw [deadAfter, deadReleased]
      · rw [keys key isDeadKey free]

/-- The synchronization of the locks concerns no key. -/
theorem synchronize_typing :
    keyboard.synchronize.typedDefinitions deadKey baseKey
        = keyboard.typedDefinitions deadKey baseKey
      ∧ IsRequired keyboard.synchronize deadKey baseKey = IsRequired keyboard deadKey baseKey
      ∧ IsPreparation keyboard.synchronize deadKey baseKey
        = IsPreparation keyboard deadKey baseKey := by
  unfold synchronize send
  split
  · exact ⟨rfl, rfl, rfl⟩
  · split
    · exact ⟨rfl, rfl, rfl⟩
    · exact ⟨rfl, rfl, rfl⟩

theorem DeadKeyed.synchronize (deadKeyed : DeadKeyed keyboard keysym deadKey baseKey) :
    DeadKeyed keyboard.synchronize keysym deadKey baseKey where
  undefined := (synchronize_frame.getKey keysym).trans deadKeyed.undefined
  decomposed := by
    obtain ⟨dead, base, found, isDead, isBase⟩ := deadKeyed.decomposed
    exact ⟨dead, base, found, (synchronize_frame.getKey dead).trans isDead,
      (synchronize_frame.getKey base).trans isBase⟩
  usable := by
    rw [synchronize_keys]
    exact deadKeyed.usable

/-- A dead key or base key that was pressed is released for the user. -/
theorem DeadKeyed.releases (deadKeyed : DeadKeyed keyboard keysym deadKey baseKey)
    (balanced : Balanced keyboard) {depth : Nat} {after : Keyboard}
    (updated : Keyboard.updateKeysym (depth + 3) keyboard keysym true .client = some after) :
    (after.keys deadKey).pressed = none ∧ (after.keys baseKey).pressed = none := by
  obtain ⟨_, deadApart, baseApart⟩ := deadKeyed.apart balanced.well
  obtain ⟨dead, base, found, isDead, isBase⟩ := deadKeyed.decomposed
  obtain ⟨deadWhole, baseWhole⟩ := lookup_decomposed found
  have synchronized := @synchronize_frame keyboard
  rw [deadKeyed.updateKeysym found isDead isBase] at updated
  rw [← synchronized.getKey] at isDead isBase
  have apart := synchronized.toSameLayout.notAutomatic deadApart.notAutomatic
  obtain ⟨second, typed, rest⟩ := Option.bind_eq_some_iff.mp updated
  obtain ⟨first, deadTyped, baseTyped⟩ := Option.bind_eq_some_iff.mp typed
  obtain ⟨_, is, firstBalanced, frame⟩ := balanced.synchronize.tapKeysym depth deadWhole
  obtain rfl := Option.some.inj (is.symm.trans deadTyped)
  have deadReleased := tapKeysym_released balanced.synchronize deadWhole deadTyped isDead
  have baseReleased := tapKeysym_released firstBalanced baseWhole baseTyped
    ((frame.getKey base).trans isBase)
  have deadStays := staysReleased_tap firstBalanced (frame.toSameLayout.notAutomatic apart)
    baseWhole baseTyped deadReleased
  split at rest
  · unfold reset at rest
    rw [releaseKeys_eq] at rest
    obtain rfl := Option.some.inj rest
    exact ⟨staysReleased_releaseHeld _ deadStays, staysReleased_releaseHeld _ baseReleased⟩
  · obtain rfl := Option.some.inj rest
    exact ⟨deadStays, baseReleased⟩

/-- A total of zero means that the user holds no key. -/
theorem Counted.userPressed (counted : Counted keyboard) (zero : keyboard.userPressedKeys = 0)
    (inside : key < keyboard.numKeys) : ¬ (keyboard.keys key).userPressed := by
  unfold Counted at counted
  rw [zero] at counted
  have none := Finset.card_eq_zero.mp (Int.ofNat_eq_zero.mp counted.symm)
  exact fun held => Finset.filter_eq_empty_iff.mp none (Finset.mem_range.mpr inside) held

/-- What is sent when neither key is pressed, and what becomes of the keys of the user. -/
theorem DeadKeyed.outcome (deadKeyed : DeadKeyed keyboard keysym deadKey baseKey)
    (attended : Attended keyboard) (deadReleased : (keyboard.keys deadKey).pressed = none)
    (baseReleased : (keyboard.keys baseKey).pressed = none) (depth : Nat) :
    ∃ after first second early between late,
      Keyboard.updateKeysym (depth + 3) keyboard keysym true .client = some after
      ∧ keyboard.typedDefinitions deadKey baseKey = [first, second]
      ∧ first ∈ (keyboard.keys deadKey).definitions
      ∧ second ∈ (keyboard.keys baseKey).definitions
      ∧ after.events
        = keyboard.events ++ early ++ tap first ++ between ++ tap second ++ late
      ∧ (∀ event ∈ early ++ between, IsPreparation keyboard deadKey baseKey event)
      ∧ (∀ key, (keyboard.keys key).userPressed → (keyboard.keys key).pressed.isSome → late = [])
      ∧ ∀ key, (keyboard.keys key).userPressed → ¬ IsRequired keyboard deadKey baseKey key →
        (after.keys key).pressed = (keyboard.keys key).pressed := by
  obtain ⟨dead, base, found, isDead, isBase⟩ := deadKeyed.decomposed
  have frame := @synchronize_frame keyboard
  obtain ⟨sameTyped, sameRequired, samePreparation⟩ :=
    @synchronize_typing keyboard deadKey baseKey
  obtain ⟨locks, synchronizedEvents, isLocks⟩ :=
    (synchronize_sends (@isPreparation_locks keyboard deadKey baseKey)).events
  obtain ⟨typed, first, second, tapped, typedFrame, balanced, both, firstDefined, secondDefined,
      ⟨early, between, typedEvents, isPrepared⟩, kept⟩ :=
    deadKeyed.synchronize.tapped attended.balanced.synchronize synchronize_synchronized
      (by rw [synchronize_keys]; exact deadReleased) (by rw [synchronize_keys]; exact baseReleased)
      found ((frame.getKey dead).trans isDead) ((frame.getKey base).trans isBase) depth
  have whole := frame.trans typedFrame
  rw [sameTyped] at both
  rw [synchronize_keys] at firstDefined secondDefined kept
  rw [samePreparation] at isPrepared
  rw [sameRequired] at kept
  rw [synchronizedEvents, List.append_assoc keyboard.events] at typedEvents
  have prepared : ∀ event ∈ locks ++ early ++ between,
      IsPreparation keyboard deadKey baseKey event := by
    rw [List.append_assoc]
    exact List.forall_mem_append.mpr ⟨isLocks, isPrepared⟩
  rw [deadKeyed.updateKeysym found isDead isBase, tapped, Option.bind_some]
  by_cases zero : typed.userPressedKeys = 0
  · -- The user holds no key, and what the keyboard has pressed is released.
    have reset := releaseHeld_foldl_frame typed (List.range typed.numKeys)
    obtain ⟨late, sent⟩ := reset.sent
    have unheld : ∀ key < keyboard.numKeys, ¬ (keyboard.keys key).userPressed :=
      fun key inside => attended.counted.userPressed (whole.userPressedKeys.symm.trans zero) inside
    have events : ((List.range typed.numKeys).foldl releaseHeld typed).events
        = typed.events ++ late.map (·.event) := by
      unfold Keyboard.events
      rw [← sent, List.map_append]
    refine ⟨(List.range typed.numKeys).foldl releaseHeld typed, first, second, locks ++ early,
      between, late.map (·.event), ?_, both, firstDefined, secondDefined, ?_, prepared, ?_, ?_⟩
    · rw [if_pos zero]
      exact releaseKeys_eq _ _ _
    · rw [events, typedEvents]
    · intro key user held
      obtain ⟨definition, held⟩ := Option.isSome_iff_exists.mp held
      exact absurd user (unheld key (attended.balanced.held key definition held).1)
    · intro key user free
      have same := kept key free
      cases held : (keyboard.keys key).pressed with
      | none => exact staysReleased_releaseHeld _ (same.trans held)
      | some definition =>
          exact absurd user (unheld key (attended.balanced.held key definition held).1)
  · refine ⟨typed, first, second, locks ++ early, between, [], ?_, both, firstDefined,
      secondDefined, ?_, prepared, fun _ _ _ => rfl, fun key _ free => kept key free⟩
    · rw [if_neg zero]
    · rw [List.append_nil, typedEvents]

/-- Preparations are no events of a key that is not a modifier. -/
theorem IsPreparation.other {scancode flags : Int}
    (free : ¬ IsRequiredCode keyboard deadKey baseKey scancode flags) {event : InputEvent}
    (prepared : IsPreparation keyboard deadKey baseKey event) : ¬ ofKey scancode flags event := by
  cases event with
  | key code flag pressed =>
      rintro ⟨rfl, rfl⟩
      exact free prepared
  | unicode codepoint => exact id
  | synchronize locks => exact id

/-- A key that is no modifier is left down by the events if it is neither of the two. -/
theorem isDown_typed {scancode flags : Int} {first second : KeysymDesc}
    {early between : List InputEvent} (events : List InputEvent)
    (free : ¬ IsRequiredCode keyboard deadKey baseKey scancode flags)
    (prepared : ∀ event ∈ early ++ between, IsPreparation keyboard deadKey baseKey event) :
    isDown scancode flags (events ++ early ++ tap first ++ between ++ tap second)
      = if ∀ typed ∈ [first, second], ¬ (typed.scancode = scancode ∧ typed.flags = flags)
        then isDown scancode flags events else false := by
  obtain ⟨isEarly, isBetween⟩ := List.forall_mem_append.mp prepared
  have otherEarly : ∀ event ∈ early, ¬ ofKey scancode flags event :=
    fun event member => (isEarly event member).other free
  have otherBetween : ∀ event ∈ between, ¬ ofKey scancode flags event :=
    fun event member => (isBetween event member).other free
  by_cases isSecond : second.scancode = scancode ∧ second.flags = flags
  · obtain ⟨rfl, rfl⟩ := isSecond
    rw [isDown_tap, if_neg]
    exact fun apart => apart second (.tail _ (.head _)) ⟨rfl, rfl⟩
  · rw [isDown_append_other (tap_other isSecond), isDown_append_other otherBetween]
    by_cases isFirst : first.scancode = scancode ∧ first.flags = flags
    · obtain ⟨rfl, rfl⟩ := isFirst
      rw [isDown_tap, if_neg]
      exact fun apart => apart first (.head _) ⟨rfl, rfl⟩
    · rw [isDown_append_other (tap_other isFirst), isDown_append_other otherEarly, if_pos]
      exact List.forall_mem_cons.mpr ⟨isFirst, List.forall_mem_singleton.mpr isSecond⟩

/-- In every state of the keyboard, a keysym that has no key but can be decomposed is typed with the
dead key and the base key, and the other keys stay down for the user, exactly if neither of the two
is pressed and no other key that the user holds has the scancode of one of them. -/
theorem deadKey_typed_iff (keymap : Keymap) (plain : PlainModifiers (alloc keymap true))
    (depth : Nat) (actions : List KeyboardAction)
    (reached : exec (keyboardStep (depth + 3)) (some (alloc keymap true)) actions = some keyboard)
    (deadKeyed : DeadKeyed keyboard keysym deadKey baseKey) :
    (∃ after, Keyboard.updateKeysym (depth + 3) keyboard keysym true .client = some after
        ∧ TypedDead keyboard after deadKey baseKey)
      ↔ FreeToType keyboard deadKey baseKey := by
  obtain ⟨_, is, attended⟩ := attended_exec plain depth actions
  obtain rfl := Option.some.inj (reached.symm.trans is)
  obtain ⟨_, deadApart, baseApart⟩ := deadKeyed.apart attended.balanced.well
  constructor
  · rintro ⟨after, updated, typed⟩
    obtain ⟨deadAfter, baseAfter⟩ := deadKeyed.releases attended.balanced updated
    -- A key that is no modifier and was pressed was held by the user, who loses it.
    have released : ∀ key, NoModifier keyboard key → (after.keys key).pressed = none →
        (keyboard.keys key).pressed = none := by
      intro key apart released
      cases held : (keyboard.keys key).pressed with
      | none => rfl
      | some definition =>
          have user := attended.attended key (by rw [held]; rfl) apart.notAutomatic
          rw [← held, ← typed.pressed key user fun ⟨_, _, keysym, member, found⟩ =>
            apart keysym (mem_modifierKeysyms member) found]
          exact released
    have deadReleased := released deadKey deadApart deadAfter
    have baseReleased := released baseKey baseApart baseAfter
    refine ⟨deadReleased, baseReleased, fun key definition user held free down => ?_⟩
    obtain ⟨after', first, second, early, between, late, updated', both, _, _, events, prepared,
      settled, _⟩ := deadKeyed.outcome attended deadReleased baseReleased depth
    obtain rfl := Option.some.inj (updated'.symm.trans updated)
    have still := typed.down key definition user held free down
    rw [events, settled key user (by rw [held]; rfl), List.append_nil,
      isDown_typed _ free prepared] at still
    rw [both]
    split at still
    · assumption
    · cases still
  · intro free
    obtain ⟨after, first, second, early, between, late, updated, both, firstDefined,
      secondDefined, events, prepared, settled, kept⟩ :=
      deadKeyed.outcome attended free.dead free.base depth
    refine ⟨after, updated, ⟨first, firstDefined, second, secondDefined, early, between, late,
      events, prepared⟩, kept, fun key definition user held other down => ?_⟩
    have apart := free.apart key definition user held other down
    rw [both] at apart
    rw [events, settled key user (by rw [held]; rfl), List.append_nil,
      isDown_typed _ other prepared, if_pos apart]
    exact down

end

/-- A keymap with a dead acute accent and three letters, two of them on one scancode. -/
def acuteKeymap : Keymap :=
  .root [plainModifier keysymLshift 0x2A, plainModifier keysymAltgr 0x38, plainModifier 0xFE51 0x28,
    plainModifier 0x65 0x12, plainModifier 0x71 0x10,
    { plainModifier 0x45 0x12 with setModifiers := modifierShift, known := by decide }]

theorem acuteKeymap_plain : PlainModifiers (alloc acuteKeymap true) := by
  intro keysym modifier key found definition defined
  simp only [List.mem_cons, List.not_mem_nil, or_false] at modifier
  rcases modifier with rfl | rfl
  · obtain rfl := Option.some.inj found
    rw [List.mem_singleton.mp defined]
    exact ⟨rfl, rfl, rfl, rfl⟩
  · obtain rfl := Option.some.inj found
    rw [List.mem_singleton.mp defined]
    exact ⟨rfl, rfl, rfl, rfl⟩

/-- The keyboard of that keymap after the user has pressed a letter. -/
def acuteKeyboard (letter : Int) : Keyboard :=
  (keyboardStep 3 (some (alloc acuteKeymap true)) (.client letter true)).getD (zeroed true)

/-- An accented letter is typed while the user holds another letter. -/
theorem deadKey_typed_other :
    ∃ after, updateKeysym 3 (acuteKeyboard 0x71) 0xE9 true .client = some after
      ∧ TypedDead (acuteKeyboard 0x71) after 2 3 := by
  have deadKeyed : DeadKeyed (acuteKeyboard 0x71) 0xE9 2 3 :=
    { undefined := rfl
      decomposed := ⟨0xFE51, 0x65, rfl, rfl, rfl⟩
      usable := by decide }
  refine (deadKey_typed_iff acuteKeymap acuteKeymap_plain 0 [.client 0x71 true] rfl deadKeyed).mpr
    ⟨rfl, rfl, fun key definition user held _ _ => ?_⟩
  match key with
  | 0 | 1 | 2 | 3 | 5 => cases held
  | 4 =>
      obtain rfl := Option.some.inj held
      decide
  | key + 6 =>
      have released : ((acuteKeyboard 0x71).keys (key + 6)).pressed = none := rfl
      have held : none = some definition := released.symm.trans held
      cases held

/-- The accented letter is not typed while the user holds its base letter, which is released. -/
theorem deadKey_held_base :
    exec (keyboardStep 3) (some (alloc acuteKeymap true)) [.client 0x65 true]
        = some (acuteKeyboard 0x65)
      ∧ DeadKeyed (acuteKeyboard 0x65) 0xE9 2 3
      ∧ ¬ ∃ after, updateKeysym 3 (acuteKeyboard 0x65) 0xE9 true .client = some after
        ∧ TypedDead (acuteKeyboard 0x65) after 2 3 := by
  refine ⟨rfl, ⟨rfl, ⟨0xFE51, 0x65, rfl, rfl, rfl⟩, by decide⟩, ?_⟩
  rintro ⟨after, updated, typed⟩
  have free : ¬ IsRequired (acuteKeyboard 0x65) 2 3 3 := by
    rintro ⟨definition, member, keysym, required, _⟩
    have none : ∀ definition ∈ (acuteKeyboard 0x65).typedDefinitions 2 3,
        modifierKeysyms definition = [] := by
      decide
    rw [none definition member] at required
    cases required
  have released : (updateKeysym 3 (acuteKeyboard 0x65) 0xE9 true .client).map
      (fun after => (after.keys 3).pressed) = some none := rfl
  rw [updated] at released
  have held := (typed.pressed 3 rfl free).symm.trans (Option.some.inj released)
  cases held

/-- The upper case letter has the scancode of the base key, and is released with it. -/
example : (updateKeysym 3 (acuteKeyboard 0x45) 0xE9 true .client).map (isDown 0x12 0 ∘ events)
    = some false := by decide

end GuacNebula.Rdp.Keyboard
