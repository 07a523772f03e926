import Mathlib.Logic.Function.Basic

/-! # The keyboard

A keysym that the client presses or releases is translated to the scancodes of the keymap of the
RDP server. The modifiers and locks that a key needs are pressed, released or synchronized before
it, by updates of the same kind, so the functions of this module call each other: they are given the
update to call, and `updateKeysym` ties the knot, down to a depth.
-/

namespace GuacNebula.Rdp

/-! ## Keymaps -/

/-- The keysyms of modifiers, and their flags. -/
def keysymLshift : Int := 0xFFE1
def keysymRshift : Int := 0xFFE2
def keysymLctrl : Int := 0xFFE3
def keysymRctrl : Int := 0xFFE4
def keysymLalt : Int := 0xFFE9
def keysymRalt : Int := 0xFFEA
def keysymAltgr : Int := 0xFE03
def modifierShift : BitVec 32 := 1
def modifierAltgr : BitVec 32 := 2

/-- `guac_rdp_keysym_desc`. No modifiers are known but Shift and AltGr. -/
structure KeysymDesc where
  keysym : Int
  scancode : Int
  flags : Int
  setModifiers : BitVec 32
  clearModifiers : BitVec 32
  setLocks : BitVec 32
  clearLocks : BitVec 32
  known : (setModifiers ||| clearModifiers) &&& ~~~(modifierShift ||| modifierAltgr) = 0 := by decide
  deriving DecidableEq

/-- `guac_rdp_keymap`: an array of mappings that a keysym of zero ends, on top of a parent. -/
inductive Keymap
  | root (mapping : List KeysymDesc)
  | child (parent : Keymap) (mapping : List KeysymDesc)

/-- `guac_rdp_keyboard_lock_flag`: the flag of Scroll Lock, Kana Lock, Num Lock or Caps Lock. -/
def lockFlag (keysym : Int) : BitVec 32 :=
  if keysym = 0xFF14 then 1
  else if keysym = 0xFF2D then 8
  else if keysym = 0xFF7F then 2
  else if keysym = 0xFFE5 then 4
  else 0

/-! ## Keys -/

/-- `guac_rdp_key`. -/
structure Key where
  definitions : List KeysymDesc
  pressed : Option KeysymDesc
  userPressed : Bool

/-- `guac_rdp_key_source`. -/
inductive KeySource
  | client | synthetic
  deriving DecidableEq, Repr

/-- An event of the input interface of the RDP client. -/
inductive InputEvent
  | key (scancode flags : Int) (pressed : Bool)
  | unicode (codepoint : Int)
  | synchronize (flags : BitVec 32)
  deriving DecidableEq, Repr

/-- An event that was sent, with the flags that were tracked then, which are not part of the
program. -/
structure SentEvent where
  event : InputEvent
  lockFlags : BitVec 32
  modifierFlags : BitVec 32
  deriving DecidableEq, Repr

/-- `guac_rdp_keyboard`, whether there is a connection, and what was sent over it. Keys are named by
their index. -/
structure Keyboard where
  lockFlags : BitVec 32
  synchronized : Bool
  numKeys : Nat
  keys : Nat → Key
  keysByKeysym : Nat → Option Nat
  userPressedKeys : Int
  connected : Bool
  sent : List SentEvent

namespace Keyboard

/-- The index into `keys_by_keysym` that `guac_rdp_keyboard_map_key` computes. -/
def mapKey (keysym : Int) : Option Nat :=
  if 0 ≤ keysym ∧ keysym ≤ 0xFFFF then some keysym.toNat
  else if 0x1000000 ≤ keysym ∧ keysym ≤ 0x100FFFF then some (0x10000 + (keysym % 0x10000).toNat)
  else none

/-- `guac_rdp_keyboard_get_key`. -/
def getKey (keyboard : Keyboard) (keysym : Int) : Option Nat :=
  (mapKey keysym).bind keyboard.keysByKeysym

/-- `guac_rdp_keyboard_is_pressed`. -/
def isPressed (keyboard : Keyboard) (keysym : Int) : Bool :=
  match keyboard.getKey keysym with
  | none => false
  | some key => (keyboard.keys key).pressed.isSome

/-- Shift is held. -/
def shiftHeld (keyboard : Keyboard) : Bool :=
  keyboard.isPressed keysymLshift || keyboard.isPressed keysymRshift

/-- AltGr is held, as the dedicated key or via Ctrl and Alt. -/
def altgrHeld (keyboard : Keyboard) : Bool :=
  keyboard.isPressed keysymRalt || keyboard.isPressed keysymAltgr
    || (keyboard.isPressed keysymLalt
      && (keyboard.isPressed keysymRctrl || keyboard.isPressed keysymLctrl))

/-- `guac_rdp_keyboard_get_modifier_flags`. -/
def getModifierFlags (keyboard : Keyboard) : BitVec 32 :=
  (if keyboard.shiftHeld then modifierShift else 0)
    ||| (if keyboard.altgrHeld then modifierAltgr else 0)

/-- `guac_rdp_count_bits`. -/
def countBits (value : BitVec 32) : Nat := (List.range 32).countP value.getLsbD

/-- `guac_rdp_keyboard_get_cost`. -/
def getCost (keyboard : Keyboard) (definition : KeysymDesc) : Nat :=
  let modifierFlags := keyboard.getModifierFlags
  let updateLocks := (definition.setLocks &&& ~~~keyboard.lockFlags)
    ||| (definition.clearLocks &&& keyboard.lockFlags)
  let updateModifiers := (definition.clearModifiers &&& modifierFlags)
    ||| (definition.setModifiers &&& ~~~modifierFlags)
  1 + countBits updateLocks * 2 + countBits updateModifiers

/-- `guac_rdp_keyboard_get_definition`. Every key that can be looked up has a definition. -/
def getDefinition (keyboard : Keyboard) (key : Key) : Option KeysymDesc :=
  match key.pressed, key.definitions with
  | some definition, _ => some definition
  | none, [] => none
  | none, first :: further =>
      some (further.foldl (fun best definition =>
        if keyboard.getCost definition < keyboard.getCost best then definition else best) first)

/-- The keyboard with the state of a key changed. -/
def setKey (keyboard : Keyboard) (key : Nat) (state : Key) : Keyboard :=
  { keyboard with keys := Function.update keyboard.keys key state }

@[simp] theorem setKey_self (keyboard : Keyboard) (key : Nat) (state : Key) :
    (keyboard.setKey key state).keys key = state :=
  Function.update_self ..

theorem setKey_of_ne (keyboard : Keyboard) {key other : Nat} (ne : other ≠ key) (state : Key) :
    (keyboard.setKey key state).keys other = keyboard.keys other :=
  Function.update_of_ne ne ..

/-! ## Loading a keymap -/

/-- `GUAC_RDP_KEYBOARD_MAX_KEYSYMS`. -/
def maxKeysyms : Nat := 1024

/-- `GUAC_RDP_KEY_MAX_DEFINITIONS`. -/
def maxDefinitions : Nat := 4

/-- A definition is stored, if the key has space for it. -/
def addDefinition (keyboard : Keyboard) (key : Nat) (mapping : KeysymDesc) : Keyboard :=
  let definitions := (keyboard.keys key).definitions
  if definitions.length = maxDefinitions then keyboard
  else keyboard.setKey key { keyboard.keys key with definitions := definitions ++ [mapping] }

/-- `guac_rdp_keyboard_add_mapping`. -/
def addMapping (keyboard : Keyboard) (mapping : KeysymDesc) : Keyboard :=
  match mapKey mapping.keysym with
  | none => keyboard
  | some index =>
      match keyboard.keysByKeysym index with
      | some key => keyboard.addDefinition key mapping
      | none =>
          if keyboard.numKeys = maxKeysyms then keyboard
          else
            { keyboard with
              numKeys := keyboard.numKeys + 1
              keysByKeysym := Function.update keyboard.keysByKeysym index
                (some keyboard.numKeys) }.addDefinition keyboard.numKeys mapping

/-- The mappings of an array, up to the keysym of zero. -/
def addMappings (keyboard : Keyboard) : List KeysymDesc → Keyboard
  | [] => keyboard
  | mapping :: mappings =>
      if mapping.keysym = 0 then keyboard else (keyboard.addMapping mapping).addMappings mappings

/-- `guac_rdp_keyboard_load_keymap`. -/
def loadKeymap (keyboard : Keyboard) : Keymap → Keyboard
  | .root mapping => keyboard.addMappings mapping
  | .child parent mapping => (keyboard.loadKeymap parent).addMappings mapping

/-- A keyboard of zeros. -/
def zeroed (connected : Bool) : Keyboard where
  lockFlags := 0
  synchronized := false
  numKeys := 0
  keys := fun _ => { definitions := [], pressed := none, userPressed := false }
  keysByKeysym := fun _ => none
  userPressedKeys := 0
  connected := connected
  sent := []

/-- `guac_rdp_keyboard_alloc`. -/
def alloc (keymap : Keymap) (connected : Bool) : Keyboard := (zeroed connected).loadKeymap keymap

/-! ## Events -/

/-- An event is sent, if there is a connection. -/
def send (keyboard : Keyboard) (event : InputEvent) : Keyboard :=
  if keyboard.connected then
    { keyboard with sent := keyboard.sent ++
        [{ event := event
           lockFlags := keyboard.lockFlags
           modifierFlags := keyboard.getModifierFlags }] }
  else keyboard

/-- `guac_rdp_send_key_event`. -/
def sendKeyEvent (keyboard : Keyboard) (definition : KeysymDesc) (pressed : Bool) : Keyboard :=
  keyboard.send (.key definition.scancode definition.flags pressed)

/-- The synchronization of locks that comes first, once. -/
def synchronize (keyboard : Keyboard) : Keyboard :=
  if keyboard.synchronized then keyboard
  else { keyboard.send (.synchronize keyboard.lockFlags) with synchronized := true }

/-- `guac_rdp_keyboard_update_locks`. -/
def updateLocks (keyboard : Keyboard) (setFlags clearFlags : BitVec 32) : Keyboard :=
  let lockFlags := (keyboard.lockFlags ||| setFlags) &&& ~~~clearFlags
  if lockFlags ≠ keyboard.lockFlags then
    { keyboard.send (.synchronize lockFlags) with lockFlags := lockFlags }
  else keyboard

/-- `guac_rdp_keyboard_set_indicators`, with flags of 16 bits. -/
def setIndicators (keyboard : Keyboard) (flags : BitVec 16) : Keyboard :=
  { keyboard with lockFlags := flags.setWidth 32 }

/-- The definition under which a key is pressed. -/
def setPressed (keyboard : Keyboard) (key : Nat) (pressed : Option KeysymDesc) : Keyboard :=
  keyboard.setKey key { keyboard.keys key with pressed := pressed }

/-! ## Updates -/

/-- An update of a keysym, which is pressed or not, by a source. -/
abbrev Update := Keyboard → Int → Bool → KeySource → Option Keyboard

variable (update : Update)

/-- Keysyms are released in order. -/
def releaseKeysyms (keyboard : Keyboard) : List Int → Option Keyboard
  | [] => some keyboard
  | keysym :: keysyms =>
      (update keyboard keysym false .synthetic).bind fun keyboard =>
        keyboard.releaseKeysyms keysyms

/-- A modifier is pressed or released as needed. -/
def updateModifier (keyboard : Keyboard) (set clear : Prop) [Decidable set] [Decidable clear]
    (pressed : Int) (released : List Int) : Option Keyboard :=
  if set then update keyboard pressed true .synthetic
  else if clear then keyboard.releaseKeysyms update released
  else some keyboard

/-- `guac_rdp_keyboard_update_modifiers`. -/
def updateModifiers (keyboard : Keyboard) (setFlags clearFlags : BitVec 32) : Option Keyboard :=
  let modifierFlags := keyboard.getModifierFlags
  let clearFlags := clearFlags &&& modifierFlags
  let setFlags := setFlags &&& ~~~modifierFlags
  (keyboard.updateModifier update (setFlags &&& modifierShift ≠ 0)
      (clearFlags &&& modifierShift ≠ 0) keysymLshift [keysymLshift, keysymRshift]).bind
    fun keyboard =>
      keyboard.updateModifier update (setFlags &&& modifierAltgr ≠ 0)
        (clearFlags &&& modifierAltgr ≠ 0) keysymAltgr
        [keysymAltgr, keysymLalt, keysymRalt, keysymLctrl, keysymRctrl]

/-- What comes before the event of a key that is pressed. -/
def meetRequirements (keyboard : Keyboard) (definition : KeysymDesc) : Option Keyboard :=
  (keyboard.updateLocks definition.setLocks definition.clearLocks).updateModifiers update
    definition.setModifiers definition.clearModifiers

/-- `guac_rdp_keyboard_send_defined_key`. -/
def sendDefinedKey (keyboard : Keyboard) (key : Nat) (pressed : Bool) :
    Option (Keyboard × Option KeysymDesc) :=
  match keyboard.getDefinition (keyboard.keys key) with
  | none => some (keyboard, none)
  | some definition =>
      if definition.scancode = 0 then some (keyboard, none)
      else
        (if pressed then keyboard.meetRequirements update definition else some keyboard).map
          fun keyboard => (keyboard.sendKeyEvent definition pressed, some definition)

/-- `guac_rdp_decomposed_keys`: a keysym, its dead key and its base key. -/
def decomposedKeys : List (Int × Int × Int) :=
  [(0x5E, 0xFE52, 0x20), (0x60, 0xFE50, 0x20), (0x7E, 0xFE53, 0x20), (0xA8, 0xFE57, 0x20),
    (0xB4, 0xFE51, 0x20),
    (0xC0, 0xFE50, 0x41), (0xC1, 0xFE51, 0x41), (0xC2, 0xFE52, 0x41), (0xC3, 0xFE53, 0x41),
    (0xC4, 0xFE57, 0x41), (0xC5, 0xFE58, 0x41),
    (0xC8, 0xFE50, 0x45), (0xC9, 0xFE51, 0x45), (0xCA, 0xFE52, 0x45), (0xCB, 0xFE57, 0x45),
    (0xCC, 0xFE50, 0x49), (0xCD, 0xFE51, 0x49), (0xCE, 0xFE52, 0x49), (0xCF, 0xFE57, 0x49),
    (0xD1, 0xFE53, 0x4E),
    (0xD2, 0xFE50, 0x4F), (0xD3, 0xFE51, 0x4F), (0xD4, 0xFE52, 0x4F), (0xD5, 0xFE53, 0x4F),
    (0xD6, 0xFE57, 0x4F),
    (0xD9, 0xFE50, 0x55), (0xDA, 0xFE51, 0x55), (0xDB, 0xFE52, 0x55), (0xDC, 0xFE57, 0x55),
    (0xDD, 0xFE51, 0x59),
    (0xE0, 0xFE50, 0x61), (0xE1, 0xFE51, 0x61), (0xE2, 0xFE52, 0x61), (0xE3, 0xFE53, 0x61),
    (0xE4, 0xFE57, 0x61), (0xE5, 0xFE58, 0x61),
    (0xE8, 0xFE50, 0x65), (0xE9, 0xFE51, 0x65), (0xEA, 0xFE52, 0x65), (0xEB, 0xFE57, 0x65),
    (0xEC, 0xFE50, 0x69), (0xED, 0xFE51, 0x69), (0xEE, 0xFE52, 0x69), (0xEF, 0xFE57, 0x69),
    (0xF1, 0xFE53, 0x6E),
    (0xF2, 0xFE50, 0x6F), (0xF3, 0xFE51, 0x6F), (0xF4, 0xFE52, 0x6F), (0xF5, 0xFE53, 0x6F),
    (0xF6, 0xFE57, 0x6F),
    (0xF9, 0xFE50, 0x75), (0xFA, 0xFE51, 0x75), (0xFB, 0xFE52, 0x75), (0xFC, 0xFE57, 0x75),
    (0xFD, 0xFE51, 0x79), (0xFF, 0xFE57, 0x79)]

/-- A key is pressed and released. -/
def tapKeysym (keyboard : Keyboard) (keysym : Int) : Option Keyboard :=
  (update keyboard keysym true .synthetic).bind fun keyboard =>
    update keyboard keysym false .synthetic

/-- `guac_rdp_decompose_keysym`, unless the keysym cannot be typed so. -/
def decomposeKeysym (keyboard : Keyboard) (keysym : Int) : Option (Option Keyboard) :=
  match decomposedKeys.lookup keysym with
  | none => none
  | some (dead, base) =>
      if (keyboard.getKey dead).isNone ∨ (keyboard.getKey base).isNone then none
      else
        some ((keyboard.tapKeysym update dead).bind fun keyboard => keyboard.tapKeysym update base)

/-- The codepoint under which a keysym is sent as a Unicode event. -/
def unicodeCodepoint (keysym : Int) : Option Int :=
  if keysym ≤ 0xFF then some keysym
  else if keysym ≥ 0x1000000 then some (keysym % 0x1000000)
  else none

/-- `guac_rdp_keyboard_send_missing_key`. -/
def sendMissingKey (keyboard : Keyboard) (keysym : Int) : Option Keyboard :=
  match keyboard.decomposeKeysym update keysym with
  | some typed => typed
  | none =>
      match unicodeCodepoint keysym with
      | none => some keyboard
      | some codepoint => some (keyboard.send (.unicode codepoint))

/-- The user takes a key or lets it go, which changes the total. -/
def setUserPressed (keyboard : Keyboard) (key : Nat) (userPressed : Bool) (change : Int) :
    Keyboard :=
  { keyboard.setKey key { keyboard.keys key with userPressed := userPressed } with
    userPressedKeys := keyboard.userPressedKeys + change }

/-- The tracking of the keys that the user holds. -/
def trackUser (keyboard : Keyboard) (key : Option Nat) (pressed : Bool) (source : KeySource) :
    Keyboard :=
  match key, source with
  | some key, .client =>
      if pressed ∧ !(keyboard.keys key).userPressed then keyboard.setUserPressed key true 1
      else if !pressed ∧ (keyboard.keys key).userPressed then
        keyboard.setUserPressed key false (-1)
      else keyboard
  | _, _ => keyboard

/-- The state of a key on the server changes, or it is not tracked. -/
def isChanged (keyboard : Keyboard) (key : Option Nat) (pressed : Bool) : Bool :=
  match key with
  | none => true
  | some key => pressed != (keyboard.keys key).pressed.isSome

/-- A known key is sent by key events. -/
def changeKey (keyboard : Keyboard) (key : Option Nat) (pressed : Bool) :
    Option (Keyboard × Option KeysymDesc) :=
  match key with
  | none => some (keyboard, none)
  | some key =>
      (keyboard.sendDefinedKey update key pressed).map fun (keyboard, definition) =>
        (keyboard.setPressed key (if pressed then definition else none), definition)

/-- The change of a key is sent, and a key that is pressed but not defined is typed otherwise. -/
def sendChange (keyboard : Keyboard) (keysym : Int) (key : Option Nat) (pressed : Bool) :
    Option Keyboard :=
  let toggled :=
    if pressed then { keyboard with lockFlags := keyboard.lockFlags ^^^ lockFlag keysym }
    else keyboard
  (toggled.changeKey update key pressed).bind fun (keyboard, definition) =>
    if definition = none ∧ pressed then keyboard.sendMissingKey update keysym else some keyboard

/-- The loop of `guac_rdp_keyboard_reset`. -/
def releaseKeys (keyboard : Keyboard) : List Nat → Option Keyboard
  | [] => some keyboard
  | key :: keys =>
      (match (keyboard.keys key).pressed with
        | none => some keyboard
        | some definition => update keyboard definition.keysym false .synthetic).bind
        fun keyboard => keyboard.releaseKeys keys

/-- `guac_rdp_keyboard_reset`. -/
def reset (keyboard : Keyboard) : Option Keyboard :=
  keyboard.releaseKeys update (List.range keyboard.numKeys)

/-- `guac_rdp_keyboard_update_keysym`, with calls of itself down to a depth. -/
def updateKeysym : Nat → Update
  | 0, _, _, _, _ => none
  | depth + 1, keyboard, keysym, pressed, source =>
      let keyboard := keyboard.synchronize
      let key := keyboard.getKey keysym
      let keyboard := keyboard.trackUser key pressed source
      (if keyboard.isChanged key pressed then
          keyboard.sendChange (updateKeysym depth) keysym key pressed
        else some keyboard).bind
        fun keyboard =>
          if source = .client ∧ keyboard.userPressedKeys = 0 then
            keyboard.reset (updateKeysym depth)
          else some keyboard

end Keyboard

end GuacNebula.Rdp
