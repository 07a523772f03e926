import GuacNebula.Rdp.KeyboardUpdates

/-! # The requirements of keys

A definition of a key requires locks and modifiers to be set or clear. They are when the event of
the key is sent, whatever was held before: the locks are synchronized, Shift and AltGr are pressed,
and every key that could stand for a modifier that has to be clear is released.
-/

namespace GuacNebula.Rdp.Keyboard

variable {keyboard : Keyboard}

/-! ## What is pressed -/

/-- Two keysyms do not share a key. -/
def Apart (keyboard : Keyboard) (first second : Int) : Prop :=
  ∀ key, keyboard.getKey first = some key → keyboard.getKey second ≠ some key

theorem WellKeyed.apart (well : WellKeyed keyboard) {first second : Int}
    (ne : mapKey first ≠ mapKey second) : Apart keyboard first second :=
  fun _ left right => ne (well.mapKey_eq left right)

theorem SameLayout.apart {before after : Keyboard} (same : SameLayout before after)
    {first second : Int} (apart : Apart before first second) : Apart after first second := by
  unfold Apart
  rw [same.getKey, same.getKey]
  exact apart

theorem isPressed_releaseKeysym (keysym : Int) :
    (keyboard.releaseKeysym keysym).isPressed keysym = false := by
  have same := (releaseKeysym_frame keyboard keysym).getKey keysym
  rw [← (@synchronize_frame keyboard).getKey keysym] at same
  unfold isPressed
  rw [same]
  unfold releaseKeysym
  cases keyboard.synchronize.getKey keysym with
  | none => rfl
  | some key => exact congrArg Option.isSome releaseKey_self

theorem isPressed_releaseKeysym_of_apart {keysym other : Int}
    (apart : Apart keyboard keysym other) :
    (keyboard.releaseKeysym keysym).isPressed other = keyboard.isPressed other := by
  refine isPressed_congr ((releaseKeysym_frame keyboard keysym).getKey other) fun key found => ?_
  rw [releaseKeysym_keys fun released => apart key released found]

/-- What was released is not pressed by releasing more. -/
theorem isPressed_releaseKeysym_mono {keysym other : Int}
    (released : keyboard.isPressed other = false) :
    (keyboard.releaseKeysym keysym).isPressed other = false := by
  by_cases apart : Apart keyboard keysym other
  · rw [isPressed_releaseKeysym_of_apart apart]
    exact released
  · unfold Apart at apart
    obtain ⟨key, shared⟩ := not_forall.mp apart
    obtain ⟨left, right⟩ := Classical.not_imp.mp shared
    have right := not_not.mp right
    have same : ∀ keyboard' : Keyboard, SameLayout keyboard keyboard' →
        keyboard'.isPressed other = keyboard'.isPressed keysym := by
      intro keyboard' layout
      unfold isPressed
      rw [layout.getKey, layout.getKey, left, right]
    rw [same _ (releaseKeysym_frame keyboard keysym).toSameLayout]
    exact isPressed_releaseKeysym keysym

theorem isPressed_releaseKeysyms_of_apart {other : Int} (keysyms : List Int)
    (apart : ∀ keysym ∈ keysyms, Apart keyboard keysym other) :
    (keysyms.foldl releaseKeysym keyboard).isPressed other = keyboard.isPressed other := by
  induction keysyms generalizing keyboard with
  | nil => rfl
  | cons keysym keysyms ih =>
      rw [List.foldl_cons, ih, isPressed_releaseKeysym_of_apart (apart keysym (.head _))]
      exact fun later member => (releaseKeysym_frame keyboard keysym).toSameLayout.apart
        (apart later (.tail _ member))

theorem isPressed_releaseKeysyms_mono {other : Int} (keysyms : List Int)
    (released : keyboard.isPressed other = false) :
    (keysyms.foldl releaseKeysym keyboard).isPressed other = false := by
  induction keysyms generalizing keyboard with
  | nil => exact released
  | cons keysym keysyms ih => exact ih (isPressed_releaseKeysym_mono released)

theorem isPressed_releaseKeysyms {keysym : Int} {keysyms : List Int} (member : keysym ∈ keysyms) :
    (keysyms.foldl releaseKeysym keyboard).isPressed keysym = false := by
  induction keysyms generalizing keyboard with
  | nil => cases member
  | cons first keysyms ih =>
      rcases List.mem_cons.mp member with rfl | later
      · exact isPressed_releaseKeysyms_mono keysyms (isPressed_releaseKeysym keysym)
      · exact ih later

/-- A modifier is defined, with a scancode and without requirements. -/
def UsableModifier (keyboard : Keyboard) (keysym : Int) : Prop :=
  ∃ key, keyboard.getKey keysym = some key
    ∧ ∀ definition ∈ (keyboard.keys key).definitions,
      definition.scancode ≠ 0 ∧ Plain definition

/-- A key that has definitions has one that is chosen. -/
theorem getDefinition_isSome {key : Nat} (defined : (keyboard.keys key).definitions ≠ []) :
    ∃ definition, keyboard.getDefinition (keyboard.keys key) = some definition := by
  unfold getDefinition
  cases (keyboard.keys key).pressed with
  | some definition => exact ⟨definition, rfl⟩
  | none =>
      cases definitions : (keyboard.keys key).definitions with
      | nil => exact absurd definitions defined
      | cons first further => exact ⟨_, rfl⟩

theorem isPressed_pressKeysym (well : WellKeyed keyboard) {keysym : Int}
    (usable : UsableModifier keyboard keysym) :
    (keyboard.pressKeysym keysym).isPressed keysym = true := by
  obtain ⟨key, found, usable⟩ := usable
  obtain ⟨index, _, placed⟩ := Option.bind_eq_some_iff.mp found
  have defined := well.defined placed
  have same := (pressKeysym_frame keyboard keysym).getKey keysym
  unfold isPressed
  rw [same, found]
  have found' := (@synchronize_frame keyboard).getKey keysym
  rw [found] at found'
  rw [← @synchronize_keys keyboard] at usable defined
  unfold pressKeysym
  generalize keyboard.synchronize = keyboard at found' usable defined ⊢
  simp only [found']
  cases pressed : (keyboard.keys key).pressed with
  | some definition => simp only [pressed, Option.isSome_some]
  | none =>
      obtain ⟨definition, chosen⟩ := getDefinition_isSome defined
      have scancode := (usable definition (getDefinition_mem pressed chosen)).1
      simp only [chosen, scancode, ↓reduceIte, pressKey, setPressed_self, Option.isSome_some]

theorem isPressed_pressKeysym_of_apart {keysym other : Int}
    (apart : Apart keyboard keysym other) :
    (keyboard.pressKeysym keysym).isPressed other = keyboard.isPressed other := by
  refine isPressed_congr ((pressKeysym_frame keyboard keysym).getKey other) fun key found => ?_
  rw [pressKeysym_keys fun pressed => apart key pressed found]

/-! ## Modifiers -/

/-- The modifiers are usable, and no two keysyms share a key. -/
structure UsableModifiers (keyboard : Keyboard) : Prop where
  well : WellKeyed keyboard
  shift : UsableModifier keyboard keysymLshift
  altgr : UsableModifier keyboard keysymAltgr

theorem SameLayout.usableModifier {before after : Keyboard} (same : SameLayout before after)
    {keysym : Int} (usable : UsableModifier before keysym) : UsableModifier after keysym := by
  obtain ⟨key, found, usable⟩ := usable
  refine ⟨key, (same.getKey keysym).trans found, ?_⟩
  rw [same.definitions]
  exact usable

theorem SameLayout.usableModifiers {before after : Keyboard} (same : SameLayout before after)
    (usable : UsableModifiers before) : UsableModifiers after where
  well := same.wellKeyed usable.well
  shift := same.usableModifier usable.shift
  altgr := same.usableModifier usable.altgr

theorem UsableModifiers.plain (usable : UsableModifiers keyboard) : PlainModifiers keyboard := by
  intro keysym modifier key found definition defined
  have each : UsableModifier keyboard keysym := by
    simp only [List.mem_cons, List.not_mem_nil, or_false] at modifier
    rcases modifier with rfl | rfl
    · exact usable.shift
    · exact usable.altgr
  obtain ⟨key', found', usable⟩ := each
  obtain rfl := Option.some.inj (found.symm.trans found')
  exact (usable definition defined).2

/-- The keysyms that count as Shift, and those that count as AltGr. -/
def shiftKeysyms : List Int := [keysymLshift, keysymRshift]
def altgrKeysyms : List Int := [keysymAltgr, keysymLalt, keysymRalt, keysymLctrl, keysymRctrl]

theorem WellKeyed.shift_apart_altgr (well : WellKeyed keyboard) :
    ∀ shift ∈ shiftKeysyms, ∀ altgr ∈ altgrKeysyms, Apart keyboard shift altgr :=
  have distinct : ∀ shift ∈ shiftKeysyms, ∀ altgr ∈ altgrKeysyms, mapKey shift ≠ mapKey altgr := by
    decide
  fun shift isShift altgr isAltgr => well.apart (distinct shift isShift altgr isAltgr)

theorem Apart.symm {first second : Int} (apart : Apart keyboard first second) :
    Apart keyboard second first :=
  fun key left right => apart key right left

/-- Updating a modifier leaves alone what is pressed apart from its keysyms. -/
theorem isPressed_applyModifier {set clear : Prop} [Decidable set] [Decidable clear]
    {pressed other : Int} {released : List Int} (member : pressed ∈ released)
    (apart : ∀ keysym ∈ released, Apart keyboard keysym other) :
    (keyboard.applyModifier set clear pressed released).isPressed other
      = keyboard.isPressed other := by
  unfold applyModifier
  split
  · exact isPressed_pressKeysym_of_apart (apart pressed member)
  · split
    · exact isPressed_releaseKeysyms_of_apart released apart
    · rfl

theorem altgrHeld_applyShift (well : WellKeyed keyboard) {set clear : Prop} [Decidable set]
    [Decidable clear] :
    (keyboard.applyModifier set clear keysymLshift shiftKeysyms).altgrHeld
      = keyboard.altgrHeld := by
  have same : ∀ altgr ∈ altgrKeysyms,
      (keyboard.applyModifier set clear keysymLshift shiftKeysyms).isPressed altgr
        = keyboard.isPressed altgr :=
    fun altgr isAltgr => isPressed_applyModifier (List.mem_cons_self ..)
      fun shift isShift => well.shift_apart_altgr shift isShift altgr isAltgr
  unfold altgrHeld
  rw [same keysymRalt (by decide), same keysymAltgr (by decide), same keysymLalt (by decide),
    same keysymRctrl (by decide), same keysymLctrl (by decide)]

theorem shiftHeld_applyAltgr (well : WellKeyed keyboard) {set clear : Prop} [Decidable set]
    [Decidable clear] :
    (keyboard.applyModifier set clear keysymAltgr altgrKeysyms).shiftHeld
      = keyboard.shiftHeld := by
  have same : ∀ shift ∈ shiftKeysyms,
      (keyboard.applyModifier set clear keysymAltgr altgrKeysyms).isPressed shift
        = keyboard.isPressed shift :=
    fun shift isShift => isPressed_applyModifier (List.mem_cons_self ..)
      fun altgr isAltgr => (well.shift_apart_altgr shift isShift altgr isAltgr).symm
  unfold shiftHeld
  rw [same keysymLshift (by decide), same keysymRshift (by decide)]

theorem shiftHeld_applyShift (usable : UsableModifiers keyboard) (set clear : Prop)
    [Decidable set] [Decidable clear] :
    (keyboard.applyModifier set clear keysymLshift shiftKeysyms).shiftHeld
      = if set then true else if clear then false else keyboard.shiftHeld := by
  unfold applyModifier shiftHeld
  split
  · rw [isPressed_pressKeysym usable.well usable.shift, Bool.true_or]
  · split
    · rw [isPressed_releaseKeysyms (by decide), isPressed_releaseKeysyms (by decide),
        Bool.or_false]
    · rfl

theorem altgrHeld_applyAltgr (usable : UsableModifiers keyboard) (set clear : Prop)
    [Decidable set] [Decidable clear] :
    (keyboard.applyModifier set clear keysymAltgr altgrKeysyms).altgrHeld
      = if set then true else if clear then false else keyboard.altgrHeld := by
  unfold applyModifier altgrHeld
  split
  · rw [isPressed_pressKeysym usable.well usable.altgr, Bool.or_true, Bool.true_or]
  · split
    · rw [isPressed_releaseKeysyms (by decide), isPressed_releaseKeysyms (by decide),
        isPressed_releaseKeysyms (by decide), Bool.false_and, Bool.or_false, Bool.or_false]
    · rfl

/-! ## Masks -/

/-- A mask of the two modifiers that are known. -/
theorem eq_of_known {mask : BitVec 32}
    (known : mask &&& ~~~(modifierShift ||| modifierAltgr) = 0) :
    mask = 0 ∨ mask = 1 ∨ mask = 2 ∨ mask = 3 := by
  have within : mask = mask &&& 3 := by
    have split : mask = mask &&& (3 ||| ~~~3) := by
      rw [show (3 ||| ~~~3 : BitVec 32) = BitVec.allOnes 32 by decide, BitVec.and_allOnes]
    rw [BitVec.and_or_distrib_left] at split
    have same : ~~~(modifierShift ||| modifierAltgr) = ~~~3 := by decide
    rw [same] at known
    rw [known] at split
    exact split.trans BitVec.or_zero
  have bound : mask.toNat ≤ 3 := by
    rw [within, BitVec.toNat_and]
    exact Nat.and_le_right
  have cases : mask.toNat = 0 ∨ mask.toNat = 1 ∨ mask.toNat = 2 ∨ mask.toNat = 3 := by omega
  rcases cases with zero | one | two | three
  · exact .inl (BitVec.eq_of_toNat_eq zero)
  · exact .inr (.inl (BitVec.eq_of_toNat_eq one))
  · exact .inr (.inr (.inl (BitVec.eq_of_toNat_eq two)))
  · exact .inr (.inr (.inr (BitVec.eq_of_toNat_eq three)))

/-- The flags for Shift and AltGr, held or not. -/
def heldFlags (shift altgr : Bool) : BitVec 32 :=
  (if shift then modifierShift else 0) ||| (if altgr then modifierAltgr else 0)

/-- A modifier after an update, where it had to be set or clear. -/
def updated (flags setFlags clearFlags modifier : BitVec 32) (held : Bool) : Bool :=
  if setFlags &&& ~~~flags &&& modifier ≠ 0 then true
  else if clearFlags &&& flags &&& modifier ≠ 0 then false
  else held

/-- A definition does not require a lock or a modifier to be both set and clear. -/
structure DisjointMasks (definition : KeysymDesc) : Prop where
  locks : definition.setLocks &&& definition.clearLocks = 0
  modifiers : definition.setModifiers &&& definition.clearModifiers = 0

/-- The requirements of a definition are met by lock flags and modifier flags. -/
structure Met (definition : KeysymDesc) (lockFlags modifierFlags : BitVec 32) : Prop where
  setLocks : definition.setLocks &&& ~~~lockFlags = 0
  clearLocks : definition.clearLocks &&& lockFlags = 0
  setModifiers : definition.setModifiers &&& ~~~modifierFlags = 0
  clearModifiers : definition.clearModifiers &&& modifierFlags = 0

theorem modifiers_met {setFlags clearFlags : BitVec 32}
    (knownSet : setFlags &&& ~~~(modifierShift ||| modifierAltgr) = 0)
    (knownClear : clearFlags &&& ~~~(modifierShift ||| modifierAltgr) = 0)
    (disjoint : setFlags &&& clearFlags = 0) (shift altgr : Bool) :
    let flags := heldFlags shift altgr
    let flags' := heldFlags (updated flags setFlags clearFlags modifierShift shift)
      (updated flags setFlags clearFlags modifierAltgr altgr)
    setFlags &&& ~~~flags' = 0 ∧ clearFlags &&& flags' = 0 := by
  rcases eq_of_known knownSet with rfl | rfl | rfl | rfl
  all_goals
    rcases eq_of_known knownClear with rfl | rfl | rfl | rfl
    all_goals
      first
        | exact absurd disjoint (by decide)
        | (cases shift <;> cases altgr <;> decide)

theorem locks_met {lockFlags setFlags clearFlags : BitVec 32}
    (disjoint : setFlags &&& clearFlags = 0) :
    setFlags &&& ~~~((lockFlags ||| setFlags) &&& ~~~clearFlags) = 0
      ∧ clearFlags &&& ((lockFlags ||| setFlags) &&& ~~~clearFlags) = 0 := by
  constructor
  all_goals
    apply BitVec.eq_of_getLsbD_eq
    intro i inside
    have bit := congrArg (fun mask => mask.getLsbD i) disjoint
    simp only [BitVec.getLsbD_and, BitVec.getLsbD_or, BitVec.getLsbD_not, inside, decide_true,
      Bool.true_and] at bit ⊢
    cases set : setFlags.getLsbD i <;> cases clear : clearFlags.getLsbD i <;> simp_all

/-! ## Requirements -/

/-- Once the requirements of a definition have been seen to, they are met. -/
theorem meetRequirements_met (depth : Nat) (usable : UsableModifiers keyboard)
    {definition : KeysymDesc} (disjoint : DisjointMasks definition) :
    ∃ met, keyboard.meetRequirements (updateKeysym (depth + 1)) definition = some met
      ∧ Frame keyboard met ∧ Met definition met.lockFlags met.getModifierFlags := by
  have locked := @updateLocks_frame keyboard definition.setLocks definition.clearLocks
  have lockFlags := @updateLocks_lockFlags keyboard definition.setLocks definition.clearLocks
  have usable := locked.toSameLayout.usableModifiers usable
  unfold meetRequirements
  generalize keyboard.updateLocks definition.setLocks definition.clearLocks = locks
    at locked lockFlags usable ⊢
  have modified := applyModifiers_frame locks definition.setModifiers definition.clearModifiers
  refine ⟨_, updateModifiers_eq depth usable.plain _ _, locked.trans modified, ?_⟩
  -- Shift is seen to first, and neither update undoes the other.
  have shifted : SameLayout locks (locks.applyModifier _ _ keysymLshift shiftKeysyms) :=
    (applyModifier_frame locks
      (definition.setModifiers &&& ~~~locks.getModifierFlags &&& modifierShift ≠ 0)
      (definition.clearModifiers &&& locks.getModifierFlags &&& modifierShift ≠ 0) keysymLshift
      shiftKeysyms).toSameLayout
  have shift : (locks.applyModifiers definition.setModifiers definition.clearModifiers).shiftHeld
      = updated (heldFlags locks.shiftHeld locks.altgrHeld) definition.setModifiers
        definition.clearModifiers modifierShift locks.shiftHeld :=
    (shiftHeld_applyAltgr (shifted.wellKeyed usable.well)).trans
      (shiftHeld_applyShift usable _ _)
  have altgr : (locks.applyModifiers definition.setModifiers definition.clearModifiers).altgrHeld
      = updated (heldFlags locks.shiftHeld locks.altgrHeld) definition.setModifiers
        definition.clearModifiers modifierAltgr locks.altgrHeld := by
    refine (altgrHeld_applyAltgr (shifted.usableModifiers usable) _ _).trans ?_
    rw [altgrHeld_applyShift usable.well]
    rfl
  have known := definition.known
  rw [BitVec.and_or_distrib_right] at known
  obtain ⟨knownSet, knownClear⟩ := BitVec.or_eq_zero_iff.mp known
  have modifiers := modifiers_met knownSet knownClear disjoint.modifiers locks.shiftHeld
    locks.altgrHeld
  have locksMet := @locks_met keyboard.lockFlags _ _ disjoint.locks
  rw [← lockFlags, ← applyModifiers_lockFlags locks definition.setModifiers
    definition.clearModifiers] at locksMet
  dsimp only at modifiers
  rw [← shift, ← altgr] at modifiers
  exact ⟨locksMet.1, locksMet.2, modifiers.1, modifiers.2⟩

/-- The keyboard when the definition of a keysym that is pressed is chosen: a lock has been
toggled, and the user holds the key. -/
def choosing (keyboard : Keyboard) (keysym : Int) (source : KeySource) : Keyboard :=
  let keyboard := keyboard.synchronize
  let keyboard := keyboard.trackUser (keyboard.getKey keysym) true source
  { keyboard with lockFlags := keyboard.lockFlags ^^^ lockFlag keysym }

section Choosing

variable {keysym : Int} {source : KeySource}

theorem choosing_sameLayout : SameLayout keyboard (keyboard.choosing keysym source) := by
  have synchronized := (@synchronize_frame keyboard).toSameLayout
  have tracked := @trackUser_sameLayout keyboard.synchronize (keyboard.synchronize.getKey keysym)
    true source
  exact ⟨tracked.numKeys.trans synchronized.numKeys,
    tracked.keysByKeysym.trans synchronized.keysByKeysym,
    fun key => (tracked.definitions key).trans (synchronized.definitions key)⟩

theorem choosing_pressed (key : Nat) :
    ((keyboard.choosing keysym source).keys key).pressed = (keyboard.keys key).pressed := by
  unfold choosing
  rw [trackUser_pressed, synchronize_keys]

theorem choosing_sent :
    keyboard.sent <+: (keyboard.choosing keysym source).sent
      ∧ (keyboard.choosing keysym source).connected = keyboard.connected := by
  have tracked := @trackUser_sent keyboard.synchronize (keyboard.synchronize.getKey keysym)
    true source
  unfold choosing
  rw [tracked.1, tracked.2]
  exact ⟨synchronize_frame.sent, synchronize_frame.connected⟩

/-- A usable key that is pressed: its requirements, its event, and the reset. -/
theorem updateKeysym_usable (depth : Nat) {key : Nat} {definition : KeysymDesc}
    (found : keyboard.getKey keysym = some key) (released : (keyboard.keys key).pressed = none)
    (chosen : (keyboard.choosing keysym source).getDefinition
      ((keyboard.choosing keysym source).keys key) = some definition)
    (usable : definition.scancode ≠ 0) :
    updateKeysym (depth + 1) keyboard keysym true source
      = ((keyboard.choosing keysym source).meetRequirements (updateKeysym depth) definition).bind
        fun met =>
          if source = .client ∧ (met.pressKey key definition).userPressedKeys = 0 then
            (met.pressKey key definition).reset (updateKeysym depth)
          else some (met.pressKey key definition) := by
  have found := (synchronize_frame.getKey keysym).trans found
  have changed : (keyboard.synchronize.trackUser (some key) true source).isChanged (some key) true
      = true := by
    simp only [isChanged, trackUser_pressed, synchronize_keys, released, Option.isSome_none]
    rfl
  unfold choosing at chosen ⊢
  unfold updateKeysym sendChange changeKey sendDefinedKey
  dsimp only at chosen ⊢
  rw [found] at chosen ⊢
  rw [if_pos changed]
  simp only [↓reduceIte, chosen, usable, Option.map_map]
  cases meetRequirements _ _ definition with
  | none => rfl
  | some met => rfl

/-- Whatever is pressed, and whatever the locks are: when the event of a key is sent, the flags that
are tracked meet the requirements of the definition that was chosen. -/
theorem updateKeysym_meets (keymap : Keymap) {connected : Bool} (depth : Nat)
    (loaded : SameLayout (alloc keymap connected) keyboard)
    (shift : UsableModifier keyboard keysymLshift)
    (altgr : UsableModifier keyboard keysymAltgr)
    (disjoint : ∀ key, ∀ definition ∈ (keyboard.keys key).definitions, DisjointMasks definition)
    (online : keyboard.connected) {key : Nat} {definition : KeysymDesc}
    (found : keyboard.getKey keysym = some key) (released : (keyboard.keys key).pressed = none)
    (chosen : (keyboard.choosing keysym source).getDefinition
      ((keyboard.choosing keysym source).keys key) = some definition)
    (usable : definition.scancode ≠ 0) :
    ∃ after early down late, updateKeysym (depth + 2) keyboard keysym true source = some after
      ∧ after.sent = early ++ down :: late ∧ keyboard.sent <+: early
      ∧ down.event = .key definition.scancode definition.flags true
      ∧ Met definition down.lockFlags down.modifierFlags := by
  have choosing := @choosing_sameLayout keyboard keysym source
  have usableModifiers : UsableModifiers keyboard :=
    ⟨loaded.wellKeyed (wellKeyed_alloc keymap connected), shift, altgr⟩
  have defined : definition ∈ (keyboard.keys key).definitions := by
    rw [← choosing.definitions]
    exact getDefinition_mem ((choosing_pressed key).trans released) chosen
  obtain ⟨met, seen, frame, requirements⟩ := meetRequirements_met depth
    (choosing.usableModifiers usableModifiers) (disjoint key definition defined)
  have sentBefore : keyboard.sent <+: met.sent := choosing_sent.1.trans frame.sent
  have sent : (met.pressKey key definition).sent
      = met.sent ++ [⟨.key definition.scancode definition.flags true, met.lockFlags,
        met.getModifierFlags⟩] := by
    have online : met.connected := by rw [frame.connected, choosing_sent.2, online]
    unfold pressKey sendKeyEvent send
    rw [if_pos online]
    rfl
  rw [updateKeysym_usable (depth + 1) found released chosen usable, seen, Option.bind_some]
  by_cases resets : source = .client ∧ (met.pressKey key definition).userPressedKeys = 0
  · rw [if_pos resets]
    unfold reset
    rw [releaseKeys_eq]
    obtain ⟨late, after⟩ := (releaseHeld_foldl_frame (met.pressKey key definition)
      (List.range (met.pressKey key definition).numKeys)).sent
    rw [sent, List.append_assoc, List.singleton_append] at after
    exact ⟨_, met.sent, _, late, rfl, after.symm, sentBefore, rfl, requirements⟩
  · rw [if_neg resets]
    exact ⟨_, met.sent, _, [], rfl, sent, sentBefore, rfl, requirements⟩

end Choosing

/-- An upper case letter, which requires Shift, and neither AltGr nor Caps Lock. -/
def upperLetter : KeysymDesc where
  keysym := 0x41
  scancode := 0x1E
  flags := 0
  setModifiers := modifierShift
  clearModifiers := modifierAltgr
  setLocks := 0
  clearLocks := 4

/-- A modifier that requires nothing. -/
def plainModifier (keysym scancode : Int) : KeysymDesc where
  keysym := keysym
  scancode := scancode
  flags := 0
  setModifiers := 0
  clearModifiers := 0
  setLocks := 0
  clearLocks := 0

/-- A keymap with the letter and the modifiers. -/
def letterKeymap : Keymap :=
  .root [plainModifier keysymLshift 0x2A, plainModifier keysymAltgr 0x38, upperLetter]

/-- The keyboard of that keymap, with Caps Lock. -/
def letterKeyboard : Keyboard := { alloc letterKeymap true with lockFlags := 4 }

/-- Caps Lock is cleared and Shift pressed for the letter. -/
theorem updateKeysym_meets_letter :
    ∃ after early down late, updateKeysym 2 letterKeyboard 0x41 true .client = some after
      ∧ after.sent = early ++ down :: late ∧ letterKeyboard.sent <+: early
      ∧ down.event = .key 0x1E 0 true ∧ Met upperLetter down.lockFlags down.modifierFlags := by
  have plain : ∀ keysym scancode, Plain (plainModifier keysym scancode) :=
    fun _ _ => ⟨rfl, rfl, rfl, rfl⟩
  have disjoint : ∀ key, ∀ definition ∈ (letterKeyboard.keys key).definitions,
      DisjointMasks definition
    | 0, _, .head _ => ⟨rfl, rfl⟩
    | 1, _, .head _ => ⟨rfl, rfl⟩
    | 2, _, .head _ => ⟨by decide, by decide⟩
  have loaded : SameLayout (alloc letterKeymap true) letterKeyboard := ⟨rfl, rfl, fun _ => rfl⟩
  have shift : UsableModifier letterKeyboard keysymLshift := by
    refine ⟨0, rfl, fun definition member => ?_⟩
    rw [List.mem_singleton.mp member]
    exact ⟨by decide, plain _ _⟩
  have altgr : UsableModifier letterKeyboard keysymAltgr := by
    refine ⟨1, rfl, fun definition member => ?_⟩
    rw [List.mem_singleton.mp member]
    exact ⟨by decide, plain _ _⟩
  have found : letterKeyboard.getKey 0x41 = some 2 := rfl
  have chosen : (letterKeyboard.choosing 0x41 .client).getDefinition
      ((letterKeyboard.choosing 0x41 .client).keys 2) = some upperLetter := rfl
  exact updateKeysym_meets letterKeymap 0 loaded shift altgr disjoint rfl found rfl chosen
    (by decide)

end GuacNebula.Rdp.Keyboard
