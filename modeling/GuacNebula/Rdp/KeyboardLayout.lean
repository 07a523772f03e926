import GuacNebula.Rdp.Keyboard

/-! # The layout of a keyboard

What a keymap fills in when it is loaded: the keys with their definitions, and the lookup of keys by
keysym. The lookup finds different keys for different keysyms, and every key it finds has
definitions, all of the keysym it was found under.
-/

namespace GuacNebula.Rdp.Keyboard

/-- Two keyboards have the same keys, with the same definitions. -/
structure SameLayout (before after : Keyboard) : Prop where
  numKeys : after.numKeys = before.numKeys
  keysByKeysym : after.keysByKeysym = before.keysByKeysym
  definitions : ∀ key, (after.keys key).definitions = (before.keys key).definitions

/-- The lookup and the definitions agree. -/
structure WellKeyed (keyboard : Keyboard) : Prop where
  injective : ∀ {first second key : Nat}, keyboard.keysByKeysym first = some key →
    keyboard.keysByKeysym second = some key → first = second
  inside : ∀ {index key : Nat}, keyboard.keysByKeysym index = some key → key < keyboard.numKeys
  covered : ∀ {key : Nat}, key < keyboard.numKeys →
    ∃ index, keyboard.keysByKeysym index = some key
  placed : ∀ {index key : Nat}, keyboard.keysByKeysym index = some key →
    ∀ definition ∈ (keyboard.keys key).definitions, mapKey definition.keysym = some index
  defined : ∀ {index key : Nat}, keyboard.keysByKeysym index = some key →
    (keyboard.keys key).definitions ≠ []
  fresh : ∀ {key : Nat}, keyboard.numKeys ≤ key → (keyboard.keys key).definitions = []

variable {before after keyboard : Keyboard}

theorem SameLayout.wellKeyed (same : SameLayout before after) (well : WellKeyed before) :
    WellKeyed after where
  injective := by
    rw [same.keysByKeysym]
    exact well.injective
  inside := by
    rw [same.keysByKeysym, same.numKeys]
    exact well.inside
  covered := by
    rw [same.keysByKeysym, same.numKeys]
    exact well.covered
  placed := by
    intro index key found
    rw [same.definitions]
    exact well.placed (same.keysByKeysym ▸ found)
  defined := by
    intro index key found
    rw [same.definitions]
    exact well.defined (same.keysByKeysym ▸ found)
  fresh := by
    intro key beyond
    rw [same.definitions]
    exact well.fresh (same.numKeys ▸ beyond)

theorem SameLayout.getKey (same : SameLayout before after) (keysym : Int) :
    after.getKey keysym = before.getKey keysym := by
  unfold Keyboard.getKey
  rw [same.keysByKeysym]

/-- A key is looked up under one keysym only. -/
theorem WellKeyed.mapKey_eq (well : WellKeyed keyboard) {first second : Int} {key : Nat}
    (left : keyboard.getKey first = some key) (right : keyboard.getKey second = some key) :
    mapKey first = mapKey second := by
  obtain ⟨index, mapped, found⟩ := Option.bind_eq_some_iff.mp left
  obtain ⟨index', mapped', found'⟩ := Option.bind_eq_some_iff.mp right
  rw [mapped, mapped', well.injective found found']

/-- The keysym of a definition leads to the key that has it. -/
theorem WellKeyed.getKey_definition (well : WellKeyed keyboard) {key : Nat}
    (inside : key < keyboard.numKeys) {definition : KeysymDesc}
    (defined : definition ∈ (keyboard.keys key).definitions) :
    keyboard.getKey definition.keysym = some key := by
  obtain ⟨index, found⟩ := well.covered inside
  unfold getKey
  rw [well.placed found definition defined]
  exact found

theorem WellKeyed.lt_numKeys (well : WellKeyed keyboard) {keysym : Int} {key : Nat}
    (found : keyboard.getKey keysym = some key) : key < keyboard.numKeys := by
  obtain ⟨index, _, found⟩ := Option.bind_eq_some_iff.mp found
  exact well.inside found

/-! ## Loading -/

theorem addDefinition_of_ne {key other : Nat} (ne : other ≠ key) (mapping : KeysymDesc) :
    (keyboard.addDefinition key mapping).keys other = keyboard.keys other := by
  unfold addDefinition
  dsimp only
  split
  · rfl
  · exact setKey_of_ne _ ne _

theorem addDefinition_numKeys (key : Nat) (mapping : KeysymDesc) :
    (keyboard.addDefinition key mapping).numKeys = keyboard.numKeys := by
  unfold addDefinition
  dsimp only
  split <;> rfl

theorem addDefinition_keysByKeysym (key : Nat) (mapping : KeysymDesc) :
    (keyboard.addDefinition key mapping).keysByKeysym = keyboard.keysByKeysym := by
  unfold addDefinition
  dsimp only
  split <;> rfl

/-- A definition is added to those of the key, or the key is full. -/
theorem addDefinition_self (key : Nat) (mapping : KeysymDesc) :
    ((keyboard.addDefinition key mapping).keys key).definitions
      = if (keyboard.keys key).definitions.length = maxDefinitions
        then (keyboard.keys key).definitions
        else (keyboard.keys key).definitions ++ [mapping] := by
  unfold addDefinition
  dsimp only
  split
  · rfl
  · rw [setKey_self]

/-- A further definition for a keysym that has a key. -/
theorem WellKeyed.addDefinition (well : WellKeyed keyboard) {index key : Nat}
    {mapping : KeysymDesc} (mapped : mapKey mapping.keysym = some index)
    (found : keyboard.keysByKeysym index = some key) :
    WellKeyed (keyboard.addDefinition key mapping) where
  injective := by
    rw [addDefinition_keysByKeysym]
    exact well.injective
  inside := by
    rw [addDefinition_keysByKeysym, addDefinition_numKeys]
    exact well.inside
  covered := by
    rw [addDefinition_keysByKeysym, addDefinition_numKeys]
    exact well.covered
  placed := by
    intro other key' found' definition defined
    rw [addDefinition_keysByKeysym] at found'
    by_cases same : key' = key
    · subst same
      rw [well.injective found' found]
      rw [addDefinition_self] at defined
      split at defined
      · exact well.placed found definition defined
      · rcases List.mem_append.mp defined with old | new
        · exact well.placed found definition old
        · rw [List.mem_singleton.mp new]
          exact mapped
    · rw [addDefinition_of_ne same] at defined
      exact well.placed found' definition defined
  defined := by
    intro other key' found'
    rw [addDefinition_keysByKeysym] at found'
    by_cases same : key' = key
    · subst same
      rw [addDefinition_self]
      split
      · exact well.defined found
      · exact List.append_ne_nil_of_right_ne_nil _ (List.cons_ne_nil _ _)
    · rw [addDefinition_of_ne same]
      exact well.defined found'
  fresh := by
    intro key' beyond
    rw [addDefinition_numKeys] at beyond
    have ne : key' ≠ key := Nat.ne_of_gt (Nat.lt_of_lt_of_le (well.inside found) beyond)
    rw [addDefinition_of_ne ne]
    exact well.fresh beyond

/-- The first definition for a keysym, at the next key. -/
theorem WellKeyed.addKey (well : WellKeyed keyboard) {index : Nat} {mapping : KeysymDesc}
    (mapped : mapKey mapping.keysym = some index) (missing : keyboard.keysByKeysym index = none) :
    WellKeyed ({ keyboard with
      numKeys := keyboard.numKeys + 1
      keysByKeysym := Function.update keyboard.keysByKeysym index
        (some keyboard.numKeys) }.addDefinition keyboard.numKeys mapping) := by
  have none_there : (keyboard.keys keyboard.numKeys).definitions = [] := well.fresh (Nat.le_refl _)
  have lookup : ∀ {other key : Nat},
      Function.update keyboard.keysByKeysym index (some keyboard.numKeys) other = some key →
        (other = index ∧ key = keyboard.numKeys)
          ∨ (key ≠ keyboard.numKeys ∧ keyboard.keysByKeysym other = some key) := by
    intro other key found
    by_cases same : other = index
    · subst same
      rw [Function.update_self] at found
      exact .inl ⟨rfl, (Option.some.inj found).symm⟩
    · rw [Function.update_of_ne same] at found
      exact .inr ⟨Nat.ne_of_lt (well.inside found), found⟩
  constructor
  case injective =>
    intro first second key left right
    rw [addDefinition_keysByKeysym] at left right
    rcases lookup left with ⟨rfl, rfl⟩ | ⟨old, left⟩
    · rcases lookup right with ⟨rfl, _⟩ | ⟨new, _⟩
      · rfl
      · exact absurd rfl new
    · rcases lookup right with ⟨_, new⟩ | ⟨_, right⟩
      · exact absurd new old
      · exact well.injective left right
  case inside =>
    intro other key found
    rw [addDefinition_keysByKeysym] at found
    rw [addDefinition_numKeys]
    rcases lookup found with ⟨_, rfl⟩ | ⟨_, found⟩
    · exact Nat.lt_succ_self _
    · exact Nat.lt_succ_of_lt (well.inside found)
  case covered =>
    intro key inside
    rw [addDefinition_numKeys] at inside
    rw [addDefinition_keysByKeysym]
    rcases Nat.lt_succ_iff_lt_or_eq.mp inside with old | rfl
    · obtain ⟨other, found⟩ := well.covered old
      refine ⟨other, ?_⟩
      have ne : other ≠ index := by
        rintro rfl
        rw [missing] at found
        cases found
      exact (Function.update_of_ne ne _ _).trans found
    · exact ⟨index, Function.update_self _ _ _⟩
  case placed =>
    intro other key found definition defined
    rw [addDefinition_keysByKeysym] at found
    rcases lookup found with ⟨rfl, rfl⟩ | ⟨old, found⟩
    · rw [addDefinition_self, none_there] at defined
      rw [List.mem_singleton.mp defined]
      exact mapped
    · rw [addDefinition_of_ne old] at defined
      exact well.placed found definition defined
  case defined =>
    intro other key found
    rw [addDefinition_keysByKeysym] at found
    rcases lookup found with ⟨rfl, rfl⟩ | ⟨old, found⟩
    · rw [addDefinition_self, none_there]
      exact List.cons_ne_nil _ _
    · rw [addDefinition_of_ne old]
      exact well.defined found
  case fresh =>
    intro key beyond
    rw [addDefinition_numKeys] at beyond
    rw [addDefinition_of_ne (Nat.ne_of_gt beyond)]
    exact well.fresh (Nat.le_of_succ_le beyond)

theorem WellKeyed.addMapping (well : WellKeyed keyboard) (mapping : KeysymDesc) :
    WellKeyed (keyboard.addMapping mapping) := by
  unfold Keyboard.addMapping
  cases mapped : mapKey mapping.keysym with
  | none => exact well
  | some index =>
      dsimp only
      cases found : keyboard.keysByKeysym index with
      | some key => exact well.addDefinition mapped found
      | none =>
          dsimp only
          split
          · exact well
          · exact well.addKey mapped found

theorem WellKeyed.addMappings (well : WellKeyed keyboard) (mappings : List KeysymDesc) :
    WellKeyed (keyboard.addMappings mappings) := by
  induction mappings generalizing keyboard with
  | nil => exact well
  | cons mapping mappings ih =>
      unfold Keyboard.addMappings
      split
      · exact well
      · exact ih (well.addMapping mapping)

theorem WellKeyed.loadKeymap (well : WellKeyed keyboard) (keymap : Keymap) :
    WellKeyed (keyboard.loadKeymap keymap) := by
  induction keymap with
  | root mapping => exact well.addMappings mapping
  | child parent mapping ih => exact ih.addMappings mapping

theorem wellKeyed_zeroed (connected : Bool) : WellKeyed (zeroed connected) where
  injective := nofun
  inside := nofun
  covered := fun inside => absurd inside (Nat.not_lt_zero _)
  placed := nofun
  defined := nofun
  fresh := fun _ => rfl

/-- The keys of every keymap are well keyed. -/
theorem wellKeyed_alloc (keymap : Keymap) (connected : Bool) :
    WellKeyed (alloc keymap connected) := (wellKeyed_zeroed connected).loadKeymap keymap

/-- A keyboard to which nothing has happened yet. -/
structure Untouched (connected : Bool) (keyboard : Keyboard) : Prop where
  connected : keyboard.connected = connected
  userPressedKeys : keyboard.userPressedKeys = 0
  sent : keyboard.sent = []
  pressed : ∀ key, (keyboard.keys key).pressed = none
  userPressed : ∀ key, (keyboard.keys key).userPressed = false

theorem Untouched.addDefinition {connected : Bool} (untouched : Untouched connected keyboard)
    (key : Nat) (mapping : KeysymDesc) :
    Untouched connected (keyboard.addDefinition key mapping) := by
  unfold Keyboard.addDefinition
  dsimp only
  split
  · exact untouched
  · refine ⟨untouched.connected, untouched.userPressedKeys, untouched.sent, fun other => ?_,
      fun other => ?_⟩
    all_goals
      by_cases same : other = key
      · subst same
        rw [setKey_self]
        first | exact untouched.pressed _ | exact untouched.userPressed _
      · rw [setKey_of_ne _ same]
        first | exact untouched.pressed _ | exact untouched.userPressed _

theorem Untouched.addMappings {connected : Bool} (untouched : Untouched connected keyboard)
    (mappings : List KeysymDesc) : Untouched connected (keyboard.addMappings mappings) := by
  have add : ∀ {keyboard : Keyboard} (mapping : KeysymDesc), Untouched connected keyboard →
      Untouched connected (keyboard.addMapping mapping) := by
    intro keyboard mapping untouched
    unfold Keyboard.addMapping
    split
    · exact untouched
    · split
      · exact untouched.addDefinition _ mapping
      · split
        · exact untouched
        · refine Untouched.addDefinition ?_ _ mapping
          exact ⟨untouched.connected, untouched.userPressedKeys, untouched.sent,
            untouched.pressed, untouched.userPressed⟩
  induction mappings generalizing keyboard with
  | nil => exact untouched
  | cons mapping mappings ih =>
      unfold Keyboard.addMappings
      split
      · exact untouched
      · exact ih (add mapping untouched)

theorem untouched_alloc (keymap : Keymap) (connected : Bool) :
    Untouched connected (alloc keymap connected) := by
  have zeros : Untouched connected (zeroed connected) :=
    ⟨rfl, rfl, rfl, fun _ => rfl, fun _ => rfl⟩
  unfold alloc
  induction keymap with
  | root mapping => exact zeros.addMappings mapping
  | child parent mapping ih => exact ih.addMappings mapping

end GuacNebula.Rdp.Keyboard
