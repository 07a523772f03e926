import GuacNebula.Rdp.KeyboardLayout
import Mathlib.Data.List.MinMax

/-! # The inheritance of keymaps

A keymap is loaded on top of its parent, so that the definitions of a keysym stand in the order of
the chain, those of the root first, as far as the key has space for them. The first one of the least
cost is chosen. So where a keymap has a definition that costs as much as one of its ancestors, it is
the ancestor's that is used.
-/

namespace GuacNebula.Rdp

/-- The mappings of an array, up to the keysym of zero. -/
def entries (mapping : List KeysymDesc) : List KeysymDesc := mapping.takeWhile (·.keysym ≠ 0)

/-- The mappings of a chain, in the order in which they are loaded. -/
def Keymap.mappings : Keymap → List KeysymDesc
  | .root mapping => entries mapping
  | .child parent mapping => parent.mappings ++ entries mapping

/-- How far a keymap is from the root of its chain. -/
def Keymap.level : Keymap → Nat
  | .root _ => 0
  | .child parent _ => parent.level + 1

/-- The definitions of a keysym in a chain, each with the level of the keymap that provides it. -/
def Keymap.provided (keysym : Int) : Keymap → List (Nat × KeysymDesc)
  | .root mapping => ((entries mapping).filter (·.keysym = keysym)).map (Prod.mk 0)
  | .child parent mapping => parent.provided keysym ++
      ((entries mapping).filter (·.keysym = keysym)).map (Prod.mk (parent.level + 1))

/-- The level that a definition is taken from. Of two that are the same the first one is taken,
since the second one is never cheaper. -/
def Keymap.source (keymap : Keymap) (keysym : Int) (definition : KeysymDesc) : Option Nat :=
  ((keymap.provided keysym).find? (·.2 = definition)).map Prod.fst

section Keymaps

variable (keymap : Keymap) (keysym : Int)

theorem Keymap.provided_level :
    ∀ entry ∈ keymap.provided keysym, entry.1 ≤ keymap.level := by
  induction keymap with
  | root mapping =>
      intro entry member
      obtain ⟨definition, _, rfl⟩ := List.mem_map.mp member
      exact Nat.le_refl _
  | child parent mapping ih =>
      intro entry member
      rcases List.mem_append.mp member with inherited | own
      · exact Nat.le_succ_of_le (ih entry inherited)
      · obtain ⟨definition, _, rfl⟩ := List.mem_map.mp own
        exact Nat.le_refl _

/-- The levels come in order. -/
theorem Keymap.provided_sorted :
    (keymap.provided keysym).Pairwise fun first second => first.1 ≤ second.1 := by
  have level (level : Nat) (definitions : List KeysymDesc) :
      (definitions.map (Prod.mk level)).Pairwise fun first second => first.1 ≤ second.1 :=
    List.pairwise_map.mpr (List.pairwise_of_forall fun _ _ => Nat.le_refl _)
  induction keymap with
  | root mapping => exact level _ _
  | child parent mapping ih =>
      refine List.pairwise_append.mpr ⟨ih, level _ _, fun first inherited second own => ?_⟩
      obtain ⟨definition, _, rfl⟩ := List.mem_map.mp own
      exact Nat.le_succ_of_le (parent.provided_level keysym first inherited)

theorem Keymap.provided_definitions :
    (keymap.provided keysym).map Prod.snd = keymap.mappings.filter (·.keysym = keysym) := by
  have own (level : Nat) (definitions : List KeysymDesc) :
      (definitions.map (Prod.mk level)).map Prod.snd = definitions := by
    rw [List.map_map]
    exact List.map_id _
  induction keymap with
  | root mapping => exact own _ _
  | child parent mapping ih =>
      rw [provided, List.map_append, ih, own, mappings, List.filter_append]

end Keymaps

namespace Keyboard

/-! ## Loading -/

variable {keyboard : Keyboard} {keymap : Keymap}

theorem addMappings_eq (mapping : List KeysymDesc) (keyboard : Keyboard) :
    keyboard.addMappings mapping = (entries mapping).foldl addMapping keyboard := by
  induction mapping generalizing keyboard with
  | nil => rfl
  | cons first mapping ih =>
      rw [addMappings, entries, List.takeWhile_cons]
      by_cases last : first.keysym = 0
      · rw [if_pos last, if_neg (by simpa using last)]
        rfl
      · rw [if_neg last, if_pos (by simpa using last), ih]
        rfl

theorem loadKeymap_eq (keymap : Keymap) :
    keyboard.loadKeymap keymap = keymap.mappings.foldl addMapping keyboard := by
  induction keymap with
  | root mapping => exact addMappings_eq mapping keyboard
  | child parent mapping ih =>
      rw [loadKeymap, ih, addMappings_eq, Keymap.mappings, List.foldl_append]

/-- Different keysyms are looked up in different places. -/
theorem mapKey_injective {first second : Int} {index : Nat} (left : mapKey first = some index)
    (right : mapKey second = some index) : first = second := by
  unfold mapKey at left right
  split_ifs at left right <;> cases left <;>
    have same := Option.some.inj right <;> omega

/-- What is known of the keys when mappings have been added: a key has the first of the definitions
of its keysym, and a keysym without a key has none, unless there are no more keys. -/
structure Loaded (mappings : List KeysymDesc) (keyboard : Keyboard) : Prop where
  well : WellKeyed keyboard
  found : ∀ {keysym : Int} {index key : Nat}, mapKey keysym = some index →
    keyboard.keysByKeysym index = some key →
      (keyboard.keys key).definitions =
        (mappings.filter (·.keysym = keysym)).take maxDefinitions
  missing : ∀ {keysym : Int} {index : Nat}, mapKey keysym = some index →
    keyboard.keysByKeysym index = none →
      mappings.filter (·.keysym = keysym) = [] ∨ keyboard.numKeys = maxKeysyms

/-- One more definition is kept if there is space for it. -/
theorem take_append_singleton {α : Type} (definitions : List α) (last : α) (most : Nat) :
    (definitions ++ [last]).take most =
      if (definitions.take most).length = most then definitions.take most
      else definitions.take most ++ [last] := by
  rw [List.length_take]
  split
  next full => rw [List.take_append_of_le_length (by omega)]
  next space =>
    have fits : (definitions ++ [last]).length ≤ most := by
      rw [List.length_append, List.length_singleton]
      omega
    rw [List.take_of_length_le fits, List.take_of_length_le (by omega)]

theorem filter_other {mappings : List KeysymDesc} {mapping : KeysymDesc} {keysym : Int}
    (ne : mapping.keysym ≠ keysym) :
    (mappings ++ [mapping]).filter (·.keysym = keysym) =
      mappings.filter (·.keysym = keysym) := by
  rw [List.filter_append, List.filter_cons_of_neg (by simpa using ne), List.filter_nil,
    List.append_nil]

theorem filter_own (mappings : List KeysymDesc) (mapping : KeysymDesc) :
    (mappings ++ [mapping]).filter (·.keysym = mapping.keysym) =
      mappings.filter (·.keysym = mapping.keysym) ++ [mapping] := by
  rw [List.filter_append, List.filter_cons_of_pos (by simp only [decide_true]), List.filter_nil]

/-- A definition that has a key is put behind those that it has. -/
theorem Loaded.addDefinition {mappings : List KeysymDesc} (loaded : Loaded mappings keyboard)
    {mapping : KeysymDesc} {index key : Nat} (mapped : mapKey mapping.keysym = some index)
    (found : keyboard.keysByKeysym index = some key) :
    Loaded (mappings ++ [mapping]) (keyboard.addDefinition key mapping) where
  well := loaded.well.addDefinition mapped found
  found := by
    intro keysym index' key' mapped' found'
    rw [addDefinition_keysByKeysym] at found'
    by_cases same : mapping.keysym = keysym
    · subst same
      obtain rfl := Option.some.inj (mapped.symm.trans mapped')
      obtain rfl := Option.some.inj (found.symm.trans found')
      rw [addDefinition_self, filter_own, take_append_singleton, loaded.found mapped found]
    · have different : key' ≠ key := by
        rintro rfl
        have sameIndex := loaded.well.injective found' found
        exact same (mapKey_injective mapped (sameIndex ▸ mapped'))
      rw [addDefinition_of_ne different, filter_other same]
      exact loaded.found mapped' found'
  missing := by
    intro keysym index' mapped' missing'
    rw [addDefinition_keysByKeysym] at missing'
    rw [addDefinition_numKeys]
    by_cases same : mapping.keysym = keysym
    · subst same
      obtain rfl := Option.some.inj (mapped.symm.trans mapped')
      rw [found] at missing'
      cases missing'
    · rw [filter_other same]
      exact loaded.missing mapped' missing'

/-- A definition that needs a key gets the next one. -/
theorem Loaded.addKey {mappings : List KeysymDesc} (loaded : Loaded mappings keyboard)
    {mapping : KeysymDesc} {index : Nat} (mapped : mapKey mapping.keysym = some index)
    (missing : keyboard.keysByKeysym index = none) (room : keyboard.numKeys ≠ maxKeysyms) :
    Loaded (mappings ++ [mapping]) ({ keyboard with
      numKeys := keyboard.numKeys + 1
      keysByKeysym := Function.update keyboard.keysByKeysym index
        (some keyboard.numKeys) }.addDefinition keyboard.numKeys mapping) where
  well := loaded.well.addKey mapped missing
  found := by
    intro keysym index' key' mapped' found'
    rw [addDefinition_keysByKeysym] at found'
    have empty : (keyboard.keys keyboard.numKeys).definitions = [] :=
      loaded.well.fresh (Nat.le_refl _)
    by_cases same : mapping.keysym = keysym
    · subst same
      obtain rfl := Option.some.inj (mapped.symm.trans mapped')
      dsimp only at found'
      rw [Function.update_self] at found'
      cases found'
      have first := (loaded.missing mapped missing).resolve_right room
      rw [addDefinition_self, filter_own, first, empty]
      rfl
    · have different : index' ≠ index := by
        rintro rfl
        exact same (mapKey_injective mapped mapped')
      dsimp only at found'
      rw [Function.update_of_ne different] at found'
      rw [addDefinition_of_ne (Nat.ne_of_lt (loaded.well.inside found')), filter_other same]
      exact loaded.found mapped' found'
  missing := by
    intro keysym index' mapped' missing'
    rw [addDefinition_keysByKeysym] at missing'
    by_cases same : mapping.keysym = keysym
    · subst same
      obtain rfl := Option.some.inj (mapped.symm.trans mapped')
      dsimp only at missing'
      rw [Function.update_self] at missing'
      cases missing'
    · have different : index' ≠ index := by
        rintro rfl
        exact same (mapKey_injective mapped mapped')
      dsimp only at missing'
      rw [Function.update_of_ne different] at missing'
      rw [filter_other same]
      exact Or.inl ((loaded.missing mapped' missing').resolve_right room)

theorem Loaded.addMapping {mappings : List KeysymDesc} (loaded : Loaded mappings keyboard)
    (mapping : KeysymDesc) : Loaded (mappings ++ [mapping]) (keyboard.addMapping mapping) := by
  have unchanged (without : ∀ {keysym : Int} {index : Nat}, mapKey keysym = some index →
      mapping.keysym = keysym →
        keyboard.keysByKeysym index = none ∧ keyboard.numKeys = maxKeysyms) :
      Loaded (mappings ++ [mapping]) keyboard :=
    { well := loaded.well
      found := by
        intro keysym index key mapped found
        by_cases same : mapping.keysym = keysym
        · rw [(without mapped same).1] at found
          cases found
        · rw [filter_other same]
          exact loaded.found mapped found
      missing := by
        intro keysym index mapped missing
        by_cases same : mapping.keysym = keysym
        · exact Or.inr (without mapped same).2
        · rw [filter_other same]
          exact loaded.missing mapped missing }
  unfold Keyboard.addMapping
  cases mapped : mapKey mapping.keysym with
  | none =>
      refine unchanged fun mapped' same => ?_
      rw [← same, mapped] at mapped'
      cases mapped'
  | some index =>
      dsimp only
      cases found : keyboard.keysByKeysym index with
      | some key => exact loaded.addDefinition mapped found
      | none =>
          dsimp only
          split
          next full =>
            refine unchanged fun mapped' same => ?_
            subst same
            obtain rfl := Option.some.inj (mapped.symm.trans mapped')
            exact ⟨found, full⟩
          next room => exact loaded.addKey mapped found room

/-- The keys of a chain have the first of the definitions that it provides. -/
theorem alloc_definitions {connected : Bool} {keysym : Int} {key : Nat}
    (found : (alloc keymap connected).getKey keysym = some key) :
    ((alloc keymap connected).keys key).definitions =
      ((keymap.provided keysym).take maxDefinitions).map Prod.snd := by
  have loaded (mappings added : List KeysymDesc) {keyboard : Keyboard}
      (loaded : Loaded mappings keyboard) :
      Loaded (mappings ++ added) (added.foldl Keyboard.addMapping keyboard) := by
    induction added generalizing mappings keyboard with
    | nil => rwa [List.append_nil]
    | cons mapping added ih =>
        rw [List.append_cons]
        exact ih _ (loaded.addMapping mapping)
  have empty : Loaded [] (zeroed connected) :=
    { well := wellKeyed_zeroed connected
      found := fun _ found => nomatch found
      missing := fun _ _ => Or.inl rfl }
  have whole := loaded [] keymap.mappings empty
  rw [List.nil_append, ← loadKeymap_eq] at whole
  obtain ⟨index, mapped, placed⟩ := Option.bind_eq_some_iff.mp found
  rw [List.map_take, Keymap.provided_definitions]
  exact whole.found mapped placed

/-! ## Choosing -/

/-- The definition of a key that is not held is the first one of the least cost. -/
theorem getDefinition_eq_argmin {key : Key} (released : key.pressed = none) :
    keyboard.getDefinition key = key.definitions.argmin keyboard.getCost := by
  have fold (best : KeysymDesc) (further : List KeysymDesc) :
      some (further.foldl (fun best definition =>
        if keyboard.getCost definition < keyboard.getCost best then definition else best) best) =
      (best :: further).argmin keyboard.getCost := by
    induction further using List.reverseRecOn with
    | nil => rfl
    | append_singleton further last ih =>
        rw [List.foldl_append, List.foldl_cons, List.foldl_nil, ← List.cons_append,
          List.argmin_concat, ← ih]
        dsimp only
        split <;> rfl
  unfold getDefinition
  rw [released]
  cases key.definitions with
  | nil => rfl
  | cons first further => exact fold first further

end Keyboard

/-- The first entry of the least cost has the lowest level of all that cost no more. -/
theorem argmin_entry {α : Type} [DecidableEq α] (cost : α → Nat) {entries : List (Nat × α)}
    (sorted : entries.Pairwise fun first second => first.1 ≤ second.1) {chosen : α}
    (least : chosen ∈ (entries.map Prod.snd).argmin cost) :
    ∃ entry, entries.find? (·.2 = chosen) = some entry ∧
      (∀ other ∈ entries, cost chosen ≤ cost other.2) ∧
      ∀ other ∈ entries, cost other.2 ≤ cost chosen → entry.1 ≤ other.1 := by
  induction entries generalizing chosen with
  | nil => cases least
  | cons first entries ih =>
      obtain ⟨ahead, rest⟩ := List.pairwise_cons.mp sorted
      rw [List.map_cons, List.argmin_cons] at least
      rcases found : (entries.map Prod.snd).argmin cost with _ | best
      · rw [found] at least
        cases least
        have alone : entries = [] := List.map_eq_nil_iff.mp (List.argmin_eq_none.mp found)
        subst alone
        exact ⟨first, List.find?_cons_of_pos (decide_eq_true rfl),
          List.forall_mem_singleton.mpr (Nat.le_refl _),
          List.forall_mem_singleton.mpr fun _ => Nat.le_refl _⟩
      · obtain ⟨entry, taken, cheapest, lowest⟩ := ih rest found
        rw [found] at least
        dsimp only at least
        split at least
        next cheaper =>
          cases least
          have different : first.2 ≠ chosen := by
            rintro rfl
            exact Nat.lt_irrefl _ cheaper
          refine ⟨entry, ?_, List.forall_mem_cons.mpr ⟨Nat.le_of_lt cheaper, cheapest⟩,
            List.forall_mem_cons.mpr ⟨fun dear => absurd dear (Nat.not_le_of_lt cheaper), lowest⟩⟩
          rw [List.find?_cons_of_neg (by simpa using different)]
          exact taken
        next dearer =>
          cases least
          exact ⟨first, List.find?_cons_of_pos (decide_eq_true rfl),
            List.forall_mem_cons.mpr ⟨Nat.le_refl _, fun other member =>
              Nat.le_trans (Nat.le_of_not_lt dearer) (cheapest other member)⟩,
            List.forall_mem_cons.mpr ⟨fun _ => Nat.le_refl _, fun other member _ =>
              ahead other member⟩⟩

namespace Keyboard

variable {keymap : Keymap} {keyboard : Keyboard} {keysym : Int} {key : Nat}

/-- No keymap that is more specific than the one that the definition is taken from provides one of
equal or lower cost. -/
def NotOverridden (keymap : Keymap) (keyboard : Keyboard) (keysym : Int)
    (definition : KeysymDesc) : Prop :=
  ∀ level ∈ keymap.source keysym definition, ∀ entry ∈ keymap.provided keysym, level < entry.1 →
    keyboard.getCost definition < keyboard.getCost entry.2

/-- The definition costs no more than those that the key has space for. -/
def NoDearer (keymap : Keymap) (keyboard : Keyboard) (keysym : Int) (definition : KeysymDesc) :
    Prop :=
  ∀ entry ∈ (keymap.provided keysym).take maxDefinitions,
    keyboard.getCost definition ≤ keyboard.getCost entry.2

/-- All definitions that cost no more than those that the key has space for are of one keymap. -/
def OneSource (keymap : Keymap) (keyboard : Keyboard) (keysym : Int) : Prop :=
  ∀ first ∈ keymap.provided keysym, ∀ second ∈ keymap.provided keysym,
    NoDearer keymap keyboard keysym first.2 → NoDearer keymap keyboard keysym second.2 →
      first.1 = second.1

/-- While a key is held, the definition that it is held under is kept, and otherwise there is one
keymap to choose from. -/
def Overrides (keymap : Keymap) (keyboard : Keyboard) (keysym : Int) (key : Key) : Prop :=
  match key.pressed with
  | some held => NotOverridden keymap keyboard keysym held
  | none => OneSource keymap keyboard keysym

/-- The chosen definition is taken from the lowest level of the definitions that cost no more. -/
theorem chosen_source {definition : KeysymDesc}
    (chosen : definition ∈ (((keymap.provided keysym).take maxDefinitions).map Prod.snd).argmin
      keyboard.getCost) :
    NoDearer keymap keyboard keysym definition ∧
      ∃ entry ∈ keymap.provided keysym, entry.2 = definition ∧
        keymap.source keysym definition = some entry.1 ∧
        ∀ other ∈ keymap.provided keysym, NoDearer keymap keyboard keysym other.2 →
          entry.1 ≤ other.1 := by
  have sorted := keymap.provided_sorted keysym
  obtain ⟨entry, taken, cheapest, lowest⟩ :=
    argmin_entry keyboard.getCost (sorted.sublist (List.take_sublist _ _)) chosen
  have inside := List.mem_of_find?_eq_some taken
  have same : entry.2 = definition := by simpa using List.find?_some taken
  refine ⟨cheapest, entry, List.mem_of_mem_take inside, same, ?_, fun other member noDearer => ?_⟩
  · rw [Keymap.source, ← List.take_append_drop maxDefinitions (keymap.provided keysym),
      List.find?_append, taken]
    rfl
  · rw [← List.take_append_drop maxDefinitions (keymap.provided keysym)] at sorted member
    rcases List.mem_append.mp member with front | back
    · exact lowest other front (same ▸ noDearer entry inside)
    · exact (List.pairwise_append.mp sorted).2.2 entry inside other back

/-- **Inheritance.** The definition of a key is never overridden by that of a more specific keymap
exactly if the key is held under such a definition, or all definitions that cost no more than the
cheapest of those that the key has space for are of one keymap. -/
theorem getDefinition_overrides_iff {connected : Bool}
    (layout : SameLayout (alloc keymap connected) keyboard)
    (found : keyboard.getKey keysym = some key) :
    (∀ definition ∈ keyboard.getDefinition (keyboard.keys key),
        NotOverridden keymap keyboard keysym definition) ↔
      Overrides keymap keyboard keysym (keyboard.keys key) := by
  unfold Overrides
  cases pressed : (keyboard.keys key).pressed with
  | some held =>
      have kept : keyboard.getDefinition (keyboard.keys key) = some held := by
        unfold getDefinition
        rw [pressed]
      rw [kept]
      exact ⟨fun all => all held rfl, fun override _ same => by cases same; exact override⟩
  | none =>
      have defined : (keyboard.keys key).definitions =
          ((keymap.provided keysym).take maxDefinitions).map Prod.snd := by
        rw [layout.definitions, alloc_definitions ((layout.getKey keysym).symm.trans found)]
      rw [getDefinition_eq_argmin pressed, defined]
      dsimp only
      constructor
      · intro all first memberFirst second memberSecond noDearerFirst noDearerSecond
        rcases chosen : (((keymap.provided keysym).take maxDefinitions).map Prod.snd).argmin
            keyboard.getCost with _ | definition
        · have none := List.map_eq_nil_iff.mp (List.argmin_eq_none.mp chosen)
          rcases List.take_eq_nil_iff.mp none with zero | empty
          · cases zero
          · rw [empty] at memberFirst
            cases memberFirst
        · obtain ⟨noDearer, entry, member, rfl, source, lowest⟩ := chosen_source chosen
          have level {other : Nat × KeysymDesc} (provided : other ∈ keymap.provided keysym)
              (cheap : NoDearer keymap keyboard keysym other.2) : other.1 = entry.1 := by
            refine Nat.le_antisymm (Nat.le_of_not_lt fun specific => ?_)
              (lowest other provided cheap)
            obtain ⟨loaded, inside, same⟩ := List.mem_map.mp (List.argmin_mem chosen)
            have dearer := all entry.2 chosen entry.1 source other provided specific
            have cheaper := cheap loaded inside
            rw [same] at cheaper
            exact Nat.not_le_of_lt dearer cheaper
          rw [level memberFirst noDearerFirst, level memberSecond noDearerSecond]
      · intro one definition chosen level source entry member specific
        obtain ⟨noDearer, own, provided, rfl, taken, lowest⟩ := chosen_source chosen
        cases source.symm.trans taken
        refine Nat.lt_of_not_le fun cheap => Nat.ne_of_lt specific ?_
        exact one own provided entry member noDearer fun other loaded =>
          Nat.le_trans cheap (noDearer other loaded)

/-- A definition of the sign for less than, which may need Shift. -/
def lessSign (scancode : Int) (shift : Bool) : KeysymDesc where
  keysym := 0x3C
  scancode := scancode
  flags := 0
  setModifiers := if shift then modifierShift else 0
  clearModifiers := 0
  setLocks := 0
  clearLocks := 0
  known := by cases shift <;> decide

/-- A keymap on top of one that has the sign on another key. -/
def lessKeymap (shift : Bool) : Keymap := .child (.root [lessSign 0x33 shift]) [lessSign 0x56 false]

/-- The definition of the child is chosen where it is cheaper. -/
theorem getDefinition_overrides_cheaper :
    (alloc (lessKeymap true) true).getKey 0x3C = some 0 ∧
      ∀ definition ∈ (alloc (lessKeymap true) true).getDefinition
          ((alloc (lessKeymap true) true).keys 0),
        NotOverridden (lessKeymap true) (alloc (lessKeymap true) true) 0x3C definition := by
  refine ⟨by decide,
    (getDefinition_overrides_iff ⟨rfl, rfl, fun _ => rfl⟩ (by decide)).mpr ?_⟩
  change OneSource _ _ _
  unfold OneSource NoDearer
  decide +kernel

/-- The definition of the parent is chosen where both cost the same. -/
theorem getDefinition_prefers_parent :
    ¬∀ (keymap : Keymap) (keyboard : Keyboard) (keysym : Int) (key : Nat),
      SameLayout (alloc keymap true) keyboard → keyboard.getKey keysym = some key →
        ∀ definition ∈ keyboard.getDefinition (keyboard.keys key),
          NotOverridden keymap keyboard keysym definition := by
  intro overrides
  have kept := overrides (lessKeymap false) (alloc (lessKeymap false) true) 0x3C 0
    ⟨rfl, rfl, fun _ => rfl⟩ (by decide) (lessSign 0x33 false) (by decide) 0 (by decide)
    (1, lessSign 0x56 false) (by decide) (by decide)
  exact absurd kept (by decide)

end Keyboard

end GuacNebula.Rdp
