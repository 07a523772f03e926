import GuacNebula.Lib.LinkedList
import GuacNebula.Lib.Run

/-! # Losslessness of a display

Whether updates are lossless is stored in the display and in the surface of each of its layers and
buffers. Layers and buffers are linked in a list of their own each, and newly allocated ones take
over what the display has stored. What was never initialised is not known.
-/

namespace GuacNebula.Common

open LinkedList

variable {Address : Type*}

/-- Whether updates are lossless, if it has been initialised. -/
abbrev Lossless := Option Int

/-- `guac_common_display_layer`, with the index of its layer and the losslessness of its surface. -/
structure DisplayLayer (Address : Type*) where
  layer : Int
  lossless : Lossless
  prev : Option Address
  next : Option Address

/-- `guac_common_display`, with the layers and buffers that are allocated. -/
structure CommonDisplay (Address : Type*) where
  lossless : Lossless
  defaultSurface : Lossless
  layers : Option Address
  buffers : Option Address
  memory : Memory Address (DisplayLayer Address)

/-- `guac_common_surface_alloc`. The surface is allocated with zeros. -/
def surfaceAlloc : Lossless := some 0

/-- `guac_common_display_alloc`. -/
def displayAlloc : CommonDisplay Address where
  lossless := none
  defaultSurface := surfaceAlloc
  layers := none
  buffers := none
  memory := fun _ => none

section Display

variable [DecidableEq Address]

/-- `guac_common_display_add_layer`, with the address of the new element: the head of the list
becomes that address, and this is the memory. -/
def addLayer (memory : Memory Address (DisplayLayer Address)) (head : Option Address)
    (address : Address) (layer : Int) (lossless : Lossless) :
    Option (Memory Address (DisplayLayer Address)) :=
  let memory : Memory Address (DisplayLayer Address) := Function.update memory address
    (some { layer := layer, lossless := lossless, prev := none, next := head })
  memory.modify head fun oldHead => { oldHead with prev := some address }

/-- `guac_common_display_remove_layer`: the head of the list, and the memory. -/
def removeLayer (memory : Memory Address (DisplayLayer Address)) (head : Option Address)
    (address : Address) : Option (Option Address × Memory Address (DisplayLayer Address)) := do
  let removed ← memory address
  let head := if removed.prev = none then removed.next else head
  let memory ← memory.modify removed.prev fun prev => { prev with next := removed.next }
  let removed ← memory address
  let memory ← memory.modify removed.next fun next => { next with prev := removed.prev }
  some (head, memory)

/-- The loop of `guac_common_display_set_lossless`, if it ends within so many turns. -/
def setLayersLossless (lossless : Int) :
    Nat → Option Address → Memory Address (DisplayLayer Address) →
      Option (Memory Address (DisplayLayer Address))
  | _, none, memory => some memory
  | 0, some _, _ => none
  | turns + 1, some current, memory => do
    let memory : Memory Address (DisplayLayer Address) ← memory.modify (some current) fun layer =>
      { layer with lossless := some lossless }
    setLayersLossless lossless turns (← memory current).next memory

namespace CommonDisplay

variable (display : CommonDisplay Address)

/-- `guac_common_display_set_lossless`. -/
def setLossless (turns : Nat) (lossless : Int) : Option (CommonDisplay Address) := do
  let memory ← setLayersLossless lossless turns display.layers display.memory
  some { display with
    lossless := some lossless
    memory := memory
    defaultSurface := some lossless }

/-- `guac_common_display_alloc_layer`, with the address and the index of the layer. -/
def allocLayer (address : Address) (layer : Int) : Option (CommonDisplay Address) := do
  let memory ← addLayer display.memory display.layers address layer display.lossless
  some { display with layers := some address, memory := memory }

/-- `guac_common_display_alloc_buffer`. -/
def allocBuffer (address : Address) (buffer : Int) : Option (CommonDisplay Address) := do
  let memory ← addLayer display.memory display.buffers address buffer display.lossless
  some { display with buffers := some address, memory := memory }

/-- `guac_common_display_free_layer`. -/
def freeLayer (address : Address) : Option (CommonDisplay Address) := do
  let (layers, memory) ← removeLayer display.memory display.layers address
  some { display with layers := layers, memory := Function.update memory address none }

/-- `guac_common_display_free_buffer`. -/
def freeBuffer (address : Address) : Option (CommonDisplay Address) := do
  let (buffers, memory) ← removeLayer display.memory display.buffers address
  some { display with buffers := buffers, memory := Function.update memory address none }

end CommonDisplay

end Display

/-- A call, with the addresses and indices of what it allocates or frees. -/
inductive DisplayCall (Address : Type*)
  | allocLayer (address : Address) (layer : Int)
  | allocBuffer (address : Address) (buffer : Int)
  | freeLayer (address : Address)
  | freeBuffer (address : Address)
  | setLossless (lossless : Int)

namespace DisplayCall

/-- The calls that a client makes: what it allocates is not allocated, layers have a positive index
and buffers a negative one, and what it frees it has allocated. -/
def Valid (memory : Memory Address (DisplayLayer Address)) : DisplayCall Address → Prop
  | allocLayer address layer => memory address = none ∧ 0 < layer
  | allocBuffer address buffer => memory address = none ∧ buffer < 0
  | freeLayer address => ∃ layer, memory address = some layer ∧ 0 < layer.layer
  | freeBuffer address => ∃ buffer, memory address = some buffer ∧ buffer.layer < 0
  | setLossless _ => True

instance Valid.decidable (memory : Memory Address (DisplayLayer Address)) :
    ∀ call : DisplayCall Address, Decidable (call.Valid memory)
  | allocLayer address layer => inferInstanceAs (Decidable (memory address = none ∧ 0 < layer))
  | allocBuffer address buffer => inferInstanceAs (Decidable (memory address = none ∧ buffer < 0))
  | freeLayer address =>
    inferInstanceAs (Decidable (∃ layer, layer ∈ memory address ∧ 0 < layer.layer))
  | freeBuffer address =>
    inferInstanceAs (Decidable (∃ buffer, buffer ∈ memory address ∧ buffer.layer < 0))
  | setLossless _ => isTrue trivial

/-- What was requested last, after a call. -/
def request (requested : Option Int) : DisplayCall Address → Option Int
  | setLossless lossless => some lossless
  | _ => requested

end DisplayCall

/-- The display after a call, whose loops end within so many turns. -/
def CommonDisplay.call [DecidableEq Address] (turns : Nat) (display : CommonDisplay Address) :
    DisplayCall Address → Option (CommonDisplay Address)
  | .allocLayer address layer => display.allocLayer address layer
  | .allocBuffer address buffer => display.allocBuffer address buffer
  | .freeLayer address => display.freeLayer address
  | .freeBuffer address => display.freeBuffer address
  | .setLossless lossless => display.setLossless turns lossless

/-- A display that has been called so often, and what was requested of it last. The display is
missing if something was accessed that is not allocated, or if a loop took more turns than there
were calls before. -/
structure DisplayRun (Address : Type*) where
  display : Option (CommonDisplay Address) := some displayAlloc
  requested : Option Int := none
  calls : Nat := 0

namespace DisplayRun

def step [DecidableEq Address] (run : DisplayRun Address) (call : DisplayCall Address) :
    DisplayRun Address where
  display := run.display.bind fun display => display.call run.calls call
  requested := call.request run.requested
  calls := run.calls + 1

/-- The call is one that a client makes. -/
def Valid (run : DisplayRun Address) (call : DisplayCall Address) : Prop :=
  ∀ display, run.display = some display → call.Valid display.memory

instance Valid.decidable (run : DisplayRun Address) (call : DisplayCall Address) :
    Decidable (run.Valid call) :=
  inferInstanceAs (Decidable (∀ display, display ∈ run.display → call.Valid display.memory))

/-- All layers and buffers have the same losslessness. -/
def Settled (memory : Memory Address (DisplayLayer Address)) (lossless : Int) : Prop :=
  ∀ address layer, memory address = some layer → layer.lossless = some lossless

/-- All surfaces have the same losslessness, which is the one that was requested last. -/
def Uniform (run : DisplayRun Address) : Prop :=
  ∃ display lossless, run.display = some display ∧
    (∀ requested, run.requested = some requested → lossless = requested) ∧
    display.defaultSurface = some lossless ∧ Settled display.memory lossless

/-- Nothing is allocated before the first request, and while there are buffers no other
losslessness is requested. -/
def Timely (run : DisplayRun Address) : DisplayCall Address → Prop
  | .allocLayer _ _ => run.requested ≠ none
  | .allocBuffer _ _ => run.requested ≠ none
  | .setLossless lossless => ∀ display, run.display = some display →
    (∃ address buffer, display.memory address = some buffer ∧ buffer.layer < 0) →
      run.requested = some lossless
  | _ => True

end DisplayRun

/-! ## Lists of layers -/

/-- The pointers of a layer. -/
def displayLinks : Links Address (DisplayLayer Address) where
  next := DisplayLayer.next
  back := DisplayLayer.prev

/-- What a layer is, wherever it is in its list. -/
def DisplayLayer.surface (layer : DisplayLayer Address) : Int × Lossless :=
  (layer.layer, layer.lossless)

/-- Removing a layer stores in the layers in front of it and behind it, and in the head. -/
theorem removeLayer_spec [DecidableEq Address] {memory : Memory Address (DisplayLayer Address)}
    {address : Address} {removed : DisplayLayer Address} (found : memory address = some removed)
    (near : ∀ other, removed.next = some other ∨ removed.prev = some other →
      other ≠ address ∧ (memory other).isSome) (head : Option Address) :
    ∃ modified, removeLayer memory head address =
        some (if removed.prev = none then removed.next else head, modified) ∧
      ∀ other, modified other = (memory other).map fun earlier => { earlier with
        next := if removed.prev = some other then removed.next else earlier.next
        prev := if removed.next = some other then removed.prev else earlier.prev } := by
  obtain ⟨first, modified, firstChanges⟩ := Memory.modify_spec
    (fun prev : DisplayLayer Address => { prev with next := removed.next }) fun other refers =>
      (near other (.inr refers)).2
  have still : first address = some removed := by
    rw [firstChanges, if_neg fun refers => (near address (.inr refers)).1 rfl, found]
  have allocated : ∀ other, removed.next = some other → (first other).isSome := by
    intro other refers
    rw [Memory.isSome_of_changes firstChanges]
    exact (near other (.inl refers)).2
  obtain ⟨second, modifiedAgain, changes⟩ := Memory.modify_spec
    (fun next : DisplayLayer Address => { next with prev := removed.prev }) allocated
  refine ⟨second, ?_, fun other => ?_⟩
  · simp only [removeLayer, found, modified, still, modifiedAgain, Option.bind_eq_bind,
      Option.bind_some]
  · rw [changes, firstChanges]
    cases memory other <;> split <;> split <;> rfl

/-- The layers of a list, whose indices are all of one kind. -/
structure Chained (memory : Memory Address (DisplayLayer Address)) (head : Option Address)
    (kind : Int → Prop) (ids : List Address) : Prop where
  listed : Listed displayLinks memory head ids
  kinds : ∀ id ∈ ids, ∃ layer, memory id = some layer ∧ kind layer.layer

/-- Apart from one layer, nothing has changed but how the layers of a list are linked. -/
structure Relinked (memory later : Memory Address (DisplayLayer Address)) (ids : List Address)
    (address : Address) : Prop where
  surface : ∀ other, other ≠ address →
    (later other).map DisplayLayer.surface = (memory other).map DisplayLayer.surface
  outside : ∀ other, other ≠ address → other ∉ ids → later other = memory other

namespace Chained

variable {memory later : Memory Address (DisplayLayer Address)} {head : Option Address}
  {kind : Int → Prop} {ids : List Address} {address : Address}

theorem congr (chained : Chained memory head kind ids)
    (same : ∀ id ∈ ids, later id = memory id) : Chained later head kind ids where
  listed := chained.listed.frame fun id member layer found =>
    ⟨layer, (same id member).trans found, rfl, rfl⟩
  kinds := fun id member => by
    rw [same id member]
    exact chained.kinds id member

/-- The kind of a layer is not changed by linking it otherwise. -/
theorem kind_of_surface {id : Address} (found : ∃ layer, memory id = some layer ∧ kind layer.layer)
    (same : (later id).map DisplayLayer.surface = (memory id).map DisplayLayer.surface) :
    ∃ layer, later id = some layer ∧ kind layer.layer := by
  obtain ⟨earlier, stands, holds⟩ := found
  rw [stands, Option.map_some] at same
  obtain ⟨layer, found, surface⟩ := Option.map_eq_some_iff.mp same
  have index : layer.layer = earlier.layer := congrArg Prod.fst surface
  exact ⟨layer, found, index ▸ holds⟩

variable [DecidableEq Address]

theorem add (chained : Chained memory head kind ids) (fresh : memory address = none)
    {layer : Int} (holds : kind layer) (lossless : Lossless) :
    ∃ later, addLayer memory head address layer lossless = some later ∧
      Chained later (some address) kind (address :: ids) ∧
      (later address).map DisplayLayer.surface = some (layer, lossless) ∧
      Relinked memory later ids address := by
  have different : ∀ other ∈ ids, other ≠ address := by
    rintro other member rfl
    exact absurd fresh (Option.isSome_iff_ne_none.mp (chained.listed.allocated member))
  obtain ⟨later, same, first, others⟩ := Memory.insert_modify
    ({ layer := layer, lossless := lossless, prev := none, next := head } : DisplayLayer Address)
    (fun oldHead => { oldHead with prev := some address }) fun other refers =>
      have member := chained.listed.head_mem refers
      ⟨different other member, chained.listed.allocated member⟩
  have surface : ∀ other, other ≠ address →
      (later other).map DisplayLayer.surface = (memory other).map DisplayLayer.surface := by
    intro other apart
    rw [others other apart]
    split
    · exact Option.map_map ..
    · rfl
  refine ⟨later, same, ⟨?_, ?_⟩, by rw [first]; rfl, surface, fun other apart absent => ?_⟩
  · refine chained.listed.push (fun member => different address member rfl)
      ⟨_, first, rfl, rfl⟩ fun other member earlier found => ?_
    rw [others other (different other member), found]
    split
    · exact ⟨_, rfl, rfl, rfl⟩
    · exact ⟨_, rfl, rfl, rfl⟩
  · rintro id (_ | ⟨_, member⟩)
    · exact ⟨_, first, holds⟩
    · exact kind_of_surface (chained.kinds id member) (surface id (different id member))
  · rw [others other apart, if_neg fun refers => absent (chained.listed.head_mem refers)]

theorem remove (chained : Chained memory head kind ids) (member : address ∈ ids) :
    ∃ newHead modified, removeLayer memory head address = some (newHead, modified) ∧
      let later := Function.update modified address none
      Chained later newHead kind (ids.erase address) ∧ Relinked memory later ids address := by
  obtain ⟨removed, found⟩ := Option.isSome_iff_exists.mp (chained.listed.allocated member)
  have near : ∀ other, removed.next = some other ∨ removed.prev = some other →
      other ∈ ids ∧ other ≠ address :=
    fun other refers => chained.listed.neighbour member found refers
  obtain ⟨modified, same, changes⟩ := removeLayer_spec found (fun other refers =>
    ⟨(near other refers).2, chained.listed.allocated (near other refers).1⟩) head
  have others : ∀ other, other ≠ address → Function.update modified address none other = _ :=
    fun other different => (Function.update_of_ne different ..).trans (changes other)
  refine ⟨_, modified, same, ⟨?_, ?_⟩, ⟨?_, ?_⟩⟩
  · refine chained.listed.unlink member found fun other _ different earlier stands => ?_
    rw [others other different, stands]
    exact ⟨_, rfl, rfl, rfl⟩
  · intro id kept
    obtain ⟨different, listed⟩ := chained.listed.nodup.mem_erase_iff.mp kept
    obtain ⟨layer, stands, holds⟩ := chained.kinds id listed
    rw [others id different, stands]
    exact ⟨_, rfl, holds⟩
  · intro other different
    rw [others other different]
    exact Option.map_map ..
  · intro other different absent
    have noPrev : removed.prev ≠ some other := fun refers => absent (near other (.inr refers)).1
    have noNext : removed.next ≠ some other := fun refers => absent (near other (.inl refers)).1
    rw [others other different]
    simp only [if_neg noPrev, if_neg noNext]
    exact congrFun Option.map_id _

/-- From each layer on, the layers behind are set, and the loop ends. -/
theorem set_behind (lossless : Int) (behind : List Address) :
    ∀ front memory, Listed displayLinks memory head ids → ids = front ++ behind →
      ∀ turns, behind.length ≤ turns →
        ∃ later, setLayersLossless lossless turns behind.head? memory = some later ∧
          ∀ id, later id = if id ∈ behind
            then (memory id).map fun layer => { layer with lossless := some lossless }
            else memory id := by
  induction behind with
  | nil =>
    intro front memory _ _ turns _
    exact ⟨memory, by cases turns <;> rfl, fun _ => rfl⟩
  | cons current behind continued =>
    intro front memory listed split turns enough
    obtain ⟨turns, rfl⟩ := Nat.exists_eq_add_of_le' (Nat.le_trans (Nat.succ_pos _) enough)
    obtain ⟨layer, found, next, -⟩ := listed.linked front current behind split
    have here : (memory current).isSome := by
      rw [found]
      rfl
    obtain ⟨changed, modified, changes⟩ := Memory.modify_spec
      (fun layer : DisplayLayer Address => { layer with lossless := some lossless })
      fun other (refers : some current = some other) => Option.some.inj refers ▸ here
    have listedChanged : Listed displayLinks changed head ids := by
      refine listed.frame fun id _ earlier stands => ?_
      rw [changes, stands]
      split
      · exact ⟨_, rfl, rfl, rfl⟩
      · exact ⟨_, rfl, rfl, rfl⟩
    obtain ⟨later, set, rest⟩ := continued (front ++ [current]) changed listedChanged
      (by rw [split, List.append_assoc, List.singleton_append]) turns
      (Nat.le_of_succ_le_succ enough)
    have last : current ∉ behind := by
      have nodup := split ▸ listed.nodup
      exact (List.nodup_cons.mp (List.nodup_append.mp nodup).2.1).1
    refine ⟨later, ?_, fun id => ?_⟩
    · rw [List.head?_cons, setLayersLossless, modified]
      change (changed current).bind _ = _
      rw [changes, if_pos rfl, found, Option.map_some, Option.bind_some,
        show layer.next = _ from next]
      exact set
    · rw [rest, changes]
      by_cases same : current = id
      · subst same
        rw [if_neg last, if_pos rfl, if_pos List.mem_cons_self]
      · simp only [List.mem_cons, if_neg (mt Option.some.inj same), Ne.symm same, false_or]

/-- Each layer of the list is set, and the loop ends. -/
theorem set (chained : Chained memory head kind ids) (lossless : Int) {turns : Nat}
    (enough : ids.length ≤ turns) :
    ∃ later, setLayersLossless lossless turns head memory = some later ∧
      ∀ id, later id = if id ∈ ids
        then (memory id).map fun layer => { layer with lossless := some lossless }
        else memory id := by
  rw [chained.listed.head]
  exact set_behind lossless ids [] memory chained.listed rfl turns enough

end Chained

/-! ## Both lists -/

/-- Each layer that is allocated is in one of two lists, whose indices are of different kinds. -/
structure Paired (memory : Memory Address (DisplayLayer Address)) (head otherHead : Option Address)
    (kind otherKind : Int → Prop) (ids others : List Address) : Prop where
  one : Chained memory head kind ids
  other : Chained memory otherHead otherKind others
  exclusive : ∀ index, kind index → ¬ otherKind index
  covered : ∀ id, (memory id).isSome → id ∈ ids ∨ id ∈ others

namespace Paired

variable {memory : Memory Address (DisplayLayer Address)} {head otherHead : Option Address}
  {kind otherKind : Int → Prop} {ids others : List Address} {address : Address}

theorem swap (paired : Paired memory head otherHead kind otherKind ids others) :
    Paired memory otherHead head otherKind kind others ids where
  one := paired.other
  other := paired.one
  exclusive := fun index holds wrong => paired.exclusive index wrong holds
  covered := fun id allocated => (paired.covered id allocated).symm

theorem mem (paired : Paired memory head otherHead kind otherKind ids others)
    (found : ∃ layer, memory address = some layer ∧ kind layer.layer) :
    address ∈ ids ∧ address ∉ others := by
  obtain ⟨layer, found, holds⟩ := found
  have absent : address ∉ others := by
    intro member
    obtain ⟨same, stands, wrong⟩ := paired.other.kinds address member
    obtain rfl : layer = same := Option.some.inj (found.symm.trans stands)
    exact paired.exclusive _ holds wrong
  exact ⟨(paired.covered address (by rw [found]; rfl)).resolve_right absent, absent⟩

theorem apart (paired : Paired memory head otherHead kind otherKind ids others)
    (member : address ∈ ids) : address ∉ others :=
  (paired.mem (paired.one.kinds address member)).2

theorem isSome_iff_of_surface {later : Memory Address (DisplayLayer Address)}
    (same : (later address).map DisplayLayer.surface = (memory address).map DisplayLayer.surface) :
    (later address).isSome = (memory address).isSome := by
  rw [← Option.isSome_map, same, Option.isSome_map]

variable [DecidableEq Address]

theorem add (paired : Paired memory head otherHead kind otherKind ids others)
    (fresh : memory address = none) {layer : Int} (holds : kind layer) (lossless : Lossless) :
    ∃ later, addLayer memory head address layer lossless = some later ∧
      Paired later (some address) otherHead kind otherKind (address :: ids) others ∧
      (later address).map DisplayLayer.surface = some (layer, lossless) ∧
      Relinked memory later ids address := by
  obtain ⟨later, same, chained, surface, relinked⟩ := paired.one.add fresh holds lossless
  refine ⟨later, same, ⟨chained, ?_, paired.exclusive, fun id allocated => ?_⟩, surface, relinked⟩
  · refine paired.other.congr fun id member => relinked.outside id ?_ (paired.swap.apart member)
    rintro rfl
    exact absurd fresh (Option.isSome_iff_ne_none.mp (paired.other.listed.allocated member))
  · by_cases new : id = address
    · exact .inl (new ▸ List.mem_cons_self)
    · rw [isSome_iff_of_surface (relinked.surface id new)] at allocated
      exact (paired.covered id allocated).imp_left (List.mem_cons_of_mem _)

theorem remove (paired : Paired memory head otherHead kind otherKind ids others)
    (found : ∃ layer, memory address = some layer ∧ kind layer.layer) :
    ∃ newHead modified, removeLayer memory head address = some (newHead, modified) ∧
      let later := Function.update modified address none
      Paired later newHead otherHead kind otherKind (ids.erase address) others ∧
      Relinked memory later ids address := by
  obtain ⟨member, absent⟩ := paired.mem found
  obtain ⟨newHead, modified, same, chained, relinked⟩ := paired.one.remove member
  refine ⟨newHead, modified, same, ⟨chained, ?_, paired.exclusive, fun id allocated => ?_⟩,
    relinked⟩
  · refine paired.other.congr fun id listed => relinked.outside id ?_ (paired.swap.apart listed)
    rintro rfl
    exact absent listed
  · have different : id ≠ address := by
      rintro rfl
      rw [Function.update_self] at allocated
      exact absurd allocated nofun
    rw [isSome_iff_of_surface (relinked.surface id different)] at allocated
    exact (paired.covered id allocated).imp_left (List.mem_erase_of_ne different).mpr

theorem set (paired : Paired memory head otherHead kind otherKind ids others) (lossless : Int)
    {turns : Nat} (enough : ids.length ≤ turns) :
    ∃ later, setLayersLossless lossless turns head memory = some later ∧
      Paired later head otherHead kind otherKind ids others ∧
      ∀ id, later id = if id ∈ ids
        then (memory id).map fun layer => { layer with lossless := some lossless }
        else memory id := by
  obtain ⟨later, same, changes⟩ := paired.one.set lossless enough
  refine ⟨later, same, ⟨⟨?_, ?_⟩, ?_, paired.exclusive, fun id allocated => ?_⟩, changes⟩
  · refine paired.one.listed.frame fun id member layer found => ?_
    rw [changes, if_pos member, found]
    exact ⟨_, rfl, rfl, rfl⟩
  · intro id member
    obtain ⟨layer, found, holds⟩ := paired.one.kinds id member
    rw [changes, if_pos member, found]
    exact ⟨_, rfl, holds⟩
  · refine paired.other.congr fun id member => ?_
    rw [changes, if_neg (paired.swap.apart member)]
  · refine paired.covered id ?_
    rw [changes] at allocated
    split at allocated
    · rwa [Option.isSome_map] at allocated
    · exact allocated

end Paired

namespace CommonDisplay

variable [DecidableEq Address] {display : CommonDisplay Address} {address : Address} {index : Int}
  {head : Option Address} {memory : Memory Address (DisplayLayer Address)}

theorem allocLayer_eq
    (added : addLayer display.memory display.layers address index display.lossless = some memory) :
    display.allocLayer address index =
      some { display with layers := some address, memory := memory } := by
  rw [allocLayer, added]
  rfl

theorem allocBuffer_eq
    (added : addLayer display.memory display.buffers address index display.lossless = some memory) :
    display.allocBuffer address index =
      some { display with buffers := some address, memory := memory } := by
  rw [allocBuffer, added]
  rfl

theorem freeLayer_eq
    (removed : removeLayer display.memory display.layers address = some (head, memory)) :
    display.freeLayer address = some { display with
      layers := head, memory := Function.update memory address none } := by
  rw [freeLayer, removed]
  rfl

theorem freeBuffer_eq
    (removed : removeLayer display.memory display.buffers address = some (head, memory)) :
    display.freeBuffer address = some { display with
      buffers := head, memory := Function.update memory address none } := by
  rw [freeBuffer, removed]
  rfl

theorem setLossless_eq {turns : Nat} {value : Int}
    (set : setLayersLossless value turns display.layers display.memory = some memory) :
    display.setLossless turns value = some { display with
      lossless := some value, memory := memory, defaultSurface := some value } := by
  rw [setLossless, set]
  rfl

end CommonDisplay

/-! ## Runs -/

namespace DisplayRun

section Settled

variable {memory later : Memory Address (DisplayLayer Address)} {ids : List Address}
  {address : Address} {lossless : Int}

/-- A layer whose surface is known has its losslessness. -/
theorem lossless_of_surface {index : Int} {known : Lossless} {layer : DisplayLayer Address}
    (surface : (memory address).map DisplayLayer.surface = some (index, known))
    (found : memory address = some layer) : layer.lossless = known := by
  rw [found, Option.map_some, Option.some_inj] at surface
  exact congrArg Prod.snd surface

theorem Settled.relinked (settled : Settled memory lossless)
    (relinked : Relinked memory later ids address)
    (here : ∀ layer, later address = some layer → layer.lossless = some lossless) :
    Settled later lossless := by
  intro other layer found
  by_cases same : other = address
  · exact here layer (same ▸ found)
  · have surface := relinked.surface other same
    rw [found, Option.map_some] at surface
    obtain ⟨earlier, stands, shared⟩ := Option.map_eq_some_iff.mp surface.symm
    exact (congrArg Prod.snd shared).symm.trans (settled other earlier stands)

end Settled

/-- The display is there, with its lists. -/
def Sound (run : DisplayRun Address) : Prop :=
  ∃ display layers buffers, run.display = some display ∧ display.lossless = run.requested ∧
    Paired display.memory display.layers display.buffers (0 < ·) (· < 0) layers buffers ∧
    layers.length ≤ run.calls ∧ (run.requested = none → layers = [] ∧ buffers = [])

theorem sound_start : ({} : DisplayRun Address).Sound := by
  refine ⟨displayAlloc, [], [], rfl, rfl, ⟨⟨.nil _ _, ?_⟩, ⟨.nil _ _, ?_⟩, ?_, ?_⟩, Nat.le_refl 0,
    fun _ => ⟨rfl, rfl⟩⟩
  · exact fun _ wrong => absurd wrong List.not_mem_nil
  · exact fun _ wrong => absurd wrong List.not_mem_nil
  · exact fun _ positive negative => Int.lt_irrefl 0 (Int.lt_trans positive negative)
  · exact fun _ wrong => absurd wrong Bool.false_ne_true

theorem uniform_start : ({} : DisplayRun Address).Uniform :=
  ⟨displayAlloc, 0, rfl, fun _ wrong => absurd wrong.symm (Option.some_ne_none _), rfl,
    fun _ _ wrong => absurd wrong.symm (Option.some_ne_none _)⟩

/-! One call on a display whose surfaces are uniform. -/

section Calls

variable {run next : DisplayRun Address} {display later : CommonDisplay Address} {lossless : Int}
  {ids : List Address} {address : Address}

/-- An allocated layer takes over what was requested, and nothing before the first request. -/
theorem uniform_alloc_iff (agrees : ∀ requested, run.requested = some requested →
      lossless = requested) (stored : display.lossless = run.requested)
    (surface : display.defaultSurface = some lossless) (settled : Settled display.memory lossless)
    (called : next.display = some later) (request : next.requested = run.requested)
    (kept : later.defaultSurface = display.defaultSurface) {index : Int}
    (new : (later.memory address).map DisplayLayer.surface = some (index, display.lossless))
    (relinked : Relinked display.memory later.memory ids address) :
    next.Uniform ↔ run.requested ≠ none := by
  constructor
  · rintro ⟨same, setting, there, -, -, all⟩ never
    obtain rfl : later = same := Option.some.inj (called.symm.trans there)
    obtain ⟨layer, found, -⟩ := Option.map_eq_some_iff.mp new
    have unknown := lossless_of_surface new found
    rw [stored, never] at unknown
    exact absurd ((all address layer found).symm.trans unknown) (Option.some_ne_none _)
  · intro requested
    obtain ⟨value, last⟩ := Option.ne_none_iff_exists'.mp requested
    obtain rfl := agrees value last
    refine ⟨later, lossless, called, request ▸ agrees, kept.trans surface,
      settled.relinked relinked fun layer found => ?_⟩
    rw [lossless_of_surface new found, stored, last]

theorem uniform_free (agrees : ∀ requested, run.requested = some requested → lossless = requested)
    (surface : display.defaultSurface = some lossless) (settled : Settled display.memory lossless)
    (called : next.display = some later) (request : next.requested = run.requested)
    (kept : later.defaultSurface = display.defaultSurface) (freed : later.memory address = none)
    (relinked : Relinked display.memory later.memory ids address) : next.Uniform := by
  refine ⟨later, lossless, called, request ▸ agrees, kept.trans surface,
    settled.relinked relinked fun layer found => ?_⟩
  rw [freed] at found
  exact absurd found.symm (Option.some_ne_none layer)

/-- The default surface and the layers are set, and buffers keep what they have. -/
theorem uniform_set_iff [DecidableEq Address] {layers buffers : List Address}
    (agrees : ∀ requested, run.requested = some requested → lossless = requested)
    (settled : Settled display.memory lossless)
    (paired : Paired display.memory display.layers display.buffers (0 < ·) (· < 0) layers buffers)
    (started : run.requested = none → layers = [] ∧ buffers = []) {value : Int}
    (called : next.display = some later) (request : next.requested = some value)
    (surface : later.defaultSurface = some value)
    (changes : ∀ id, later.memory id = if id ∈ layers
      then (display.memory id).map fun layer => { layer with lossless := some value }
      else display.memory id) :
    next.Uniform ↔ ((∃ address buffer, display.memory address = some buffer ∧ buffer.layer < 0) →
      run.requested = some value) := by
  constructor
  · rintro ⟨same, setting, there, last, -, all⟩ ⟨address, buffer, found, negative⟩
    obtain rfl : later = same := Option.some.inj (called.symm.trans there)
    obtain ⟨member, absent⟩ := paired.swap.mem ⟨buffer, found, negative⟩
    have kept := (changes address).trans ((if_neg absent).trans found)
    have reached := (settled address buffer found).symm.trans (all address buffer kept)
    rw [last value request, Option.some_inj] at reached
    obtain ⟨requested, given⟩ := Option.ne_none_iff_exists'.mp fun never =>
      List.ne_nil_of_mem member (started never).2
    rw [given, ← agrees requested given, reached]
  · intro met
    refine ⟨later, value, called, fun requested last => ?_, surface, fun address layer found => ?_⟩
    · exact Option.some.inj (request.symm.trans last)
    · rw [changes] at found
      split at found
      · obtain ⟨earlier, -, rfl⟩ := Option.map_eq_some_iff.mp found
        rfl
      case isFalse absent =>
        have buffer := (paired.covered address (by rw [found]; rfl)).resolve_left absent
        obtain ⟨same, stands, negative⟩ := paired.other.kinds address buffer
        have last := met ⟨address, same, stands, negative⟩
        rw [settled address layer found, agrees value last]

end Calls

variable [DecidableEq Address]

theorem step_display {run : DisplayRun Address} {display later : CommonDisplay Address}
    (call : DisplayCall Address) (there : run.display = some display)
    (called : display.call run.calls call = some later) : (run.step call).display = some later := by
  rw [step, there, Option.bind_some, called]

/-- A call that a client makes keeps the surfaces uniform exactly if it is timely, and then it keeps
the lists. -/
theorem step_uniform_iff {run : DisplayRun Address} {call : DisplayCall Address}
    (valid : run.Valid call) (sound : run.Sound) (uniform : run.Uniform) :
    ((run.step call).Uniform ↔ run.Timely call) ∧
      ((run.step call).Uniform → (run.step call).Sound) := by
  obtain ⟨display, layers, buffers, there, stored, paired, enough, started⟩ := sound
  obtain ⟨same, lossless, there', agrees, surface, settled⟩ := uniform
  obtain rfl : display = same := Option.some.inj (there.symm.trans there')
  have allowed := valid display there
  cases call with
  | allocLayer address layer =>
    obtain ⟨memory, added, listed, new, relinked⟩ := paired.add allowed.1 allowed.2 display.lossless
    have called :=
      step_display (.allocLayer address layer) there (CommonDisplay.allocLayer_eq added)
    have precise := uniform_alloc_iff agrees stored surface settled called rfl rfl new relinked
    exact ⟨precise, fun uniform => ⟨_, address :: layers, buffers, called, stored, listed,
      Nat.succ_le_succ enough, fun never => absurd never (precise.mp uniform)⟩⟩
  | allocBuffer address buffer =>
    obtain ⟨memory, added, listed, new, relinked⟩ :=
      paired.swap.add allowed.1 allowed.2 display.lossless
    have called :=
      step_display (.allocBuffer address buffer) there (CommonDisplay.allocBuffer_eq added)
    have precise := uniform_alloc_iff agrees stored surface settled called rfl rfl new relinked
    exact ⟨precise, fun uniform => ⟨_, layers, address :: buffers, called, stored, listed.swap,
      Nat.le_succ_of_le enough, fun never => absurd never (precise.mp uniform)⟩⟩
  | freeLayer address =>
    obtain ⟨head, memory, removed, listed, relinked⟩ := paired.remove allowed
    have called := step_display (.freeLayer address) there (CommonDisplay.freeLayer_eq removed)
    have kept := uniform_free agrees surface settled called rfl rfl
      (Function.update_self ..) relinked
    refine ⟨iff_of_true kept trivial, fun _ => ⟨_, layers.erase address, buffers, called, stored,
      listed, ?_, fun never => ?_⟩⟩
    · exact Nat.le_succ_of_le (Nat.le_trans List.length_erase_le enough)
    · rw [(started never).1]
      exact ⟨rfl, (started never).2⟩
  | freeBuffer address =>
    obtain ⟨head, memory, removed, listed, relinked⟩ := paired.swap.remove allowed
    have called := step_display (.freeBuffer address) there (CommonDisplay.freeBuffer_eq removed)
    have kept := uniform_free agrees surface settled called rfl rfl
      (Function.update_self ..) relinked
    refine ⟨iff_of_true kept trivial, fun _ => ⟨_, layers, buffers.erase address, called, stored,
      listed.swap, Nat.le_succ_of_le enough, fun never => ?_⟩⟩
    rw [(started never).2]
    exact ⟨(started never).1, rfl⟩
  | setLossless value =>
    obtain ⟨memory, set, listed, changes⟩ := paired.set value enough
    have called := step_display (.setLossless value) there (CommonDisplay.setLossless_eq set)
    have precise := uniform_set_iff agrees settled paired started called rfl rfl changes
    refine ⟨precise.trans ⟨fun met same there' => ?_, fun met => met display there⟩, fun _ =>
      ⟨_, layers, buffers, called, rfl, listed, Nat.le_succ_of_le enough, fun never =>
        absurd never (Option.some_ne_none value)⟩⟩
    obtain rfl : display = same := Option.some.inj (there.symm.trans there')
    exact met

/-- After each request all surfaces have the losslessness that was requested, and the same one
before, exactly if nothing is allocated before the first request and no other losslessness is
requested while there are buffers. -/
theorem lossless_uniform_iff (calls : List (DisplayCall Address))
    (valid : Run.Guarded step Valid {} calls) :
    Run.Always step Uniform {} calls ↔ Run.Guarded step Timely {} calls :=
  valid.always_iff uniform_start sound_start
    (fun _ _ allowed sound uniform => (step_uniform_iff allowed sound uniform).2)
    fun _ _ allowed sound uniform => (step_uniform_iff allowed sound uniform).1

/-- A buffer keeps what was requested when it was allocated. -/
theorem not_lossless_uniform : ¬ ∀ calls : List (DisplayCall Nat),
    Run.Guarded step Valid {} calls → Run.Always step Uniform {} calls := by
  intro claimed
  have always := claimed [.setLossless 0, .allocBuffer 8 (-1), .setLossless 1] (by decide)
  obtain ⟨display, lossless, there, last, -, settled⟩ := always.last
  have buffer : display.memory 8 =
      some { layer := -1, lossless := some 0, prev := none, next := none } := by
    rw [← Option.bind_some (f := fun display : CommonDisplay Nat => display.memory 8), ← there]
    rfl
  have wrong := settled 8 _ buffer
  rw [last 1 rfl] at wrong
  exact absurd wrong (by decide)

/-- Lossless updates are requested before anything is allocated, and again while there is a
buffer. -/
theorem lossless_uniform_requested :
    Run.Always step Uniform ({} : DisplayRun Nat) [.setLossless 1, .allocLayer 8 1,
      .allocBuffer 16 (-1), .setLossless 1, .allocLayer 24 2, .freeBuffer 16] := by
  refine (lossless_uniform_iff _ (by decide)).mpr ⟨?_, ?_, ?_, ?_, ?_, trivial, trivial⟩
  · rintro display there ⟨address, buffer, found, -⟩
    obtain rfl := Option.some.inj there
    exact absurd found.symm (Option.some_ne_none buffer)
  · exact Option.some_ne_none 1
  · exact Option.some_ne_none 1
  · exact fun _ _ _ => rfl
  · exact Option.some_ne_none 1

end DisplayRun

end GuacNebula.Common
