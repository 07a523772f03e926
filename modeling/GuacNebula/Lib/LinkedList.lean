import Mathlib.Data.List.Nodup
import Mathlib.Logic.Function.Basic

/-! # Doubly linked lists in memory

A memory holds the nodes that are allocated, and a pointer that is null or refers to a node is an
optional identity. The nodes of a list refer to the next node, and back to the one in front of them;
what the pointer back of the first node stands for is left to the user of the list. The rules say
what an operation has to do to the nodes for the list to stay one.
-/

namespace GuacNebula.LinkedList

variable {Id Node : Type*}

/-- The nodes that are allocated. -/
abbrev Memory (Id Node : Type*) := Id → Option Node

namespace Memory

variable [DecidableEq Id]

/-- A node is changed, if the pointer to it is not null. The node has to be allocated. -/
def modify (memory : Memory Id Node) (pointer : Option Id) (change : Node → Node) :
    Option (Memory Id Node) :=
  match pointer with
  | none => some memory
  | some id => (memory id).map fun node => Function.update memory id (some (change node))

variable {memory : Memory Id Node}

/-- Nothing but the node that the pointer refers to is changed. -/
theorem modify_spec {pointer : Option Id} (change : Node → Node)
    (allocated : ∀ id, pointer = some id → (memory id).isSome) :
    ∃ changed, memory.modify pointer change = some changed ∧
      ∀ id, changed id = if pointer = some id then (memory id).map change else memory id := by
  cases pointer with
  | none => exact ⟨memory, rfl, fun _ => rfl⟩
  | some id =>
    obtain ⟨node, found⟩ := Option.isSome_iff_exists.mp (allocated id rfl)
    refine ⟨Function.update memory id (some (change node)), ?_, fun other => ?_⟩
    · rw [modify, found, Option.map_some]
    by_cases same : other = id
    · rw [same, Function.update_self, if_pos rfl, found, Option.map_some]
    · rw [Function.update_of_ne same, if_neg fun wrong => same (Option.some.inj wrong).symm]

/-- Changing a node does not free any. -/
theorem isSome_of_changes {later : Memory Id Node} {pointer : Option Id} {change : Node → Node}
    (changes : ∀ id, later id =
      if pointer = some id then (memory id).map change else memory id) (id : Id) :
    (later id).isSome = (memory id).isSome := by
  rw [changes]
  split
  · exact Option.isSome_map
  · rfl

/-- A node is allocated, and then another one is changed. -/
theorem insert_modify {pointer : Option Id} {id : Id} (node : Node) (change : Node → Node)
    (allocated : ∀ other, pointer = some other → other ≠ id ∧ (memory other).isSome) :
    ∃ changed : Memory Id Node,
      modify (Function.update memory id (some node)) pointer change = some changed ∧
      changed id = some node ∧ ∀ other, other ≠ id → changed other =
        if pointer = some other then (memory other).map change else memory other := by
  let inserted : Memory Id Node := Function.update memory id (some node)
  have elsewhere : ∀ other, other ≠ id → inserted other = memory other :=
    fun other different => Function.update_of_ne different ..
  have still : ∀ other, pointer = some other → (inserted other).isSome := by
    intro other refers
    obtain ⟨different, before⟩ := allocated other refers
    rwa [elsewhere other different]
  obtain ⟨changed, same, changes⟩ := modify_spec change still
  refine ⟨changed, same, ?_, fun other different => ?_⟩
  · rw [changes, if_neg fun refers => (allocated id refers).1 rfl]
    exact Function.update_self ..
  · rw [changes, elsewhere other different]

end Memory

/-- The pointers of a node. -/
structure Links (Id Node : Type*) where
  next : Node → Option Id
  back : Node → Option Id

/-- The nodes of a list are linked with one another, in their order. -/
structure Listed (links : Links Id Node) (memory : Memory Id Node) (head : Option Id)
    (ids : List Id) : Prop where
  nodup : ids.Nodup
  head : head = ids.head?
  linked : ∀ front id behind, ids = front ++ id :: behind →
    ∃ node, memory id = some node ∧ links.next node = behind.head? ∧
      links.back node = front.getLast?

namespace Listed

variable {links : Links Id Node} {memory changed : Memory Id Node} {head : Option Id}
  {ids : List Id} {id : Id}

theorem nil (links : Links Id Node) (memory : Memory Id Node) : Listed links memory none [] where
  nodup := List.nodup_nil
  head := rfl
  linked := fun _ _ _ wrong => absurd wrong.symm (List.append_ne_nil_of_right_ne_nil _ nofun)

theorem allocated (listed : Listed links memory head ids) (member : id ∈ ids) :
    (memory id).isSome := by
  obtain ⟨front, behind, split⟩ := List.append_of_mem member
  obtain ⟨node, found, _⟩ := listed.linked front id behind split
  rw [found]
  rfl

theorem head_mem (listed : Listed links memory head ids) (first : head = some id) : id ∈ ids :=
  List.mem_of_head? (listed.head ▸ first)

/-- The neighbours of a node are other nodes of the list. -/
theorem neighbour (listed : Listed links memory head ids) (member : id ∈ ids) {node : Node}
    (found : memory id = some node) {other : Id}
    (refers : links.next node = some other ∨ links.back node = some other) :
    other ∈ ids ∧ other ≠ id := by
  obtain ⟨front, behind, split⟩ := List.append_of_mem member
  obtain ⟨same, found', next, back⟩ := listed.linked front id behind split
  obtain rfl : node = same := Option.some.inj (found.symm.trans found')
  obtain ⟨-, inner, apart⟩ := List.nodup_append.mp (split ▸ listed.nodup)
  rw [next, back] at refers
  rcases refers with refers | refers
  · have following := List.mem_of_head? refers
    refine ⟨by simp [split, following], ?_⟩
    rintro rfl
    exact (List.nodup_cons.mp inner).1 following
  · have preceding := List.mem_of_getLast? refers
    exact ⟨by simp [split, preceding], apart other preceding id List.mem_cons_self⟩

/-- The list does not notice what leaves the pointers of its nodes alone. -/
theorem frame (listed : Listed links memory head ids)
    (kept : ∀ id ∈ ids, ∀ node, memory id = some node → ∃ later, changed id = some later ∧
      links.next later = links.next node ∧ links.back later = links.back node) :
    Listed links changed head ids where
  nodup := listed.nodup
  head := listed.head
  linked := by
    intro front id behind split
    obtain ⟨node, found, next, back⟩ := listed.linked front id behind split
    obtain ⟨later, stays, sameNext, sameBack⟩ := kept id (by simp [split]) node found
    exact ⟨later, stays, sameNext.trans next, sameBack.trans back⟩

/-- A node becomes the first one if it refers to the old head and the old head refers back to it. -/
theorem push [DecidableEq Id] (listed : Listed links memory head ids) (fresh : id ∉ ids)
    (first : ∃ node, changed id = some node ∧ links.next node = head ∧ links.back node = none)
    (others : ∀ other ∈ ids, ∀ node, memory other = some node → ∃ later,
      changed other = some later ∧ links.next later = links.next node ∧
        links.back later = if head = some other then some id else links.back node) :
    Listed links changed (some id) (id :: ids) where
  nodup := List.nodup_cons.mpr ⟨fresh, listed.nodup⟩
  head := rfl
  linked := by
    intro front other behind split
    cases front with
    | nil =>
      obtain ⟨rfl, rfl⟩ := List.cons_eq_cons.mp split
      obtain ⟨node, found, next, back⟩ := first
      exact ⟨node, found, next.trans listed.head, back⟩
    | cons start front =>
      obtain ⟨rfl, rest⟩ := List.cons_eq_cons.mp split
      obtain ⟨node, found, next, back⟩ := listed.linked front other behind rest
      obtain ⟨later, stays, sameNext, newBack⟩ := others other (by simp [rest]) node found
      refine ⟨later, stays, sameNext.trans next, newBack.trans ?_⟩
      rw [listed.head, back, rest]
      cases front with
      | nil => exact if_pos rfl
      | cons second front =>
        have distinct : second ≠ other := by
          rintro rfl
          exact absurd (rest ▸ listed.nodup) (by simp)
        exact if_neg fun wrong => distinct (Option.some.inj wrong)

/-- Where a list is put together from two, each element is one of the first or of the second. -/
theorem position_cases {front behind before after : List Id} {other : Id}
    (position : front ++ behind = before ++ other :: after) :
    (∃ part, front = before ++ other :: part ∧ after = part ++ behind) ∨
      ∃ part, before = front ++ part ∧ behind = part ++ other :: after := by
  rcases List.append_eq_append_iff.mp position with later | ⟨part, cut, rest⟩
  · exact .inr later
  · cases part with
    | nil => exact .inr ⟨[], by simpa using cut.symm, rest.symm⟩
    | cons first part =>
      obtain ⟨rfl, tail⟩ := List.cons_eq_cons.mp rest
      exact .inl ⟨part, cut, tail⟩

/-- The neighbours of a node refer to one another, and no other pointer is changed. -/
def Bypassed [DecidableEq Id] (links : Links Id Node) (memory changed : Memory Id Node)
    (ids : List Id) (id : Id) (node : Node) : Prop :=
  ∀ other ∈ ids, other ≠ id → ∀ earlier, memory other = some earlier → ∃ later,
    changed other = some later ∧
      links.next later = (if links.back node = some other then links.next node
        else links.next earlier) ∧
      links.back later = (if links.next node = some other then links.back node
        else links.back earlier)

section Unlink

variable [DecidableEq Id] {node : Node} {other : Id}

/-- A node in front of the one that is bypassed. -/
theorem bypassed_front {before part behind : List Id} (listed : Listed links memory head ids)
    (found : memory id = some node) (bypassed : Bypassed links memory changed ids id node)
    (split : ids = before ++ other :: part ++ id :: behind) :
    ∃ later, changed other = some later ∧ links.next later = (part ++ behind).head? ∧
      links.back later = before.getLast? := by
  obtain ⟨same, found', next, back⟩ := listed.linked (before ++ other :: part) id behind split
  obtain rfl : node = same := Option.some.inj (found.symm.trans found')
  obtain ⟨earlier, stands, nextOther, backOther⟩ :=
    listed.linked before other (part ++ id :: behind) (by rw [split]; simp)
  obtain ⟨outer, -, apart⟩ := List.nodup_append.mp (split ▸ listed.nodup)
  have different : other ≠ id := apart other (by simp) id List.mem_cons_self
  obtain ⟨later, stays, newNext, newBack⟩ :=
    bypassed other (by simp [split]) different earlier stands
  refine ⟨later, stays, newNext.trans ?_, newBack.trans ?_⟩
  · rw [next, back, nextOther]
    cases part with
    | nil => exact if_pos (by simp)
    | cons following part =>
      refine if_neg fun last => ?_
      have repeated : other ∈ following :: part := by
        refine List.mem_of_getLast? ?_
        rwa [List.getLast?_append_of_ne_nil _ (List.cons_ne_nil _ _),
          List.getLast?_cons_cons] at last
      exact (List.nodup_cons.mp (List.nodup_append.mp outer).2.1).1 repeated
  · rw [next, back, backOther]
    exact if_neg fun first =>
      apart other (by simp) other (List.mem_cons_of_mem _ (List.mem_of_head? first)) rfl

/-- A node behind the one that is bypassed. -/
theorem bypassed_behind {front part after : List Id} (listed : Listed links memory head ids)
    (found : memory id = some node) (bypassed : Bypassed links memory changed ids id node)
    (split : ids = front ++ id :: (part ++ other :: after)) :
    ∃ later, changed other = some later ∧ links.next later = after.head? ∧
      links.back later = (front ++ part).getLast? := by
  obtain ⟨same, found', next, back⟩ := listed.linked front id (part ++ other :: after) split
  obtain rfl : node = same := Option.some.inj (found.symm.trans found')
  obtain ⟨earlier, stands, nextOther, backOther⟩ :=
    listed.linked (front ++ id :: part) other after (by rw [split]; simp)
  obtain ⟨-, inner, apart⟩ := List.nodup_append.mp (split ▸ listed.nodup)
  have different : other ≠ id := by
    rintro rfl
    exact absurd inner (by simp)
  obtain ⟨later, stays, newNext, newBack⟩ :=
    bypassed other (by simp [split]) different earlier stands
  refine ⟨later, stays, newNext.trans ?_, newBack.trans ?_⟩
  · rw [next, back, nextOther]
    exact if_neg fun last => apart other (List.mem_of_getLast? last) other (by simp) rfl
  · rw [next, back, backOther]
    cases part with
    | nil => exact (if_pos (by simp)).trans (by simp)
    | cons preceding part =>
      have distinct : preceding ≠ other := by
        rintro rfl
        exact absurd inner (by simp)
      refine (if_neg fun first => distinct (Option.some.inj first)).trans ?_
      simp [List.getLast?_append]

/-- A node leaves the list if its neighbours refer to one another. -/
theorem unlink (listed : Listed links memory head ids) (member : id ∈ ids)
    (found : memory id = some node) (bypassed : Bypassed links memory changed ids id node) :
    Listed links changed (if links.back node = none then links.next node else head)
      (ids.erase id) := by
  obtain ⟨front, behind, split⟩ := List.append_of_mem member
  obtain ⟨same, found', next, back⟩ := listed.linked front id behind split
  obtain rfl : node = same := Option.some.inj (found.symm.trans found')
  have absent : id ∉ front := fun wrong =>
    (List.nodup_append.mp (split ▸ listed.nodup)).2.2 id wrong id List.mem_cons_self rfl
  have rest : ids.erase id = front ++ behind := by
    rw [split, List.erase_append_right _ absent, List.erase_cons_head]
  have head := listed.head
  rw [split] at head
  refine ⟨listed.nodup.erase id, ?_, fun before other after position => ?_⟩
  · rw [rest, next, back]
    cases front with
    | nil => exact if_pos rfl
    | cons start front => exact (if_neg (by simp)).trans head
  · rw [rest] at position
    rcases position_cases position with ⟨part, rfl, rfl⟩ | ⟨part, rfl, rfl⟩
    · exact listed.bypassed_front found bypassed split
    · exact listed.bypassed_behind found bypassed split

end Unlink

end Listed

end GuacNebula.LinkedList
