import GuacNebula.Lib.LinkedList
import GuacNebula.Lib.Run

/-! # Lists

An element refers to the next one, and back to the pointer that refers to it: the pointer to the
next one in another element, or the head of the list. Elements are removed through that pointer.
Whatever is not allocated cannot be accessed, and new elements are allocated where no element of the
list is.
-/

namespace GuacNebula.Common

open LinkedList

variable {Address Data : Type*}

/-- A place that holds a pointer to an element. -/
inductive Slot (Address : Type*)
  | head
  | next (element : Address)
  deriving DecidableEq, Repr

/-- The element that holds the pointer, unless it is the head. -/
def Slot.holder : Slot Address → Option Address
  | head => none
  | next element => some element

/-- The place in an element, or the head. -/
def Slot.ofHolder : Option Address → Slot Address
  | none => head
  | some element => next element

theorem Slot.ofHolder_holder (slot : Slot Address) : ofHolder slot.holder = slot := by
  cases slot <;> rfl

/-- `guac_common_list_element`. -/
structure ListElement (Address Data : Type*) where
  next : Option Address
  data : Data
  ptr : Slot Address

/-- `guac_common_list`, with the elements that are allocated. -/
structure CommonList (Address Data : Type*) where
  head : Option Address := none
  memory : Memory Address (ListElement Address Data) := fun _ => none

namespace CommonList

variable [DecidableEq Address] (list : CommonList Address Data)

/-- What a place holds. -/
def load : Slot Address → Option (Option Address)
  | .head => some list.head
  | .next element => (list.memory element).map ListElement.next

/-- A pointer is stored in a place. -/
def store (slot : Slot Address) (pointer : Option Address) : Option (CommonList Address Data) :=
  match slot with
  | .head => some { list with head := pointer }
  | .next element => do
    let memory ← list.memory.modify (some element) fun earlier => { earlier with next := pointer }
    some { list with memory := memory }

/-- `guac_common_list_add`, with the address of the new element. -/
def add (element : Address) (data : Data) : Option (CommonList Address Data) := do
  let memory : Memory Address (ListElement Address Data) :=
    Function.update list.memory element (some { next := list.head, data := data, ptr := .head })
  let memory ← memory.modify list.head fun head => { head with ptr := .next element }
  some { head := some element, memory := memory }

/-- `guac_common_list_remove`. -/
def remove (element : Address) : Option (CommonList Address Data) := do
  let list ← list.store (← list.memory element).ptr (← list.memory element).next
  let removed ← list.memory element
  let memory ← list.memory.modify removed.next fun next => { next with ptr := removed.ptr }
  some { list with memory := Function.update memory element none }

/-- The elements from a pointer on, with their data, if they end within so many turns. -/
def traverse : Nat → Option Address → Option (List (Address × Data))
  | _, none => some []
  | 0, some _ => none
  | turns + 1, some element => do
    let current ← list.memory element
    let others ← traverse turns current.next
    some ((element, current.data) :: others)

end CommonList

/-- The pointers of an element. -/
def elementLinks : Links Address (ListElement Address Data) where
  next := ListElement.next
  back := fun element => element.ptr.holder

/-- The list consists of the elements, which hold their data. -/
structure CommonList.Holds (list : CommonList Address Data) (elements : List (Address × Data)) :
    Prop where
  listed : Listed elementLinks list.memory list.head (elements.map Prod.fst)
  data : ∀ element ∈ elements, (list.memory element.1).map ListElement.data = some element.2

namespace CommonList.Holds

variable {list : CommonList Address Data} {elements : List (Address × Data)}

/-- From each element on, the traversal visits the elements behind, and ends. -/
theorem traverse_behind (holds : list.Holds elements) (behind : List (Address × Data)) :
    ∀ front, elements = front ++ behind → ∀ turns, behind.length ≤ turns →
      list.traverse turns (behind.map Prod.fst).head? = some behind := by
  induction behind with
  | nil =>
    intro front _ turns _
    cases turns <;> rfl
  | cons other behind visited =>
    intro front split turns enough
    obtain ⟨turns, rfl⟩ := Nat.exists_eq_add_of_le' (Nat.le_trans (Nat.succ_pos _) enough)
    obtain ⟨node, found, next, _⟩ := holds.listed.linked (front.map Prod.fst) other.1
      (behind.map Prod.fst) (by rw [split, List.map_append, List.map_cons])
    have data := holds.data other (split ▸ List.mem_append_right _ List.mem_cons_self)
    rw [found, Option.map_some, Option.some_inj] at data
    have rest := visited (front ++ [other]) (by rw [split, List.append_assoc]; rfl) turns
      (Nat.le_of_succ_le_succ enough)
    change (list.memory other.1).bind _ = _
    rw [found, Option.bind_some, show node.next = _ from next]
    change (list.traverse turns _).bind _ = _
    rw [rest, Option.bind_some, data]

/-- The traversal from the head visits the elements, and ends. -/
theorem traverse (holds : list.Holds elements) {turns : Nat} (enough : elements.length ≤ turns) :
    list.traverse turns list.head = some elements := by
  rw [holds.listed.head]
  exact holds.traverse_behind elements [] rfl turns enough

/-- The pointer back of each element is the place that refers to it. -/
theorem referred (holds : list.Holds elements) {front behind : List (Address × Data)}
    {element : Address × Data} (split : elements = front ++ element :: behind) :
    ∃ node, list.memory element.1 = some node ∧
      node.ptr = Slot.ofHolder (front.getLast?.map Prod.fst) ∧
      list.load node.ptr = some (some element.1) := by
  obtain ⟨node, found, -, back⟩ := holds.listed.linked (front.map Prod.fst) element.1
    (behind.map Prod.fst) (by rw [split, List.map_append, List.map_cons])
  have ptr : node.ptr = Slot.ofHolder (front.getLast?.map Prod.fst) := by
    rw [← Slot.ofHolder_holder node.ptr, ← List.getLast?_map]
    exact congrArg _ back
  refine ⟨node, found, ptr, ?_⟩
  rw [ptr]
  rcases List.eq_nil_or_concat front with rfl | ⟨front, before, rfl⟩
  · have first := holds.listed.head
    rw [split] at first
    exact congrArg some first
  · obtain ⟨previous, stands, next, -⟩ := holds.listed.linked (front.map Prod.fst) before.1
      ((element :: behind).map Prod.fst) (by simp [split])
    rw [List.concat_eq_append, List.getLast?_concat]
    change (list.memory before.1).map ListElement.next = _
    rw [stands]
    exact congrArg some next

end CommonList.Holds

/-- A call, with the address of the element that it adds or removes. -/
inductive ListCall (Address Data : Type*)
  | add (element : Address) (data : Data)
  | remove (element : Address)

section Calls

variable [DecidableEq Address]

/-- The list after a call. -/
def CommonList.call (list : CommonList Address Data) :
    ListCall Address Data → Option (CommonList Address Data)
  | .add element data => list.add element data
  | .remove element => list.remove element

/-- The elements after a call, the most recently added first. -/
def remaining (elements : List (Address × Data)) : ListCall Address Data → List (Address × Data)
  | .add element data => (element, data) :: elements
  | .remove element => elements.filter (·.1 ≠ element)

/-- New elements are allocated elsewhere, and only elements of the list are removed. -/
def ListCall.Valid (elements : List (Address × Data)) : ListCall Address Data → Prop
  | .add element _ => element ∉ elements.map Prod.fst
  | .remove element => element ∈ elements.map Prod.fst

instance ListCall.Valid.decidable (elements : List (Address × Data)) :
    ∀ call : ListCall Address Data, Decidable (call.Valid elements)
  | .add element _ => inferInstanceAs (Decidable (element ∉ elements.map Prod.fst))
  | .remove element => inferInstanceAs (Decidable (element ∈ elements.map Prod.fst))

namespace CommonList

variable {list : CommonList Address Data} {element : Address}

theorem store_spec {slot : Slot Address} (pointer : Option Address)
    (allocated : ∀ element, slot.holder = some element → (list.memory element).isSome) :
    ∃ stored, list.store slot pointer = some stored ∧
      stored.head = (if slot.holder = none then pointer else list.head) ∧
      ∀ element, stored.memory element =
        if slot.holder = some element
        then (list.memory element).map fun earlier => { earlier with next := pointer }
        else list.memory element := by
  cases slot with
  | head => exact ⟨_, rfl, rfl, fun _ => rfl⟩
  | next holder =>
    obtain ⟨memory, modified, changes⟩ :=
      Memory.modify_spec (fun earlier => { earlier with next := pointer }) allocated
    refine ⟨{ list with memory := memory }, ?_, rfl, changes⟩
    rw [store]
    change (list.memory.modify (Slot.next holder).holder _ >>= _) = _
    rw [modified]
    rfl

theorem add_spec (data : Data)
    (allocated : ∀ head, list.head = some head → head ≠ element ∧ (list.memory head).isSome) :
    ∃ added, list.add element data = some added ∧ added.head = some element ∧
      added.memory element = some { next := list.head, data := data, ptr := .head } ∧
      ∀ other, other ≠ element → added.memory other =
        if list.head = some other
        then (list.memory other).map fun head => { head with ptr := .next element }
        else list.memory other := by
  obtain ⟨memory, same, first, others⟩ := Memory.insert_modify
    ({ next := list.head, data := data, ptr := .head } : ListElement Address Data)
    (fun head => { head with ptr := .next element }) allocated
  refine ⟨{ head := some element, memory := memory }, ?_, rfl, first, others⟩
  rw [add]
  change (Memory.modify _ _ _ >>= _) = _
  rw [same]
  rfl

/-- Removing an element stores in the place that refers to it, and in the next element. -/
theorem remove_spec {removed : ListElement Address Data}
    (found : list.memory element = some removed)
    (before : ∀ other, removed.ptr.holder = some other →
      other ≠ element ∧ (list.memory other).isSome)
    (behind : ∀ other, removed.next = some other → other ≠ element ∧ (list.memory other).isSome) :
    ∃ rest, list.remove element = some rest ∧
      rest.head = (if removed.ptr.holder = none then removed.next else list.head) ∧
      ∀ other, other ≠ element → ∀ earlier, list.memory other = some earlier →
        rest.memory other = some {
          data := earlier.data
          next := if removed.ptr.holder = some other then removed.next else earlier.next
          ptr := if removed.next = some other then removed.ptr else earlier.ptr } := by
  obtain ⟨stored, same, head, changes⟩ := store_spec removed.next fun other holds =>
    (before other holds).2
  have still : stored.memory element = some removed := by
    rw [changes, if_neg fun wrong => (before element wrong).1 rfl, found]
  have allocated : ∀ other, removed.next = some other → (stored.memory other).isSome := by
    intro other follows
    rw [Memory.isSome_of_changes changes]
    exact (behind other follows).2
  obtain ⟨memory, modified, later⟩ := Memory.modify_spec
    (fun next : ListElement Address Data => { next with ptr := removed.ptr }) allocated
  refine ⟨{ head := stored.head, memory := Function.update memory element none }, ?_, head, ?_⟩
  · simp only [remove, found, same, still, modified, Option.bind_eq_bind, Option.bind_some]
  · intro other different earlier foundOther
    refine (Function.update_of_ne different ..).trans ((later other).trans ?_)
    rw [changes, foundOther]
    split <;> split <;> rfl

namespace Holds

variable {elements : List (Address × Data)}

theorem add (holds : list.Holds elements) (fresh : element ∉ elements.map Prod.fst) (data : Data) :
    ∃ added, list.add element data = some added ∧ added.Holds ((element, data) :: elements) := by
  have different : ∀ other ∈ elements.map Prod.fst, other ≠ element := by
    rintro other member rfl
    exact fresh member
  obtain ⟨added, same, head, first, others⟩ := add_spec data fun other first =>
    have member := holds.listed.head_mem first
    ⟨different other member, holds.listed.allocated member⟩
  refine ⟨added, same, ?_, ?_⟩
  · rw [head]
    refine holds.listed.push fresh ⟨_, first, rfl, rfl⟩ fun other member node found => ?_
    rw [others other (different other member), found]
    split
    · exact ⟨_, rfl, rfl, rfl⟩
    · exact ⟨_, rfl, rfl, rfl⟩
  · rintro other (_ | ⟨_, member⟩)
    · rw [first]
      rfl
    · have old := different other.1 (List.mem_map_of_mem member)
      rw [others other.1 old, ← holds.data other member]
      split
      · exact Option.map_map ..
      · rfl

theorem remove (holds : list.Holds elements) (member : element ∈ elements.map Prod.fst) :
    ∃ rest, list.remove element = some rest ∧
      rest.Holds (elements.filter (·.1 ≠ element)) := by
  obtain ⟨removed, found⟩ := Option.isSome_iff_exists.mp (holds.listed.allocated member)
  have near : ∀ other, removed.next = some other ∨ removed.ptr.holder = some other →
      other ≠ element ∧ (list.memory other).isSome := by
    intro other refers
    obtain ⟨listed, different⟩ := holds.listed.neighbour member found refers
    exact ⟨different, holds.listed.allocated listed⟩
  obtain ⟨rest, same, head, others⟩ := remove_spec found
    (fun other refers => near other (.inr refers)) (fun other refers => near other (.inl refers))
  refine ⟨rest, same, ?_, ?_⟩
  · have left : (elements.filter (·.1 ≠ element)).map Prod.fst =
        (elements.map Prod.fst).erase element := by
      rw [holds.listed.nodup.erase_eq_filter, List.filter_map]
      congr 2
      funext other
      rw [Function.comp_apply, decide_not, bne, Bool.beq_eq_decide_eq]
    rw [left, head]
    exact holds.listed.unlink member found fun other _ different earlier stands =>
      ⟨_, others other different earlier stands, rfl, apply_ite Slot.holder ..⟩
  · intro other kept
    obtain ⟨listed, different⟩ := List.mem_filter.mp kept
    have data := holds.data other listed
    obtain ⟨earlier, stands, same⟩ := Option.map_eq_some_iff.mp data
    rw [others other.1 (of_decide_eq_true different) earlier stands]
    exact congrArg some same

end Holds

end CommonList

/-- A valid call succeeds, and the list consists of the elements that remain. -/
theorem CommonList.Holds.call {list : CommonList Address Data} {elements : List (Address × Data)}
    (holds : list.Holds elements) {call : ListCall Address Data} (valid : call.Valid elements) :
    ∃ later, list.call call = some later ∧ later.Holds (remaining elements call) := by
  cases call with
  | add element data => exact holds.add valid data
  | remove element => exact holds.remove valid

theorem calls_holds {list : CommonList Address Data} {elements : List (Address × Data)}
    (holds : list.Holds elements) {calls : List (ListCall Address Data)}
    (valid : Run.Guarded remaining (fun elements call => call.Valid elements) elements calls) :
    ∃ later, calls.foldlM CommonList.call list = some later ∧
      later.Holds (Run.exec remaining elements calls) := by
  induction calls generalizing list elements with
  | nil => exact ⟨list, rfl, holds⟩
  | cons call calls continued =>
    obtain ⟨next, called, holds⟩ := holds.call valid.1
    obtain ⟨later, rest, holds⟩ := continued holds valid.2
    refine ⟨later, ?_, holds⟩
    rw [List.foldlM_cons, called]
    exact rest

/-- Whatever is added and removed in whichever order, the traversal from the head visits the
elements that remain, the most recently added first and each once, and the pointer back of each is
the place that refers to it. -/
theorem list_integrity (calls : List (ListCall Address Data))
    (valid : Run.Guarded remaining (fun elements call => call.Valid elements) [] calls) :
    ∃ list, calls.foldlM CommonList.call {} = some list ∧
      let elements := Run.exec remaining [] calls
      (elements.map Prod.fst).Nodup ∧
      (∀ turns, elements.length ≤ turns → list.traverse turns list.head = some elements) ∧
      ∀ front element behind, elements = front ++ element :: behind →
        ∃ node, list.memory element.1 = some node ∧
          node.ptr = Slot.ofHolder (front.getLast?.map Prod.fst) ∧
          list.load node.ptr = some (some element.1) := by
  have empty : CommonList.Holds ({} : CommonList Address Data) [] :=
    { listed := .nil _ _, data := fun _ wrong => absurd wrong List.not_mem_nil }
  obtain ⟨list, called, holds⟩ := calls_holds empty valid
  exact ⟨list, called, holds.listed.nodup, fun _ enough => holds.traverse enough,
    fun _ _ _ split => holds.referred split⟩

/-- The middle, the last and the first element are removed, and addresses are used again. -/
theorem list_integrity_reused :
    let calls : List (ListCall Nat Char) := [.add 8 'a', .add 16 'b', .add 24 'c', .remove 16,
      .add 16 'd', .remove 8, .remove 16, .add 8 'e']
    Run.exec remaining [] calls = [(8, 'e'), (24, 'c')] ∧
      ∃ list, calls.foldlM CommonList.call {} = some list ∧
        list.traverse 2 list.head = some [(8, 'e'), (24, 'c')] := by
  refine ⟨by decide, ?_⟩
  obtain ⟨list, called, -, traversed, -⟩ := list_integrity [ListCall.add 8 'a', .add 16 'b',
    .add 24 'c', .remove 16, .add 16 'd', .remove 8, .remove 16, .add 8 'e'] (by decide)
  exact ⟨list, called, traversed 2 (by decide)⟩

end Calls

end GuacNebula.Common
