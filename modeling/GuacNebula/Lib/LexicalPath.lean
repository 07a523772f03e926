import Mathlib.Algebra.GroupWithZero.Nat
import Mathlib.Data.List.Basic
import Mathlib.Tactic.SplitIfs

/-! # Paths resolved lexically

A path is read component by component: a name is one level deeper, `..` is one level up, and `.`
and the empty component are nothing. The reader does not ask a filesystem, and it does not go
above where it began. What it has read consists of names only, never takes more room than the path
itself, and is read back as it is when it is written as a path again.
-/

namespace GuacNebula.LexicalPath

variable {α : Type*}

/-- How a path is written: what separates its components, what may not occur in it, the dot of `.`
and `..`, and the number of levels it may reach. -/
structure Rules (α : Type*) where
  separates : α → Bool
  refuses : α → Bool
  dot : α
  maxDepth : Nat

/-- A component that is one level deeper. -/
structure IsName (rules : Rules α) (component : List α) : Prop where
  ne_nil : component ≠ []
  ne_current : component ≠ [rules.dot]
  ne_parent : component ≠ [rules.dot, rules.dot]
  plain : ∀ c ∈ component, rules.separates c = false ∧ rules.refuses c = false

/-- The room that names take, each with a separator. -/
def room (names : List (List α)) : Nat := (names.map fun name => name.length + 1).sum

@[simp] theorem room_nil : room ([] : List (List α)) = 0 := rfl

@[simp] theorem room_cons (name : List α) (names : List (List α)) :
    room (name :: names) = name.length + 1 + room names := rfl

theorem room_tail_le (names : List (List α)) : room names.tail ≤ room names := by
  cases names with
  | nil => exact Nat.le_refl _
  | cons name names =>
      rw [room_cons, List.tail_cons]
      omega

theorem room_reverse (names : List (List α)) : room names.reverse = room names := by
  rw [room, List.map_reverse, List.sum_reverse, room]

theorem room_append (front back : List (List α)) :
    room (front ++ back) = room front + room back := by
  rw [room, List.map_append, List.sum_append, room, room]

theorem room_replicate (count : Nat) (name : List α) :
    room (List.replicate count name) = count * (name.length + 1) := by
  rw [room, List.map_replicate, List.sum_replicate_nat]

/-- Names written one after the other take the room of all but one separator. -/
theorem length_intercalate (separator : α) (names : List (List α)) :
    ([separator].intercalate names).length = room names - 1 := by
  induction names with
  | nil => rfl
  | cons name names ih =>
      cases names with
      | nil => rw [List.intercalate_singleton, room_cons, room_nil, Nat.add_zero, Nat.add_sub_cancel]
      | cons next names =>
          rw [List.intercalate_cons_of_ne_nil (List.cons_ne_nil _ _), List.length_append,
            List.length_append, ih, List.length_singleton]
          simp only [room_cons]
          omega

/-- Between the names there are only separators. -/
theorem mem_intercalate {separator c : α} {names : List (List α)}
    (member : c ∈ [separator].intercalate names) : c = separator ∨ ∃ name ∈ names, c ∈ name := by
  induction names with
  | nil => cases member
  | cons name names ih =>
      cases names with
      | nil =>
          rw [List.intercalate_singleton] at member
          exact Or.inr ⟨name, List.mem_cons_self .., member⟩
      | cons next names =>
          rw [List.intercalate_cons_of_ne_nil (List.cons_ne_nil _ _)] at member
          rcases List.mem_append.mp member with front | rest
          · rcases List.mem_append.mp front with inside | between
            · exact Or.inr ⟨name, List.mem_cons_self .., inside⟩
            · exact Or.inl (List.mem_singleton.mp between)
          · exact (ih rest).imp_right fun ⟨other, found, inside⟩ =>
              ⟨other, List.mem_cons_of_mem _ found, inside⟩

/-- One more name comes behind one more separator. -/
theorem intercalate_concat (separator : α) {names : List (List α)} (some : names ≠ [])
    (name : List α) :
    [separator].intercalate (names ++ [name])
      = [separator].intercalate names ++ separator :: name := by
  induction names with
  | nil => exact absurd rfl some
  | cons first names ih =>
      cases names with
      | nil =>
          rw [List.singleton_append, List.intercalate_cons_cons, List.intercalate_singleton,
            List.intercalate_singleton, List.append_assoc, List.singleton_append]
      | cons next names =>
          rw [List.cons_append, List.intercalate_cons_of_ne_nil (by exact List.cons_ne_nil _ _),
            ih (List.cons_ne_nil _ _), List.intercalate_cons_of_ne_nil (List.cons_ne_nil _ _),
            List.append_assoc _ _ (separator :: name)]

/-- The pieces of a path take all of its room, and have no separator. -/
theorem splitOnP_pieces (separates : α → Bool) (path : List α) :
    room (path.splitOnP separates) = path.length + 1 ∧
      ∀ piece ∈ path.splitOnP separates, ∀ c ∈ piece, separates c = false := by
  induction path with
  | nil =>
      rw [List.splitOnP_nil]
      refine ⟨rfl, fun piece member => ?_⟩
      rw [List.mem_singleton.mp member]
      exact List.forall_mem_nil _
  | cons c path ih =>
      rw [List.splitOnP_cons_eq_if_modifyHead]
      split_ifs with separator
      · refine ⟨?_, fun piece member => ?_⟩
        · rw [room_cons, ih.1, List.length_nil, List.length_cons]
          omega
        · rcases List.mem_cons.mp member with rfl | member
          · exact List.forall_mem_nil _
          · exact ih.2 piece member
      · obtain ⟨first, others, split⟩ :=
          List.exists_cons_of_ne_nil (List.splitOnP_ne_nil separates path)
        rw [split] at ih ⊢
        rw [room_cons] at ih
        rw [List.modifyHead_cons, room_cons, List.length_cons, List.length_cons]
        refine ⟨by omega, fun piece member => ?_⟩
        rcases List.mem_cons.mp member with rfl | member
        · exact List.forall_mem_cons.mpr
            ⟨Bool.eq_false_iff.mpr separator, ih.2 first List.mem_cons_self⟩
        · exact ih.2 piece (List.mem_cons_of_mem _ member)

theorem room_dropLast_le (names : List (List α)) : room names.dropLast ≤ room names := by
  have split := room_append names.dropLast (names.drop (names.length - 1))
  rw [List.dropLast_eq_take, List.take_append_drop] at split
  rw [List.dropLast_eq_take]
  omega

theorem modifyHead_nil_append (pieces : List (List α)) :
    pieces.modifyHead ([] ++ ·) = pieces := by
  cases pieces <;> rfl

variable [DecidableEq α]

/-- What a complete component makes of the names read so far, the last one first. -/
def close (rules : Rules α) (names : List (List α)) (component : List α) :
    Option (List (List α)) :=
  if component = [rules.dot, rules.dot] then some names.tail
  else if component = [rules.dot] ∨ component = [] then some names
  else if names.length ≥ rules.maxDepth then none
  else some (component :: names)

/-- The names that the rest of a path leads to, `current` being the component begun already. The
end of the path closes the last component. -/
def scan (rules : Rules α) : List α → List α → List (List α) → Option (List (List α))
  | [], current, names => close rules names current
  | c :: rest, current, names =>
      if rules.separates c then (close rules names current).bind (scan rules rest [])
      else if rules.refuses c then none
      else scan rules rest (current ++ [c]) names

/-- The names that the components lead to which a separator ends. What comes after the last
separator is not read as a component. -/
def locate (rules : Rules α) : List α → List α → List (List α) → Option (List (List α))
  | [], _, names => some names
  | c :: rest, current, names =>
      if rules.separates c then (close rules names current).bind (locate rules rest [])
      else if rules.refuses c then none
      else locate rules rest (current ++ [c]) names

/-- What a component makes of a stack of names, the topmost one first: `..` pops one if there is
any, `.` and the empty component are ignored, and a name is pushed. -/
def resolve (dot : α) (stack : List (List α)) (component : List α) : List (List α) :=
  if component = [dot, dot] then stack.tail
  else if component = [dot] ∨ component = [] then stack
  else component :: stack

/-- The stack after components were processed from left to right. -/
def stacked (dot : α) (stack : List (List α)) (pieces : List (List α)) : List (List α) :=
  pieces.foldl (resolve dot) stack

/-- The nonempty components of a path written with one separator. -/
def components (separator : α) (path : List α) : List (List α) :=
  (path.splitOn separator).filter (· ≠ [])

/-- A path leads to where another one does, or below it. -/
def Below (separator : α) (root path : List α) : Prop :=
  components separator root <+: components separator path

section Scan

variable {rules : Rules α} {names found : List (List α)}

/-- Closing a component leaves only names, and what they take has room in the components. -/
theorem close_names {component : List α} (closed : close rules names component = some found)
    (plain : ∀ c ∈ component, rules.separates c = false ∧ rules.refuses c = false)
    (allNames : ∀ name ∈ names, IsName rules name) :
    (∀ name ∈ found, IsName rules name) ∧ room found ≤ room names + component.length + 1 := by
  unfold close at closed
  split_ifs at closed with parent other deep
  · cases closed
    exact ⟨fun name member => allNames name (List.mem_of_mem_tail member),
      Nat.le_trans (room_tail_le names) (by omega)⟩
  · cases closed
    exact ⟨allNames, by omega⟩
  · cases closed
    refine ⟨fun name member => ?_, by rw [room_cons]; omega⟩
    rcases List.mem_cons.mp member with rfl | member
    · exact ⟨fun empty => other (Or.inr empty), fun current => other (Or.inl current), parent,
        plain⟩
    · exact allNames name member

/-- A scan finds only names, and what they take has room in the path. -/
theorem scan_names {rest current : List α} (scanned : scan rules rest current names = some found)
    (plain : ∀ c ∈ current, rules.separates c = false ∧ rules.refuses c = false)
    (allNames : ∀ name ∈ names, IsName rules name) :
    (∀ name ∈ found, IsName rules name)
      ∧ room found ≤ room names + current.length + 1 + rest.length := by
  induction rest generalizing current names with
  | nil => exact close_names scanned plain allNames
  | cons c rest ih =>
      rw [scan] at scanned
      rw [List.length_cons]
      split_ifs at scanned with separator refused
      · obtain ⟨next, closed, scanned⟩ := Option.bind_eq_some_iff.mp scanned
        obtain ⟨allNext, fits⟩ := close_names closed plain allNames
        obtain ⟨allFound, fits'⟩ := ih scanned (List.forall_mem_nil _) allNext
        exact ⟨allFound, by rw [List.length_nil] at fits'; omega⟩
      · have longer : ∀ d ∈ current ++ [c], rules.separates d = false ∧ rules.refuses d = false := by
          intro d member
          rcases List.mem_append.mp member with member | member
          · exact plain d member
          · rw [List.mem_singleton.mp member]
            exact ⟨Bool.eq_false_iff.mpr separator, Bool.eq_false_iff.mpr refused⟩
        obtain ⟨allFound, fits⟩ := ih scanned longer allNames
        exact ⟨allFound, by rw [List.length_append, List.length_singleton] at fits; omega⟩

/-- A name is scanned up to the separator behind it. -/
theorem scan_name {name : List α} (isName : IsName rules name)
    (shallow : names.length < rules.maxDepth) {separator : α}
    (separates : rules.separates separator = true) (rest : List α) :
    scan rules (name ++ separator :: rest) [] names = scan rules rest [] (name :: names)
      ∧ scan rules name [] names = some (name :: names) := by
  have closed : close rules names name = some (name :: names) := by
    rw [close, if_neg isName.ne_parent,
      if_neg (not_or.mpr ⟨isName.ne_current, isName.ne_nil⟩), if_neg (by omega)]
  have read (tail : List α) : ∀ (front back : List α), name = front ++ back →
      scan rules (back ++ tail) front names = scan rules tail name names := by
    intro front back
    induction back generalizing front with
    | nil =>
        intro split
        rw [List.append_nil] at split
        rw [split, List.nil_append]
    | cons c back ih =>
        intro split
        obtain ⟨goesOn, allowed⟩ := isName.plain c
          (by rw [split]; exact List.mem_append_right _ (List.mem_cons_self ..))
        rw [List.cons_append, scan, if_neg (Bool.eq_false_iff.mp goesOn),
          if_neg (Bool.eq_false_iff.mp allowed)]
        exact ih (front ++ [c]) (by rw [split, List.append_assoc]; rfl)
  constructor
  · rw [read _ [] name rfl, scan, if_pos separates, closed]
    rfl
  · have whole := read [] [] name rfl
    rw [List.append_nil] at whole
    rw [whole, scan, closed]

/-- Names written one after the other are read back. -/
theorem scan_intercalate {separator : α} (separates : rules.separates separator = true)
    {written : List (List α)} (allNames : ∀ name ∈ written, IsName rules name)
    (shallow : names.length + written.length ≤ rules.maxDepth) :
    scan rules ([separator].intercalate written) [] names = some (written.reverse ++ names) := by
  induction written generalizing names with
  | nil =>
      rw [List.intercalate_nil, scan, close, if_neg (List.cons_ne_nil _ _).symm,
        if_pos (Or.inr rfl)]
      rfl
  | cons name written ih =>
      rw [List.length_cons] at shallow
      have isName := allNames name (List.mem_cons_self ..)
      have room : names.length < rules.maxDepth := by omega
      obtain ⟨followed, last⟩ := scan_name isName room separates ([separator].intercalate written)
      cases written with
      | nil =>
          rw [List.intercalate_singleton, last]
          rfl
      | cons next written =>
          rw [List.intercalate_cons_of_ne_nil (List.cons_ne_nil _ _), List.append_assoc,
            List.singleton_append, followed,
            ih (fun name member => allNames name (List.mem_cons_of_mem _ member))
              (by rw [List.length_cons]; omega)]
          simp only [List.reverse_cons, List.append_assoc, List.cons_append,
            List.nil_append]

/-- What follows a separator is scanned after what comes before it. -/
theorem scan_append {separator : α} (separates : rules.separates separator = true)
    (front rest current : List α) (names : List (List α)) :
    scan rules (front ++ separator :: rest) current names
      = (scan rules front current names).bind (scan rules rest []) := by
  induction front generalizing current names with
  | nil => rw [List.nil_append, scan, scan, if_pos separates]
  | cons c front ih =>
      rw [List.cons_append, scan, scan]
      split_ifs
      · rw [Option.bind_assoc]
        exact congrArg _ (funext fun next => ih [] next)
      · rfl
      · exact ih (current ++ [c]) names

/-- No path leads deeper than allowed. -/
theorem close_depth {component : List α} (closed : close rules names component = some found)
    (shallow : names.length ≤ rules.maxDepth) : found.length ≤ rules.maxDepth := by
  unfold close at closed
  split_ifs at closed with parent other deep
  · cases closed
    rw [List.length_tail]
    omega
  · cases closed
    exact shallow
  · cases closed
    rw [List.length_cons]
    omega

theorem scan_depth {rest current : List α} (scanned : scan rules rest current names = some found)
    (shallow : names.length ≤ rules.maxDepth) : found.length ≤ rules.maxDepth := by
  induction rest generalizing current names with
  | nil => exact close_depth scanned shallow
  | cons c rest ih =>
      rw [scan] at scanned
      split_ifs at scanned with separator refused
      · obtain ⟨next, closed, scanned⟩ := Option.bind_eq_some_iff.mp scanned
        exact ih scanned (close_depth closed shallow)
      · exact ih scanned shallow

/-- A component can be closed if the stack does not get higher than allowed. -/
theorem close_eq_some_iff {component : List α} (shallow : names.length ≤ rules.maxDepth) :
    close rules names component = some found ↔
      (resolve rules.dot names component).length ≤ rules.maxDepth ∧
        found = resolve rules.dot names component := by
  unfold close resolve
  split_ifs with parent other deep
  · rw [Option.some.injEq, List.length_tail]
    exact ⟨fun same => ⟨by omega, same.symm⟩, fun same => same.2.symm⟩
  · rw [Option.some.injEq]
    exact ⟨fun same => ⟨shallow, same.symm⟩, fun same => same.2.symm⟩
  · rw [List.length_cons]
    exact ⟨nofun, fun same => absurd same.1 (by omega)⟩
  · rw [Option.some.injEq, List.length_cons]
    exact ⟨fun same => ⟨by omega, same.symm⟩, fun same => same.2.symm⟩

/-- The components that are ended are the pieces between separators but for the last one. They are
located if nothing is met that is refused, and never more of them are stacked than allowed. The
induction is on the path, of which `current` is the beginning of the first piece. -/
theorem locate_eq_some_iff {rest current : List α} (shallow : names.length ≤ rules.maxDepth) :
    locate rules rest current names = some found ↔
      (∀ c ∈ rest, rules.separates c = false → rules.refuses c = false) ∧
        (∀ count, (stacked rules.dot names (((rest.splitOnP rules.separates).modifyHead
          (current ++ ·)).dropLast.take count)).length ≤ rules.maxDepth) ∧
        found = stacked rules.dot names
          ((rest.splitOnP rules.separates).modifyHead (current ++ ·)).dropLast := by
  induction rest generalizing current names with
  | nil =>
      rw [locate, List.splitOnP_nil, List.modifyHead_cons, List.dropLast_singleton,
        Option.some.injEq]
      exact ⟨fun same => ⟨List.forall_mem_nil _, fun count => by rwa [List.take_nil], same.symm⟩,
        fun all => all.2.2.symm⟩
  | cons c rest ih =>
      rw [locate, List.splitOnP_cons_eq_if_modifyHead, List.forall_mem_cons]
      split_ifs with separator refused
      · rw [List.modifyHead_cons, List.append_nil, Option.bind_eq_some_iff,
          List.dropLast_cons_of_ne_nil (List.splitOnP_ne_nil _ _)]
        constructor
        · rintro ⟨next, closed, scanned⟩
          obtain ⟨low, rfl⟩ := (close_eq_some_iff shallow).mp closed
          obtain ⟨plain, depths, same⟩ := (ih low).mp scanned
          rw [modifyHead_nil_append] at depths same
          refine ⟨⟨fun ordinary => absurd (separator.symm.trans ordinary) nofun, plain⟩,
            fun count => ?_, same⟩
          cases count with
          | zero => exact shallow
          | succ count => exact depths count
        · rintro ⟨⟨_, plain⟩, depths, same⟩
          have low := depths 1
          refine ⟨_, (close_eq_some_iff shallow).mpr ⟨low, rfl⟩, (ih low).mpr ⟨plain, ?_, ?_⟩⟩
          · intro count
            rw [modifyHead_nil_append]
            exact depths (count + 1)
          · rw [modifyHead_nil_append]
            exact same
      · have ordinary := Bool.eq_false_iff.mpr separator
        exact ⟨nofun, fun all => absurd ((all.1.1 ordinary).symm.trans refused) nofun⟩
      · have allowed := Bool.eq_false_iff.mpr refused
        rw [ih shallow, List.modifyHead_modifyHead]
        simp only [Function.comp_def, List.append_assoc, List.singleton_append]
        exact and_congr_left fun _ => ⟨fun plain => ⟨fun _ => allowed, plain⟩, fun plain => plain.2⟩

/-- The end of a path ends its last component as a separator would. -/
theorem scan_eq_locate {separator : α} (separates : rules.separates separator = true)
    (rest current : List α) (names : List (List α)) :
    scan rules rest current names = locate rules (rest ++ [separator]) current names := by
  induction rest generalizing current names with
  | nil =>
      rw [scan, List.nil_append, locate, if_pos separates]
      cases close rules names current <;> rfl
  | cons c rest ih =>
      rw [scan, List.cons_append, locate]
      split_ifs
      · exact congrArg _ (funext fun next => ih [] next)
      · rfl
      · exact ih (current ++ [c]) names

/-- A scan reads all the pieces. -/
theorem scan_eq_some_iff {separator : α} (separates : rules.separates separator = true)
    (path : List α) :
    scan rules path [] [] = some found ↔
      (∀ c ∈ path, rules.separates c = false → rules.refuses c = false) ∧
        (∀ count, (stacked rules.dot [] ((path.splitOnP rules.separates).take count)).length ≤
            rules.maxDepth) ∧
        found = stacked rules.dot [] (path.splitOnP rules.separates) := by
  rw [scan_eq_locate separates, locate_eq_some_iff (Nat.zero_le _), modifyHead_nil_append,
    List.splitOnP_append_cons _ _ separates, List.splitOnP_nil, List.dropLast_concat,
    List.forall_mem_append]
  refine and_congr_left fun _ => ⟨fun plain => plain.1, fun plain => ⟨plain, ?_⟩⟩
  intro c member ordinary
  rw [List.mem_singleton.mp member, separates] at ordinary
  exact absurd ordinary nofun

end Scan

section Stack

variable {dot : α}

/-- What is stacked are pieces that are not empty, and they take no more room than all pieces. -/
theorem stacked_pieces (stack pieces : List (List α)) :
    (∀ name ∈ stacked dot stack pieces, name ∈ stack ∨ name ∈ pieces ∧ name ≠ []) ∧
      room (stacked dot stack pieces) ≤ room stack + room pieces := by
  induction pieces generalizing stack with
  | nil => exact ⟨fun name member => Or.inl member, Nat.le_refl _⟩
  | cons piece pieces ih =>
      obtain ⟨members, fits⟩ := ih (resolve dot stack piece)
      have resolved : (∀ name ∈ resolve dot stack piece, name ∈ stack ∨ name = piece ∧ piece ≠ []) ∧
          room (resolve dot stack piece) ≤ room stack + (piece.length + 1) := by
        unfold resolve
        split_ifs with parent other
        · exact ⟨fun name member => Or.inl (List.mem_of_mem_tail member),
            Nat.le_trans (room_tail_le stack) (Nat.le_add_right _ _)⟩
        · exact ⟨fun name member => Or.inl member, Nat.le_add_right _ _⟩
        · refine ⟨fun name member => ?_, Nat.le_of_eq (by rw [room_cons, Nat.add_comm])⟩
          rcases List.mem_cons.mp member with rfl | member
          · exact Or.inr ⟨rfl, fun empty => other (Or.inr empty)⟩
          · exact Or.inl member
      constructor
      · intro name member
        rcases members name member with inside | ⟨inside, named⟩
        · rcases resolved.1 name inside with inside | ⟨rfl, named⟩
          · exact Or.inl inside
          · exact Or.inr ⟨List.mem_cons_self, named⟩
        · exact Or.inr ⟨List.mem_cons_of_mem _ inside, named⟩
      · have rest := resolved.2
        change room (stacked dot (resolve dot stack piece) pieces) ≤ _
        rw [room_cons]
        omega

end Stack

section Components

variable {separator : α}

theorem components_append (front back : List α) :
    components separator (front ++ separator :: back)
      = components separator front ++ components separator back := by
  rw [components, List.splitOn_append_cons_self, List.filter_append]
  rfl

theorem components_cons (path : List α) :
    components separator (separator :: path) = components separator path :=
  components_append [] path

/-- Names are the components of the path they are written as. -/
theorem components_intercalate {names : List (List α)}
    (written : ∀ name ∈ names, name ≠ [] ∧ separator ∉ name) :
    components separator ([separator].intercalate names) = names := by
  by_cases empty : names = []
  · rw [empty]
    rfl
  · rw [components, List.splitOn_intercalate separator (fun name member => (written name member).2)
      empty, List.filter_eq_self.mpr fun name member => decide_eq_true (written name member).1]

end Components

end GuacNebula.LexicalPath
