import Mathlib.Data.List.Induction
import Mathlib.Logic.Nontrivial.Basic
import Mathlib.Tactic.Contrapose

/-! # Simultaneous moves executed one block after another

A set of pending moves says for each place which place its value is to come from, all of the
sources being read before any place is written. A device that executes such moves in blocks,
one after another on the live store, gives the same result exactly when no block reads a place
that an earlier block has changed. `runAll_eq_gather_iff` is that equivalence.
-/

namespace GuacNebula.Moves

variable {Place Value : Type*}

/-- A block of moves: the place each written place takes its value from, and `none` for the
places the block leaves alone. -/
abbrev Block (Place : Type*) := Place → Option Place

/-- The place whose value a block leaves at `place`. -/
def Block.origin (block : Block Place) (place : Place) : Place := (block place).getD place

/-- Executing a block: every source is read before a place is written. -/
def Block.run (block : Block Place) (store : Place → Value) : Place → Value :=
  fun place => store (block.origin place)

/-- Executing the blocks of a list in order, each on the store the one before it left. -/
def runAll (blocks : List (Block Place)) (store : Place → Value) : Place → Value :=
  blocks.foldl (fun current block => block.run current) store

/-- The place from which `place` takes its value when all blocks read the initial store. -/
def gather (blocks : List (Block Place)) (place : Place) : Place :=
  (blocks.findSome? fun block => block place).getD place

/-- No place is written by two blocks. -/
def Disjoint (blocks : List (Block Place)) : Prop :=
  blocks.Pairwise fun earlier later => ∀ place, earlier place = none ∨ later place = none

/-- No block reads a place that an earlier one has written, unless it was written with its
own value. -/
def Undisturbed (blocks : List (Block Place)) : Prop :=
  blocks.Pairwise fun earlier later => ∀ place source, later place = some source →
    ∀ origin, earlier source = some origin → origin = source

/-- The place whose initial value the executed blocks leave at `place`. -/
def trace : List (Block Place) → Place → Place
  | [], place => place
  | block :: blocks, place => block.origin (trace blocks place)

theorem trace_append (first second : List (Block Place)) (place : Place) :
    trace (first ++ second) place = trace first (trace second place) := by
  induction first with
  | nil => rfl
  | cons block blocks ih => simp only [List.cons_append, trace, ih]

theorem runAll_eq_trace (blocks : List (Block Place)) (store : Place → Value) :
    runAll blocks store = fun place => store (trace blocks place) := by
  induction blocks generalizing store with
  | nil => rfl
  | cons block blocks ih =>
      change runAll blocks (block.run store) = _
      rw [ih]
      rfl

theorem Block.origin_of_none {block : Block Place} {place : Place} (untouched : block place = none) :
    block.origin place = place := by
  rw [Block.origin, untouched, Option.getD_none]

theorem Block.origin_of_some {block : Block Place} {place source : Place}
    (moved : block place = some source) : block.origin place = source := by
  rw [Block.origin, moved, Option.getD_some]

theorem trace_of_untouched {blocks : List (Block Place)} {place : Place}
    (untouched : ∀ block ∈ blocks, block place = none) : trace blocks place = place := by
  induction blocks with
  | nil => rfl
  | cons block blocks ih =>
      rw [trace, ih fun other member => untouched other (List.mem_cons_of_mem _ member)]
      exact Block.origin_of_none (untouched block List.mem_cons_self)

theorem gather_of_untouched {blocks : List (Block Place)} {place : Place}
    (untouched : ∀ block ∈ blocks, block place = none) : gather blocks place = place := by
  rw [gather, List.findSome?_eq_none_iff.mpr untouched, Option.getD_none]

/-- Among disjoint blocks the one that writes a place decides what it gathers. -/
theorem gather_of_mem {blocks : List (Block Place)} (disjoint : Disjoint blocks)
    {block : Block Place} (member : block ∈ blocks) {place source : Place}
    (moved : block place = some source) : gather blocks place = source := by
  induction blocks with
  | nil => cases member
  | cons first rest ih =>
      have apart := List.pairwise_cons.mp disjoint
      rcases List.mem_cons.mp member with rfl | later
      · simp only [gather, List.findSome?_cons, moved, Option.getD_some]
      · have untouched : first place = none := by
          rcases apart.1 block later place with none | none
          · exact none
          · rw [moved] at none
            cases none
        have rest := ih apart.2 later
        simpa only [gather, List.findSome?_cons, untouched] using rest

/-- Which place is traced is decided by the last block alone when the blocks before it left its
source in place. -/
theorem trace_concat (blocks : List (Block Place)) (last : Block Place) (place : Place) :
    trace (blocks ++ [last]) place = trace blocks (last.origin place) := by
  rw [trace_append]
  rfl

theorem disjoint_concat {blocks : List (Block Place)} {last : Block Place}
    (disjoint : Disjoint (blocks ++ [last])) :
    Disjoint blocks ∧ ∀ place, last place ≠ none → ∀ block ∈ blocks, block place = none := by
  obtain ⟨front, -, apart⟩ := List.pairwise_append.mp disjoint
  refine ⟨front, fun place written block member => ?_⟩
  rcases apart block member last (List.mem_singleton_self last) place with none | none
  · exact none
  · exact absurd none written

theorem gather_concat_of_none {blocks : List (Block Place)} {last : Block Place} {place : Place}
    (untouched : last place = none) : gather (blocks ++ [last]) place = gather blocks place := by
  simp only [gather, List.findSome?_append, List.findSome?_cons, untouched, List.findSome?_nil,
    Option.or_none]

/-- **Executed moves are the simultaneous ones** for every place, exactly when the blocks do not
disturb each other. -/
theorem trace_eq_gather_iff {blocks : List (Block Place)} (disjoint : Disjoint blocks) :
    (∀ place, trace blocks place = gather blocks place) ↔ Undisturbed blocks := by
  induction blocks using List.reverseRecOn with
  | nil => exact ⟨fun _ => List.Pairwise.nil, fun _ _ => rfl⟩
  | append_singleton blocks last ih =>
      obtain ⟨front, apart⟩ := disjoint_concat disjoint
      have written : ∀ place source, last place = some source →
          gather (blocks ++ [last]) place = source ∧
            trace (blocks ++ [last]) place = trace blocks source := by
        intro place source moved
        refine ⟨gather_of_mem disjoint (List.mem_append_right _ List.mem_cons_self) moved, ?_⟩
        rw [trace_concat, Block.origin_of_some moved]
      have unwritten : ∀ place, last place = none →
          gather (blocks ++ [last]) place = gather blocks place ∧
            trace (blocks ++ [last]) place = trace blocks place := by
        intro place untouched
        refine ⟨gather_concat_of_none untouched, ?_⟩
        rw [trace_concat, Block.origin_of_none untouched]
      constructor
      · intro traced
        have before : ∀ place, trace blocks place = gather blocks place := by
          intro place
          cases moved : last place with
          | none =>
              rw [← (unwritten place moved).1, ← (unwritten place moved).2]
              exact traced place
          | some source =>
              have untouched := apart place (by rw [moved]; exact Option.some_ne_none source)
              rw [trace_of_untouched untouched, gather_of_untouched untouched]
        refine List.pairwise_append.mpr
          ⟨(ih front).mp before, List.pairwise_singleton _ _, ?_⟩
        intro earlier member later isLast place source moved origin disturbed
        obtain rfl := List.mem_singleton.mp isLast
        have settled := traced place
        rw [(written place source moved).1, (written place source moved).2, before source,
          gather_of_mem front member disturbed] at settled
        exact settled
      · intro undisturbed place
        obtain ⟨earlier, -, against⟩ := List.pairwise_append.mp undisturbed
        have before := (ih front).mpr earlier
        cases moved : last place with
        | none =>
            rw [(unwritten place moved).1, (unwritten place moved).2]
            exact before place
        | some source =>
            rw [(written place source moved).1, (written place source moved).2, before source]
            by_cases touched : ∃ block ∈ blocks, block source ≠ none
            · obtain ⟨block, member, some⟩ := touched
              obtain ⟨origin, disturbed⟩ := Option.ne_none_iff_exists'.mp some
              rw [gather_of_mem front member disturbed]
              exact against block member last List.mem_cons_self place source moved origin disturbed
            · push Not at touched
              exact gather_of_untouched touched

/-- Two ways of filling a store from itself agree on every store exactly when they read the same
places. -/
theorem reads_eq_iff [Nontrivial Value] (left right : Place) :
    (∀ store : Place → Value, store left = store right) ↔ left = right := by
  classical
  constructor
  · intro same
    obtain ⟨a, b, distinct⟩ := exists_pair_ne Value
    by_contra differ
    have marked := same fun place => if place = left then a else b
    rw [if_pos rfl, if_neg (Ne.symm differ)] at marked
    exact distinct marked
  · intro equal store
    rw [equal]

/-- Moves that do not disturb each other are executed as if all sources were read first. -/
theorem runAll_of_undisturbed {blocks : List (Block Place)} (disjoint : Disjoint blocks)
    (undisturbed : Undisturbed blocks) (store : Place → Value) :
    runAll blocks store = fun place => store (gather blocks place) := by
  rw [runAll_eq_trace]
  funext place
  rw [(trace_eq_gather_iff disjoint).mpr undisturbed place]

end GuacNebula.Moves
