import GuacNebula.Lib.Run
import GuacNebula.Terminal.State
import Mathlib.Data.Finset.Basic
import Mathlib.Data.Multiset.Replicate

/-! # Tab stops

The custom tab stops are a set of columns, kept in an array of places: a place is free if it holds
zero, and otherwise it holds the column plus one. The array holds each column of the set once as
long as no column is set again.
-/

namespace GuacNebula.Terminal

open Run

/-! ## Operations and the set they describe -/

/-- A call on the custom tab stops. -/
inductive TabAction where
  | set (column : Nat)
  | unset (column : Nat)
  | clear
  deriving DecidableEq, Repr

/-- The console after a call. -/
def tabStep (console : Console) : TabAction → Console
  | .set column => setTab console column
  | .unset column => unsetTab console column
  | .clear => clearTabs console

/-- The stops that are set after a call. -/
def stopsStep (stops : Finset Nat) : TabAction → Finset Nat
  | .set column => insert column stops
  | .unset column => stops.erase column
  | .clear => ∅

/-- The console and the stops that the calls before have set. -/
def trackedStep (state : Console × Finset Nat) (action : TabAction) : Console × Finset Nat :=
  (tabStep state.1 action, stopsStep state.2 action)

/-- There is a custom stop in a column. -/
def HasStop (console : Console) (column : Nat) : Prop := (column : Int) + 1 ∈ console.customTabs

/-- A stop of the interval, for which the last column stands if there is none. -/
def IntervalStop (console : Console) (stop : Int) : Prop :=
  if console.tabInterval ≠ 0 then console.tabInterval ∣ stop
  else stop = console.grid.termWidth - 1

/-- The next stop of the interval exists. -/
def IntervalAhead (console : Console) (column : Nat) : Prop :=
  console.tabInterval ≠ 0 ∨ (column : Int) < console.grid.termWidth - 1

/-- The custom stops are those that are set, and the calls on them do what they are for. -/
structure TabsFaithful (console : Console) (stops : Finset Nat) : Prop where
  held : ∀ column : Nat, HasStop console column ↔ column ∈ stops
  unset : ∀ column : Nat, ¬ HasStop (unsetTab console column) column
  set : stops.card < maxTabs → ∀ column : Nat, HasStop (setTab console column) column
  next : ∀ column : Nat,
    IsLeast {stop : Int | column < stop ∧ ((∃ custom ∈ stops, (custom : Int) = stop)
      ∨ IntervalStop console stop)} (nextTab console column) ↔ IntervalAhead console column

/-- A column is only set again if no place is free, and a further one only if a place is. -/
def TabGuard (state : Console × Finset Nat) : TabAction → Prop
  | .set column =>
      (column ∉ state.2 ∧ state.2.card < maxTabs) ∨ (column ∈ state.2 ∧ state.2.card = maxTabs)
  | _ => True

instance (state : Console × Finset Nat) (action : TabAction) : Decidable (TabGuard state action) :=
  match action with
  | .set _ => inferInstanceAs (Decidable (_ ∨ _))
  | .unset _ => isTrue trivial
  | .clear => isTrue trivial

/-! ## Places -/

section Places

variable {old new : Int} {tabs : List Int}

theorem replaceFirst_of_not_mem (absent : old ∉ tabs) : replaceFirst old new tabs = tabs := by
  induction tabs with
  | nil => rfl
  | cons tab tabs ih =>
      obtain ⟨other, later⟩ := not_or.mp (mt List.mem_cons.mpr absent)
      rw [replaceFirst, if_neg (Ne.symm other), ih later]

/-- One of the values is replaced by another one. -/
theorem replaceFirst_perm (present : old ∈ tabs) :
    (replaceFirst old new tabs).Perm (new :: tabs.erase old) := by
  induction tabs with
  | nil => exact absurd present List.not_mem_nil
  | cons tab tabs ih =>
      by_cases same : tab = old
      · rw [replaceFirst, if_pos same, same, List.erase_cons_head]
      · have later : old ∈ tabs := (List.mem_cons.mp present).resolve_left (Ne.symm same)
        rw [replaceFirst, if_neg same, List.erase_cons_tail (by simpa using same)]
        exact ((ih later).cons tab).trans (List.Perm.swap ..)

/-- The values of the places: a place for each column of the set, and free places. -/
def placesOf (stops : Finset Nat) (free : Nat) : Multiset Int :=
  stops.val.map (fun column : Nat => (column : Int) + 1) + Multiset.replicate free 0

/-- The array holds each column of the set once. -/
def TabsHold (tabs : List Int) (stops : Finset Nat) : Prop :=
  ∃ free, stops.card + free = maxTabs ∧ (tabs : Multiset Int) = placesOf stops free

/-- One of the values is replaced, as far as values are counted. -/
theorem coe_replaceFirst (present : old ∈ tabs) :
    (replaceFirst old new tabs : Multiset Int) = new ::ₘ (tabs : Multiset Int).erase old :=
  Multiset.coe_eq_coe.mpr (replaceFirst_perm present)

variable {stops : Finset Nat} {column : Nat}

theorem TabsHold.mem_iff (hold : TabsHold tabs stops) :
    (column : Int) + 1 ∈ tabs ↔ column ∈ stops := by
  obtain ⟨free, _, same⟩ := hold
  rw [← Multiset.mem_coe, same, placesOf, Multiset.mem_add, Multiset.mem_map]
  constructor
  · rintro (⟨other, inside, equal⟩ | freed)
    · obtain rfl : other = column := by omega
      exact inside
    · have zero := Multiset.eq_of_mem_replicate freed
      omega
  · exact fun inside => .inl ⟨column, inside, rfl⟩

theorem TabsHold.free_iff (hold : TabsHold tabs stops) : 0 ∈ tabs ↔ stops.card < maxTabs := by
  obtain ⟨free, count, same⟩ := hold
  rw [← Multiset.mem_coe, same, placesOf, Multiset.mem_add, Multiset.mem_map,
    Multiset.mem_replicate]
  constructor
  · rintro (⟨other, _, equal⟩ | ⟨some, _⟩) <;> omega
  · exact fun room => .inr ⟨by omega, rfl⟩

/-- A column that is not set yet takes a free place. -/
theorem TabsHold.set (hold : TabsHold tabs stops) (fresh : column ∉ stops)
    (room : stops.card < maxTabs) :
    TabsHold (replaceFirst 0 ((column : Int) + 1) tabs) (insert column stops) := by
  have present := hold.free_iff.mpr room
  obtain ⟨free, count, same⟩ := hold
  obtain ⟨free, rfl⟩ : ∃ left, free = left + 1 := ⟨free - 1, by omega⟩
  refine ⟨free, by rw [Finset.card_insert_of_notMem fresh]; omega, ?_⟩
  rw [coe_replaceFirst present, same, placesOf, placesOf, Multiset.replicate_succ,
    Multiset.add_cons, Multiset.erase_cons_head, Finset.insert_val_of_notMem fresh,
    Multiset.map_cons, Multiset.cons_add]

/-- The place of a column that is unset becomes free. -/
theorem TabsHold.unset (hold : TabsHold tabs stops) :
    TabsHold (replaceFirst ((column : Int) + 1) 0 tabs) (stops.erase column) := by
  by_cases inside : column ∈ stops
  · have present := hold.mem_iff.mpr inside
    obtain ⟨free, count, same⟩ := hold
    have positive := Finset.card_pos.mpr ⟨column, inside⟩
    refine ⟨free + 1, by rw [Finset.card_erase_of_mem inside]; omega, ?_⟩
    have split : stops.val = column ::ₘ (stops.erase column).val := by
      rw [Finset.erase_val, Multiset.cons_erase inside]
    rw [coe_replaceFirst present, same, placesOf, placesOf, Multiset.replicate_succ,
      Multiset.add_cons, split, Multiset.map_cons, Multiset.cons_add, Multiset.erase_cons_head]
  · rw [replaceFirst_of_not_mem (mt hold.mem_iff.mp inside), Finset.erase_eq_of_notMem inside]
    exact hold

theorem tabsHold_clear : TabsHold (List.replicate maxTabs 0) ∅ := ⟨maxTabs, rfl, rfl⟩

end Places

/-! ## The next stop -/

/-- The loop of `guac_terminal_next_tab` finds the least of the stops behind a column and the one it
starts with. -/
theorem nextTab_fold (column tabstop : Int) (tabs : List Int) :
    let next := tabs.foldl (fun tabstop tab =>
      if tab - 1 ≠ -1 ∧ tab - 1 > column ∧ tab - 1 < tabstop then tab - 1 else tabstop) tabstop
    next ≤ tabstop
      ∧ (next = tabstop ∨ (next + 1 ∈ tabs ∧ next ≠ -1 ∧ column < next))
      ∧ ∀ tab ∈ tabs, tab - 1 ≠ -1 → column < tab - 1 → next ≤ tab - 1 := by
  induction tabs generalizing tabstop with
  | nil => exact ⟨le_refl _, .inl rfl, List.forall_mem_nil _⟩
  | cons tab tabs ih =>
      rw [List.foldl_cons]
      by_cases earlier : tab - 1 ≠ -1 ∧ tab - 1 > column ∧ tab - 1 < tabstop
      · obtain ⟨below, found, least⟩ := ih (tab - 1)
        rw [if_pos earlier]
        refine ⟨le_trans below earlier.2.2.le, .inr ?_, List.forall_mem_cons.mpr
          ⟨fun _ _ => below, least⟩⟩
        rcases found with same | ⟨member, nonfree, behind⟩
        · rw [same, sub_add_cancel]
          exact ⟨List.mem_cons_self, earlier.1, earlier.2.1⟩
        · exact ⟨List.mem_cons_of_mem _ member, nonfree, behind⟩
      · obtain ⟨below, found, least⟩ := ih tabstop
        rw [if_neg earlier]
        refine ⟨below, found.imp_right fun ⟨member, rest⟩ => ⟨List.mem_cons_of_mem _ member, rest⟩,
          List.forall_mem_cons.mpr ⟨fun nonfree behind => ?_, least⟩⟩
        by_contra beyond
        exact earlier ⟨nonfree, behind, by omega⟩

/-- The stop that the loop of `guac_terminal_next_tab` starts with. -/
def intervalTab (console : Console) (column : Int) : Int :=
  if console.tabInterval ≠ 0 then (column.tdiv console.tabInterval + 1) * console.tabInterval
  else console.grid.termWidth - 1

/-- The loop starts with the least stop of the interval behind the column, if there is one. -/
theorem intervalTab_isLeast {console : Console} (interval : 0 ≤ console.tabInterval)
    (column : Nat) :
    IntervalStop console (intervalTab console column)
      ∧ (IntervalAhead console column ↔ (column : Int) < intervalTab console column)
      ∧ ∀ stop : Int, column < stop → IntervalStop console stop →
        intervalTab console column ≤ stop := by
  unfold IntervalStop IntervalAhead intervalTab
  by_cases spaced : console.tabInterval ≠ 0
  · have positive : 0 < console.tabInterval := lt_of_le_of_ne interval (Ne.symm spaced)
    have next := Int.lt_ediv_add_one_mul_self (column : Int) positive
    simp only [if_pos spaced, Int.tdiv_eq_ediv_of_nonneg (Int.natCast_nonneg column)]
    refine ⟨Int.dvd_mul_left _ _, iff_of_true (.inl spaced) next, ?_⟩
    rintro _ behind ⟨turns, rfl⟩
    have turn : (column : Int) / console.tabInterval < turns :=
      Int.ediv_lt_of_lt_mul positive (Int.mul_comm turns _ ▸ behind)
    rw [Int.mul_comm _ turns]
    exact Int.mul_le_mul_of_nonneg_right turn interval
  · simp only [if_neg spaced]
    exact ⟨trivial, or_iff_right spaced, fun stop _ same => same.ge⟩

theorem nextTab_spec (console : Console) (column : Int) :
    nextTab console column ≤ intervalTab console column
      ∧ (nextTab console column = intervalTab console column
        ∨ (nextTab console column + 1 ∈ console.customTabs ∧ nextTab console column ≠ -1
          ∧ column < nextTab console column))
      ∧ ∀ tab ∈ console.customTabs, tab - 1 ≠ -1 → column < tab - 1 →
        nextTab console column ≤ tab - 1 :=
  nextTab_fold column (intervalTab console column) console.customTabs

/-- `guac_terminal_next_tab` finds the least stop behind a column exactly if there is one of the
interval. -/
theorem nextTab_isLeast_iff {console : Console} (interval : 0 ≤ console.tabInterval)
    {stops : Finset Nat} (hold : TabsHold console.customTabs stops) (column : Nat) :
    IsLeast {stop : Int | column < stop ∧ ((∃ custom ∈ stops, (custom : Int) = stop)
      ∨ IntervalStop console stop)} (nextTab console column) ↔ IntervalAhead console column := by
  obtain ⟨valid, ahead, least⟩ := intervalTab_isLeast interval column
  obtain ⟨below, found, custom⟩ := nextTab_spec console column
  constructor
  · exact fun next => ahead.mpr (lt_of_lt_of_le next.1.1 below)
  · refine fun there => ⟨?_, fun stop ⟨behind, which⟩ => ?_⟩
    · rcases found with same | ⟨member, _, behind⟩
      · exact ⟨same.symm ▸ ahead.mp there, .inr (same.symm ▸ valid)⟩
      · refine ⟨behind, .inl ⟨(nextTab console column).toNat, ?_, by omega⟩⟩
        apply hold.mem_iff.mp
        rw [Int.toNat_of_nonneg (by omega)]
        exact member
    · rcases which with ⟨stop, inside, rfl⟩ | other
      · have next := custom _ (hold.mem_iff.mpr inside) (by omega) (by omega)
        omega
      · exact le_trans below (least stop behind other)

/-! ## Runs -/

theorem TabsHold.faithful {console : Console} {stops : Finset Nat}
    (hold : TabsHold console.customTabs stops) (interval : 0 ≤ console.tabInterval) :
    TabsFaithful console stops where
  held column := hold.mem_iff
  unset column := fun kept => Finset.notMem_erase column stops (hold.unset.mem_iff.mp kept)
  set room column := by
    have kept : (column : Int) + 1 ∈ (replaceFirst 0 ((column : Int) + 1) console.customTabs :
        Multiset Int) := by
      rw [coe_replaceFirst (hold.free_iff.mpr room)]
      exact Multiset.mem_cons_self _ _
    exact kept
  next column := nextTab_isLeast_iff interval hold column

/-- A call that meets the guard keeps the array faithful. -/
theorem TabsHold.step {state : Console × Finset Nat} {action : TabAction}
    (hold : TabsHold state.1.customTabs state.2) (interval : 0 ≤ state.1.tabInterval)
    (guarded : TabGuard state action) :
    TabsHold (trackedStep state action).1.customTabs (trackedStep state action).2
      ∧ 0 ≤ (trackedStep state action).1.tabInterval := by
  cases action with
  | set column =>
      rcases guarded with ⟨fresh, room⟩ | ⟨known, full⟩
      · exact ⟨hold.set fresh room, interval⟩
      · have unchanged : replaceFirst 0 ((column : Int) + 1) state.1.customTabs =
            state.1.customTabs :=
          replaceFirst_of_not_mem fun free => absurd (hold.free_iff.mp free) full.not_lt
        have same : insert column state.2 = state.2 := Finset.insert_eq_of_mem known
        refine ⟨?_, interval⟩
        change TabsHold (replaceFirst 0 ((column : Int) + 1) state.1.customTabs)
          (insert column state.2)
        rw [unchanged, same]
        exact hold
  | unset column => exact ⟨hold.unset, interval⟩
  | clear => exact ⟨tabsHold_clear, le_refl 0⟩

/-- **The custom tab stops are a set** throughout every run in which no column is set again while
there is a free place. -/
theorem tabStops_faithful (console : Console) (clear : console.customTabs = List.replicate maxTabs 0)
    (interval : 0 ≤ console.tabInterval) (actions : List TabAction)
    (guarded : Guarded trackedStep TabGuard (console, ∅) actions) :
    Always trackedStep (fun state => TabsFaithful state.1 state.2) (console, ∅) actions := by
  have start : TabsHold console.customTabs ∅ := clear ▸ tabsHold_clear
  have kept : Always trackedStep (fun state => TabsHold state.1.customTabs state.2
      ∧ 0 ≤ state.1.tabInterval) (console, ∅) actions :=
    guarded.always ⟨start, interval⟩ fun state action hold met => hold.1.step hold.2 met
  exact kept.mono fun state hold => hold.1.faithful hold.2

/-- The console of a new terminal. -/
def newConsole : Console := (create sampleMetrics (sampleOptions 24 80)).toConsole

/-- Stops are set, unset and cleared. -/
theorem tabStops_faithful_sample :
    Always trackedStep (fun state => TabsFaithful state.1 state.2) (newConsole, ∅)
      [.set 4, .set 9, .unset 4, .set 4, .clear, .set 9] :=
  tabStops_faithful newConsole rfl (by decide) _ (by decide)

/-- A stop that is set twice is still there once it has been unset. -/
theorem stop_set_twice_remains :
    HasStop (exec tabStep newConsole [.set 4, .set 4, .unset 4]) 4 := by
  change (5 : Int) ∈ 0 :: 5 :: List.replicate 14 0
  exact List.mem_cons_of_mem 0 List.mem_cons_self

end GuacNebula.Terminal
