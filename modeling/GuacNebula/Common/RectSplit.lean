import GuacNebula.Common.Rect
import Mathlib.Tactic.SplitIfs

/-! # Splitting a rectangle at a hole

Each call cuts off the part of the rectangle beyond one side of the hole, as long as there is such a
side. `Rect.Cut` is what one cut keeps, and with it `clipAndSplit_partition` follows by induction on
the number of sides that are left.
-/

namespace GuacNebula.Common.Rect

variable (rect hole : Rect)

/-- `guac_common_rect_intersects`. Rectangles that only touch are a partial intersection. -/
def intersects (other : Rect) : Nat :=
  if other.right < rect.x ∨ rect.right < other.x ∨
      other.bottom < rect.y ∨ rect.bottom < other.y then
    0
  else if other.x ≤ rect.x ∧ other.right ≥ rect.right ∧ other.y ≤ rect.y ∧
      other.bottom ≥ rect.bottom then
    2
  else 1

/-- `guac_common_rect_clip_and_split`: the part that was cut off, and what the rectangle is changed
to. It is `none` where the function returns zero, and then the rectangle is left as it is. -/
def clipAndSplit : Option (Rect × Rect) :=
  if rect.intersects hole = 0 then none
  else if rect.y < hole.y then
    some (ofExtents rect.x rect.y rect.right hole.y,
      ofExtents rect.x hole.y rect.right rect.bottom)
  else if rect.x < hole.x then
    some (ofExtents rect.x rect.y hole.x rect.bottom,
      ofExtents hole.x rect.y rect.right rect.bottom)
  else if rect.bottom > hole.bottom then
    some (ofExtents rect.x hole.bottom rect.right rect.bottom,
      ofExtents rect.x rect.y rect.right hole.bottom)
  else if rect.right > hole.right then
    some (ofExtents hole.right rect.y rect.right rect.bottom,
      ofExtents rect.x rect.y hole.right rect.bottom)
  else none

/-- The parts that repeated calls cut off, and what is left of the rectangle when a call returns
zero, if one of the given number of calls does. -/
def splitRepeatedly (hole : Rect) : Nat → Rect → Option (List Rect × Rect)
  | 0, _ => none
  | calls + 1, rect =>
      match rect.clipAndSplit hole with
      | none => some ([], rect)
      | some (part, rest) =>
          (splitRepeatedly hole calls rest).map fun (parts, last) => (part :: parts, last)

/-- No point belongs to both rectangles. -/
def Apart (other : Rect) : Prop := ∀ point, rect.Contains point → ¬ other.Contains point

/-- The sizes of the rectangle are not negative. -/
def Proper : Prop := 0 ≤ rect.width ∧ 0 ≤ rect.height

/-- The rectangles overlap, or touch. -/
def Meeting : Prop :=
  rect.x ≤ hole.right ∧ hole.x ≤ rect.right ∧ rect.y ≤ hole.bottom ∧ hole.y ≤ rect.bottom

/-- One if a bound lies before another one. -/
def beyond (bound other : Int) : Nat := if bound < other then 1 else 0

/-- The number of the sides of the hole that the rectangle reaches beyond. -/
def sidesBeyond : Nat :=
  beyond rect.y hole.y + beyond rect.x hole.x + beyond hole.bottom rect.bottom +
    beyond hole.right rect.right

variable {rect hole}

theorem intersects_ne_zero : rect.intersects hole ≠ 0 ↔ rect.Meeting hole := by
  unfold intersects Meeting
  split_ifs <;> omega

/-- Rectangles with a point in common meet. -/
theorem Contains.meeting {point : Point} (inside : rect.Contains point)
    (inHole : hole.Contains point) : rect.Meeting hole := by
  unfold Contains at *
  unfold Meeting
  omega

theorem sidesBeyond_le : rect.sidesBeyond hole ≤ 4 := by
  unfold sidesBeyond beyond
  split_ifs <;> omega

/-- What one cut keeps: it takes the part beyond one side of the hole, and nothing else. -/
structure Cut (rect hole part rest : Rect) : Prop where
  meeting : rect.Meeting hole
  sides : rest.sidesBeyond hole < rect.sidesBeyond hole
  proper : rest.Proper
  restMeeting : rest.Meeting hole
  constrained : rest.constrain hole = rect.constrain hole
  covered : ∀ point, rect.Contains point ↔ part.Contains point ∨ rest.Contains point
  apart : part.Apart rest
  outside : part.Apart hole

theorem constrain_eq : rect.constrain hole =
    ofExtents (max rect.x hole.x) (max rect.y hole.y) (min rect.right hole.right)
      (min rect.bottom hole.bottom) := by
  unfold constrain
  congr 1 <;> split_ifs <;> omega

/-- A rectangle that reaches beyond no side of the hole is constrained already. -/
theorem constrain_of_sides (inside : rect.sidesBeyond hole = 0) : rect.constrain hole = rect := by
  have sides : hole.x ≤ rect.x ∧ rect.right ≤ hole.right ∧ hole.y ≤ rect.y ∧
      rect.bottom ≤ hole.bottom := by
    unfold sidesBeyond beyond at inside
    split_ifs at inside <;> omega
  rw [constrain_eq, max_eq_left sides.1, max_eq_left sides.2.2.1, min_eq_left sides.2.1,
    min_eq_left sides.2.2.2]
  unfold ofExtents right bottom
  rw [add_sub_cancel_left, add_sub_cancel_left]

/-- A call that returns zero leaves nothing beyond a side of a hole that it meets. -/
theorem sidesBeyond_of_none (meeting : rect.Meeting hole) (none : rect.clipAndSplit hole = none) :
    rect.sidesBeyond hole = 0 := by
  unfold clipAndSplit at none
  rw [if_neg (intersects_ne_zero.mpr meeting)] at none
  unfold sidesBeyond beyond
  split_ifs at none with top left bottom right
  rw [if_neg top, if_neg left, if_neg bottom, if_neg right]

/-- Every call that returns one makes a cut. -/
theorem clipAndSplit_cut {part rest : Rect} (proper : rect.Proper) (holeProper : hole.Proper)
    (split : rect.clipAndSplit hole = some (part, rest)) : Cut rect hole part rest := by
  have meeting : rect.Meeting hole := by
    rw [← intersects_ne_zero]
    intro apart
    rw [clipAndSplit, if_pos apart] at split
    exact absurd split nofun
  unfold clipAndSplit at split
  rw [if_neg (intersects_ne_zero.mpr meeting)] at split
  unfold Proper at proper holeProper
  have extents := meeting
  unfold Meeting at extents
  have right : rect.right = rect.x + rect.width := rfl
  have bottom : rect.bottom = rect.y + rect.height := rfl
  have holeRight : hole.right = hole.x + hole.width := rfl
  have holeBottom : hole.bottom = hole.y + hole.height := rfl
  -- Each branch leaves the extents of the rectangle, but for the one at the side that was cut.
  split_ifs at split
  all_goals
    obtain ⟨rfl, rfl⟩ := Prod.mk.inj (Option.some.inj split)
    constructor
    case meeting => exact meeting
    case sides =>
      unfold sidesBeyond
      rw [ofExtents_right, ofExtents_bottom]
      simp only [ofExtents]
      unfold beyond
      split_ifs <;> omega
    case proper =>
      unfold Proper ofExtents
      dsimp only
      omega
    case restMeeting =>
      unfold Meeting
      rw [ofExtents_right, ofExtents_bottom]
      simp only [ofExtents]
      omega
    case constrained =>
      rw [constrain_eq, constrain_eq, ofExtents_right, ofExtents_bottom]
      simp only [ofExtents]
      congr 1 <;> omega
    case covered | apart | outside =>
      intro point
      unfold Contains
      simp only [ofExtents_right, ofExtents_bottom]
      simp only [ofExtents]
      omega

/-! ## Repeated calls -/

/-- What the parts and the rest are to a rectangle that meets the hole. -/
structure Partition (rect hole : Rect) (parts : List Rect) (rest : Rect) : Prop where
  disjoint : parts.Pairwise Apart
  outside : ∀ part ∈ parts, part.Apart hole
  rest_eq : rest = rect.constrain hole
  covered : ∀ point, rect.Contains point ↔
    rest.Contains point ∨ ∃ part ∈ parts, part.Contains point

/-- A rectangle that reaches beyond no side is its own rest. -/
theorem Partition.done (inside : rect.sidesBeyond hole = 0) : Partition rect hole [] rect where
  disjoint := List.Pairwise.nil
  outside := nofun
  rest_eq := (constrain_of_sides inside).symm
  covered := fun point => by
    simp only [List.not_mem_nil, false_and, exists_false, or_false]

/-- A part is put in front of those that are cut off later. -/
theorem Partition.cons {part next rest : Rect} {parts : List Rect} (cut : Cut rect hole part next)
    (partition : Partition next hole parts rest) : Partition rect hole (part :: parts) rest where
  disjoint := by
    refine List.Pairwise.cons ?_ partition.disjoint
    intro later present point inside inLater
    exact cut.apart point inside ((partition.covered point).mpr (Or.inr ⟨later, present, inLater⟩))
  outside := by
    intro member present
    rcases List.mem_cons.mp present with rfl | present
    · exact cut.outside
    · exact partition.outside member present
  rest_eq := partition.rest_eq.trans cut.constrained
  covered := by
    intro point
    rw [cut.covered, partition.covered]
    simp only [List.mem_cons, or_and_right, exists_or, exists_eq_left]
    exact or_left_comm

/-- More calls than there are sides beyond end, and leave a partition. The induction is on the
calls, each of which takes one side away. -/
theorem splitRepeatedly_partition (holeProper : hole.Proper) {calls : Nat} :
    ∀ {rect : Rect}, rect.Proper → rect.Meeting hole → rect.sidesBeyond hole < calls →
      ∃ parts rest, splitRepeatedly hole calls rect = some (parts, rest) ∧
        parts.length ≤ rect.sidesBeyond hole ∧ Partition rect hole parts rest := by
  induction calls with
  | zero => exact fun _ _ few => absurd few (Nat.not_lt_zero _)
  | succ calls ih =>
      intro rect proper meeting few
      unfold splitRepeatedly
      cases split : rect.clipAndSplit hole with
      | none =>
          exact ⟨[], rect, rfl, Nat.zero_le _, .done (sidesBeyond_of_none meeting split)⟩
      | some cut =>
          obtain ⟨part, next⟩ := cut
          have cut := clipAndSplit_cut proper holeProper split
          have fewer := cut.sides
          obtain ⟨parts, rest, run, short, partition⟩ := ih cut.proper cut.restMeeting (by omega)
          refine ⟨part :: parts, rest, ?_, ?_, partition.cons cut⟩
          · dsimp only
            rw [run, Option.map_some]
          · rw [List.length_cons]
            omega

/-- Rectangles that do not meet are left as they are by the first call. -/
theorem splitRepeatedly_apart (apart : ¬ rect.Meeting hole) (calls : Nat) :
    splitRepeatedly hole (calls + 1) rect = some ([], rect) := by
  have none : rect.clipAndSplit hole = none := by
    rw [clipAndSplit, if_pos (Decidable.not_not.mp (mt intersects_ne_zero.mp apart))]
  unfold splitRepeatedly
  rw [none]

/-- Repeated calls return zero after at most four parts. If the rectangles meet, the parts are apart
from each other and from the hole, the rest is what the rectangles have in common, and it makes up
the rectangle together with the parts. -/
theorem clipAndSplit_partition (rect hole : Rect) (proper : rect.Proper)
    (holeProper : hole.Proper) :
    ∃ parts rest, splitRepeatedly hole 5 rect = some (parts, rest) ∧ parts.length ≤ 4 ∧
      (∀ point, rect.Contains point → hole.Contains point → rect.intersects hole ≠ 0) ∧
      (rect.intersects hole ≠ 0 →
        parts.Pairwise Apart ∧ (∀ part ∈ parts, part.Apart hole) ∧
        rest = rect.constrain hole ∧
        (∀ point, rest.Contains point ↔ rect.Contains point ∧ hole.Contains point) ∧
        ∀ point, rect.Contains point ↔
          rest.Contains point ∨ ∃ part ∈ parts, part.Contains point) := by
  have overlap : ∀ point, rect.Contains point → hole.Contains point → rect.intersects hole ≠ 0 :=
    fun _ inside inHole => intersects_ne_zero.mpr (inside.meeting inHole)
  by_cases meeting : rect.Meeting hole
  · obtain ⟨parts, rest, run, short, partition⟩ :=
      splitRepeatedly_partition holeProper proper meeting (Nat.lt_succ_of_le sidesBeyond_le)
    refine ⟨parts, rest, run, short.trans sidesBeyond_le, overlap, fun _ => ?_⟩
    refine ⟨partition.disjoint, partition.outside, partition.rest_eq, ?_, partition.covered⟩
    intro point
    rw [partition.rest_eq, contains_constrain]
  · exact ⟨[], rect, splitRepeatedly_apart meeting 4, Nat.zero_le _, overlap,
      fun touching => absurd (intersects_ne_zero.mp touching) meeting⟩

/-- A hole in the middle of a rectangle. -/
theorem clipAndSplit_partition_middle :
    ∃ parts rest, splitRepeatedly ⟨10, 10, 10, 10⟩ 5 ⟨5, 5, 20, 20⟩ = some (parts, rest) ∧
      parts.length ≤ 4 :=
  have ⟨parts, rest, run, short, _⟩ := clipAndSplit_partition ⟨5, 5, 20, 20⟩ ⟨10, 10, 10, 10⟩
    (by unfold Proper; decide) (by unfold Proper; decide)
  ⟨parts, rest, run, short⟩

example : splitRepeatedly ⟨10, 10, 10, 10⟩ 5 ⟨5, 5, 20, 20⟩ =
    some ([⟨5, 5, 20, 5⟩, ⟨5, 10, 5, 15⟩, ⟨10, 20, 15, 5⟩, ⟨20, 10, 5, 10⟩],
      ⟨10, 10, 10, 10⟩) := by
  decide

end GuacNebula.Common.Rect
