import Mathlib.Logic.Function.Basic

/-! # The audience of a broadcast

A state is shown to users who join and leave. Each user has a view, which the messages that are
sent to them change: to all who are present, to all but the one who caused the change, or to the
one who has just joined.

`Sees` is the form of every statement about the views. A change that is sent keeps such a statement,
or leads to another one, if it does so for each view it reaches.
-/

namespace GuacNebula

/-- The users who are present, and what each of them sees. -/
structure Audience (User View : Type*) where
  present : User → Bool
  view : User → View

namespace Audience

variable {User View : Type*} {audience : Audience User View}
  {property other : User → View → Prop}

/-- Nobody is present. -/
def empty (view : View) : Audience User View where
  present _ := false
  view _ := view

/-- A message to all who are present. -/
def toAll (audience : Audience User View) (change : View → View) : Audience User View :=
  { audience with
    view := fun user =>
      if audience.present user then change (audience.view user) else audience.view user }

/-- Everyone present sees something that has the property. -/
def Sees (audience : Audience User View) (property : User → View → Prop) : Prop :=
  ∀ user, audience.present user → property user (audience.view user)

theorem empty_sees (view : View) : (empty view : Audience User View).Sees property :=
  fun _ absent => absurd absent Bool.false_ne_true

theorem Sees.mono (sees : audience.Sees property)
    (weaken : ∀ user view, property user view → other user view) : audience.Sees other :=
  fun user present => weaken user _ (sees user present)

theorem Sees.toAll {change : View → View} (sees : audience.Sees property)
    (changes : ∀ user view, property user view → other user (change view)) :
    (audience.toAll change).Sees other := by
  intro user present
  have same : (audience.toAll change).view user = change (audience.view user) := if_pos present
  rw [same]
  exact changes user _ (sees user present)

section

variable [DecidableEq User]

/-- A message to one user. -/
def toOne (audience : Audience User View) (user : User) (change : View → View) :
    Audience User View :=
  { audience with view := Function.update audience.view user (change (audience.view user)) }

/-- A message to all who are present but one. -/
def toOthers (audience : Audience User View) (author : User) (change : View → View) :
    Audience User View :=
  { audience with
    view := fun user =>
      if audience.present user ∧ user ≠ author then change (audience.view user)
      else audience.view user }

/-- A user joins who sees nothing but what is sent to them. -/
def join (audience : Audience User View) (user : User) (view : View) : Audience User View where
  present := Function.update audience.present user true
  view := Function.update audience.view user view

/-- A user leaves. -/
def leave (audience : Audience User View) (user : User) : Audience User View :=
  { audience with present := Function.update audience.present user false }

theorem Sees.toOne {author : User} {change : View → View} (sees : audience.Sees property)
    (changes : ∀ view, property author view → other author (change view))
    (others : ∀ user view, user ≠ author → property user view → other user view) :
    (audience.toOne author change).Sees other := by
  intro user present
  unfold Audience.toOne
  dsimp only
  by_cases same : user = author
  · subst same
    rw [Function.update_self]
    exact changes _ (sees user present)
  · rw [Function.update_of_ne same]
    exact others user _ same (sees user present)

theorem Sees.toOthers {author : User} {change : View → View} (sees : audience.Sees property)
    (changes : ∀ user view, user ≠ author → property user view → other user (change view))
    (unchanged : ∀ view, property author view → other author view) :
    (audience.toOthers author change).Sees other := by
  intro user present
  by_cases same : user = author
  · have kept : (audience.toOthers author change).view user = audience.view user :=
      if_neg fun both => both.2 same
    rw [kept, same]
    exact unchanged _ (same ▸ sees user present)
  · have reached : (audience.toOthers author change).view user = change (audience.view user) :=
      if_pos ⟨present, same⟩
    rw [reached]
    exact changes user _ same (sees user present)

theorem Sees.join {user : User} {view : View} (sees : audience.Sees property)
    (joined : property user view) : (audience.join user view).Sees property := by
  intro other present
  unfold Audience.join at present ⊢
  dsimp only at present ⊢
  by_cases same : other = user
  · subst same
    rw [Function.update_self]
    exact joined
  · rw [Function.update_of_ne same] at present ⊢
    exact sees other present

theorem Sees.leave (sees : audience.Sees property) (user : User) :
    (audience.leave user).Sees property := by
  intro other present
  unfold Audience.leave at present
  dsimp only at present
  by_cases same : other = user
  · rw [same, Function.update_self] at present
    exact absurd present Bool.false_ne_true
  · rw [Function.update_of_ne same] at present
    exact sees other present

end

end Audience

end GuacNebula
