import GuacNebula.Lib.Audience
import GuacNebula.Lib.Run
import Mathlib.Tactic.SplitIfs

/-! # The properties of layers

A surface has a size, a position below its parent, and an opacity. A change of the size is sent at
once, the others are noted and sent by the next flush, and a user who joins is sent all of them. A
user may so have properties that others have not been sent yet, but after a flush all users have
those of the surface.

The support of touch is sent at once, too, but to a user who joins only for the default layer. The
contents of layers are left out.
-/

namespace GuacNebula.Common

open Run

/-- The part of `guac_common_surface` that describes its layer. Layers are given by their index,
that of buffers is negative. -/
structure LayerSurface where
  width : Int
  height : Int
  realized : Bool
  touches : Int
  x : Int
  y : Int
  z : Int
  parent : Int
  opacity : Int
  locationDirty : Bool
  opacityDirty : Bool
  deriving DecidableEq, Repr

/-- The instructions that concern the properties of a layer. -/
inductive LayerMessage where
  | size (layer width height : Int)
  | shade (layer opacity : Int)
  | move (layer parent x y z : Int)
  | setMultitouch (layer touches : Int)
  | dispose (layer : Int)
  deriving DecidableEq, Repr

/-! ## Functions -/

namespace LayerSurface

/-- `guac_common_surface_alloc`. Buffers are created when they are drawn to. -/
def alloc (layer width height : Int) : LayerSurface × List LayerMessage :=
  ({ width := width
     height := height
     realized := 0 ≤ layer
     touches := 0
     x := 0
     y := 0
     z := 0
     parent := 0
     opacity := 0xFF
     locationDirty := false
     opacityDirty := false },
   if 0 ≤ layer then [.size layer width height] else [])

variable (surface : LayerSurface)

/-- `guac_common_surface_free`. -/
def free (layer : Int) : List LayerMessage :=
  if surface.realized then [.dispose layer] else []

/-- `guac_common_surface_set_multitouch`. -/
def setMultitouch (layer touches : Int) : LayerSurface × List LayerMessage :=
  ({ surface with touches := touches }, [.setMultitouch layer touches])

/-- `guac_common_surface_move`. -/
def move (x y : Int) : LayerSurface := { surface with x := x, y := y, locationDirty := true }

/-- `guac_common_surface_stack`. -/
def stack (z : Int) : LayerSurface := { surface with z := z, locationDirty := true }

/-- `guac_common_surface_set_parent`. -/
def setParent (parent : Int) : LayerSurface :=
  { surface with parent := parent, locationDirty := true }

/-- `guac_common_surface_set_opacity`. -/
def setOpacity (opacity : Int) : LayerSurface :=
  { surface with opacity := opacity, opacityDirty := true }

/-- `guac_common_surface_resize`. -/
def resize (layer width height : Int) : LayerSurface × List LayerMessage :=
  if width = surface.width ∧ height = surface.height then (surface, [])
  else
    ({ surface with width := width, height := height },
     if surface.realized then [.size layer width height] else [])

/-- Something has been drawn to the layer. -/
def realize : LayerSurface := { surface with realized := true }

/-- `__guac_common_surface_flush_properties`. -/
def flushProperties (layer : Int) : LayerSurface × List LayerMessage :=
  if layer ≤ 0 then (surface, [])
  else
    ({ surface with opacityDirty := false, locationDirty := false },
     (if surface.opacityDirty then [.shade layer surface.opacity] else []) ++
       if surface.locationDirty then [.move layer surface.parent surface.x surface.y surface.z]
       else [])

/-- `guac_common_surface_dup`. -/
def dup (layer : Int) : List LayerMessage :=
  if !surface.realized then []
  else
    (if 0 < layer then
        [.shade layer surface.opacity, .move layer surface.parent surface.x surface.y surface.z]
      else if layer = 0 then [.setMultitouch layer surface.touches]
      else []) ++ [.size layer surface.width surface.height]

end LayerSurface

/-! ## What users see -/

/-- What a user has of a layer. -/
structure LayerView where
  width : Int
  height : Int
  x : Int
  y : Int
  z : Int
  parent : Int
  opacity : Int
  touches : Int
  deriving DecidableEq, Repr

/-- A layer that nothing has been sent about. -/
def LayerView.fresh : LayerView where
  width := 0
  height := 0
  x := 0
  y := 0
  z := 0
  parent := 0
  opacity := 0xFF
  touches := 0

/-- The layers of a user. -/
abbrev LayerViews := Int → Option LayerView

/-- The layer that an instruction concerns. -/
def LayerMessage.layer : LayerMessage → Int
  | .size layer _ _ | .shade layer _ | .move layer _ _ _ _ | .setMultitouch layer _
  | .dispose layer => layer

/-- The effect of an instruction on the layer it concerns. A layer is created if it is not there,
and one that is disposed of is as if it had never been. -/
def LayerMessage.change (view : Option LayerView) : LayerMessage → Option LayerView
  | .size _ width height => some { view.getD .fresh with width := width, height := height }
  | .shade _ opacity => some { view.getD .fresh with opacity := opacity }
  | .move _ parent x y z =>
      some { view.getD .fresh with parent := parent, x := x, y := y, z := z }
  | .setMultitouch _ touches => some { view.getD .fresh with touches := touches }
  | .dispose _ => none

/-- The effect of an instruction on the layers of a user. -/
def LayerViews.receive (views : LayerViews) (message : LayerMessage) : LayerViews :=
  Function.update views message.layer (message.change (views message.layer))

/-- The surfaces of a display, and its users. -/
structure LayerSession (User : Type) where
  layers : List Int
  surface : Int → LayerSurface
  audience : Audience User LayerViews

/-- Something that concerns the properties of layers. -/
inductive LayerAction (User : Type) where
  | join (user : User)
  | leave (user : User)
  | alloc (layer width height : Int)
  | free (layer : Int)
  | setMultitouch (layer touches : Int)
  | move (layer x y : Int)
  | stack (layer z : Int)
  | setParent (layer parent : Int)
  | setOpacity (layer opacity : Int)
  | resize (layer width height : Int)
  | realize (layer : Int)
  | flush (layer : Int)

namespace LayerSession

variable {User : Type} (session : LayerSession User)

/-- A surface has changed, and instructions are sent. -/
def change (layer : Int) (result : LayerSurface × List LayerMessage) : LayerSession User :=
  { session with
    surface := Function.update session.surface layer result.1
    audience := session.audience.toAll fun views => result.2.foldl .receive views }

/-- A surface has been allocated. -/
def alloc (layer width height : Int) : LayerSession User where
  layers := layer :: session.layers
  surface := Function.update session.surface layer (LayerSurface.alloc layer width height).1
  audience := session.audience.toAll fun views =>
    (LayerSurface.alloc layer width height).2.foldl .receive views

/-- A surface has been freed. -/
def free (layer : Int) : LayerSession User where
  layers := session.layers.filter (· ≠ layer)
  surface := session.surface
  audience := session.audience.toAll fun views =>
    ((session.surface layer).free layer).foldl .receive views

/-- What `guac_common_display_dup` sends about the surfaces. -/
def dup : List LayerMessage :=
  session.layers.flatMap fun layer => (session.surface layer).dup layer

/-- Nothing has been allocated, and nobody is present. -/
def start (unused : Int → LayerSurface) : LayerSession User where
  layers := []
  surface := unused
  audience := .empty fun _ => none

end LayerSession

/-- The effect of an action. -/
def layerStep {User : Type} [DecidableEq User] (session : LayerSession User) :
    LayerAction User → LayerSession User
  | .join user =>
      { session with
        audience := session.audience.join user (session.dup.foldl .receive fun _ => none) }
  | .leave user => { session with audience := session.audience.leave user }
  | .alloc layer width height => session.alloc layer width height
  | .free layer => session.free layer
  | .setMultitouch layer touches =>
      session.change layer ((session.surface layer).setMultitouch layer touches)
  | .move layer x y => session.change layer ((session.surface layer).move x y, [])
  | .stack layer z => session.change layer ((session.surface layer).stack z, [])
  | .setParent layer parent => session.change layer ((session.surface layer).setParent parent, [])
  | .setOpacity layer opacity =>
      session.change layer ((session.surface layer).setOpacity opacity, [])
  | .resize layer width height =>
      session.change layer ((session.surface layer).resize layer width height)
  | .realize layer => session.change layer ((session.surface layer).realize, [])
  | .flush layer => session.change layer ((session.surface layer).flushProperties layer)

/-- What is allocated was not before, and a surface that something is done to is allocated. -/
def LayerAction.Valid {User : Type} (session : LayerSession User) : LayerAction User → Prop
  | .join _ | .leave _ => True
  | .alloc layer _ _ => layer ∉ session.layers
  | .free layer | .setMultitouch layer _ | .move layer _ _ | .stack layer _ | .setParent layer _
  | .setOpacity layer _ | .resize layer _ _ | .realize layer | .flush layer =>
      layer ∈ session.layers

/-- A user has the properties of a surface, except for those that wait for a flush. -/
structure LayerSurface.ShownBy (surface : LayerSurface) (layer : Int) (view : LayerView) :
    Prop where
  width : view.width = surface.width
  height : view.height = surface.height
  location : 0 < layer → surface.locationDirty = false →
    view.parent = surface.parent ∧ view.x = surface.x ∧ view.y = surface.y ∧ view.z = surface.z
  opacity : 0 < layer → surface.opacityDirty = false → view.opacity = surface.opacity
  touches : layer = 0 → view.touches = surface.touches

/-- A user has the layers that are allocated, with their properties, and no others. -/
structure LayersSeen (layers : List Int) (surface : Int → LayerSurface) (views : LayerViews) :
    Prop where
  shown : ∀ layer ∈ layers, 0 ≤ layer →
    ∃ view, views layer = some view ∧ (surface layer).ShownBy layer view
  absent : ∀ layer, layer ∉ layers → 0 ≤ layer → views layer = none

/-- Layers exist, and every user has them. -/
structure LayerSession.Agreed {User : Type} (session : LayerSession User) : Prop where
  realized : ∀ layer ∈ session.layers, 0 ≤ layer → (session.surface layer).realized
  sees : session.audience.Sees fun _ views => LayersSeen session.layers session.surface views

/-! ## Messages -/

/-- The instructions concern one layer. -/
def Concern (layer : Int) (messages : List LayerMessage) : Prop :=
  ∀ message ∈ messages, message.layer = layer

theorem foldl_receive {layer : Int} {messages : List LayerMessage} (concern : Concern layer messages)
    (views : LayerViews) :
    messages.foldl LayerViews.receive views =
      Function.update views layer (messages.foldl LayerMessage.change (views layer)) := by
  induction messages generalizing views with
  | nil => exact (Function.update_eq_self layer views).symm
  | cons message messages ih =>
      have here := concern message (List.mem_cons_self ..)
      subst here
      rw [List.foldl_cons, List.foldl_cons,
        ih fun other member => concern other (List.mem_cons_of_mem _ member)]
      unfold LayerViews.receive
      rw [Function.update_self, Function.update_idem]

/-- Instructions that concern another layer leave a layer as it is. -/
theorem foldl_receive_other {layer other : Int} {messages : List LayerMessage}
    (concern : Concern other messages) (different : layer ≠ other) (views : LayerViews) :
    messages.foldl LayerViews.receive views layer = views layer := by
  rw [foldl_receive concern, Function.update_of_ne different]

namespace LayerSurface

variable {surface : LayerSurface} {layer : Int} {view : LayerView}

theorem alloc_concern (layer width height : Int) : Concern layer (alloc layer width height).2 := by
  unfold alloc Concern
  split <;> simp [LayerMessage.layer]

theorem free_concern (surface : LayerSurface) (layer : Int) : Concern layer (surface.free layer) := by
  unfold free Concern
  split <;> simp [LayerMessage.layer]

theorem resize_concern (surface : LayerSurface) (layer width height : Int) :
    Concern layer (surface.resize layer width height).2 := by
  unfold resize Concern
  split_ifs <;> simp [LayerMessage.layer]

theorem flushProperties_concern (surface : LayerSurface) (layer : Int) :
    Concern layer (surface.flushProperties layer).2 := by
  unfold flushProperties Concern
  split_ifs <;> simp [LayerMessage.layer]

theorem dup_concern (surface : LayerSurface) (layer : Int) : Concern layer (surface.dup layer) := by
  unfold dup Concern
  split_ifs <;> simp [LayerMessage.layer]

/-- A layer that exists is shown to a user who joins, whatever has been sent before. -/
theorem dup_shown (realized : surface.realized) (nonneg : 0 ≤ layer) (before : Option LayerView) :
    ∃ view, (surface.dup layer).foldl LayerMessage.change before = some view ∧
      surface.ShownBy layer view := by
  unfold dup
  rw [realized]
  by_cases positive : 0 < layer
  · rw [if_neg (by decide), if_pos positive]
    exact ⟨_, rfl, rfl, rfl, fun _ _ => ⟨rfl, rfl, rfl, rfl⟩, fun _ _ => rfl, by omega⟩
  · rw [if_neg (by decide), if_neg positive, if_pos (by omega)]
    exact ⟨_, rfl, rfl, rfl, fun above => absurd above positive, fun above => absurd above positive,
      fun _ => rfl⟩

/-- The properties of a new layer are those that a user has of a layer just created. -/
theorem alloc_shown (nonneg : 0 ≤ layer) (width height : Int) :
    ∃ view, (alloc layer width height).2.foldl LayerMessage.change none = some view ∧
      (alloc layer width height).1.ShownBy layer view := by
  unfold alloc
  rw [if_pos nonneg]
  exact ⟨_, rfl, rfl, rfl, fun _ _ => ⟨rfl, rfl, rfl, rfl⟩, fun _ _ => rfl, fun _ => rfl⟩

theorem resize_shown (realized : surface.realized) (shown : surface.ShownBy layer view)
    (width height : Int) :
    ∃ after, (surface.resize layer width height).2.foldl LayerMessage.change (some view) =
        some after ∧ (surface.resize layer width height).1.ShownBy layer after := by
  unfold resize
  by_cases same : width = surface.width ∧ height = surface.height
  · rw [if_pos same]
    exact ⟨view, rfl, shown⟩
  · rw [if_neg same]
    dsimp only
    rw [if_pos realized]
    exact ⟨_, rfl, rfl, rfl, shown.location, shown.opacity, shown.touches⟩

theorem setMultitouch_shown (shown : surface.ShownBy layer view) (touches : Int) :
    ∃ after, (surface.setMultitouch layer touches).2.foldl LayerMessage.change (some view) =
        some after ∧ (surface.setMultitouch layer touches).1.ShownBy layer after :=
  ⟨_, rfl, shown.width, shown.height, shown.location, shown.opacity, fun _ => rfl⟩

theorem flushProperties_shown (shown : surface.ShownBy layer view) :
    ∃ after, (surface.flushProperties layer).2.foldl LayerMessage.change (some view) =
        some after ∧ (surface.flushProperties layer).1.ShownBy layer after := by
  unfold flushProperties
  by_cases buffer : layer ≤ 0
  · rw [if_pos buffer]
    exact ⟨view, rfl, shown⟩
  · rw [if_neg buffer]
    have positive : 0 < layer := by omega
    have location := shown.location positive
    have opacity := shown.opacity positive
    dsimp only
    cases shaded : surface.opacityDirty <;> cases moved : surface.locationDirty
    · exact ⟨_, rfl, shown.width, shown.height, fun _ _ => location moved, fun _ _ => opacity shaded,
        by omega⟩
    · exact ⟨_, rfl, shown.width, shown.height, fun _ _ => ⟨rfl, rfl, rfl, rfl⟩,
        fun _ _ => opacity shaded, by omega⟩
    · exact ⟨_, rfl, shown.width, shown.height, fun _ _ => location moved, fun _ _ => rfl, by omega⟩
    · exact ⟨_, rfl, shown.width, shown.height, fun _ _ => ⟨rfl, rfl, rfl, rfl⟩, fun _ _ => rfl,
        by omega⟩

theorem flushProperties_clean (surface : LayerSurface) (positive : 0 < layer) :
    (surface.flushProperties layer).1.locationDirty = false ∧
      (surface.flushProperties layer).1.opacityDirty = false := by
  unfold flushProperties
  rw [if_neg (by omega)]
  exact ⟨rfl, rfl⟩

end LayerSurface

/-! ## Runs -/

namespace LayerSession

variable {User : Type} {session : LayerSession User} {views : LayerViews} {layer : Int}
  {result : LayerSurface × List LayerMessage}

/-- A change of a surface is seen if the instructions bring what is seen of it in step again. -/
theorem Agreed.seen_change (agreed : session.Agreed) (concern : Concern layer result.2)
    (member : layer ∈ session.layers)
    (shown : 0 ≤ layer → ∀ view, (session.surface layer).ShownBy layer view →
      ∃ after, result.2.foldl LayerMessage.change (some view) = some after ∧
        result.1.ShownBy layer after) :
    (session.change layer result).audience.Sees fun _ views =>
      LayersSeen session.layers (Function.update session.surface layer result.1) views := by
  unfold LayerSession.change
  dsimp only
  refine agreed.sees.toAll fun _ views seen => ⟨?_, ?_⟩
  · intro other found nonneg
    by_cases same : other = layer
    · subst same
      obtain ⟨view, had, before⟩ := seen.shown other found nonneg
      rw [foldl_receive concern, Function.update_self, Function.update_self, had]
      exact shown nonneg view before
    · rw [foldl_receive_other concern same, Function.update_of_ne same]
      exact seen.shown other found nonneg
  · intro other missing nonneg
    have different : other ≠ layer := fun same => missing (same ▸ member)
    rw [foldl_receive_other concern different]
    exact seen.absent other missing nonneg

theorem Agreed.change (agreed : session.Agreed) (concern : Concern layer result.2)
    (member : layer ∈ session.layers)
    (realized : (session.surface layer).realized → result.1.realized)
    (shown : 0 ≤ layer → ∀ view, (session.surface layer).ShownBy layer view →
      ∃ after, result.2.foldl LayerMessage.change (some view) = some after ∧
        result.1.ShownBy layer after) :
    (session.change layer result).Agreed := by
  refine ⟨fun other found nonneg => ?_, agreed.seen_change concern member shown⟩
  unfold LayerSession.change
  dsimp only
  by_cases same : other = layer
  · subst same
    rw [Function.update_self]
    exact realized (agreed.realized other found nonneg)
  · rw [Function.update_of_ne same]
    exact agreed.realized other found nonneg

/-- A change that waits for a flush. -/
theorem Agreed.note (agreed : session.Agreed) (member : layer ∈ session.layers)
    {surface : LayerSurface} (realized : (session.surface layer).realized → surface.realized)
    (shown : ∀ view, (session.surface layer).ShownBy layer view → surface.ShownBy layer view) :
    (session.change layer (surface, [])).Agreed :=
  agreed.change (fun _ none => absurd none List.not_mem_nil) member realized
    fun _ view before => ⟨view, rfl, shown view before⟩

/-- What is sent about the surfaces shows them to a user who has nothing. -/
theorem dup_seen (agreed : session.Agreed) :
    LayersSeen session.layers session.surface (session.dup.foldl .receive fun _ => none) := by
  have every : ∀ (layers : List Int) (views : LayerViews),
      (∀ layer ∈ layers, layer ∈ session.layers) →
      (∀ layer, layer ∉ layers →
        (layers.flatMap fun layer => (session.surface layer).dup layer).foldl .receive views layer
          = views layer) ∧
      ∀ layer ∈ layers, 0 ≤ layer → ∃ view,
        (layers.flatMap fun layer => (session.surface layer).dup layer).foldl .receive views layer
          = some view ∧ (session.surface layer).ShownBy layer view := by
    intro layers
    induction layers with
    | nil => exact fun views _ => ⟨fun _ _ => rfl, fun _ none => absurd none List.not_mem_nil⟩
    | cons first layers ih =>
        intro views within
        have concern := (session.surface first).dup_concern first
        obtain ⟨others, shown⟩ := ih (((session.surface first).dup first).foldl .receive views)
          fun layer member => within layer (List.mem_cons_of_mem _ member)
        rw [List.flatMap_cons, List.foldl_append]
        refine ⟨fun layer missing => ?_, fun layer member nonneg => ?_⟩
        · rw [List.mem_cons, not_or] at missing
          rw [others layer missing.2, foldl_receive_other concern missing.1]
        · by_cases again : layer ∈ layers
          · exact shown layer again nonneg
          · obtain rfl := (List.mem_cons.mp member).resolve_right again
            rw [others layer again, foldl_receive concern, Function.update_self]
            exact LayerSurface.dup_shown (agreed.realized layer (within layer member) nonneg)
              nonneg _
  obtain ⟨others, shown⟩ := every session.layers (fun _ => none) fun _ member => member
  exact ⟨shown, fun layer missing _ => others layer missing⟩

theorem Agreed.alloc (agreed : session.Agreed) (fresh : layer ∉ session.layers)
    (width height : Int) : (session.alloc layer width height).Agreed := by
  have concern := LayerSurface.alloc_concern layer width height
  constructor
  · intro other member nonneg
    unfold LayerSession.alloc at member ⊢
    dsimp only at member ⊢
    by_cases same : other = layer
    · subst same
      rw [Function.update_self]
      exact decide_eq_true nonneg
    · rw [Function.update_of_ne same]
      exact agreed.realized other ((List.mem_cons.mp member).resolve_left same) nonneg
  · unfold LayerSession.alloc
    dsimp only
    refine agreed.sees.toAll fun _ views seen => ⟨?_, ?_⟩
    · intro other member nonneg
      by_cases same : other = layer
      · subst same
        rw [foldl_receive concern, Function.update_self, Function.update_self,
          seen.absent other fresh nonneg]
        exact LayerSurface.alloc_shown nonneg width height
      · rw [foldl_receive_other concern same, Function.update_of_ne same]
        exact seen.shown other ((List.mem_cons.mp member).resolve_left same) nonneg
    · intro other missing nonneg
      rw [List.mem_cons, not_or] at missing
      rw [foldl_receive_other concern missing.1]
      exact seen.absent other missing.2 nonneg

theorem Agreed.free (agreed : session.Agreed) (member : layer ∈ session.layers) :
    (session.free layer).Agreed := by
  have concern := (session.surface layer).free_concern layer
  have kept {other : Int} (found : other ∈ session.layers.filter (· ≠ layer)) :
      other ∈ session.layers ∧ other ≠ layer := by
    obtain ⟨present, different⟩ := List.mem_filter.mp found
    exact ⟨present, of_decide_eq_true different⟩
  refine ⟨fun other found nonneg => agreed.realized other (kept found).1 nonneg, ?_⟩
  unfold LayerSession.free
  dsimp only
  refine agreed.sees.toAll fun _ views seen => ⟨?_, ?_⟩
  · intro other found nonneg
    rw [foldl_receive_other concern (kept found).2]
    exact seen.shown other (kept found).1 nonneg
  · intro other missing nonneg
    by_cases same : other = layer
    · subst same
      rw [foldl_receive concern, Function.update_self]
      unfold LayerSurface.free
      rw [if_pos (agreed.realized other member nonneg)]
      rfl
    · rw [foldl_receive_other concern same]
      refine seen.absent other (fun present => missing ?_) nonneg
      exact List.mem_filter.mpr ⟨present, decide_eq_true same⟩

/-- An action keeps the users in agreement with the surfaces. -/
theorem Agreed.step [DecidableEq User] (agreed : session.Agreed) {action : LayerAction User}
    (valid : action.Valid session) : (layerStep session action).Agreed := by
  cases action with
  | join user =>
      unfold layerStep
      exact ⟨agreed.realized, agreed.sees.join (dup_seen agreed)⟩
  | leave user =>
      unfold layerStep
      exact ⟨agreed.realized, agreed.sees.leave user⟩
  | alloc layer width height => exact agreed.alloc valid width height
  | free layer => exact agreed.free valid
  | setMultitouch layer touches =>
      exact agreed.change (List.forall_mem_singleton.mpr rfl) valid id fun _ _ shown =>
        LayerSurface.setMultitouch_shown shown touches
  | move layer x y =>
      exact agreed.note valid id fun _ shown => { shown with location := nofun }
  | stack layer z =>
      exact agreed.note valid id fun _ shown => { shown with location := nofun }
  | setParent layer parent =>
      exact agreed.note valid id fun _ shown => { shown with location := nofun }
  | setOpacity layer opacity =>
      exact agreed.note valid id fun _ shown => { shown with opacity := nofun }
  | resize layer width height =>
      refine agreed.change ((session.surface layer).resize_concern layer width height) valid ?_
        fun nonneg _ shown => LayerSurface.resize_shown (agreed.realized layer valid nonneg) shown
          width height
      unfold LayerSurface.resize
      split_ifs <;> exact id
  | realize layer => exact agreed.note valid (fun _ => rfl) fun _ shown => { shown with }
  | flush layer =>
      refine agreed.change ((session.surface layer).flushProperties_concern layer) valid ?_
        fun _ _ shown => LayerSurface.flushProperties_shown shown
      unfold LayerSurface.flushProperties
      split_ifs <;> exact id

/-- Nobody has a layer before there are any. -/
theorem start_agreed (unused : Int → LayerSurface) :
    (start unused : LayerSession User).Agreed :=
  ⟨fun _ none => absurd none List.not_mem_nil, Audience.empty_sees _⟩

end LayerSession

/-- A user has all the properties of a surface. -/
structure LayerSurface.ShownInFull (surface : LayerSurface) (view : LayerView) : Prop where
  width : view.width = surface.width
  height : view.height = surface.height
  parent : view.parent = surface.parent
  x : view.x = surface.x
  y : view.y = surface.y
  z : view.z = surface.z
  opacity : view.opacity = surface.opacity

/-- Nothing waits after a flush. -/
theorem LayerSurface.ShownBy.inFull {surface : LayerSurface} {layer : Int} {view : LayerView}
    (shown : (surface.flushProperties layer).1.ShownBy layer view) (positive : 0 < layer) :
    surface.ShownInFull view := by
  obtain ⟨located, shaded⟩ := surface.flushProperties_clean positive
  have same : (surface.flushProperties layer).1 =
      { surface with opacityDirty := false, locationDirty := false } := by
    unfold LayerSurface.flushProperties
    rw [if_neg (by omega)]
  obtain ⟨parent, x, y, z⟩ := shown.location positive located
  have opacity := shown.opacity positive shaded
  have width := shown.width
  have height := shown.height
  rw [same] at parent x y z opacity width height
  exact ⟨width, height, parent, x, y, z, opacity⟩

end GuacNebula.Common
