import GuacNebula.Common.SurfaceOperations
import GuacNebula.Lib.Word
import Mathlib.Algebra.Order.Field.Basic
import Mathlib.Data.Rat.Cast.Order
import Mathlib.Tactic.Linarith
import Mathlib.Tactic.NormNum
import Mathlib.Tactic.Ring

/-! # What is drawn

A loop over a rectangle gives every pixel the colour that its formula has in the buffer as it was
before the loop, provided that no pixel is read after it has been drawn. Loops that draw what they
read, and those that move pixels within one buffer, are of this kind.
-/

namespace GuacNebula.Common

/-! ## Loops over a rectangle -/

/-- The offset is visited before another one. -/
def Visited (earlier later : Point) : Prop :=
  earlier.2 < later.2 ∨ earlier.2 = later.2 ∧ earlier.1 < later.1

namespace Rect

variable {rect : Rect} {offset point : Point}

theorem mem_offsets_iff :
    offset ∈ rect.offsets ↔
      0 ≤ offset.1 ∧ offset.1 < rect.width ∧ 0 ≤ offset.2 ∧ offset.2 < rect.height := by
  refine ⟨mem_offsets, fun inside => ?_⟩
  refine List.mem_flatMap.mpr ⟨offset.2.toNat, List.mem_range.mpr (by omega), ?_⟩
  refine List.mem_map.mpr ⟨offset.1.toNat, List.mem_range.mpr (by omega), ?_⟩
  exact Prod.ext (Int.toNat_of_nonneg inside.1) (Int.toNat_of_nonneg inside.2.2.1)

theorem offsets_visited (rect : Rect) : rect.offsets.Pairwise Visited := by
  unfold offsets
  rw [List.pairwise_flatMap]
  constructor
  · intro y _
    rw [List.pairwise_map]
    exact List.pairwise_lt_range.imp fun less => .inr ⟨rfl, Int.ofNat_lt.mpr less⟩
  · refine List.pairwise_lt_range.imp fun less => ?_
    intro first here second there
    obtain ⟨x, _, rfl⟩ := List.mem_map.mp here
    obtain ⟨x', _, rfl⟩ := List.mem_map.mp there
    exact .inl (Int.ofNat_lt.mpr less)

theorem forward_injective (rect : Rect) : Function.Injective rect.forward := by
  intro first second same
  unfold forward at same
  have columns := congrArg Prod.fst same
  have rows := congrArg Prod.snd same
  dsimp only at columns rows
  exact Prod.ext (by omega) (by omega)

theorem backward_injective (rect : Rect) : Function.Injective rect.backward := by
  intro first second same
  unfold backward at same
  have columns := congrArg Prod.fst same
  have rows := congrArg Prod.snd same
  dsimp only at columns rows
  exact Prod.ext (by omega) (by omega)

/-- The offset of a point in a rectangle. -/
def offsetOf (rect : Rect) (point : Point) : Point := (point.1 - rect.x, point.2 - rect.y)

theorem forward_offsetOf (rect : Rect) (point : Point) :
    rect.forward (rect.offsetOf point) = point :=
  Prod.ext (by unfold forward offsetOf; dsimp only; omega)
    (by unfold forward offsetOf; dsimp only; omega)

theorem offsetOf_mem (contains : rect.Contains point) : rect.offsetOf point ∈ rect.offsets := by
  unfold Contains right bottom at contains
  rw [mem_offsets_iff]
  unfold offsetOf
  dsimp only
  omega

theorem forward_contains (visited : offset ∈ rect.offsets) :
    rect.Contains (rect.forward offset) := by
  have inside := mem_offsets visited
  unfold Contains right bottom forward
  dsimp only
  omega

end Rect

namespace Sweep

variable {rect : Rect} {place : Point → Point} {color : Pixels → Point → UInt32}
  {initial : Pixels}

/-- The pixels at some offsets have the colours that the buffer had for them at first, and the others
have been left alone. -/
structure Painted (place : Point → Point) (color : Pixels → Point → UInt32) (initial : Pixels)
    (offsets : List Point) (pixels : Pixels) : Prop where
  drawn : ∀ offset ∈ offsets, pixels (place offset) = color initial offset
  left : ∀ point, (∀ offset ∈ offsets, place offset ≠ point) → pixels point = initial point

theorem visit_pixels (sweep : Sweep) (offset : Point) :
    (sweep.visit place color offset).pixels =
      Function.update sweep.pixels (place offset) (color sweep.pixels offset) := by
  unfold visit
  dsimp only
  by_cases same : sweep.pixels (place offset) = color sweep.pixels offset
  · rw [if_neg (not_not.mpr same), ← same, Function.update_eq_self]
  · rw [if_pos same]

theorem Painted.visit {offsets : List Point} {sweep : Sweep} {offset : Point}
    (painted : Painted place color initial offsets sweep.pixels)
    (fresh : ∀ earlier ∈ offsets, place earlier ≠ place offset)
    (unread : color sweep.pixels offset = color initial offset) :
    Painted place color initial (offsets ++ [offset]) (sweep.visit place color offset).pixels := by
  rw [visit_pixels]
  constructor
  · intro other member
    rcases List.mem_append.mp member with member | member
    · rw [Function.update_of_ne (fresh other member)]
      exact painted.drawn other member
    · rw [List.mem_singleton.mp member, Function.update_self]
      exact unread
  · intro point outside
    have other : point ≠ place offset :=
      (outside offset (List.mem_append_right _ List.mem_cons_self)).symm
    rw [Function.update_of_ne other]
    exact painted.left point fun earlier member =>
      outside earlier (List.mem_append_left _ member)

/-- **A loop that reads no pixel after it has drawn it** gives every pixel the colour that the buffer
had for it at first. -/
theorem run_painted (injective : Function.Injective place)
    (unread : ∀ offset ∈ rect.offsets, ∀ pixels : Pixels,
      (∀ point, (∀ earlier ∈ rect.offsets, Visited earlier offset → place earlier ≠ point) →
        pixels point = initial point) → color pixels offset = color initial offset)
    (minX minY maxX maxY : Int) :
    Painted place color initial rect.offsets
      (run rect place color ⟨initial, minX, minY, maxX, maxY⟩).pixels := by
  have loop : ∀ (back front : List Point) (sweep : Sweep), front ++ back = rect.offsets →
      Painted place color initial front sweep.pixels →
      Painted place color initial (front ++ back) (back.foldl (visit place color) sweep).pixels := by
    intro back
    induction back with
    | nil =>
        intro front sweep _ painted
        rw [List.append_nil]
        exact painted
    | cons offset back ih =>
        intro front sweep whole painted
        have order : (front ++ offset :: back).Pairwise Visited := whole ▸ rect.offsets_visited
        obtain ⟨_, _, across⟩ := List.pairwise_append.mp order
        have before : ∀ earlier ∈ front, Visited earlier offset := fun earlier member =>
          across earlier member offset List.mem_cons_self
        have fresh : ∀ earlier ∈ front, place earlier ≠ place offset := by
          intro earlier member same
          have visited := before earlier member
          rw [injective same] at visited
          unfold Visited at visited
          omega
        have current : offset ∈ rect.offsets := whole ▸ List.mem_append_right _ List.mem_cons_self
        have known := unread offset current sweep.pixels fun point outside =>
          painted.left point fun earlier member =>
            outside earlier (whole ▸ List.mem_append_left _ member) (before earlier member)
        have rest := ih (front ++ [offset]) (sweep.visit place color offset)
          (by rw [List.append_assoc, List.singleton_append, whole]) (painted.visit fresh known)
        rwa [List.append_assoc, List.singleton_append] at rest
  exact loop rect.offsets [] _ rfl ⟨fun _ absent => (nomatch absent), fun _ _ => rfl⟩

end Sweep

variable {rect : Rect} {point : Point}

/-! ## Moving pixels within a surface -/

/-- The point that the pixel for a point of the rectangle comes from. -/
def Rect.sourceOf (rect : Rect) (source point : Point) : Point :=
  (source.1 + (point.1 - rect.x), source.2 + (point.2 - rect.y))

/-- The offset of a point, counted back from the last pixel. -/
def Rect.backOffsetOf (rect : Rect) (point : Point) : Point :=
  (rect.x + rect.width - 1 - point.1, rect.y + rect.height - 1 - point.2)

theorem Rect.backward_backOffsetOf (rect : Rect) (point : Point) :
    rect.backward (rect.backOffsetOf point) = point :=
  Prod.ext (by unfold backward backOffsetOf; dsimp only; omega)
    (by unfold backward backOffsetOf; dsimp only; omega)

theorem Rect.backward_sourceOf (source point : Point) :
    Rect.backward ⟨source.1, source.2, rect.width, rect.height⟩ (rect.backOffsetOf point) =
      rect.sourceOf source point :=
  Prod.ext (by unfold backward backOffsetOf sourceOf; dsimp only; omega)
    (by unfold backward backOffsetOf sourceOf; dsimp only; omega)

theorem Rect.backOffsetOf_mem (contains : rect.Contains point) :
    rect.backOffsetOf point ∈ rect.offsets := by
  unfold Contains right bottom at contains
  rw [mem_offsets_iff]
  unfold backOffsetOf
  dsimp only
  omega

theorem Rect.backward_contains {offset : Point} (visited : offset ∈ rect.offsets) :
    rect.Contains (rect.backward offset) := by
  have inside := mem_offsets visited
  unfold Contains right bottom backward
  dsimp only
  omega

/-- A loop that stays ahead of what it draws with what it reads. -/
theorem transfer_painted {read place : Point → Point} (injective : Function.Injective place)
    (ahead : ∀ earlier offset, Visited earlier offset → place earlier ≠ read offset)
    (pixels : Pixels) (op : TransferFunction) (rect : Rect) (minX minY maxX maxY : Int) :
    Sweep.Painted place (transferColor none op read place) pixels rect.offsets
      (Sweep.run rect place (transferColor none op read place)
        ⟨pixels, minX, minY, maxX, maxY⟩).pixels := by
  refine Sweep.run_painted injective (fun offset _ current agrees => ?_) _ _ _ _
  have source : current (read offset) = pixels (read offset) :=
    agrees _ fun earlier _ visited => ahead earlier offset visited
  have old : current (place offset) = pixels (place offset) := by
    refine agrees _ fun earlier _ visited same => ?_
    rw [injective same] at visited
    unfold Visited at visited
    omega
  unfold transferColor
  rw [Option.getD_none, Option.getD_none, source, old]

theorem forward_ahead {source : Point}
    (before : rect.y < source.2 ∨ rect.y = source.2 ∧ rect.x < source.1) (earlier offset : Point)
    (visited : Visited earlier offset) :
    rect.forward earlier ≠ Rect.forward ⟨source.1, source.2, rect.width, rect.height⟩ offset := by
  intro same
  have columns := congrArg Prod.fst same
  have rows := congrArg Prod.snd same
  unfold Rect.forward at columns rows
  unfold Visited at visited
  dsimp only at columns rows
  omega

theorem backward_ahead {source : Point}
    (behind : ¬(rect.y < source.2 ∨ rect.y = source.2 ∧ rect.x < source.1)) (earlier offset : Point)
    (visited : Visited earlier offset) :
    rect.backward earlier ≠ Rect.backward ⟨source.1, source.2, rect.width, rect.height⟩ offset := by
  intro same
  have columns := congrArg Prod.fst same
  have rows := congrArg Prod.snd same
  unfold Rect.backward at columns rows
  unfold Visited at visited
  dsimp only at columns rows
  omega

/-- **Transferring within a surface**, in whatever way the two rectangles overlap: every pixel of the
destination gets the value of the function for what its source and it were before, the others are
left alone, and the returned rectangle contains all that have changed. -/
theorem transferPixels_overlapping (pixels : Pixels) (source : Point) (op : TransferFunction)
    (rect : Rect) :
    (∀ point, rect.Contains point → (transferPixels none source op pixels rect).1 point =
        transferInt op (pixels (rect.sourceOf source point)) (pixels point)) ∧
      (∀ point, ¬rect.Contains point →
        (transferPixels none source op pixels rect).1 point = pixels point) ∧
      ∀ point, (transferPixels none source op pixels rect).1 point ≠ pixels point →
        (transferPixels none source op pixels rect).2.1.Contains point := by
  have narrowed := transferPixels_narrowed none source op pixels rect
  refine ⟨fun point contains => ?_, fun point outside => ?_, fun point changed => ?_⟩
  · unfold transferPixels
    dsimp only
    by_cases before : rect.y < source.2 ∨ rect.y = source.2 ∧ rect.x < source.1
    · have painted := transfer_painted rect.forward_injective (forward_ahead before) pixels op rect
        (rect.width - 1) (rect.height - 1) 0 0
      have drawn := painted.drawn _ (rect.offsetOf_mem contains)
      rw [rect.forward_offsetOf] at drawn
      rw [if_pos (.inr before), drawn]
      unfold transferColor
      rw [rect.forward_offsetOf]
      rfl
    · have painted := transfer_painted rect.backward_injective (backward_ahead before) pixels op
        rect (rect.width - 1) (rect.height - 1) 0 0
      have drawn := painted.drawn _ (rect.backOffsetOf_mem contains)
      rw [rect.backward_backOffsetOf] at drawn
      rw [if_neg (fun or => or.elim Bool.false_ne_true before)]
      refine drawn.trans ?_
      unfold transferColor
      rw [rect.backward_backOffsetOf, rect.backward_sourceOf]
      rfl
  · by_contra changed
    exact outside (narrowed point changed).1
  · exact (narrowed point changed).2

/-! ## Channels of a colour -/

def alphaOf (color : UInt32) : Nat := color.toNat / 0x1000000

def redOf (color : UInt32) : Nat := color.toNat / 0x10000 % 0x100

def greenOf (color : UInt32) : Nat := color.toNat / 0x100 % 0x100

def blueOf (color : UInt32) : Nat := color.toNat % 0x100

theorem alphaOf_lt (color : UInt32) : alphaOf color < 0x100 := by
  have bound := color.toNat_lt
  unfold alphaOf
  omega

/-- Setting all bits of the alpha leaves exactly the opaque colours alone. -/
theorem or_alpha_eq_iff (color : UInt32) : color ||| 0xFF000000 = color ↔ alphaOf color = 0xFF := by
  have bound := color.toNat_lt
  have mask (bit : Nat) : Nat.testBit 0xFF000000 bit = decide (24 ≤ bit ∧ bit < 32) := by
    have shifted : 0xFF000000 = (2 ^ 8 - 1) <<< 24 := by decide
    rw [shifted, Nat.testBit_shiftLeft, Nat.testBit_two_pow_sub_one, ← Bool.decide_and]
    exact decide_eq_decide.mpr (by omega)
  have alpha (bit : Nat) : (alphaOf color).testBit bit = color.toNat.testBit (24 + bit) := by
    have shifted : alphaOf color = color.toNat >>> 24 := by
      rw [Nat.shiftRight_eq_div_pow]
      rfl
    rw [shifted, Nat.testBit_shiftRight]
  have full (bit : Nat) : Nat.testBit 0xFF bit = decide (bit < 8) :=
    Nat.testBit_two_pow_sub_one 8 bit
  rw [← UInt32.toNat_inj, UInt32.toNat_or]
  constructor
  · intro same
    apply Nat.eq_of_testBit_eq
    intro bit
    rw [alpha, full]
    by_cases low : bit < 8
    · rw [← same, Nat.testBit_or]
      change (_ || Nat.testBit 0xFF000000 (24 + bit)) = _
      rw [mask, decide_eq_true (by omega), decide_eq_true low, Bool.or_true]
    · rw [decide_eq_false low]
      refine Nat.testBit_lt_two_pow (Nat.lt_of_lt_of_le bound ?_)
      exact Nat.pow_le_pow_right (by decide) (by omega)
  · intro saturated
    apply Nat.eq_of_testBit_eq
    intro bit
    rw [Nat.testBit_or]
    change (_ || Nat.testBit 0xFF000000 bit) = _
    rw [mask]
    by_cases high : 24 ≤ bit ∧ bit < 32
    · have set := alpha (bit - 24)
      rw [saturated, full, decide_eq_true (by omega), Nat.add_sub_cancel' high.1] at set
      rw [← set, Bool.true_or]
    · rw [decide_eq_false high, Bool.or_false]

/-! ## Drawing onto a surface -/

/-- Drawing an image gives every pixel of the rectangle the colour that is made of the image and of
what was there before. -/
theorem putPixels_painted (src : Pixels) (source : Point) (dst : Pixels) (rect : Rect)
    (isOpaque : Bool) :
    Sweep.Painted rect.forward (putColor src source rect isOpaque) dst rect.offsets
      (putPixels src source dst rect isOpaque).1 := by
  refine Sweep.run_painted rect.forward_injective (fun offset _ current agrees => ?_) _ _ _ _
  have old : current (rect.forward offset) = dst (rect.forward offset) := by
    refine agrees _ fun earlier _ visited same => ?_
    rw [rect.forward_injective same] at visited
    unfold Visited at visited
    omega
  unfold putColor
  rw [old]

theorem putPixels_inside (src : Pixels) (source : Point) (dst : Pixels) {rect : Rect}
    (isOpaque : Bool) (contains : rect.Contains point) :
    (putPixels src source dst rect isOpaque).1 point =
      if isOpaque then src (rect.sourceOf source point) ||| 0xFF000000
      else argbBlend (dst point) (src (rect.sourceOf source point)) := by
  have drawn := (putPixels_painted src source dst rect isOpaque).drawn _ (rect.offsetOf_mem contains)
  rw [rect.forward_offsetOf] at drawn
  rw [drawn]
  unfold putColor
  rw [rect.forward_offsetOf]
  rfl

theorem putPixels_outside (src : Pixels) (source : Point) (dst : Pixels) {rect : Rect}
    (isOpaque : Bool) (outside : ¬rect.Contains point) :
    (putPixels src source dst rect isOpaque).1 point = dst point := by
  by_contra changed
  exact outside (putPixels_narrowed src source dst rect isOpaque point changed).1

/-- **Resizing a surface** keeps the colours of the pixels that it has in both sizes, and adds only
transparent ones, exactly if the size stays as it is or every pixel that is kept is opaque. -/
theorem resize_keeps_iff (surface : Surface) (width height : Int) :
    (∀ point, Rect.Contains ⟨0, 0, width, height⟩ point →
        ((surface.resize width height : Surface × List (SurfaceOutput Unit)).1.pixels point =
          if surface.bounds.Contains point then surface.pixels point else 0)) ↔
      width = surface.width ∧ height = surface.height ∨
        ∀ point, Rect.Contains ⟨0, 0, width, height⟩ point → surface.bounds.Contains point →
          alphaOf (surface.pixels point) = 0xFF := by
  by_cases same : width = surface.width ∧ height = surface.height
  · refine iff_of_true (fun point contains => ?_) (.inl same)
    have inside : surface.bounds.Contains point := by
      unfold Surface.bounds
      rwa [← same.1, ← same.2]
    unfold Surface.resize
    rw [if_pos same, if_pos inside]
  rw [or_iff_right same]
  -- The part that is kept is drawn onto an empty surface as if it were opaque.
  have resized (point : Point) (contains : Rect.Contains ⟨0, 0, width, height⟩ point) :
      (surface.resize width height : Surface × List (SurfaceOutput Unit)).1.pixels point =
        if surface.bounds.Contains point then surface.pixels point ||| 0xFF000000 else 0 := by
    unfold Surface.resize
    rw [if_neg same]
    change (putPixels surface.pixels (0, 0) (fun _ => 0)
      (surface.bounds.constrain ⟨0, 0, width, height⟩) true).1 point = _
    split_ifs with inside
    · have kept := Rect.contains_constrain.mpr ⟨inside, contains⟩
      have origin : (surface.bounds.constrain ⟨0, 0, width, height⟩).sourceOf (0, 0) point = point :=
        Prod.ext ((zero_add _).trans (sub_zero _)) ((zero_add _).trans (sub_zero _))
      rw [putPixels_inside _ _ _ _ kept, if_pos rfl, origin]
    · exact putPixels_outside _ _ _ _ fun kept => inside (Rect.contains_constrain.mp kept).1
  constructor
  · intro keeps point contains inside
    have kept := keeps point contains
    rw [resized point contains, if_pos inside, if_pos inside] at kept
    exact (or_alpha_eq_iff _).mp kept
  · intro isOpaque point contains
    rw [resized point contains]
    split_ifs with inside
    · exact (or_alpha_eq_iff _).mpr (isOpaque point contains inside)
    · rfl

/-- The transparent pixel of a new surface becomes black when the surface is widened. -/
theorem widened_is_black :
    ¬∀ point, Rect.Contains ⟨0, 0, 2, 1⟩ point →
      (((Surface.alloc 1 1 false).resize 2 1 : Surface × List (SurfaceOutput Unit)).1.pixels point =
        if (Surface.alloc 1 1 false).bounds.Contains point then
          (Surface.alloc 1 1 false).pixels point
        else 0) :=
  fun keeps => absurd (keeps (0, 0) (by decide)) (by decide)

/-! ## Blending -/

/-- The channels of a colour. -/
def channels : List (UInt32 → Nat) := [alphaOf, redOf, greenOf, blueOf]

/-- No component exceeds the alpha that it was multiplied by. -/
def Premultiplied (color : UInt32) : Prop := ∀ channel ∈ channels, channel color ≤ alphaOf color

/-- The operator "over" of Porter and Duff on one channel of premultiplied colours. -/
def porterDuffOver (dst src alpha : Nat) : ℚ := src + dst * (0xFF - alpha) / 0xFF

/-- A colour is what the composition of two colours is, but for a difference of one in a channel. -/
def Blends (dst src result : UInt32) : Prop :=
  ∀ channel ∈ channels,
    |(channel result : ℚ) - porterDuffOver (channel dst) (channel src) (alphaOf src)| ≤ 1

/-- The function that blends is precise for the two colours: it need not blend them, or in every
channel the destination has next to nothing to add, or the sum is next to the maximum. -/
def Precise (dst src : UInt32) : Prop :=
  alphaOf src = 0xFF ∨ alphaOf dst = 0 ∨ alphaOf src = 0 ∨
    ∀ channel ∈ channels, channel dst * (0xFF - alphaOf src) ≤ 1 ∨
      0xFF * 0xFE ≤ 0xFF * channel src + channel dst * (0xFF - alphaOf src)

/-- The value that the function gives to a channel. -/
def blendedChannel (dst src alpha : Nat) : Nat := min 0xFF (src + dst * (0xFF - alpha))

theorem blendComponent_toNat {dst src alpha : UInt32} (dstBound : dst.toNat < 0x100)
    (srcBound : src.toNat < 0x100) (alphaBound : alpha.toNat < 0x100) :
    (blendComponent dst src alpha).toNat = blendedChannel dst.toNat src.toNat alpha.toNat := by
  have rest : (0xFF - alpha).toNat = 0xFF - alpha.toNat :=
    UInt32.toNat_sub_of_le _ _ (UInt32.le_iff_toNat_le.mpr (Nat.le_of_lt_succ alphaBound))
  have small : dst.toNat * (0xFF - alpha.toNat) ≤ 0xFF * 0xFF :=
    Nat.mul_le_mul (by omega) (by omega)
  have product : (dst * (0xFF - alpha)).toNat = dst.toNat * (0xFF - alpha.toNat) := by
    rw [UInt32.toNat_mul, rest]
    exact Nat.mod_eq_of_lt (by omega)
  have sum : (src + dst * (0xFF - alpha)).toNat = src.toNat + dst.toNat * (0xFF - alpha.toNat) := by
    rw [UInt32.toNat_add, product]
    exact Nat.mod_eq_of_lt (by omega)
  unfold blendComponent blendedChannel
  dsimp only
  by_cases exceeds : src + dst * (0xFF - alpha) > 0xFF
  · have more := UInt32.lt_iff_toNat_lt.mp exceeds
    rw [sum] at more
    change 0xFF < _ at more
    rw [if_pos exceeds, Nat.min_eq_left (Nat.le_of_lt more)]
    rfl
  · have most := UInt32.le_iff_toNat_le.mp (UInt32.not_lt.mp exceeds)
    rw [sum] at most
    change _ ≤ 0xFF at most
    rw [if_neg exceeds, sum, Nat.min_eq_right most]

theorem toNat_alpha (color : UInt32) : ((color >>> 24) &&& 0xFF).toNat = alphaOf color :=
  (Word.toNat_byte color 24 (by decide)).trans (Nat.mod_eq_of_lt (alphaOf_lt color))

theorem argbBlend_channel {dst src : UInt32} (partly : ¬(alphaOf src = 0xFF ∨ alphaOf dst = 0))
    (visible : alphaOf src ≠ 0) {channel : UInt32 → Nat} (member : channel ∈ channels) :
    channel (argbBlend dst src) = blendedChannel (channel dst) (channel src) (alphaOf src) := by
  have red (color : UInt32) : ((color >>> 16) &&& 0xFF).toNat = redOf color :=
    Word.toNat_byte color 16 (by decide)
  have green (color : UInt32) : ((color >>> 8) &&& 0xFF).toNat = greenOf color :=
    Word.toNat_byte color 8 (by decide)
  have blue (color : UInt32) : (color &&& 0xFF).toNat = blueOf color := by
    rw [UInt32.toNat_and]
    exact Nat.and_two_pow_sub_one_eq_mod _ 8
  have low (value : Nat) : value % 0x100 < 0x100 := Nat.mod_lt _ (by decide)
  -- What the function makes of a channel is a byte again.
  have component {first second : UInt32} {dstValue srcValue : Nat}
      (firstValue : first.toNat = dstValue) (secondValue : second.toNat = srcValue)
      (firstBound : dstValue < 0x100) (secondBound : srcValue < 0x100) :
      (blendComponent first second ((src >>> 24) &&& 0xFF)).toNat =
          blendedChannel dstValue srcValue (alphaOf src) ∧
        (blendComponent first second ((src >>> 24) &&& 0xFF)).toNat < 0x100 := by
    subst firstValue secondValue
    have value := blendComponent_toNat firstBound secondBound
      (toNat_alpha src ▸ alphaOf_lt src : ((src >>> 24) &&& 0xFF).toNat < 0x100)
    rw [toNat_alpha] at value
    refine ⟨value, ?_⟩
    rw [value]
    exact Nat.lt_succ_of_le (Nat.min_le_left _ _)
  obtain ⟨redValue, redByte⟩ := component (red dst) (red src) (low _) (low _)
  obtain ⟨greenValue, greenByte⟩ := component (green dst) (green src) (low _) (low _)
  obtain ⟨blueValue, blueByte⟩ := component (blue dst) (blue src) (low _) (low _)
  obtain ⟨alphaValue, alphaByte⟩ :=
    component (toNat_alpha dst) (toNat_alpha src) (alphaOf_lt dst) (alphaOf_lt src)
  have whole := Word.toNat_bytes alphaByte redByte greenByte blueByte
  have source : ¬((src >>> 24) &&& 0xFF = 0xFF ∨ (dst >>> 24) &&& 0xFF = 0x00) := by
    rintro (full | zero)
    · exact partly (.inl ((toNat_alpha src).symm.trans (congrArg UInt32.toNat full)))
    · exact partly (.inr ((toNat_alpha dst).symm.trans (congrArg UInt32.toNat zero)))
  have drawn : ¬(src >>> 24) &&& 0xFF = 0x00 := fun zero =>
    visible ((toNat_alpha src).symm.trans (congrArg UInt32.toNat zero))
  unfold argbBlend
  dsimp only
  rw [if_neg source, if_neg drawn]
  simp only [channels, List.mem_cons, List.not_mem_nil, or_false] at member
  rcases member with rfl | rfl | rfl | rfl
  · rw [← alphaValue]
    unfold alphaOf
    rw [whole]
    omega
  · rw [← redValue]
    unfold redOf
    rw [whole]
    omega
  · rw [← greenValue]
    unfold greenOf
    rw [whole]
    omega
  · rw [← blueValue]
    unfold blueOf
    rw [whole]
    omega

/-- The function is within one of the composition where the destination has next to nothing to add,
or the sum is next to the maximum. -/
theorem blendedChannel_close_iff {dst src alpha : Nat} (dstBound : dst ≤ 0xFF)
    (srcBound : src ≤ alpha) (alphaBound : alpha ≤ 0xFF) :
    |(blendedChannel dst src alpha : ℚ) - porterDuffOver dst src alpha| ≤ 1 ↔
      dst * (0xFF - alpha) ≤ 1 ∨ 0xFF * 0xFE ≤ 0xFF * src + dst * (0xFF - alpha) := by
  have added : ((dst * (0xFF - alpha) : Nat) : ℚ) = dst * (0xFF - alpha) := by
    rw [Nat.cast_mul, Nat.cast_sub alphaBound]
    rfl
  have most : dst * (0xFF - alpha) ≤ 0xFF * (0xFF - alpha) := Nat.mul_le_mul_right _ dstBound
  unfold porterDuffOver blendedChannel
  rw [← added]
  generalize dst * (0xFF - alpha) = sum at most ⊢
  -- The difference, scaled up to whole numbers.
  have scaled : |((min 0xFF (src + sum) : Nat) : ℚ) - (src + sum / 0xFF)| ≤ 1 ↔
      |(0xFF * (min 0xFF (src + sum) : Nat) : ℤ) - (0xFF * src + sum)| ≤ 0xFF := by
    have quotient : ((min 0xFF (src + sum) : Nat) : ℚ) - (src + sum / 0xFF) =
        ((0xFF * (min 0xFF (src + sum) : Nat) - (0xFF * src + sum) : ℤ) : ℚ) / 0xFF := by
      push_cast
      ring
    have positive : (0 : ℚ) < 0xFF := by norm_num
    rw [quotient, abs_div, abs_of_pos positive, div_le_one positive, ← Int.cast_abs]
    exact_mod_cast Iff.rfl
  rw [scaled, abs_le]
  omega

theorem argbBlend_source {dst src : UInt32} (whole : alphaOf src = 0xFF ∨ alphaOf dst = 0) :
    argbBlend dst src = src := by
  have bytes : (src >>> 24) &&& 0xFF = 0xFF ∨ (dst >>> 24) &&& 0xFF = 0x00 := by
    rcases whole with full | zero
    · exact .inl (UInt32.toNat_inj.mp ((toNat_alpha src).trans full))
    · exact .inr (UInt32.toNat_inj.mp ((toNat_alpha dst).trans zero))
  exact if_pos bytes

theorem argbBlend_destination {dst src : UInt32} (partly : ¬(alphaOf src = 0xFF ∨ alphaOf dst = 0))
    (invisible : alphaOf src = 0) : argbBlend dst src = dst := by
  have bytes : ¬((src >>> 24) &&& 0xFF = 0xFF ∨ (dst >>> 24) &&& 0xFF = 0x00) := by
    rintro (full | zero)
    · exact partly (.inl ((toNat_alpha src).symm.trans (congrArg UInt32.toNat full)))
    · exact partly (.inr ((toNat_alpha dst).symm.trans (congrArg UInt32.toNat zero)))
  have zero : (src >>> 24) &&& 0xFF = 0x00 :=
    UInt32.toNat_inj.mp ((toNat_alpha src).trans invisible)
  exact (if_neg bytes).trans (if_pos zero)

/-- A channel that is composed exactly. -/
theorem close_of_eq {result dst src alpha : Nat}
    (exact : (result : ℚ) = porterDuffOver dst src alpha) :
    |(result : ℚ) - porterDuffOver dst src alpha| ≤ 1 := by
  rw [exact, sub_self, abs_zero]
  exact zero_le_one

/-- **Blending two colours** composes them up to one in each channel exactly if it is precise for
them. -/
theorem argbBlend_blends_iff {dst src : UInt32} (srcPremultiplied : Premultiplied src)
    (dstPremultiplied : Premultiplied dst) :
    Blends dst src (argbBlend dst src) ↔ Precise dst src := by
  by_cases whole : alphaOf src = 0xFF ∨ alphaOf dst = 0
  · refine iff_of_true (fun channel member => close_of_eq ?_) ?_
    · rw [argbBlend_source whole]
      unfold porterDuffOver
      rcases whole with full | zero
      · rw [full]
        norm_num
      · have none : channel dst = 0 := Nat.le_zero.mp (zero ▸ dstPremultiplied channel member)
        rw [none]
        norm_num
    · rcases whole with full | zero
      · exact .inl full
      · exact .inr (.inl zero)
  by_cases invisible : alphaOf src = 0
  · refine iff_of_true (fun channel member => close_of_eq ?_) (.inr (.inr (.inl invisible)))
    have none : channel src = 0 := Nat.le_zero.mp (invisible ▸ srcPremultiplied channel member)
    rw [argbBlend_destination whole invisible, invisible, none]
    unfold porterDuffOver
    norm_num
  have bound {channel : UInt32 → Nat} (member : channel ∈ channels) : channel dst ≤ 0xFF :=
    (dstPremultiplied channel member).trans (Nat.le_of_lt_succ (alphaOf_lt dst))
  have close {channel : UInt32 → Nat} (member : channel ∈ channels) := by
    have value := blendedChannel_close_iff (bound member) (srcPremultiplied channel member)
      (Nat.le_of_lt_succ (alphaOf_lt src))
    rw [← argbBlend_channel whole invisible member] at value
    exact value
  constructor
  · intro blends
    exact .inr (.inr (.inr fun channel member => (close member).mp (blends channel member)))
  · rintro (full | zero | zero | precise)
    · exact absurd (.inl full) whole
    · exact absurd (.inr zero) whole
    · exact absurd zero invisible
    · exact fun channel member => (close member).mpr (precise channel member)

/-- **Drawing with an alpha channel** composes every pixel of the rectangle with the one of the
image, up to one in each channel, and leaves the others alone, exactly if blending is precise for
every pixel of the rectangle. -/
theorem putPixels_blends_iff (src : Pixels) (source : Point) (dst : Pixels) (rect : Rect)
    (srcPremultiplied : ∀ point, Premultiplied (src point))
    (dstPremultiplied : ∀ point, Premultiplied (dst point)) :
    (∀ point, rect.Contains point →
        Blends (dst point) (src (rect.sourceOf source point))
          ((putPixels src source dst rect false).1 point)) ∧
      (∀ point, ¬rect.Contains point →
        (putPixels src source dst rect false).1 point = dst point) ↔
      ∀ point, rect.Contains point → Precise (dst point) (src (rect.sourceOf source point)) := by
  have blended {point : Point} (contains : rect.Contains point) :
      Blends (dst point) (src (rect.sourceOf source point))
          ((putPixels src source dst rect false).1 point) ↔
        Precise (dst point) (src (rect.sourceOf source point)) := by
    rw [putPixels_inside _ _ _ _ contains, if_neg Bool.false_ne_true]
    exact argbBlend_blends_iff (srcPremultiplied _) (dstPremultiplied _)
  constructor
  · intro drawn point contains
    exact (blended contains).mp (drawn.1 point contains)
  · intro precise
    exact ⟨fun point contains => (blended contains).mpr (precise point contains),
      fun point outside => putPixels_outside _ _ _ _ outside⟩

theorem premultiplied_of_channels {color : UInt32} (red : redOf color ≤ alphaOf color)
    (green : greenOf color ≤ alphaOf color) (blue : blueOf color ≤ alphaOf color) :
    Premultiplied color :=
  List.forall_mem_cons.mpr ⟨Nat.le_refl _, List.forall_mem_cons.mpr ⟨red,
    List.forall_mem_cons.mpr ⟨green, List.forall_mem_singleton.mpr blue⟩⟩⟩

/-- A transparent image leaves a white pixel as it is. -/
theorem transparent_image_blends :
    (∀ point, Rect.Contains ⟨0, 0, 1, 1⟩ point →
        Blends 0xFFFFFFFF 0 ((putPixels (fun _ => 0) (0, 0) (fun _ => 0xFFFFFFFF) ⟨0, 0, 1, 1⟩
          false).1 point)) ∧
      ∀ point, ¬Rect.Contains ⟨0, 0, 1, 1⟩ point →
        (putPixels (fun _ => 0) (0, 0) (fun _ => 0xFFFFFFFF) ⟨0, 0, 1, 1⟩ false).1 point =
          0xFFFFFFFF :=
  (putPixels_blends_iff (fun _ => 0) (0, 0) (fun _ => 0xFFFFFFFF) ⟨0, 0, 1, 1⟩
    (fun _ => premultiplied_of_channels (by decide) (by decide) (by decide))
    (fun _ => premultiplied_of_channels (by decide) (by decide) (by decide))).mpr
    fun _ _ => .inr (.inr (.inl (by decide)))

/-- Black drawn with half its opacity leaves a white pixel white, which ought to become gray. -/
theorem half_black_on_white_is_white :
    ¬∀ src source dst rect, (∀ point, Premultiplied (src point)) →
      (∀ point, Premultiplied (dst point)) →
      (∀ point, Rect.Contains rect point →
        Blends (dst point) (src (rect.sourceOf source point))
          ((putPixels src source dst rect false).1 point)) ∧
      ∀ point, ¬Rect.Contains rect point →
        (putPixels src source dst rect false).1 point = dst point := by
  intro composes
  have drawn := composes (fun _ => 0x80000000) (0, 0) (fun _ => 0xFFFFFFFF) ⟨0, 0, 1, 1⟩
    (fun _ => premultiplied_of_channels (by decide) (by decide) (by decide))
    (fun _ => premultiplied_of_channels (by decide) (by decide) (by decide))
  have red := drawn.1 (0, 0) (by decide) redOf (by simp [channels])
  have white : (putPixels (fun _ => 0x80000000) (0, 0) (fun _ => 0xFFFFFFFF) ⟨0, 0, 1, 1⟩ false).1
      (0, 0) = 0xFFFFFFFF := by decide
  rw [white] at red
  have result : redOf 0xFFFFFFFF = 0xFF := by decide
  have black : redOf 0x80000000 = 0 := by decide
  have half : alphaOf 0x80000000 = 0x80 := by decide
  unfold porterDuffOver at red
  rw [result, black, half] at red
  norm_num [abs_le] at red

end GuacNebula.Common
