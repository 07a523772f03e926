import GuacNebula.Common.SurfacePixels
import GuacNebula.Rdp.Bitmap

/-! # Drawing from bitmaps

What the calls on surfaces do. The pixels of an image are loaded from the data of its bitmap, at
addresses that are computed from the offset and the stride of the image. Nothing is drawn after a
load that is out of the data.

Which images Cairo accepts is left to a parameter. An image that it refuses has no data, and the
size of it is zero.
-/

namespace GuacNebula.Rdp

open Common

/-- The word at an address of the data, the lowest byte first. -/
def loadWord (data : List UInt8) (address : Int) : Option UInt32 :=
  if address < 0 then none
  else
    match data.drop address.toNat with
    | blue :: green :: red :: alpha :: _ => some (argb alpha red green blue)
    | _ => none

theorem loadWord_isSome {data : List UInt8} {address : Int} :
    (loadWord data address).isSome ↔ 0 ≤ address ∧ address + 4 ≤ data.length := by
  unfold loadWord
  split_ifs with negative
  · exact iff_of_false (fun loaded => Bool.false_ne_true loaded) fun within =>
      absurd negative (by omega)
  · have length : (data.drop address.toNat).length = data.length - address.toNat :=
      List.length_drop
    split
    · next rest dropped =>
        rw [dropped, List.length_cons, List.length_cons, List.length_cons,
          List.length_cons] at length
        exact iff_of_true rfl ⟨by omega, by omega⟩
    · next short =>
        refine iff_of_false (fun loaded => Bool.false_ne_true loaded) fun within => ?_
        generalize data.drop address.toNat = rest at length short
        match rest with
        | [] | [_] | [_, _] | [_, _, _] =>
            dsimp only [List.length_cons, List.length_nil] at length
            omega
        | blue :: green :: red :: alpha :: rest => exact short blue green red alpha rest rfl

namespace BitmapImage

variable (image : BitmapImage)

/-- The address that a pixel is loaded from. -/
def address (point : Point) : Int := image.offset + image.stride * point.2 + 4 * point.1

def load (point : Point) : Option UInt32 := loadWord image.data (image.address point)

/-- The size of the Cairo surface for an image. -/
def size (accepts : Int → Int → Int → Bool) : Int × Int :=
  if accepts image.width image.height image.stride then (image.width, image.height) else (0, 0)

end BitmapImage

section Calls

variable (accepts : Int → Int → Int → Bool)
  (others : SurfaceCall → (SurfaceId → Surface) → Option (SurfaceId → Surface))
  (environment : Environment)

/-- The surfaces after a call, unless it loads what is not there. -/
def SurfaceCall.run (surfaces : SurfaceId → Surface) : SurfaceCall → Option (SurfaceId → Surface)
  | .draw target x y image =>
      ((surfaces target).drawLoaded environment x y (image.size accepts).1 (image.size accepts).2
        image.load).map fun drawn => (updateSurface surfaces target drawn).1
  | .copy source area target x y =>
      some (transferRect surfaces environment (.copy source) .src source area target x y).1
  | call => others call surfaces

def runCalls (calls : List SurfaceCall) (surfaces : SurfaceId → Surface) :
    Option (SurfaceId → Surface) :=
  calls.foldlM (SurfaceCall.run accepts others environment) surfaces

end Calls

section Pixels

variable {accepts : Int → Int → Int → Bool}
  {others : SurfaceCall → (SurfaceId → Surface) → Option (SurfaceId → Surface)}
  {environment : Environment} {surfaces drawn : SurfaceId → Surface} {source target : SurfaceId}
  {x y : Int} {image : BitmapImage}

/-- The pixels that an image is drawn on. -/
def BitmapImage.Shown (image : BitmapImage) (accepts : Int → Int → Int → Bool)
    (surface : Surface) (x y : Int) (point : Point) : Prop :=
  accepts image.width image.height image.stride = true
    ∧ (surface.clipToRect ⟨x, y, image.width, image.height⟩).Contains point

instance {surface : Surface} {point : Point} :
    Decidable (image.Shown accepts surface x y point) :=
  inferInstanceAs (Decidable (_ ∧ _))

theorem BitmapImage.shown_iff {surface : Surface} {point : Point} :
    image.Shown accepts surface x y point ↔
      (surface.clipToRect ⟨x, y, (image.size accepts).1, (image.size accepts).2⟩).Contains
        point := by
  unfold BitmapImage.Shown BitmapImage.size
  split_ifs with accepted
  · exact and_iff_right accepted
  · refine iff_of_false (fun shown => accepted shown.1) fun contains => ?_
    have sizes := (clipToRect_contains.mp contains).1.nonempty
    exact absurd sizes.1 (lt_irrefl _)

/-- An image is drawn if all of it that is shown can be loaded. -/
theorem run_draw_isSome (good : (surfaces target).Good) :
    (SurfaceCall.run accepts others environment surfaces (.draw target x y image)).isSome ↔
      ∀ point, image.Shown accepts (surfaces target) x y point →
        (image.load (point.1 - x, point.2 - y)).isSome := by
  unfold SurfaceCall.run
  rw [Option.isSome_map, Surface.drawLoaded_isSome good]
  exact forall_congr' fun point => imp_congr_left BitmapImage.shown_iff.symm

/-- What drawing an image makes of the surfaces. -/
theorem run_draw (good : (surfaces target).Good)
    (done : SurfaceCall.run accepts others environment surfaces (.draw target x y image) =
      some drawn) :
    (drawn target).Good
      ∧ (drawn target).bounds = (surfaces target).bounds
      ∧ (∀ other, other ≠ target → drawn other = surfaces other)
      ∧ ∀ point, (drawn target).pixels point =
        if image.Shown accepts (surfaces target) x y point then
          (image.load (point.1 - x, point.2 - y)).getD 0 ||| 0xFF000000
        else (surfaces target).pixels point := by
  unfold SurfaceCall.run at done
  obtain ⟨updated, loaded, rfl⟩ := Option.map_eq_some_iff.mp done
  have self : (updateSurface surfaces target updated).1 target = updated.1 :=
    Function.update_self ..
  obtain rfl := Surface.drawLoaded_drawn good loaded
  rw [self]
  refine ⟨(Surface.draw_drawn good ..).good, Surface.draw_bounds good ..,
    fun other different => Function.update_of_ne different .., fun point => ?_⟩
  rw [Surface.draw_pixels good]
  exact if_congr BitmapImage.shown_iff.symm rfl rfl

end Pixels

end GuacNebula.Rdp
