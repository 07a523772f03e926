import GuacNebula.Common.Surface
import GuacNebula.Lib.Audience
import GuacNebula.Lib.Run

/-! # The shared cursor

All users of a connection share one cursor. Its position is sent to everyone except the user who
moves it, its image to everyone, and a user who joins is sent both. So at any time each of them has
the position and the image that the cursor has.

The image is copied into a buffer that grows on demand, and which the Cairo surface reads whenever
the image is sent. The room needed is computed as a `size_t`, the length of the copy as an `int`.
-/

namespace GuacNebula.Common

open CInt Run

/-- `GUAC_COMMON_CURSOR_DEFAULT_SIZE`. -/
def cursorDefaultSize : Nat := 64 * 64 * 4

/-- An image as it is sent: its rows, of pixels of four bytes. -/
abbrev CursorImage := List (List (List UInt8))

/-- The Cairo surface of a cursor, which reads the image buffer. -/
structure CursorSurface where
  width : Int
  height : Int
  stride : Int
  deriving DecidableEq, Repr

/-- The image that a surface reads from a buffer. -/
def CursorSurface.image (surface : CursorSurface) (buffer : Nat → UInt8) : CursorImage :=
  (List.range surface.height.toNat).map fun row : Nat =>
    (List.range surface.width.toNat).map fun column : Nat =>
      (List.range 4).map fun byte : Nat => buffer (row * surface.stride + column * 4 + byte).toNat

/-- `guac_common_cursor`. The program has no `overrun`: it is set when a copy leaves the image
buffer, or the data that is copied. -/
structure CommonCursor (User : Type) where
  imageBuffer : Nat → UInt8
  imageBufferSize : Nat
  width : Int
  height : Int
  surface : Option CursorSurface
  hotspotX : Int
  hotspotY : Int
  user : Option User
  timestamp : Int
  x : Int
  y : Int
  buttonMask : Int
  overrun : Bool := false

/-- The instructions that concern a cursor and its buffer. -/
inductive CursorMessage where
  | mouse (x y buttonMask timestamp : Int)
  | size (width height : Int)
  | png (image : CursorImage)
  | cursor (hotspotX hotspotY width height : Int)
  deriving DecidableEq, Repr

/-! ## The built-in images -/

/-- The macros that the built-in images are written with. -/
inductive CursorPixel where
  | X | U | O | T
  deriving DecidableEq, Repr

/-- The bytes of a macro. `T` is the underscore of the source. -/
def CursorPixel.bytes : CursorPixel → List UInt8
  | X => [0x00, 0x00, 0x00, 0xFF]
  | U => [0x80, 0x80, 0x80, 0xFF]
  | O => [0xFF, 0xFF, 0xFF, 0xFF]
  | T => [0x00, 0x00, 0x00, 0x00]

section Graphics

open CursorPixel

/-- `guac_common_pointer_cursor`. -/
def pointerCursor : List CursorPixel :=
  [O, T, T, T, T, T, T, T, T, T, T,
    O, O, T, T, T, T, T, T, T, T, T,
    O, X, O, T, T, T, T, T, T, T, T,
    O, X, X, O, T, T, T, T, T, T, T,
    O, X, X, X, O, T, T, T, T, T, T,
    O, X, X, X, X, O, T, T, T, T, T,
    O, X, X, X, X, X, O, T, T, T, T,
    O, X, X, X, X, X, X, O, T, T, T,
    O, X, X, X, X, X, X, X, O, T, T,
    O, X, X, X, X, X, X, X, X, O, T,
    O, X, X, X, X, X, O, O, O, O, O,
    O, X, X, O, X, X, O, T, T, T, T,
    O, X, O, T, O, X, X, O, T, T, T,
    O, O, T, T, O, X, X, O, T, T, T,
    O, T, T, T, T, O, X, X, O, T, T,
    T, T, T, T, T, O, O, O, O, T, T]

/-- `guac_common_dot_cursor`. -/
def dotCursor : List CursorPixel :=
  [T, O, O, O, T,
    O, X, X, X, O,
    O, X, X, X, O,
    O, X, X, X, O,
    T, O, O, O, T]

/-- `guac_common_ibar_cursor`. -/
def ibarCursor : List CursorPixel :=
  [X, X, X, X, X, X, X,
    X, O, O, U, O, O, X,
    X, X, X, O, X, X, X,
    T, T, X, O, X, T, T,
    T, T, X, O, X, T, T,
    T, T, X, O, X, T, T,
    T, T, X, O, X, T, T,
    T, T, X, O, X, T, T,
    T, T, X, O, X, T, T,
    T, T, X, O, X, T, T,
    T, T, X, O, X, T, T,
    T, T, X, O, X, T, T,
    T, T, X, O, X, T, T,
    X, X, X, O, X, X, X,
    X, O, O, U, O, O, X,
    X, X, X, X, X, X, X]

/-- `guac_common_blank_cursor`. -/
def blankCursor : List CursorPixel := [T]

end Graphics

/-! ## Functions -/

namespace CommonCursor

variable {User : Type}

/-- `guac_common_cursor_alloc`, with what the memory holds that is not initialised. -/
def alloc (imageBuffer : Nat → UInt8) (buttonMask timestamp : Int) : CommonCursor User where
  imageBuffer := imageBuffer
  imageBufferSize := cursorDefaultSize
  width := 0
  height := 0
  surface := none
  hotspotX := 0
  hotspotY := 0
  user := none
  timestamp := timestamp
  x := 0
  y := 0
  buttonMask := buttonMask

variable (cursor : CommonCursor User)

/-- The image that is read from the image buffer, and the instruction that shows it. -/
def imageMessages (surface : CursorSurface) : List CursorMessage :=
  [.size cursor.width cursor.height, .png (surface.image cursor.imageBuffer),
    .cursor cursor.hotspotX cursor.hotspotY cursor.width cursor.height]

/-- `guac_common_cursor_dup`: what is sent to a user who joins. -/
def dup : List CursorMessage :=
  .mouse cursor.x cursor.y cursor.buttonMask cursor.timestamp ::
    (cursor.surface.toList.flatMap cursor.imageMessages)

/-- `guac_common_cursor_broadcast_state`: what is sent to every user but the current one. -/
def broadcastState : CursorMessage :=
  .mouse cursor.x cursor.y cursor.buttonMask cursor.timestamp

/-- `guac_common_cursor_update`, before the state is broadcast. -/
def update (user : User) (x y buttonMask now : Int) : CommonCursor User :=
  { cursor with user := some user, x := x, y := y, buttonMask := buttonMask, timestamp := now }

/-- `guac_common_cursor_resize`, unless it aborts. -/
def resize (height stride : Int) : Option (CommonCursor User) := do
  let minimumSize ← checkedMul [toSize height, toSize stride]
  if cursor.imageBufferSize < minimumSize then
    let imageBufferSize ← checkedMul [minimumSize, 2]
    some { cursor with imageBufferSize := imageBufferSize }
  else some cursor

/-- `guac_common_cursor_set_argb`, with what it sends to all users, unless it aborts. -/
def setArgb (hx hy : Int) (data : List UInt8) (width height stride : Int) :
    Option (CommonCursor User × List CursorMessage) := do
  let cursor ← cursor.resize height stride
  let count := toSize (toInt (height * stride))
  let surface : CursorSurface := { width := width, height := height, stride := stride }
  let cursor :=
    { cursor with
      imageBuffer := fun index =>
        if index < count then data.getD index 0 else cursor.imageBuffer index
      overrun := cursor.overrun || cursor.imageBufferSize < count || data.length < count
      surface := some surface
      width := width
      height := height
      hotspotX := hx
      hotspotY := hy }
  some (cursor, cursor.imageMessages surface)

/-- The buffer of a surface, whose pixels are stored with the lowest byte first. -/
def surfaceBytes (surface : Surface) : List UInt8 :=
  (List.range surface.height.toNat).flatMap fun y : Nat =>
    (List.range surface.width.toNat).flatMap fun x : Nat =>
      (List.range 4).map fun byte : Nat =>
        UInt8.ofNat ((surface.pixels (x, y)).toNat / 256 ^ byte % 256)

/-- `guac_common_cursor_set_surface`. -/
def setSurface (hx hy : Int) (surface : Surface) :
    Option (CommonCursor User × List CursorMessage) :=
  cursor.setArgb hx hy (surfaceBytes surface) surface.width surface.height (surface.width * 4)

/-- `guac_common_cursor_set_pointer`. -/
def setPointer : Option (CommonCursor User × List CursorMessage) :=
  cursor.setArgb 0 0 (pointerCursor.flatMap CursorPixel.bytes) 11 16 44

/-- `guac_common_cursor_set_dot`. -/
def setDot : Option (CommonCursor User × List CursorMessage) :=
  cursor.setArgb 2 2 (dotCursor.flatMap CursorPixel.bytes) 5 5 20

/-- `guac_common_cursor_set_ibar`. -/
def setIbar : Option (CommonCursor User × List CursorMessage) :=
  cursor.setArgb (Int.tdiv 7 2) (Int.tdiv 16 2) (ibarCursor.flatMap CursorPixel.bytes) 7 16 28

/-- `guac_common_cursor_set_blank`. -/
def setBlank : Option (CommonCursor User × List CursorMessage) :=
  cursor.setArgb 0 0 (blankCursor.flatMap CursorPixel.bytes) 1 1 4

/-- `guac_common_cursor_remove_user`. -/
def removeUser [DecidableEq User] (user : User) : CommonCursor User :=
  if cursor.user = some user then { cursor with user := none } else cursor

end CommonCursor

/-! ## What users see -/

/-- What a user sees: where the pointer is and which buttons are pressed, the contents of the
buffer, and the image of the pointer with its hotspot and size. -/
structure CursorView where
  mouse : Option (Int × Int × Int) := none
  buffer : CursorImage := []
  shown : Option (Int × Int × Int × Int × CursorImage) := none

/-- The effect of an instruction. The image is drawn to the whole buffer, which has just been given
the size of the image, and the whole buffer is shown. -/
def CursorView.receive (view : CursorView) : CursorMessage → CursorView
  | .mouse x y buttonMask _ => { view with mouse := some (x, y, buttonMask) }
  | .size _ _ => view
  | .png image => { view with buffer := image }
  | .cursor hotspotX hotspotY width height =>
      { view with shown := some (hotspotX, hotspotY, width, height, view.buffer) }

/-- A cursor with the users of its connection. -/
structure CursorSession (User : Type) where
  cursor : CommonCursor User
  audience : Audience User CursorView

/-- Something that concerns the cursor. -/
inductive CursorAction (User : Type) where
  | join (user : User)
  | leave (user : User)
  | move (user : User) (x y buttonMask now : Int)
  | setArgb (hx hy : Int) (data : List UInt8) (width height stride : Int)
  | setSurface (hx hy : Int) (surface : Surface)
  | setPointer
  | setDot
  | setIbar
  | setBlank

namespace CursorSession

variable {User : Type}

/-- An image has been set, and is sent to all users. -/
def broadcastImage (session : CursorSession User)
    (result : Option (CommonCursor User × List CursorMessage)) : Option (CursorSession User) :=
  result.map fun (cursor, messages) =>
    { cursor, audience := session.audience.toAll fun view => messages.foldl .receive view }

/-- The effect of an action, unless the program aborts. A user who moves the cursor sees it where it
has been moved to. -/
def act [DecidableEq User] (session : CursorSession User) :
    CursorAction User → Option (CursorSession User)
  | .join user =>
      some { session with
        audience := session.audience.join user (session.cursor.dup.foldl .receive {}) }
  | .leave user =>
      some
        { cursor := session.cursor.removeUser user
          audience := session.audience.leave user }
  | .move user x y buttonMask now =>
      let cursor := session.cursor.update user x y buttonMask now
      let moved := session.audience.toOne user fun view =>
        { view with mouse := some (x, y, buttonMask) }
      some
        { cursor
          audience := moved.toOthers user fun view => view.receive cursor.broadcastState }
  | .setArgb hx hy data width height stride =>
      session.broadcastImage (session.cursor.setArgb hx hy data width height stride)
  | .setSurface hx hy surface =>
      session.broadcastImage (session.cursor.setSurface hx hy surface)
  | .setPointer => session.broadcastImage session.cursor.setPointer
  | .setDot => session.broadcastImage session.cursor.setDot
  | .setIbar => session.broadcastImage session.cursor.setIbar
  | .setBlank => session.broadcastImage session.cursor.setBlank

/-- A new cursor, which nobody sees yet. -/
def start (imageBuffer : Nat → UInt8) (buttonMask timestamp : Int) : CursorSession User where
  cursor := .alloc imageBuffer buttonMask timestamp
  audience := .empty {}

end CursorSession

/-- The session after an action, while the program runs. -/
def cursorStep {User : Type} [DecidableEq User] (session : Option (CursorSession User))
    (action : CursorAction User) : Option (CursorSession User) :=
  session.bind (·.act action)

/-- The image of an action is as large as is said, and its size an `int`. -/
def CursorAction.Fits {User : Type} : CursorAction User → Prop
  | .setArgb _ _ data _ height stride =>
      0 ≤ height ∧ 0 ≤ stride ∧ FitsInt (height * stride) ∧ height * stride ≤ data.length
  | .setSurface _ _ surface =>
      0 ≤ surface.width ∧ 0 ≤ surface.height ∧ FitsInt (surface.height * (surface.width * 4))
  | _ => True

namespace CommonCursor

variable {User : Type} (cursor : CommonCursor User)

/-- What a user sees of the cursor as it is. -/
structure Seen (view : CursorView) : Prop where
  mouse : view.mouse = some (cursor.x, cursor.y, cursor.buttonMask)
  shown : ∀ surface ∈ cursor.surface, view.shown =
    some (cursor.hotspotX, cursor.hotspotY, cursor.width, cursor.height,
      surface.image cursor.imageBuffer)

end CommonCursor

/-- Every user sees the cursor where it is and with the image it has, and no copy of an image has
left its buffer. -/
structure CursorSession.Shared {User : Type} (session : CursorSession User) : Prop where
  sees : session.audience.Sees fun _ view => session.cursor.Seen view
  inside : session.cursor.overrun = false

/-! ## Messages -/

namespace CommonCursor

variable {User : Type} {cursor : CommonCursor User} {view : CursorView}

theorem receive_imageMessages (surface : CursorSurface) (view : CursorView) :
    (cursor.imageMessages surface).foldl CursorView.receive view =
      { view with
        buffer := surface.image cursor.imageBuffer
        shown := some (cursor.hotspotX, cursor.hotspotY, cursor.width, cursor.height,
          surface.image cursor.imageBuffer) } := rfl

/-- A user who joins sees the cursor, whatever has been sent before. -/
theorem dup_seen (cursor : CommonCursor User) (view : CursorView) :
    cursor.Seen (cursor.dup.foldl CursorView.receive view) := by
  unfold dup
  cases image : cursor.surface with
  | none => exact ⟨rfl, fun surface found => absurd (image.symm.trans found) (by simp)⟩
  | some surface =>
      rw [Option.toList_some, List.flatMap_singleton, List.foldl_cons, receive_imageMessages]
      refine ⟨rfl, fun other found => ?_⟩
      rw [Option.some.inj (image.symm.trans found)]

/-- The user who moves the cursor has no part in who sees its image. -/
theorem Seen.update (seen : cursor.Seen view) (user : User) (x y buttonMask now : Int) :
    (cursor.update user x y buttonMask now).Seen { view with mouse := some (x, y, buttonMask) } :=
  ⟨rfl, seen.shown⟩

theorem Seen.removeUser [DecidableEq User] (seen : cursor.Seen view) (user : User) :
    (cursor.removeUser user).Seen view := by
  unfold CommonCursor.removeUser
  split
  · exact ⟨seen.mouse, seen.shown⟩
  · exact seen

theorem checkedMul_pair {left right product : Nat}
    (checked : checkedMul [left, right] = some product) : product = left * right := by
  unfold checkedMul checkedMulFrom checkedMulFrom checkedMulFrom checkedSize at checked
  simp only [Nat.one_mul, Option.bind_eq_some_iff, Option.ite_none_right_eq_some,
    Option.some.injEq] at checked
  obtain ⟨first, ⟨_, rfl⟩, second, ⟨_, rfl⟩, rfl⟩ := checked
  rfl

/-- The number of bytes of an image, as the room for it is computed. -/
theorem toSize_mul_le {height stride : Int} (nonneg : 0 ≤ height) (positive : 0 ≤ stride)
    (fits : FitsInt (height * stride)) :
    toSize (toInt (height * stride)) ≤ toSize height * toSize stride := by
  obtain ⟨rows, rfl⟩ := Int.eq_ofNat_of_zero_le nonneg
  obtain ⟨bytes, rfl⟩ := Int.eq_ofNat_of_zero_le positive
  rw [toInt_of_fits fits]
  rcases Nat.eq_zero_or_pos rows with rfl | some
  · rw [Int.natCast_zero, Int.zero_mul]
    exact Nat.zero_le _
  rcases Nat.eq_zero_or_pos bytes with rfl | more
  · rw [Int.natCast_zero, Int.mul_zero]
    exact Nat.zero_le _
  have product : rows * bytes < 2147483648 := by exact_mod_cast fits.2
  have first := (Nat.le_mul_of_pos_right rows more).trans_lt product
  have second := (Nat.le_mul_of_pos_left bytes some).trans_lt product
  have size {value : Nat} (small : value < 2147483648) : toSize value = value := by
    unfold toSize
    omega
  rw [size first, size second, ← Int.natCast_mul, size product]

/-- What a resize leaves, unless it aborts: room for the image, and all else as it was. -/
theorem resize_eq_some {height stride : Int} {after : CommonCursor User}
    (resized : cursor.resize height stride = some after) :
    ∃ size, after = { cursor with imageBufferSize := size } ∧
      toSize height * toSize stride ≤ size := by
  unfold resize at resized
  obtain ⟨minimum, product, rest⟩ := Option.bind_eq_some_iff.mp resized
  have whole := checkedMul_pair product
  split at rest
  · obtain ⟨size, doubled, grown⟩ := Option.bind_eq_some_iff.mp rest
    have twice := checkedMul_pair doubled
    exact ⟨size, (Option.some.inj grown).symm, by omega⟩
  · exact ⟨cursor.imageBufferSize, (Option.some.inj rest).symm, by omega⟩

/-- Another image has been set, which the messages show. -/
structure Replaces (cursor after : CommonCursor User) (messages : List CursorMessage) : Prop where
  x : after.x = cursor.x
  y : after.y = cursor.y
  buttonMask : after.buttonMask = cursor.buttonMask
  shown : ∃ surface, after.surface = some surface ∧ messages = after.imageMessages surface

variable {hx hy width height stride : Int} {data : List UInt8} {after : CommonCursor User}
  {messages : List CursorMessage}

theorem setArgb_replaces
    (set : cursor.setArgb hx hy data width height stride = some (after, messages)) :
    cursor.Replaces after messages := by
  obtain ⟨resized, grown, rest⟩ := Option.bind_eq_some_iff.mp set
  obtain ⟨size, rfl, _⟩ := resize_eq_some grown
  obtain ⟨rfl, rfl⟩ := Prod.mk.inj (Option.some.inj rest)
  exact ⟨rfl, rfl, rfl, _, rfl, rfl⟩

/-- A copy of an image whose size is an `int` stays within the buffer and the data. -/
theorem setArgb_inside
    (set : cursor.setArgb hx hy data width height stride = some (after, messages))
    (fits : 0 ≤ height ∧ 0 ≤ stride ∧ FitsInt (height * stride) ∧ height * stride ≤ data.length)
    (inside : cursor.overrun = false) : after.overrun = false := by
  obtain ⟨nonneg, positive, small, enough⟩ := fits
  obtain ⟨resized, grown, rest⟩ := Option.bind_eq_some_iff.mp set
  obtain ⟨size, rfl, room⟩ := resize_eq_some grown
  obtain ⟨rfl, rfl⟩ := Prod.mk.inj (Option.some.inj rest)
  have product : 0 ≤ height * stride := Int.mul_nonneg nonneg positive
  have count : (toSize (toInt (height * stride)) : Int) = height * stride := by
    rw [toInt_of_fits small, toSize_of_nonneg product small.2]
  have factors := toSize_mul_le nonneg positive small
  dsimp only
  rw [inside, Bool.false_or, Bool.or_eq_false_iff, decide_eq_false_iff_not, decide_eq_false_iff_not]
  exact ⟨by omega, by omega⟩

theorem bytes_length (pixels : List CursorPixel) :
    (pixels.flatMap CursorPixel.bytes).length = pixels.length * 4 := by
  induction pixels with
  | nil => rfl
  | cons pixel pixels ih =>
      have four : pixel.bytes.length = 4 := by cases pixel <;> rfl
      rw [List.flatMap_cons, List.length_append, List.length_cons, ih, four]
      omega

theorem surfaceBytes_length (surface : Surface) :
    (surfaceBytes surface).length = surface.height.toNat * (surface.width.toNat * 4) := by
  simp [surfaceBytes, List.length_flatMap]

end CommonCursor

/-! ## Runs -/

namespace CursorSession

variable {User : Type} {session next : CursorSession User}

theorem Shared.broadcastImage (shared : session.Shared)
    {result : Option (CommonCursor User × List CursorMessage)}
    (replaces : ∀ after messages, result = some (after, messages) →
      session.cursor.Replaces after messages ∧ after.overrun = false)
    (sent : session.broadcastImage result = some next) : next.Shared := by
  obtain ⟨⟨after, messages⟩, set, rfl⟩ := Option.map_eq_some_iff.mp sent
  obtain ⟨replaced, inside⟩ := replaces after messages set
  refine ⟨?_, inside⟩
  dsimp only
  refine shared.sees.toAll fun _ view seen => ?_
  obtain ⟨surface, found, rfl⟩ := replaced.shown
  rw [CommonCursor.receive_imageMessages]
  constructor
  · rw [replaced.x, replaced.y, replaced.buttonMask]
    exact seen.mouse
  · intro other read
    rw [Option.some.inj (found.symm.trans read)]

theorem Shared.setArgb (shared : session.Shared) {hx hy width height stride : Int}
    {data : List UInt8}
    (fits : 0 ≤ height ∧ 0 ≤ stride ∧ FitsInt (height * stride) ∧ height * stride ≤ data.length)
    (acted : session.broadcastImage (session.cursor.setArgb hx hy data width height stride) =
      some next) : next.Shared := by
  refine shared.broadcastImage (fun after messages set => ?_) acted
  exact ⟨CommonCursor.setArgb_replaces set, CommonCursor.setArgb_inside set fits shared.inside⟩

/-- The same for an image that is built in. -/
theorem Shared.setGraphic (shared : session.Shared) {hx hy width height stride : Int}
    {pixels : List CursorPixel}
    (fits : 0 ≤ height ∧ 0 ≤ stride ∧ FitsInt (height * stride) ∧
      height * stride ≤ (pixels.length * 4 : Nat))
    (acted : session.broadcastImage
      (session.cursor.setArgb hx hy (pixels.flatMap CursorPixel.bytes) width height stride) =
        some next) : next.Shared := by
  rw [← CommonCursor.bytes_length pixels] at fits
  exact shared.setArgb fits acted

/-- An action keeps what all users see in step with the cursor. -/
theorem Shared.act [DecidableEq User] (shared : session.Shared) {action : CursorAction User}
    (fits : action.Fits) (acted : session.act action = some next) : next.Shared := by
  cases action with
  | join user =>
      obtain rfl := Option.some.inj acted
      exact ⟨shared.sees.join (session.cursor.dup_seen {}), shared.inside⟩
  | leave user =>
      obtain rfl := Option.some.inj acted
      refine ⟨?_, ?_⟩
      · exact (shared.sees.leave user).mono fun _ view seen => seen.removeUser user
      · unfold CommonCursor.removeUser
        dsimp only
        split
        · exact shared.inside
        · exact shared.inside
  | move user x y buttonMask now =>
      obtain rfl := Option.some.inj acted
      refine ⟨?_, shared.inside⟩
      dsimp only
      have moved : (session.audience.toOne user fun view =>
          { view with mouse := some (x, y, buttonMask) }).Sees fun other view =>
            if other = user then (session.cursor.update user x y buttonMask now).Seen view
            else session.cursor.Seen view := by
        refine shared.sees.toOne (fun view seen => ?_) fun other view different seen => ?_
        · rw [if_pos rfl]
          exact seen.update user x y buttonMask now
        · rw [if_neg different]
          exact seen
      refine moved.toOthers (fun other view different seen => ?_) fun view seen => ?_
      · rw [if_neg different] at seen
        exact seen.update user x y buttonMask now
      · rw [if_pos rfl] at seen
        exact seen
  | setArgb hx hy data width height stride => exact shared.setArgb fits acted
  | setSurface hx hy surface =>
      obtain ⟨nonneg, positive, small⟩ := fits
      refine shared.setArgb ⟨positive, by omega, small, ?_⟩ acted
      obtain ⟨width, wide⟩ := Int.eq_ofNat_of_zero_le nonneg
      obtain ⟨height, high⟩ := Int.eq_ofNat_of_zero_le positive
      rw [CommonCursor.surfaceBytes_length, wide, high, Int.toNat_natCast, Int.toNat_natCast]
      exact_mod_cast le_rfl
  | setPointer => exact shared.setGraphic ⟨by decide, by decide, by decide, by decide +kernel⟩ acted
  | setDot => exact shared.setGraphic ⟨by decide, by decide, by decide, by decide⟩ acted
  | setIbar => exact shared.setGraphic ⟨by decide, by decide, by decide, by decide⟩ acted
  | setBlank => exact shared.setGraphic ⟨by decide, by decide, by decide, by decide⟩ acted

/-- Nobody sees a new cursor. -/
theorem start_shared (imageBuffer : Nat → UInt8) (buttonMask timestamp : Int) :
    (start imageBuffer buttonMask timestamp : CursorSession User).Shared :=
  ⟨Audience.empty_sees _, rfl⟩

end CursorSession

/-- Whoever joins, leaves and moves the cursor, and whichever images it is given: every user who is
present sees the cursor where it is, with its buttons and its image, as long as the size of every
image is an `int`. No copy of an image leaves its buffer. -/
theorem cursor_shared {User : Type} [DecidableEq User] (imageBuffer : Nat → UInt8)
    (buttonMask timestamp : Int) (actions : List (CursorAction User))
    (fits : ∀ action ∈ actions, action.Fits) :
    ∀ session ∈ exec cursorStep (some (.start imageBuffer buttonMask timestamp)) actions,
      session.Shared := by
  suffices every : ∀ session : Option (CursorSession User), (∀ now ∈ session, now.Shared) →
      ∀ after ∈ exec cursorStep session actions, after.Shared from
    every _ fun now found => Option.some.inj found ▸ CursorSession.start_shared ..
  intro session shared
  induction actions generalizing session with
  | nil => exact shared
  | cons action actions ih =>
      refine ih (fun other member => fits other (List.mem_cons_of_mem _ member)) _ ?_
      intro now found
      obtain ⟨before, present, acted⟩ := Option.bind_eq_some_iff.mp found
      exact (shared before present).act (fits action (List.mem_cons_self ..)) acted

/-- A user moves the cursor, another one joins, an image is set, and the second user takes over. -/
theorem cursor_shared_taken :
    let actions := [.join 1, .move 1 20 30 1 5, .join 2, .setIbar, .move 2 40 50 0 9, .leave 1]
    (exec cursorStep (some (.start (fun _ => 0) 0 0)) actions).isSome ∧
      ∀ session ∈ exec cursorStep (some (.start (fun _ => 0) 0 0)) actions, session.Shared :=
  ⟨rfl, cursor_shared (fun _ => 0) 0 0 _ (by simp [CursorAction.Fits])⟩

end GuacNebula.Common
