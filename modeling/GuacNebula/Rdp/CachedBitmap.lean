import GuacNebula.Rdp.BitmapDrawing
import GuacNebula.Rdp.DrawingTarget

/-! # Bitmaps before and after they are cached

A bitmap that is copied for the first time is drawn from its data. It is cached in a buffer when it
is copied again, and its pixels are copied from the buffer. The copy is bounded by the buffer, but
what is drawn from the data is not bounded by the bitmap.

The main result is `cached_agrees_iff`: both ways leave the same pixels, and read no word out of the
data, if and only if all that is shown of the source rectangle lies within the bitmap, but for
pixels that have the same color anyway.
-/

namespace GuacNebula.Rdp

open Common Run

/-! ## Surfaces of a client -/

namespace RdpClient

variable {client : RdpClient}

/-- All surfaces that are referred to were allocated. -/
structure Numbered (client : RdpClient) : Prop where
  current : client.currentSurface < client.allocated
  cached : ∀ id surface, client.CachedIn id surface → surface < client.allocated

theorem Numbered.setBitmap (numbered : client.Numbered) (id : Nat) {bitmap : Option GuacBitmap}
    (layered : ∀ guac, bitmap = some guac → ∀ surface, guac.layer = some surface →
      surface < client.allocated) :
    (client.setBitmap id bitmap).Numbered where
  current := numbered.current
  cached := by
    intro other surface cached
    rw [setBitmap_cachedIn] at cached
    split_ifs at cached
    · obtain ⟨guac, found, layer⟩ := cached
      exact layered guac found surface layer
    · exact numbered.cached other surface cached

theorem Numbered.countUse (numbered : client.Numbered) (id : Nat) :
    (client.countUse id).Numbered := by
  refine numbered.setBitmap id fun guac found surface layer => ?_
  obtain ⟨before, known, rfl⟩ := Option.map_eq_some_iff.mp found
  exact numbered.cached id surface ⟨before, known, layer⟩

theorem Numbered.cacheBitmap (numbered : client.Numbered) (bitmap : RdpBitmap)
    (guac : GuacBitmap) :
    (client.cacheBitmap bitmap guac).1.Numbered
      ∧ (client.cacheBitmap bitmap guac).2.1 < (client.cacheBitmap bitmap guac).1.allocated := by
  have more : client.allocBuffer.1.Numbered :=
    ⟨Nat.lt_succ_of_lt numbered.current, fun id surface cached =>
      Nat.lt_succ_of_lt (numbered.cached id surface cached)⟩
  refine ⟨more.setBitmap bitmap.id fun cached found surface layer => ?_, Nat.lt_succ_self _⟩
  obtain rfl := Option.some.inj found
  obtain rfl := Option.some.inj layer
  exact Nat.lt_succ_self _

theorem Numbered.cacheIfUsed (numbered : client.Numbered) (bitmap : RdpBitmap)
    (guac : GuacBitmap) : (client.cacheIfUsed bitmap guac).1.Numbered := by
  unfold RdpClient.cacheIfUsed
  split_ifs
  · exact (numbered.cacheBitmap bitmap guac).1
  · exact numbered

theorem Numbered.available (numbered : client.Numbered) {bitmap : RdpBitmap} {guac : GuacBitmap}
    (found : client.bitmaps bitmap.id = some guac) :
    (client.available bitmap guac).1.Numbered
      ∧ (client.available bitmap guac).2.1 < (client.available bitmap guac).1.allocated := by
  unfold RdpClient.available
  cases layer : guac.layer with
  | some buffer => exact ⟨numbered, numbered.cached bitmap.id buffer ⟨guac, found, layer⟩⟩
  | none => exact numbered.cacheBitmap bitmap guac

theorem Numbered.bitmapFree (numbered : client.Numbered) (id : Nat) :
    (client.bitmapFree id).Numbered := by
  have allocated : (client.bitmapFree id).allocated = client.allocated := by
    unfold RdpClient.bitmapFree
    cases client.bitmaps id with
    | none => rfl
    | some guac =>
        dsimp only
        cases guac.layer with
        | none => rfl
        | some buffer => rfl
  constructor
  · rw [bitmapFree_current, allocated]
    exact numbered.current
  · intro other surface cached
    rw [allocated]
    exact numbered.cached other surface (bitmapFree_cachedIn.mp cached).2

theorem Numbered.select (numbered : client.Numbered) {surface : SurfaceId}
    (allocated : surface < client.allocated) :
    ({ client with currentSurface := surface } : RdpClient).Numbered :=
  ⟨allocated, numbered.cached⟩

theorem Numbered.bitmapSetsurface (numbered : client.Numbered) (bitmap : Option RdpBitmap)
    (primary : Bool) : (client.bitmapSetsurface bitmap primary).1.Numbered := by
  unfold RdpClient.bitmapSetsurface
  split
  · exact numbered.select (Nat.zero_lt_of_lt numbered.current)
  · cases bitmap with
    | none => exact numbered
    | some bitmap =>
        dsimp only
        cases found : client.bitmaps bitmap.id with
        | none => exact numbered
        | some guac =>
            obtain ⟨cached, allocated⟩ := numbered.available found
            exact cached.select allocated

theorem Numbered.bitmapNew (numbered : client.Numbered) : client.bitmapNew.Numbered := by
  have made : (client.setBitmap client.created (some ⟨none, 0⟩)).Numbered := by
    refine numbered.setBitmap client.created fun guac found surface layer => ?_
    obtain rfl := Option.some.inj found
    exact absurd layer (Option.some_ne_none surface).symm
  exact ⟨made.current, made.cached⟩

theorem Numbered.bitmapPaint (numbered : client.Numbered) (bitmap : RdpBitmap) :
    (client.bitmapPaint bitmap).1.Numbered := by
  unfold RdpClient.bitmapPaint
  cases client.bitmaps bitmap.id with
  | none => exact numbered
  | some guac => exact (numbered.cacheIfUsed bitmap guac).countUse bitmap.id

theorem Numbered.gdiMemblt (numbered : client.Numbered) (bRop : Nat) (bitmap : Option RdpBitmap)
    (source : Rect) (x y : Int) : (client.gdiMemblt bRop bitmap source x y).1.Numbered := by
  unfold RdpClient.gdiMemblt
  cases bitmap with
  | none => exact numbered
  | some bitmap =>
      dsimp only
      cases found : client.bitmaps bitmap.id with
      | none => exact numbered
      | some guac =>
          dsimp only
          split
          · exact numbered
          · exact numbered
          · exact (numbered.cacheIfUsed bitmap guac).countUse bitmap.id
          · exact numbered
          · exact (numbered.available found).1.countUse bitmap.id

theorem order_numbered (numbered : client.Numbered) (order : ServerOrder) :
    (orderStep client order).Numbered := by
  cases order with
  | bitmapNew => exact numbered.bitmapNew
  | bitmapPaint bitmap => exact numbered.bitmapPaint bitmap
  | bitmapFree id => exact numbered.bitmapFree id
  | bitmapSetsurface bitmap primary => exact numbered.bitmapSetsurface bitmap primary
  | memblt bRop bitmap source x y => exact numbered.gdiMemblt bRop bitmap source x y
  | glyphBegindraw area fgcolor bgcolor redundant => exact ⟨numbered.current, numbered.cached⟩
  | dstblt | patblt | scrblt | opaquerect | glyphDraw => exact numbered

theorem exec_numbered (orders : List ServerOrder) :
    (exec orderStep RdpClient.start orders).Numbered := by
  have initial : RdpClient.start.Numbered :=
    ⟨Nat.one_pos, fun _ _ ⟨_, found, _⟩ => absurd found.symm (Option.some_ne_none _)⟩
  exact Always.last (always_invariant initial fun _ order numbered => order_numbered numbered order)

end RdpClient

/-! ## Both ways to draw -/

/-- The bitmap has the data of all its pixels. FreeRDP keeps the length of the data in 32 bits. -/
structure RdpBitmap.Stored (bitmap : RdpBitmap) (bytes : List UInt8) : Prop where
  data : bitmap.data = some bytes
  length : (bytes.length : Int) = 4 * bitmap.width * bitmap.height
  short : (bytes.length : Int) ≤ 4294967296

section Drawing

variable (accepts : Int → Int → Int → Bool)
  (others : SurfaceCall → (SurfaceId → Surface) → Option (SurfaceId → Surface))
  (environment : Environment) (client : RdpClient) (surfaces : SurfaceId → Surface)
  (bitmap : RdpBitmap) (source : Rect) (x y : Int)

/-- The surfaces after a bitmap was copied. -/
def drawCopied : Option (SurfaceId → Surface) :=
  runCalls accepts others environment (client.gdiMemblt 0xCC (some bitmap) source x y).2 surfaces

/-- The surfaces after a bitmap was cached in a buffer and copied then. -/
def drawCached : Option (SurfaceId → Surface) :=
  let cached := client.cacheBitmap bitmap ⟨none, 0⟩
  (runCalls accepts others environment cached.2.2
    (Function.update surfaces cached.2.1 (.alloc bitmap.width bitmap.height true))).bind
      fun surfaces => drawCopied accepts others environment cached.1 surfaces bitmap source x y

/-- A bitmap that is copied before it is cached leaves the same pixels as after. -/
def CachedAgrees (later : Environment) : Prop :=
  ∃ direct copied,
    drawCopied accepts others environment client surfaces bitmap source x y = some direct
      ∧ drawCached accepts others later client surfaces bitmap source x y = some copied
      ∧ (direct client.currentSurface).pixels = (copied client.currentSurface).pixels

end Drawing

/-! ## Pixels of a bitmap -/

/-- The pixel of a source rectangle that is drawn at a point. -/
def startOf (source : Rect) (x y : Int) (point : Point) : Point :=
  (source.x + (point.1 - x), source.y + (point.2 - y))

namespace RdpBitmap

variable (bitmap : RdpBitmap) (bytes : List UInt8) (source : Rect)
  (accepts : Int → Int → Int → Bool) (x y : Int)

def bounds : Rect := ⟨0, 0, bitmap.width, bitmap.height⟩

/-- The image that a bitmap is cached from. -/
def whole : BitmapImage := ⟨bytes, 0, bitmap.width, bitmap.height, 4 * bitmap.width⟩

/-- The image that is drawn of a bitmap that is not cached. -/
def part : BitmapImage :=
  ⟨bytes, 4 * (source.x + source.y * bitmap.width) % 4294967296, source.width, source.height,
    4 * bitmap.width⟩

/-- The pixels of the buffer that a bitmap is cached in. -/
def color (point : Point) : UInt32 :=
  if accepts bitmap.width bitmap.height (4 * bitmap.width) then
    ((bitmap.whole bytes).load point).getD 0 ||| 0xFF000000
  else 0

/-- Nothing tells apart at a point whether the bitmap was cached. -/
def SameAt (surface : Surface) (point : Point) : Prop :=
  let start := startOf source x y point
  if accepts source.width source.height (4 * bitmap.width) then
    if bitmap.bounds.Contains start then
      accepts bitmap.width bitmap.height (4 * bitmap.width) = true
        ∧ 0 ≤ source.x + source.y * bitmap.width
    else
      ∃ word, (bitmap.part bytes source).load (point.1 - x, point.2 - y) = some word
        ∧ word ||| 0xFF000000 = surface.pixels point
  else
    bitmap.bounds.Contains start → bitmap.color bytes accepts start = surface.pixels point

variable {bitmap bytes source}

theorem bounds_contains {point : Point} :
    bitmap.bounds.Contains point ↔
      0 ≤ point.1 ∧ point.1 < bitmap.width ∧ 0 ≤ point.2 ∧ point.2 < bitmap.height := by
  unfold bounds Rect.Contains Rect.right Rect.bottom
  dsimp only
  omega

/-- The word of a pixel within the bitmap lies within the data. -/
theorem Stored.address_within (stored : bitmap.Stored bytes) {point : Point}
    (inside : bitmap.bounds.Contains point) :
    0 ≤ (bitmap.whole bytes).address point
      ∧ (bitmap.whole bytes).address point + 4 ≤ bytes.length := by
  obtain ⟨left, right, top, bottom⟩ := bounds_contains.mp inside
  have rows : 0 ≤ bitmap.width * point.2 := mul_nonneg (by omega) top
  have last : bitmap.width * (point.2 + 1) ≤ bitmap.width * bitmap.height :=
    mul_le_mul_of_nonneg_left bottom (by omega)
  unfold BitmapImage.address whole
  dsimp only
  rw [stored.length, mul_assoc, mul_assoc]
  rw [mul_add, mul_one] at last
  omega

theorem Stored.whole_load (stored : bitmap.Stored bytes) {point : Point}
    (inside : bitmap.bounds.Contains point) : ((bitmap.whole bytes).load point).isSome :=
  loadWord_isSome.mpr (stored.address_within inside)

theorem part_address (point : Point) :
    (bitmap.part bytes source).address (point.1 - x, point.2 - y) =
      (bitmap.whole bytes).address (startOf source x y point)
        + (4 * (source.x + source.y * bitmap.width) % 4294967296
          - 4 * (source.x + source.y * bitmap.width)) := by
  unfold BitmapImage.address part whole startOf
  dsimp only
  ring

/-- A pixel within the bitmap is loaded if and only if the offset of the image did not wrap. -/
theorem Stored.part_load (stored : bitmap.Stored bytes) {point : Point} (right : x ≤ point.1)
    (below : y ≤ point.2) (inside : bitmap.bounds.Contains (startOf source x y point)) :
    (bitmap.part bytes source).load (point.1 - x, point.2 - y) =
      if 0 ≤ source.x + source.y * bitmap.width then
        (bitmap.whole bytes).load (startOf source x y point)
      else none := by
  have within := stored.address_within inside
  have short := stored.short
  have address := @part_address bitmap bytes source x y point
  -- The pixel comes after the first one of the image.
  have first : 4 * (source.x + source.y * bitmap.width) ≤
      (bitmap.whole bytes).address (startOf source x y point) := by
    have rows : 0 ≤ bitmap.width * (point.2 - y) :=
      mul_nonneg (by have := bounds_contains.mp inside; omega) (by omega)
    have split : (bitmap.whole bytes).address (startOf source x y point) =
        4 * (source.x + source.y * bitmap.width) + 4 * (bitmap.width * (point.2 - y))
          + 4 * (point.1 - x) := by
      unfold BitmapImage.address whole startOf
      dsimp only
      ring
    omega
  unfold BitmapImage.load
  rw [address]
  generalize source.x + source.y * bitmap.width = start at first
  generalize (bitmap.whole bytes).address (startOf source x y point) = known at within first
  split_ifs with positive
  · rw [show 4 * start % 4294967296 = 4 * start by omega, sub_self, add_zero]
    rfl
  · rw [← Option.not_isSome_iff_eq_none, loadWord_isSome]
    unfold part
    dsimp only
    omega

end RdpBitmap

/-! ## Calls -/

section Calls

variable {client : RdpClient} {bitmap : RdpBitmap} {bytes : List UInt8}

theorem gdiMemblt_uncached (uncached : client.bitmaps bitmap.id = some ⟨none, 0⟩)
    (data : bitmap.data = some bytes) (source : Rect) (x y : Int) :
    (client.gdiMemblt 0xCC (some bitmap) source x y).2 =
      [.draw client.currentSurface x y (bitmap.part bytes source)] := by
  unfold RdpClient.gdiMemblt RdpClient.cacheIfUsed
  dsimp only
  rw [uncached, data]
  rfl

theorem gdiMemblt_cached {buffer : SurfaceId} {used : Nat}
    (cached : client.bitmaps bitmap.id = some ⟨some buffer, used⟩) (source : Rect) (x y : Int) :
    (client.gdiMemblt 0xCC (some bitmap) source x y).2 =
      [.copy buffer source client.currentSurface x y] := by
  unfold RdpClient.gdiMemblt RdpClient.cacheIfUsed
  dsimp only
  rw [cached]
  rfl

theorem cacheBitmap_bitmaps (guac : GuacBitmap) :
    (client.cacheBitmap bitmap guac).1.bitmaps bitmap.id =
      some ⟨some client.allocated, guac.used⟩ :=
  Function.update_self ..

theorem cacheBitmap_calls (data : bitmap.data = some bytes) (guac : GuacBitmap) :
    (client.cacheBitmap bitmap guac).2.2 =
      [.draw client.allocated 0 0 (bitmap.whole bytes)] := by
  unfold RdpClient.cacheBitmap
  dsimp only
  rw [data]
  rfl

end Calls

section Agreement

variable {accepts : Int → Int → Int → Bool}
  {others : SurfaceCall → (SurfaceId → Surface) → Option (SurfaceId → Surface)}
  {environment later : Environment} {client : RdpClient} {surfaces : SurfaceId → Surface}
  {bitmap : RdpBitmap} {bytes : List UInt8} {source : Rect} {x y : Int}

theorem runCalls_singleton (call : SurfaceCall) :
    runCalls accepts others environment [call] surfaces =
      call.run accepts others environment surfaces :=
  bind_pure _

theorem runCalls_append (first second : List SurfaceCall) :
    runCalls accepts others environment (first ++ second) surfaces =
      (runCalls accepts others environment first surfaces).bind
        (runCalls accepts others environment second) :=
  List.foldlM_append

/-- A bitmap that is copied again is cached, and copied from its buffer. -/
theorem drawCopied_again {used : Nat}
    (again : client.bitmaps bitmap.id = some ⟨none, used + 1⟩) (stored : bitmap.Stored bytes) :
    drawCopied accepts others environment client
        (Function.update surfaces client.allocated (.alloc bitmap.width bitmap.height true))
        bitmap source x y =
      drawCached accepts others environment client surfaces bitmap source x y := by
  have calls : (client.gdiMemblt 0xCC (some bitmap) source x y).2 =
      [.draw client.allocated 0 0 (bitmap.whole bytes)] ++
        [.copy client.allocated source client.currentSurface x y] := by
    rw [← cacheBitmap_calls stored.data ⟨none, used + 1⟩]
    unfold RdpClient.gdiMemblt RdpClient.cacheIfUsed
    dsimp only
    rw [again]
    rfl
  unfold drawCached drawCopied
  dsimp only
  rw [calls, runCalls_append, cacheBitmap_calls stored.data,
    gdiMemblt_cached (cacheBitmap_bitmaps _)]
  rfl

/-- The whole of a bitmap is shown in its buffer if Cairo accepts it. -/
theorem whole_shown {point : Point} (inside : bitmap.bounds.Contains point) :
    (bitmap.whole bytes).Shown accepts (.alloc bitmap.width bitmap.height true) 0 0 point ↔
      accepts bitmap.width bitmap.height (4 * bitmap.width) = true :=
  and_iff_left (clipToRect_contains.mpr ⟨inside, inside⟩)

/-- A bitmap can be cached, and its buffer has the colors of the bitmap. -/
theorem cacheBitmap_drawn (good : ∀ id, (surfaces id).Good) (stored : bitmap.Stored bytes) :
    ∃ cached,
      runCalls accepts others environment (client.cacheBitmap bitmap ⟨none, 0⟩).2.2
          (Function.update surfaces client.allocated (.alloc bitmap.width bitmap.height true)) =
        some cached
      ∧ (∀ id, (cached id).Good)
      ∧ (∀ id, id ≠ client.allocated → cached id = surfaces id)
      ∧ (cached client.allocated).bounds = bitmap.bounds
      ∧ ∀ point, bitmap.bounds.Contains point →
          (cached client.allocated).pixels point = bitmap.color bytes accepts point := by
  rw [cacheBitmap_calls stored.data, runCalls_singleton]
  generalize held : Function.update surfaces client.allocated
    (.alloc bitmap.width bitmap.height true) = start
  have fresh : start client.allocated = .alloc bitmap.width bitmap.height true := by
    rw [← held, Function.update_self]
  have others_kept : ∀ id, id ≠ client.allocated → start id = surfaces id := by
    intro id different
    rw [← held, Function.update_of_ne different]
  have target_good : (start client.allocated).Good := fresh ▸ Surface.alloc_good ..
  have loads : (SurfaceCall.run accepts others environment start
      (.draw client.allocated 0 0 (bitmap.whole bytes))).isSome := by
    refine (run_draw_isSome target_good).mpr fun point shown => ?_
    rw [Int.sub_zero, Int.sub_zero]
    exact stored.whole_load (clipToRect_contains.mp shown.2).1
  obtain ⟨cached, done⟩ := Option.isSome_iff_exists.mp loads
  obtain ⟨drawn_good, bounds, kept, pixels⟩ := run_draw target_good done
  refine ⟨cached, done, fun id => ?_, fun id different => ?_, ?_, fun point inside => ?_⟩
  · by_cases same : id = client.allocated
    · exact same ▸ drawn_good
    · rw [kept id same, others_kept id same]
      exact good id
  · rw [kept id different, others_kept id different]
  · rw [bounds, fresh]
    rfl
  · rw [pixels, fresh, Int.sub_zero, Int.sub_zero]
    exact if_congr (whole_shown inside) rfl rfl

/-- What a copy from the buffer of a bitmap makes of the surface that is drawn on. -/
theorem drawCached_pixels (good : ∀ id, (surfaces id).Good)
    (allocated : client.currentSurface < client.allocated) (stored : bitmap.Stored bytes) :
    ∃ copied,
      drawCached accepts others environment client surfaces bitmap source x y = some copied
      ∧ ∀ point, (copied client.currentSurface).pixels point =
        if ((surfaces client.currentSurface).clipToRect
              ⟨x, y, source.width, source.height⟩).Contains point
            ∧ bitmap.bounds.Contains (startOf source x y point) then
          bitmap.color bytes accepts (startOf source x y point)
        else (surfaces client.currentSurface).pixels point := by
  obtain ⟨cached, done, cached_good, kept, bounds, colors⟩ :=
    @cacheBitmap_drawn accepts others environment client surfaces bitmap bytes good stored
  have different : client.allocated ≠ client.currentSurface := ne_of_gt allocated
  refine ⟨(transferRect cached environment (.copy client.allocated) .src client.allocated source
    client.currentSurface x y).1, ?_, fun point => ?_⟩
  · unfold drawCached drawCopied
    dsimp only
    rw [gdiMemblt_cached (cacheBitmap_bitmaps _)]
    exact congrArg (Option.bind · _) done
  · rw [transferRect_pixels cached_good environment (fun _ _ => rfl) .src different point,
      kept _ different.symm, bounds]
    exact ite_congr rfl (fun both => colors _ both.2) fun _ => rfl

/-- A bitmap that is not cached is drawn if the words of all that is shown are there. -/
theorem drawUncached_isSome (good : ∀ id, (surfaces id).Good)
    (uncached : client.bitmaps bitmap.id = some ⟨none, 0⟩) (stored : bitmap.Stored bytes) :
    (drawCopied accepts others environment client surfaces bitmap source x y).isSome ↔
      ∀ point, (bitmap.part bytes source).Shown accepts (surfaces client.currentSurface) x y
          point →
        ((bitmap.part bytes source).load (point.1 - x, point.2 - y)).isSome := by
  unfold drawCopied
  rw [gdiMemblt_uncached uncached stored.data, runCalls_singleton]
  exact run_draw_isSome (good _)

theorem drawUncached_pixels (good : ∀ id, (surfaces id).Good)
    (uncached : client.bitmaps bitmap.id = some ⟨none, 0⟩) (stored : bitmap.Stored bytes)
    {direct : SurfaceId → Surface}
    (drawn : drawCopied accepts others environment client surfaces bitmap source x y =
      some direct) (point : Point) :
    (direct client.currentSurface).pixels point =
      if (bitmap.part bytes source).Shown accepts (surfaces client.currentSurface) x y point then
        ((bitmap.part bytes source).load (point.1 - x, point.2 - y)).getD 0 ||| 0xFF000000
      else (surfaces client.currentSurface).pixels point := by
  unfold drawCopied at drawn
  rw [gdiMemblt_uncached uncached stored.data, runCalls_singleton] at drawn
  exact (run_draw (good _) drawn).2.2.2 point

theorem opaque_ne_zero (word : UInt32) : word ||| 0xFF000000 ≠ 0 := fun zero =>
  absurd (UInt32.or_eq_zero_iff.mp zero).2 (by decide)

/-- Whether both ways leave the same color at a point of the rectangle that is drawn. -/
theorem sameAt_iff (stored : bitmap.Stored bytes) {surface : Surface} {point : Point}
    (contains : (surface.clipToRect ⟨x, y, source.width, source.height⟩).Contains point) :
    bitmap.SameAt bytes source accepts x y surface point ↔
      ((bitmap.part bytes source).Shown accepts surface x y point →
        ((bitmap.part bytes source).load (point.1 - x, point.2 - y)).isSome)
      ∧ (if (bitmap.part bytes source).Shown accepts surface x y point then
          ((bitmap.part bytes source).load (point.1 - x, point.2 - y)).getD 0 ||| 0xFF000000
        else surface.pixels point) =
        if bitmap.bounds.Contains (startOf source x y point) then
          bitmap.color bytes accepts (startOf source x y point)
        else surface.pixels point := by
  unfold RdpBitmap.SameAt
  dsimp only
  by_cases accepted : accepts source.width source.height (4 * bitmap.width) = true
  · have shown : (bitmap.part bytes source).Shown accepts surface x y point :=
      ⟨accepted, contains⟩
    rw [if_pos accepted, imp_iff_right shown, if_pos shown]
    by_cases inside : bitmap.bounds.Contains (startOf source x y point)
    · obtain ⟨left, -, top, -⟩ := (clipToRect_contains.mp contains).1
      rw [if_pos inside, if_pos inside, stored.part_load x y left top inside]
      obtain ⟨word, loaded⟩ := Option.isSome_iff_exists.mp (stored.whole_load inside)
      unfold RdpBitmap.color
      rw [loaded]
      by_cases start : 0 ≤ source.x + source.y * bitmap.width
      · rw [if_pos start, and_iff_left start, and_iff_right Option.isSome_some]
        split_ifs with whole
        · exact iff_of_true whole rfl
        · exact iff_of_false whole (opaque_ne_zero word)
      · rw [if_neg start]
        exact iff_of_false (fun both => start both.2) fun both => Bool.false_ne_true both.1
    · rw [if_neg inside, if_neg inside]
      cases (bitmap.part bytes source).load (point.1 - x, point.2 - y) with
      | none =>
          exact iff_of_false (fun ⟨_, loaded, _⟩ => Option.some_ne_none _ loaded.symm)
            fun both => Bool.false_ne_true both.1
      | some word =>
          exact ⟨fun ⟨_, loaded, same⟩ => ⟨rfl, Option.some.inj loaded ▸ same⟩,
            fun both => ⟨word, rfl, both.2⟩⟩
  · have hidden : ¬ (bitmap.part bytes source).Shown accepts surface x y point :=
      fun shown => accepted shown.1
    rw [if_neg accepted, if_neg hidden, and_iff_right fun shown => absurd shown hidden]
    by_cases inside : bitmap.bounds.Contains (startOf source x y point)
    · rw [if_pos inside, imp_iff_right inside]
      exact eq_comm
    · rw [if_neg inside]
      exact iff_of_true (fun within => absurd within inside) rfl

/-- Both ways agree if and only if they do at every point of the rectangle. -/
theorem cachedAgrees_iff_sameAt (good : ∀ id, (surfaces id).Good)
    (allocated : client.currentSurface < client.allocated)
    (uncached : client.bitmaps bitmap.id = some ⟨none, 0⟩) (stored : bitmap.Stored bytes) :
    CachedAgrees accepts others environment client surfaces bitmap source x y later ↔
      ∀ point, ((surfaces client.currentSurface).clipToRect
          ⟨x, y, source.width, source.height⟩).Contains point →
        bitmap.SameAt bytes source accepts x y (surfaces client.currentSurface) point := by
  obtain ⟨copied, cached, copied_pixels⟩ :=
    @drawCached_pixels accepts others later client surfaces bitmap bytes source x y good allocated
      stored
  have loads := @drawUncached_isSome accepts others environment client surfaces bitmap bytes source
    x y good uncached stored
  constructor
  · rintro ⟨direct, again, drawn, found, same⟩ point contains
    obtain rfl := Option.some.inj (cached.symm.trans found)
    refine (sameAt_iff stored contains).mpr ⟨loads.mp (Option.isSome_of_eq_some drawn) point, ?_⟩
    have here := congrFun same point
    rw [drawUncached_pixels good uncached stored drawn, copied_pixels] at here
    rw [here]
    exact if_congr (and_iff_right contains) rfl rfl
  · intro same
    have drawable := loads.mpr fun point shown =>
      ((sameAt_iff stored shown.2).mp (same point shown.2)).1 shown
    obtain ⟨direct, drawn⟩ := Option.isSome_iff_exists.mp drawable
    refine ⟨direct, copied, drawn, cached, funext fun point => ?_⟩
    rw [drawUncached_pixels good uncached stored drawn, copied_pixels]
    by_cases contains : ((surfaces client.currentSurface).clipToRect
        ⟨x, y, source.width, source.height⟩).Contains point
    · rw [((sameAt_iff stored contains).mp (same point contains)).2]
      exact if_congr (and_iff_right contains).symm rfl rfl
    · rw [if_neg fun shown => contains shown.2, if_neg fun both => contains both.1]

end Agreement

/-! ## Runs -/

/-- The surfaces after operations on freshly allocated ones. -/
def reachedSurfaces (sizes : SurfaceId → Int × Int) (isBuffer : SurfaceId → Bool)
    (calls : List (SurfaceAction SurfaceId × Environment)) : SurfaceId → Surface :=
  (exec surfaceStep (SurfaceSession.start sizes isBuffer) calls).surfaces

theorem reachedSurfaces_good (sizes : SurfaceId → Int × Int) (isBuffer : SurfaceId → Bool)
    (calls : List (SurfaceAction SurfaceId × Environment)) (id : SurfaceId) :
    (reachedSurfaces sizes isBuffer calls id).Good := by
  have reached : SurfaceSession.Good (exec surfaceStep (.start sizes isBuffer) calls) :=
    Always.last (always_invariant (SurfaceSession.start_good sizes isBuffer)
      fun _ call good => good.step call)
  exact reached.surfaces id

/-- In every state that is reached, a bitmap that is copied before it is cached leaves the same
pixels as after, and reads no word out of its data, if and only if no pixel of the rectangle that is
drawn tells the two apart. -/
theorem cached_agrees_iff (accepts : Int → Int → Int → Bool)
    (others : SurfaceCall → (SurfaceId → Surface) → Option (SurfaceId → Surface))
    (environment later : Environment) (orders : List ServerOrder)
    (sizes : SurfaceId → Int × Int) (isBuffer : SurfaceId → Bool)
    (calls : List (SurfaceAction SurfaceId × Environment)) {bitmap : RdpBitmap}
    {bytes : List UInt8} (stored : bitmap.Stored bytes)
    (uncached : (exec orderStep RdpClient.start orders).bitmaps bitmap.id = some ⟨none, 0⟩)
    (source : Rect) (x y : Int) :
    CachedAgrees accepts others environment (exec orderStep RdpClient.start orders)
        (reachedSurfaces sizes isBuffer calls) bitmap source x y later ↔
      ∀ point,
        ((reachedSurfaces sizes isBuffer calls
          (exec orderStep RdpClient.start orders).currentSurface).clipToRect
            ⟨x, y, source.width, source.height⟩).Contains point →
        bitmap.SameAt bytes source accepts x y
          (reachedSurfaces sizes isBuffer calls
            (exec orderStep RdpClient.start orders).currentSurface) point :=
  cachedAgrees_iff_sameAt (reachedSurfaces_good sizes isBuffer calls)
    (RdpClient.exec_numbered orders).current uncached stored

/-- The images that Cairo accepts. -/
def cairoAccepts (width height stride : Int) : Bool :=
  0 ≤ width ∧ width ≤ 32767 ∧ 0 ≤ height ∧ height ≤ 32767 ∧ 4 * width ≤ stride

/-- The left one of two pixels is drawn. -/
theorem cached_agrees_left :
    CachedAgrees cairoAccepts (fun _ surfaces => some surfaces) ⟨false, 0, 0⟩
      (exec orderStep RdpClient.start [.bitmapNew])
      (reachedSurfaces (fun _ => (4, 4)) (fun _ => false) [])
      ⟨0, 2, 1, 0, 0, 1, 0, some [1, 2, 3, 0, 4, 5, 6, 0]⟩ ⟨0, 0, 1, 1⟩ 0 0 ⟨false, 0, 0⟩ := by
  refine (cached_agrees_iff cairoAccepts (fun _ surfaces => some surfaces) ⟨false, 0, 0⟩
    ⟨false, 0, 0⟩ [.bitmapNew] (fun _ => (4, 4)) (fun _ => false) []
    ⟨rfl, by decide, by decide⟩ rfl ⟨0, 0, 1, 1⟩ 0 0).mpr fun point contains => ?_
  obtain ⟨left, right, top, bottom⟩ := (clipToRect_contains.mp contains).1
  unfold RdpBitmap.SameAt
  dsimp only
  rw [if_pos (by decide), if_pos]
  · exact ⟨by decide, by decide⟩
  · unfold startOf Rect.right Rect.bottom at *
    rw [RdpBitmap.bounds_contains]
    dsimp only at *
    omega

/-- The right one of two pixels is drawn, and the one after it, which is out of the data as long as
the bitmap is not cached. -/
theorem uncached_reads_outside :
    ¬ CachedAgrees cairoAccepts (fun _ surfaces => some surfaces) ⟨false, 0, 0⟩
      (exec orderStep RdpClient.start [.bitmapNew])
      (reachedSurfaces (fun _ => (4, 4)) (fun _ => false) [])
      ⟨0, 2, 1, 0, 0, 1, 0, some [1, 2, 3, 0, 4, 5, 6, 0]⟩ ⟨1, 0, 2, 1⟩ 0 0 ⟨false, 0, 0⟩ := by
  intro agrees
  have same := (cachedAgrees_iff_sameAt (reachedSurfaces_good _ _ []) Nat.one_pos rfl
    ⟨rfl, by decide, by decide⟩).mp agrees (1, 0) (by decide)
  unfold RdpBitmap.SameAt at same
  dsimp only at same
  rw [if_pos (by decide), if_neg (by decide)] at same
  obtain ⟨word, loaded, -⟩ := same
  exact Option.some_ne_none word loaded.symm

end GuacNebula.Rdp
