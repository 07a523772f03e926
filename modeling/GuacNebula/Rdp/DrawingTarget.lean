import GuacNebula.Lib.Run
import GuacNebula.Rdp.Bitmap

/-! # The drawing surface

The surface that orders are applied to may belong to a bitmap, which the server can free at any time.
Nothing selects another surface then.

The main result is `drawing_target_iff`: the surface that is drawn on is that of the display or of a
bitmap that is not freed, and no order is applied to a freed surface, if and only if no bitmap is
freed while its surface is drawn on.
-/

namespace GuacNebula.Rdp

open Run

namespace RdpClient

variable {client grown : RdpClient}

/-- The surface is not freed. -/
def Live (client : RdpClient) (surface : SurfaceId) : Prop :=
  surface = defaultSurface ∨ surface ∈ client.buffers

/-- The bitmap is cached in the surface. -/
def CachedIn (client : RdpClient) (id : Nat) (surface : SurfaceId) : Prop :=
  ∃ guac, client.bitmaps id = some guac ∧ guac.layer = some surface

/-- The surface that is drawn on is that of the display or of a bitmap that is not freed. -/
def TargetValid (client : RdpClient) : Prop :=
  client.currentSurface = defaultSurface ∨ ∃ id, client.CachedIn id client.currentSurface

/-- Every bitmap has its own buffer. -/
structure Owned (client : RdpClient) : Prop where
  default : defaultSurface < client.allocated
  fresh : ∀ surface ∈ client.buffers, surface < client.allocated
  notDefault : defaultSurface ∉ client.buffers
  unborn : ∀ id, client.created ≤ id → client.bitmaps id = none
  buffer : ∀ id surface, client.CachedIn id surface → surface ∈ client.buffers
  single : ∀ first second surface, client.CachedIn first surface → client.CachedIn second surface →
    first = second

theorem Owned.live (owned : client.Owned) (valid : client.TargetValid) :
    client.Live client.currentSurface := by
  rcases valid with default | ⟨id, cached⟩
  · exact Or.inl default
  · exact Or.inr (owned.buffer id _ cached)

@[simp] theorem setBitmap_cachedIn {id other : Nat} {bitmap : Option GuacBitmap}
    {surface : SurfaceId} :
    (client.setBitmap id bitmap).CachedIn other surface ↔
      if other = id then ∃ guac, bitmap = some guac ∧ guac.layer = some surface
      else client.CachedIn other surface := by
  unfold CachedIn setBitmap
  dsimp only
  by_cases same : other = id
  · rw [same, Function.update_self, if_pos rfl]
  · rw [Function.update_of_ne same, if_neg same]

theorem bitmapFree_cachedIn {id other : Nat} {surface : SurfaceId} :
    (client.bitmapFree id).CachedIn other surface ↔
      other ≠ id ∧ client.CachedIn other surface := by
  unfold bitmapFree
  cases found : client.bitmaps id with
  | none =>
      refine ⟨fun cached => ⟨?_, cached⟩, And.right⟩
      rintro rfl
      obtain ⟨guac, again, -⟩ := cached
      exact absurd (found.symm.trans again) (Option.some_ne_none guac).symm
  | some guac =>
      dsimp only
      rw [setBitmap_cachedIn]
      split_ifs with same
      · simp [same]
      · cases guac.layer with
        | none => exact ⟨fun cached => ⟨same, cached⟩, And.right⟩
        | some buffer => exact ⟨fun cached => ⟨same, cached⟩, And.right⟩

theorem bitmapFree_current (id : Nat) :
    (client.bitmapFree id).currentSurface = client.currentSurface := by
  unfold bitmapFree
  cases client.bitmaps id with
  | none => rfl
  | some guac =>
      cases layer : guac.layer with
      | none => simp [layer, setBitmap]
      | some buffer => simp [layer, setBitmap, freeBuffer]

/-- A client that only got more buffers. -/
structure Grows (client grown : RdpClient) : Prop where
  current : grown.currentSurface = client.currentSurface
  owned : grown.Owned
  live : ∀ surface, client.Live surface → grown.Live surface
  cached : ∀ id surface, client.CachedIn id surface → grown.CachedIn id surface

theorem Owned.grows (owned : client.Owned) : client.Grows client :=
  ⟨rfl, owned, fun _ live => live, fun _ _ cached => cached⟩

theorem Grows.trans {more : RdpClient} (first : client.Grows grown) (second : grown.Grows more) :
    client.Grows more where
  current := second.current.trans first.current
  owned := second.owned
  live := fun surface live => second.live surface (first.live surface live)
  cached := fun id surface cached => second.cached id surface (first.cached id surface cached)

theorem Grows.targetValid (grows : client.Grows grown) (valid : client.TargetValid) :
    grown.TargetValid := by
  unfold TargetValid
  rw [grows.current]
  exact valid.imp_right fun ⟨id, cached⟩ => ⟨id, grows.cached id _ cached⟩

/-- Every surface that the calls refer to is not freed. -/
def AllLive (client : RdpClient) (calls : List SurfaceCall) : Prop :=
  ∀ call ∈ calls, ∀ surface ∈ call.surfaces, client.Live surface

@[simp] theorem allLive_nil : client.AllLive [] := fun _ member => absurd member List.not_mem_nil

theorem allLive_append {first second : List SurfaceCall} :
    client.AllLive (first ++ second) ↔ client.AllLive first ∧ client.AllLive second :=
  List.forall_mem_append

theorem allLive_singleton {call : SurfaceCall} :
    client.AllLive [call] ↔ ∀ surface ∈ call.surfaces, client.Live surface :=
  List.forall_mem_singleton

theorem Grows.allLive (grows : client.Grows grown) {calls : List SurfaceCall}
    (live : client.AllLive calls) : grown.AllLive calls :=
  fun call member surface used => grows.live surface (live call member surface used)

/-! ## Bitmaps -/

section

variable (owned : client.Owned) {bitmap : RdpBitmap} {guac : GuacBitmap}
include owned

theorem countUse_grows (id : Nat) : client.Grows (client.countUse id) := by
  have cached : ∀ other surface,
      (client.countUse id).CachedIn other surface ↔ client.CachedIn other surface := by
    intro other surface
    unfold countUse
    rw [setBitmap_cachedIn]
    split_ifs with same
    · rw [same]
      unfold CachedIn
      cases client.bitmaps id with
      | none => simp
      | some guac => simp
    · exact Iff.rfl
  refine ⟨rfl, ⟨owned.default, owned.fresh, owned.notDefault, fun other late => ?_, ?_, ?_⟩,
    fun _ live => live, fun other surface => (cached other surface).mpr⟩
  · change Function.update client.bitmaps id _ other = none
    by_cases same : other = id
    · rw [same, Function.update_self, owned.unborn id (same ▸ late), Option.map_none]
    · rw [Function.update_of_ne same, owned.unborn other late]
  · exact fun other surface known => owned.buffer other surface ((cached other surface).mp known)
  · exact fun first second surface left right => owned.single first second surface
      ((cached first surface).mp left) ((cached second surface).mp right)

/-- A bitmap that is cached gets a buffer that no other bitmap has. -/
theorem cacheBitmap_grows (found : client.bitmaps bitmap.id = some guac)
    (uncached : guac.layer = none) :
    client.Grows (client.cacheBitmap bitmap guac).1
      ∧ (client.cacheBitmap bitmap guac).1.Live (client.cacheBitmap bitmap guac).2.1
      ∧ (client.cacheBitmap bitmap guac).1.AllLive (client.cacheBitmap bitmap guac).2.2
      ∧ (client.cacheBitmap bitmap guac).1.CachedIn bitmap.id
          (client.cacheBitmap bitmap guac).2.1 := by
  have absent : ∀ surface, ¬ client.CachedIn bitmap.id surface := by
    rintro surface ⟨other, again, layer⟩
    obtain rfl := Option.some.inj (found.symm.trans again)
    exact absurd (uncached.symm.trans layer) (Option.some_ne_none surface).symm
  have cached : ∀ id surface, (client.cacheBitmap bitmap guac).1.CachedIn id surface ↔
      if id = bitmap.id then surface = client.allocated else client.CachedIn id surface := by
    intro id surface
    unfold cacheBitmap
    rw [setBitmap_cachedIn]
    split_ifs with same
    · simp [allocBuffer, eq_comm]
    · exact Iff.rfl
  have newest : ∀ id, ¬ client.CachedIn id client.allocated := fun id known =>
    absurd (owned.fresh _ (owned.buffer id _ known)) (lt_irrefl _)
  have live : (client.cacheBitmap bitmap guac).1.Live client.allocated :=
    Or.inr List.mem_cons_self
  refine ⟨⟨rfl, ⟨?_, ?_, ?_, ?_, ?_, ?_⟩, ?_, ?_⟩, live, ?_, ?_⟩
  · exact Nat.lt_succ_of_lt owned.default
  · intro surface member
    rcases List.mem_cons.mp member with rfl | old
    · exact Nat.lt_succ_self _
    · exact Nat.lt_succ_of_lt (owned.fresh surface old)
  · intro member
    rcases List.mem_cons.mp member with same | old
    · exact absurd owned.default (same ▸ lt_irrefl _)
    · exact owned.notDefault old
  · intro id late
    change Function.update client.bitmaps bitmap.id _ id = none
    rw [Function.update_of_ne, owned.unborn id late]
    rintro rfl
    exact absurd (found.symm.trans (owned.unborn _ late)) (Option.some_ne_none guac)
  · intro id surface known
    rw [cached] at known
    split_ifs at known with same
    · exact known ▸ List.mem_cons_self
    · exact List.mem_cons_of_mem _ (owned.buffer id surface known)
  · intro first second surface left right
    rw [cached] at left right
    split_ifs at left right with one two two
    · rw [one, two]
    · exact absurd (left ▸ right) (newest second)
    · exact absurd (right ▸ left) (newest first)
    · exact owned.single first second surface left right
  · exact fun surface old => old.imp_right fun member => List.mem_cons_of_mem _ member
  · intro id surface known
    rw [cached, if_neg]
    · exact known
    · rintro rfl
      exact absent surface known
  · unfold cacheBitmap
    cases bitmap.data with
    | none => exact allLive_nil
    | some data =>
        rw [allLive_singleton]
        intro surface member
        rw [List.mem_singleton.mp member]
        exact live
  · rw [cached, if_pos rfl]
    rfl

theorem cacheIfUsed_grows (found : client.bitmaps bitmap.id = some guac) :
    client.Grows (client.cacheIfUsed bitmap guac).1
      ∧ (∀ surface, (client.cacheIfUsed bitmap guac).2.1 = some surface →
          (client.cacheIfUsed bitmap guac).1.Live surface)
      ∧ (client.cacheIfUsed bitmap guac).1.AllLive (client.cacheIfUsed bitmap guac).2.2 := by
  unfold cacheIfUsed
  split_ifs with caching
  · have uncached : guac.layer = none := by
      rw [Bool.and_eq_true] at caching
      exact Option.isNone_iff_eq_none.mp caching.1
    obtain ⟨grows, live, calls, -⟩ := cacheBitmap_grows owned found uncached
    exact ⟨grows, fun surface same => Option.some.inj same ▸ live, calls⟩
  · exact ⟨owned.grows, fun surface layer => Or.inr (owned.buffer _ _ ⟨guac, found, layer⟩),
      allLive_nil⟩

theorem available_grows (found : client.bitmaps bitmap.id = some guac) :
    client.Grows (client.available bitmap guac).1
      ∧ (client.available bitmap guac).1.Live (client.available bitmap guac).2.1
      ∧ (client.available bitmap guac).1.AllLive (client.available bitmap guac).2.2
      ∧ (client.available bitmap guac).1.CachedIn bitmap.id
          (client.available bitmap guac).2.1 := by
  unfold available
  cases layer : guac.layer with
  | some buffer =>
      have cached : client.CachedIn bitmap.id buffer := ⟨guac, found, layer⟩
      exact ⟨owned.grows, Or.inr (owned.buffer _ _ cached), allLive_nil, cached⟩
  | none => exact cacheBitmap_grows owned found layer

/-- A bitmap is drawn from its buffer or its data, and may be cached. -/
theorem bitmapPaint_grows (bitmap : RdpBitmap) :
    client.Grows (client.bitmapPaint bitmap).1
      ∧ (client.bitmapPaint bitmap).1.AllLive (client.bitmapPaint bitmap).2 := by
  unfold bitmapPaint
  cases found : client.bitmaps bitmap.id with
  | none => exact ⟨owned.grows, allLive_nil⟩
  | some guac =>
      dsimp only
      obtain ⟨caching, -, calls⟩ := cacheIfUsed_grows owned found
      have counting := countUse_grows caching.owned bitmap.id
      refine ⟨caching.trans counting, allLive_append.mpr ⟨counting.allLive calls, ?_⟩⟩
      cases layer : guac.layer with
      | some buffer =>
          have live : client.Live buffer := Or.inr (owned.buffer _ _ ⟨guac, found, layer⟩)
          rw [allLive_singleton]
          intro surface member
          rcases List.mem_pair.mp member with rfl | rfl
          · exact (caching.trans counting).live _ live
          · exact Or.inl rfl
      | none =>
          cases bitmap.data with
          | none => exact allLive_nil
          | some data =>
              rw [allLive_singleton]
              intro surface member
              exact Or.inl (List.mem_singleton.mp member)

/-- A bitmap that is created is not cached. -/
theorem bitmapNew_grows : client.Grows client.bitmapNew := by
  have cached : ∀ id surface, client.bitmapNew.CachedIn id surface ↔ client.CachedIn id surface := by
    intro id surface
    unfold CachedIn bitmapNew
    dsimp only
    by_cases same : id = client.created
    · rw [same, Function.update_self, owned.unborn _ le_rfl]
      simp
    · rw [Function.update_of_ne same]
  refine ⟨rfl, ⟨owned.default, owned.fresh, owned.notDefault, fun id late => ?_, ?_, ?_⟩,
    fun _ live => live, fun id surface => (cached id surface).mpr⟩
  · change Function.update client.bitmaps client.created _ id = none
    rw [Function.update_of_ne (Nat.ne_of_gt late), owned.unborn id (Nat.le_of_succ_le late)]
  · exact fun id surface known => owned.buffer id surface ((cached id surface).mp known)
  · exact fun first second surface left right => owned.single first second surface
      ((cached first surface).mp left) ((cached second surface).mp right)

/-- Another surface is drawn on. -/
theorem Owned.select (surface : SurfaceId) :
    Owned { client with currentSurface := surface } :=
  ⟨owned.default, owned.fresh, owned.notDefault, owned.unborn, owned.buffer, owned.single⟩

theorem bitmapSetsurface_sound (valid : client.TargetValid) (bitmap : Option RdpBitmap)
    (primary : Bool) :
    (client.bitmapSetsurface bitmap primary).1.Owned
      ∧ (client.bitmapSetsurface bitmap primary).1.TargetValid
      ∧ (client.bitmapSetsurface bitmap primary).1.AllLive
          (client.bitmapSetsurface bitmap primary).2 := by
  unfold bitmapSetsurface
  split_ifs with toPrimary
  · exact ⟨owned.select _, Or.inl rfl, allLive_nil⟩
  · cases bitmap with
    | none => exact ⟨owned, valid, allLive_nil⟩
    | some bitmap =>
        dsimp only
        cases found : client.bitmaps bitmap.id with
        | none => exact ⟨owned, valid, allLive_nil⟩
        | some guac =>
            obtain ⟨grows, -, calls, cached⟩ := available_grows owned found
            exact ⟨grows.owned.select _, Or.inr ⟨bitmap.id, cached⟩, calls⟩

/-- Freeing a bitmap leaves the buffers of the others. -/
theorem bitmapFree_owned (id : Nat) : (client.bitmapFree id).Owned := by
  have single : ∀ first second surface, (client.bitmapFree id).CachedIn first surface →
      (client.bitmapFree id).CachedIn second surface → first = second :=
    fun first second surface left right => owned.single first second surface
      (bitmapFree_cachedIn.mp left).2 (bitmapFree_cachedIn.mp right).2
  have kept : ∀ other surface, (client.bitmapFree id).CachedIn other surface →
      surface ∈ client.buffers ∧ ¬ client.CachedIn id surface := by
    intro other surface cached
    obtain ⟨differs, before⟩ := bitmapFree_cachedIn.mp cached
    exact ⟨owned.buffer other surface before,
      fun mine => differs (owned.single other id surface before mine)⟩
  cases found : client.bitmaps id with
  | none =>
      unfold bitmapFree
      rw [found]
      exact owned
  | some guac =>
      have unborn : ∀ other, client.created ≤ other →
          Function.update client.bitmaps id none other = none := by
        intro other late
        by_cases same : other = id
        · rw [same, Function.update_self]
        · rw [Function.update_of_ne same, owned.unborn other late]
      unfold bitmapFree at kept single ⊢
      rw [found] at kept single ⊢
      cases layer : guac.layer with
      | none =>
          simp only [layer] at kept single ⊢
          exact ⟨owned.default, owned.fresh, owned.notDefault, unborn,
            fun other surface cached => (kept other surface cached).1, single⟩
      | some buffer =>
          simp only [layer] at kept single ⊢
          refine ⟨owned.default, fun surface member => ?_, fun member => ?_, unborn,
            fun other surface cached => ?_, single⟩
          · exact owned.fresh surface (List.mem_of_mem_erase member)
          · exact owned.notDefault (List.mem_of_mem_erase member)
          · obtain ⟨member, mine⟩ := kept other surface cached
            refine (List.mem_erase_of_ne ?_).mpr member
            rintro rfl
            exact mine ⟨guac, found, layer⟩

/-- The surface that is drawn on stays valid exactly if it does not belong to the freed bitmap. -/
theorem bitmapFree_targetValid (valid : client.TargetValid) (id : Nat) :
    (client.bitmapFree id).TargetValid ↔ ¬ client.CachedIn id client.currentSurface := by
  unfold TargetValid
  rw [bitmapFree_current]
  constructor
  · rintro (default | ⟨other, cached⟩) mine
    · exact owned.notDefault (default ▸ owned.buffer id _ mine)
    · obtain ⟨differs, before⟩ := bitmapFree_cachedIn.mp cached
      exact differs (owned.single other id _ before mine)
  · intro mine
    refine valid.imp_right fun ⟨other, cached⟩ => ⟨other, bitmapFree_cachedIn.mpr ⟨?_, cached⟩⟩
    rintro rfl
    exact mine cached

/-! ## Drawing orders -/

variable (valid : client.TargetValid)
include valid

theorem gdiDstblt_live (bRop : Nat) (area : Common.Rect) :
    client.AllLive (client.gdiDstblt bRop area) := by
  have live := owned.live valid
  unfold gdiDstblt
  split <;> simp [AllLive, SurfaceCall.surfaces, live]

theorem gdiPatblt_live (bRop : Nat) (area : Common.Rect) (foreColor : UInt32) :
    client.AllLive (client.gdiPatblt bRop area foreColor) := by
  have live := owned.live valid
  unfold gdiPatblt
  split <;> simp [AllLive, SurfaceCall.surfaces, live]

theorem gdiMemblt_grows (bRop : Nat) (bitmap : Option RdpBitmap) (source : Common.Rect)
    (x y : Int) :
    client.Grows (client.gdiMemblt bRop bitmap source x y).1
      ∧ (client.gdiMemblt bRop bitmap source x y).1.AllLive
          (client.gdiMemblt bRop bitmap source x y).2 := by
  have live := owned.live valid
  have set : ∀ area color, client.AllLive [.set client.currentSurface area color] := by
    intro area color
    rw [allLive_singleton]
    intro surface member
    exact List.mem_singleton.mp member ▸ live
  unfold gdiMemblt
  cases bitmap with
  | none => exact ⟨owned.grows, allLive_nil⟩
  | some bitmap =>
      dsimp only
      cases found : client.bitmaps bitmap.id with
      | none => exact ⟨owned.grows, allLive_nil⟩
      | some guac =>
          dsimp only
          split
          · exact ⟨owned.grows, set _ _⟩
          · exact ⟨owned.grows, allLive_nil⟩
          · obtain ⟨caching, layer, calls⟩ := cacheIfUsed_grows owned found
            have counting := countUse_grows caching.owned bitmap.id
            have target := (caching.trans counting).live _ live
            refine ⟨caching.trans counting, allLive_append.mpr ⟨counting.allLive calls, ?_⟩⟩
            split
            next buffer cached =>
              rw [allLive_singleton]
              intro surface member
              rcases List.mem_pair.mp member with rfl | rfl
              · exact counting.live _ (layer _ cached)
              · exact target
            next =>
              split
              · rw [allLive_singleton]
                intro surface member
                exact List.mem_singleton.mp member ▸ target
              · exact allLive_nil
          · exact ⟨owned.grows, set _ _⟩
          · obtain ⟨caching, layer, calls, -⟩ := available_grows owned found
            have counting := countUse_grows caching.owned bitmap.id
            have target := (caching.trans counting).live _ live
            refine ⟨caching.trans counting, allLive_append.mpr ⟨counting.allLive calls, ?_⟩⟩
            rw [allLive_singleton]
            intro surface member
            rcases List.mem_pair.mp member with rfl | rfl
            · exact counting.live _ layer
            · exact target

end

end RdpClient

/-! ## Sessions -/

/-- The surface of the bitmap that is freed is not drawn on. -/
def FreedElsewhere (client : RdpClient) : ServerOrder → Prop
  | .bitmapFree id => ¬ client.CachedIn id client.currentSurface
  | _ => True

/-- The order is applied to surfaces that are not freed, and draws from such. -/
def AppliedLive (client : RdpClient) (order : ServerOrder) : Prop :=
  (orderStep client order).AllLive (client.order order).2

variable {client : RdpClient}

open RdpClient

theorem order_owned (owned : client.Owned) (valid : client.TargetValid) (order : ServerOrder) :
    (orderStep client order).Owned := by
  cases order with
  | bitmapNew => exact (bitmapNew_grows owned).owned
  | bitmapPaint bitmap => exact (bitmapPaint_grows owned bitmap).1.owned
  | bitmapFree id => exact bitmapFree_owned owned id
  | bitmapSetsurface bitmap primary => exact (bitmapSetsurface_sound owned valid bitmap primary).1
  | memblt bRop bitmap source x y => exact (gdiMemblt_grows owned valid bRop bitmap source x y).1.owned
  | glyphBegindraw area fgcolor bgcolor redundant =>
      exact ⟨owned.default, owned.fresh, owned.notDefault, owned.unborn, owned.buffer, owned.single⟩
  | dstblt | patblt | scrblt | opaquerect | glyphDraw => exact owned

/-- Only a bitmap that is freed while its surface is drawn on takes the surface away. -/
theorem order_targetValid (owned : client.Owned) (valid : client.TargetValid)
    (order : ServerOrder) :
    (orderStep client order).TargetValid ↔ FreedElsewhere client order := by
  cases order with
  | bitmapNew => exact iff_of_true ((bitmapNew_grows owned).targetValid valid) trivial
  | bitmapPaint bitmap =>
      exact iff_of_true ((bitmapPaint_grows owned bitmap).1.targetValid valid) trivial
  | bitmapFree id => exact bitmapFree_targetValid owned valid id
  | bitmapSetsurface bitmap primary =>
      exact iff_of_true (bitmapSetsurface_sound owned valid bitmap primary).2.1 trivial
  | memblt bRop bitmap source x y =>
      exact iff_of_true ((gdiMemblt_grows owned valid bRop bitmap source x y).1.targetValid valid)
        trivial
  | dstblt | patblt | scrblt | opaquerect | glyphBegindraw | glyphDraw =>
      exact iff_of_true valid trivial

/-- While the surface is valid, every order is applied to surfaces that are not freed. -/
theorem order_appliedLive (owned : client.Owned) (valid : client.TargetValid)
    (order : ServerOrder) : AppliedLive client order := by
  have live := owned.live valid
  cases order with
  | bitmapNew => exact allLive_nil
  | bitmapPaint bitmap => exact (bitmapPaint_grows owned bitmap).2
  | bitmapFree id => exact allLive_nil
  | bitmapSetsurface bitmap primary => exact (bitmapSetsurface_sound owned valid bitmap primary).2.2
  | memblt bRop bitmap source x y => exact (gdiMemblt_grows owned valid bRop bitmap source x y).2
  | dstblt bRop area => exact gdiDstblt_live owned valid bRop area
  | patblt bRop area foreColor => exact gdiPatblt_live owned valid bRop area foreColor
  | scrblt source x y =>
      refine allLive_singleton.mpr fun surface member => ?_
      rcases List.mem_pair.mp member with rfl | rfl
      · exact Or.inl rfl
      · exact live
  | opaquerect area color =>
      exact allLive_singleton.mpr fun surface member => List.mem_singleton.mp member ▸ live
  | glyphBegindraw area fgcolor bgcolor redundant =>
      change AllLive _ (if _ then _ else _)
      split_ifs
      · exact allLive_singleton.mpr fun surface member => List.mem_singleton.mp member ▸ live
      · exact allLive_nil
  | glyphDraw glyph x y =>
      exact allLive_singleton.mpr fun surface member => List.mem_singleton.mp member ▸ live

theorem start_owned : RdpClient.start.Owned where
  default := Nat.one_pos
  fresh := fun _ member => absurd member List.not_mem_nil
  notDefault := List.not_mem_nil
  unborn := fun _ _ => rfl
  buffer := fun _ _ ⟨_, found, _⟩ => absurd found.symm (Option.some_ne_none _)
  single := fun _ _ _ ⟨_, found, _⟩ => absurd found.symm (Option.some_ne_none _)

/-- The surface that is drawn on is always valid, and no order is applied to a freed surface, if and
only if no bitmap is freed while its surface is drawn on. -/
theorem drawing_target_iff (orders : List ServerOrder) :
    Always orderStep TargetValid RdpClient.start orders
        ∧ Guarded orderStep AppliedLive RdpClient.start orders ↔
      Guarded orderStep FreedElsewhere RdpClient.start orders := by
  have valid : RdpClient.start.TargetValid := Or.inl rfl
  have exact : Always orderStep TargetValid RdpClient.start orders ↔
      Guarded orderStep FreedElsewhere RdpClient.start orders :=
    always_iff_guarded valid start_owned
      (fun _ order owned valid _ => order_owned owned valid order)
      (fun _ order owned valid => order_targetValid owned valid order)
  refine ⟨fun kept => exact.mp kept.1, fun elsewhere => ⟨exact.mpr elsewhere, ?_⟩⟩
  have sound : Always orderStep (fun client => client.Owned ∧ client.TargetValid)
      RdpClient.start orders := by
    refine elsewhere.always ⟨start_owned, valid⟩ fun client order ⟨owned, valid⟩ met => ?_
    exact ⟨order_owned owned valid order, (order_targetValid owned valid order).mpr met⟩
  exact sound.guarded fun client order ⟨owned, valid⟩ => order_appliedLive owned valid order

/-- The bitmap that is drawn on is freed, and a rectangle is filled in its surface. -/
theorem drawing_target_freed :
    ¬ (Always orderStep TargetValid RdpClient.start
          [.bitmapNew, .bitmapSetsurface (some ⟨0, 8, 8, 0, 0, 7, 7, none⟩) false,
            .bitmapFree 0, .opaquerect ⟨0, 0, 4, 4⟩ 0xFF]
        ∧ Guarded orderStep AppliedLive RdpClient.start
          [.bitmapNew, .bitmapSetsurface (some ⟨0, 8, 8, 0, 0, 7, 7, none⟩) false,
            .bitmapFree 0, .opaquerect ⟨0, 0, 4, 4⟩ 0xFF]) := by
  rintro ⟨-, -, -, -, applied, -⟩
  rcases applied _ List.mem_cons_self _ List.mem_cons_self with default | buffer
  · exact absurd default Nat.one_ne_zero
  · exact absurd buffer List.not_mem_nil

end GuacNebula.Rdp
