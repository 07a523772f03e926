import Mathlib.Data.List.GetD

/-! # Sequences in memory

Values are written behind one another into a memory, and read back in the same order. A write is
given by the bytes that it stores, and a read has to give back the value wherever the memory holds
the bytes of it. Then a sequence of any length is read back, and the reads end where the writes did.

A memory has a byte at every place, before the place where something is written as well as behind
it.
-/

namespace GuacNebula.Codec

variable {Byte : Type*} {memory : Int → Byte} {place : Int} {front back : List Byte}

/-- The memory after bytes have been stored from a place on. -/
def store (memory : Int → Byte) (place : Int) (bytes : List Byte) : Int → Byte := fun index =>
  if place ≤ index then bytes.getD (index - place).toNat (memory index) else memory index

/-- The memory has the bytes from a place on. -/
def HoldsAt (memory : Int → Byte) (place : Int) (bytes : List Byte) : Prop :=
  ∀ index (inside : index < bytes.length), memory (place + index) = bytes[index]

/-- The bytes from a place on. -/
def load (memory : Int → Byte) (place : Int) (count : Nat) : List Byte :=
  (List.range count).map fun index => memory (place + (index : Nat))

@[simp] theorem load_length (memory : Int → Byte) (place : Int) (count : Nat) :
    (load memory place count).length = count := by
  rw [load, List.length_map, List.length_range]

theorem load_add (memory : Int → Byte) (place : Int) (first second : Nat) :
    load memory place (first + second) =
      load memory place first ++ load memory (place + first) second := by
  unfold load
  rw [List.range_add, List.map_append, List.map_map]
  refine congrArg _ (List.map_congr_left fun index _ => ?_)
  rw [Function.comp_apply, Int.natCast_add, Int.add_assoc]

theorem holdsAt_append :
    HoldsAt memory place (front ++ back) ↔
      HoldsAt memory place front ∧ HoldsAt memory (place + front.length) back := by
  constructor
  · intro holds
    constructor
    · intro index inside
      rw [holds index (by rw [List.length_append]; omega), List.getElem_append_left inside]
    · intro index inside
      have behind := holds (front.length + index) (by rw [List.length_append]; omega)
      rw [List.getElem_append_right (Nat.le_add_right ..)] at behind
      simp only [Nat.add_sub_cancel_left] at behind
      rw [← behind]
      congr 1
      omega
  · rintro ⟨first, second⟩ index inside
    by_cases before : index < front.length
    · rw [first index before, List.getElem_append_left before]
    · rw [List.length_append] at inside
      rw [List.getElem_append_right (by omega), ← second (index - front.length) (by omega)]
      congr 1
      omega

theorem HoldsAt.load_eq {bytes : List Byte} (holds : HoldsAt memory place bytes) :
    load memory place bytes.length = bytes := by
  refine List.ext_getElem (load_length ..) fun index inside within => ?_
  simp only [load, List.getElem_map, List.getElem_range]
  exact holds index within

theorem store_holds (memory : Int → Byte) (place : Int) (bytes : List Byte) :
    HoldsAt (store memory place bytes) place bytes := by
  intro index inside
  rw [store, if_pos (by omega), show (place + index - place).toNat = index by omega,
    List.getD_eq_getElem _ _ inside]

/-- What has been stored is loaded. -/
theorem load_store (memory : Int → Byte) (place : Int) (bytes : List Byte) :
    load (store memory place bytes) place bytes.length = bytes :=
  (store_holds memory place bytes).load_eq

/-- Storing does not change what lies before the place. -/
theorem load_store_before (memory : Int → Byte) {place : Int} (bytes : List Byte) {count : Nat}
    {behind : Int} (before : place + count ≤ behind) :
    load (store memory behind bytes) place count = load memory place count := by
  refine List.map_congr_left fun index member => ?_
  have inside := List.mem_range.mp member
  rw [store, if_neg (by omega)]

/-- Bytes that are stored behind one another are stored together. -/
theorem store_store (memory : Int → Byte) (place : Int) (front back : List Byte) :
    store (store memory place front) (place + front.length) back =
      store memory place (front ++ back) := by
  funext index
  unfold store
  by_cases reached : place ≤ index
  · rw [if_pos reached, if_pos reached]
    by_cases before : (index - place).toNat < front.length
    · rw [if_neg (by omega), List.getD_append _ _ _ _ before]
    · rw [if_pos (by omega), List.getD_append_right _ _ _ _ (Nat.not_lt.mp before),
        List.getD_eq_default front _ (Nat.not_lt.mp before)]
      congr 1
      omega
  · rw [if_neg reached, if_neg (by omega), if_neg reached]

/-- What lies before the place where something is stored is kept. -/
theorem HoldsAt.store (holds : HoldsAt memory place front) (bytes : List Byte) :
    HoldsAt (store memory (place + front.length) bytes) place (front ++ bytes) := by
  refine holdsAt_append.mpr ⟨fun index inside => ?_, store_holds _ _ _⟩
  rw [Codec.store, if_neg (by omega), holds index inside]

/-! ## Sequences -/

variable {Value Kind : Type*} {encode : Value → List Byte} {kind : Value → Kind}
  {write : (Int → Byte) × Int → Value → (Int → Byte) × Int}
  {read : Kind → (Int → Byte) → Int → Value × Int}

/-- One value after the other is read. -/
def readAll (read : Kind → (Int → Byte) → Int → Value × Int) (memory : Int → Byte) :
    List Kind → Int → List Value × Int
  | [], place => ([], place)
  | kind :: kinds, place =>
      let first := read kind memory place
      let rest := readAll read memory kinds first.2
      (first.1 :: rest.1, rest.2)

/-- A write stores the bytes of a value, and goes on behind them. -/
def Writes (write : (Int → Byte) × Int → Value → (Int → Byte) × Int) (encode : Value → List Byte) :
    Prop :=
  ∀ memory place value, write (memory, place) value =
    (store memory place (encode value), place + (encode value).length)

/-- A read gives back any value of its kind whose bytes are there, and goes on behind them. -/
def Inverts (read : Kind → (Int → Byte) → Int → Value × Int) (encode : Value → List Byte)
    (kind : Value → Kind) : Prop :=
  ∀ memory place value, HoldsAt memory place (encode value) →
    read (kind value) memory place = (value, place + (encode value).length)

/-- A sequence that is written is stored behind what was there. -/
theorem Writes.foldl (writes : Writes write encode) (values : List Value)
    (holds : HoldsAt memory place front) :
    HoldsAt (values.foldl write (memory, place + front.length)).1 place
        (front ++ values.flatMap encode)
      ∧ (values.foldl write (memory, place + front.length)).2 =
          place + (front ++ values.flatMap encode).length := by
  induction values generalizing memory front with
  | nil =>
      rw [List.flatMap_nil, List.append_nil]
      exact ⟨holds, rfl⟩
  | cons value values ih =>
      have stored := ih (holds.store (encode value))
      rw [List.length_append, Int.natCast_add, ← Int.add_assoc, List.append_assoc] at stored
      rw [List.foldl_cons, writes, List.flatMap_cons]
      exact stored

theorem Inverts.readAll (inverts : Inverts read encode kind) (values : List Value)
    (holds : HoldsAt memory place (values.flatMap encode)) :
    Codec.readAll read memory (values.map kind) place =
      (values, place + (values.flatMap encode).length) := by
  induction values generalizing place with
  | nil => exact Prod.ext rfl (Int.add_zero place).symm
  | cons value values ih =>
      rw [List.flatMap_cons] at holds ⊢
      obtain ⟨first, rest⟩ := holdsAt_append.mp holds
      rw [List.map_cons, Codec.readAll, inverts memory place value first]
      dsimp only
      rw [ih rest, List.length_append, Int.natCast_add, Int.add_assoc]

/-- A sequence is read back where it was written, and the reads end where the writes did. -/
theorem readAll_foldl (writes : Writes write encode) (inverts : Inverts read encode kind)
    (memory : Int → Byte) (place : Int) (values : List Value) :
    readAll read (values.foldl write (memory, place)).1 (values.map kind) place =
      (values, (values.foldl write (memory, place)).2) := by
  have nothing : HoldsAt memory place [] := fun _ inside => absurd inside (Nat.not_lt_zero _)
  have stored := writes.foldl values nothing
  rw [List.nil_append, List.length_nil, Int.natCast_zero, Int.add_zero] at stored
  rw [inverts.readAll values stored.1, stored.2]

end GuacNebula.Codec
