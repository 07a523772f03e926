import Mathlib.Data.List.GetD
import Mathlib.Data.List.TakeWhile

/-! # Strings in memory

A buffer is the start of a memory that has a byte at every place: what lies behind the buffer, and
what was never stored, is whatever the memory holds. A string in it ends before the first byte that
is zero.
-/

namespace GuacNebula.CString

/-- The first bytes of a memory. -/
def bytes (memory : Nat → UInt8) (count : Nat) : List UInt8 := (List.range count).map memory

/-- The memory after bytes have been stored from a place on. -/
def put (memory : Nat → UInt8) (place : Nat) (stored : List UInt8) : Nat → UInt8 := fun index =>
  if place ≤ index then stored.getD (index - place) (memory index) else memory index

/-- The string that a memory starts with, if it ends within so many bytes. -/
def string (memory : Nat → UInt8) (limit : Nat) : List UInt8 :=
  (bytes memory limit).takeWhile (· ≠ 0)

/-- What `snprintf` stores of a text in a buffer of some size. -/
def formatted (size : Nat) (text : List UInt8) : List UInt8 := text.take (size - 1) ++ [0]

variable (memory : Nat → UInt8)

@[simp] theorem bytes_length (count : Nat) : (bytes memory count).length = count := by
  rw [bytes, List.length_map, List.length_range]

theorem zero_not_mem_string (limit : Nat) : 0 ∉ string memory limit := by
  intro member
  have nonzero := List.mem_takeWhile_imp member
  exact of_decide_eq_true nonzero rfl

/-- What has been stored from the start on is read back, and then what the memory held before. -/
theorem bytes_put (stored : List UInt8) (count : Nat) :
    bytes (put memory 0 stored) count =
      stored.take count ++ (bytes memory count).drop stored.length := by
  refine List.ext_getElem ?_ fun index left right => ?_
  · simp only [bytes_length, List.length_append, List.length_take, List.length_drop]
    omega
  · have inside : index < count := by rwa [bytes_length] at left
    simp only [bytes, List.getElem_map, List.getElem_range, put, Nat.zero_le, if_true, Nat.sub_zero]
    by_cases kept : index < stored.length
    · rw [List.getElem_append_left (by rw [List.length_take]; omega), List.getElem_take,
        List.getD_eq_getElem _ _ kept]
    · rw [List.getElem_append_right (by rw [List.length_take]; omega),
        List.getD_eq_default _ _ (Nat.not_lt.mp kept)]
      simp only [List.getElem_drop, List.getElem_map, List.getElem_range, List.length_take]
      congr 1
      omega

/-- What is stored over the end of something stored before stands behind its beginning, and before
what it does not reach. -/
theorem put_put (front back later : List UInt8) :
    put (put memory 0 (front ++ back)) front.length later =
      put memory 0 (front ++ (later ++ back.drop later.length)) := by
  funext index
  simp only [put, Nat.zero_le, if_true, Nat.sub_zero]
  split
  case isTrue behind =>
    rw [List.getD_append_right _ _ _ _ behind, List.getD_append_right _ _ _ _ behind]
    by_cases inside : index - front.length < later.length
    · rw [List.getD_eq_getElem _ _ inside, List.getD_append _ _ _ _ inside,
        List.getD_eq_getElem _ _ inside]
    · have beyond : later.length ≤ index - front.length := Nat.not_lt.mp inside
      rw [List.getD_eq_default _ _ beyond, List.getD_append_right _ _ _ _ beyond,
        List.getD_eq_getElem?_getD, List.getD_eq_getElem?_getD, List.getElem?_drop,
        Nat.add_sub_cancel' beyond]
  case isFalse before =>
    rw [List.getD_append _ _ _ _ (Nat.not_le.mp before),
      List.getD_append _ _ _ _ (Nat.not_le.mp before)]

/-- A text that has been stored with its end is the string in the buffer, whatever lies behind. -/
theorem string_put {text : List UInt8} (nonzero : 0 ∉ text) (behind : List UInt8) {limit : Nat}
    (fits : text.length < limit) : string (put memory 0 (text ++ 0 :: behind)) limit = text := by
  have all : ∀ byte ∈ text, decide (byte ≠ 0) = true := fun byte member =>
    decide_eq_true fun zero => nonzero (zero ▸ member)
  obtain ⟨room, rfl⟩ := Nat.exists_eq_add_of_lt fits
  rw [string, bytes_put, Nat.add_assoc, List.take_length_add_append, List.take_succ_cons,
    List.append_assoc, List.takeWhile_append_of_pos all]
  exact List.append_nil text

/-! ## Buffers -/

/-- A buffer in memory. It is noted when something is stored outside of it. -/
structure Buffer where
  memory : Nat → UInt8
  outside : Bool := false

/-- The bytes that are stored of a string, with its terminator unless there is no space at all. -/
def terminated (size : Nat) (text : List UInt8) : List UInt8 := if size = 0 then [] else text ++ [0]

namespace Buffer

/-- Bytes are stored into a buffer of some size. -/
def store (size : Nat) (buffer : Buffer) (place : Int) (stored : List UInt8) : Buffer where
  memory := put buffer.memory place.toNat (stored.drop (-place).toNat)
  outside := buffer.outside ||
    !(stored.isEmpty || (decide (0 ≤ place) && decide (place + stored.length ≤ size)))

variable {size : Nat} {buffer : Buffer}

/-- What was stored outside is not forgotten. -/
theorem store_outside {place : Int} {stored : List UInt8} :
    (buffer.store size place stored).outside = true ↔
      buffer.outside = true ∨ stored ≠ [] ∧ ¬ (0 ≤ place ∧ place + stored.length ≤ size) := by
  unfold store
  simp only [Bool.or_eq_true, Bool.not_eq_true', Bool.or_eq_false_iff, List.isEmpty_eq_false_iff,
    Bool.and_eq_false_iff, decide_eq_false_iff_not]
  exact or_congr_right (and_congr_right fun _ => Decidable.not_and_iff_not_or_not.symm)

/-- Nothing but the given bytes was stored, from the start of the buffer on. -/
structure Written (size : Nat) (memory : Nat → UInt8) (stored : List UInt8) (buffer : Buffer) :
    Prop where
  memory : buffer.memory = put memory 0 stored
  inside : buffer.outside = false
  fits : stored.length ≤ size

theorem Written.start (size : Nat) (memory : Nat → UInt8) :
    Written size memory [] { memory := memory } where
  memory := by
    funext index
    rw [put, if_pos (Nat.zero_le _)]
    rfl
  inside := rfl
  fits := Nat.zero_le _

/-- Bytes are stored over the end of those that were stored before. -/
theorem Written.store {memory : Nat → UInt8} {front back : List UInt8} {place : Int}
    (written : Written size memory (front ++ back) buffer) (stored : List UInt8)
    (behind : place = front.length) (fits : place + stored.length ≤ size) :
    Written size memory (front ++ (stored ++ back.drop stored.length))
      (buffer.store size place stored) where
  memory := by
    subst behind
    change put buffer.memory _ _ = _
    rw [written.memory, Int.toNat_natCast, Int.toNat_of_nonpos (by omega), List.drop_zero, put_put]
  inside := by
    rw [← Bool.not_eq_true, store_outside, written.inside]
    rintro (outside | ⟨_, outside⟩)
    · exact absurd outside nofun
    · exact outside ⟨by omega, fits⟩
  fits := by
    have before := written.fits
    rw [List.length_append] at before ⊢
    rw [List.length_append, List.length_drop]
    omega

/-- A string is copied over the end of what was stored before, as far as there is space for it. -/
theorem Written.copy {memory : Nat → UInt8} {front back : List UInt8}
    (written : Written size memory (front ++ back) buffer) (source : List UInt8) (place : Int)
    (space : Nat) (behind : place = front.length) (some : 0 < space)
    (fits : place + space ≤ size) :
    ∃ later, Written size memory (front ++ source.take (space - 1) ++ 0 :: later)
      (buffer.store size place (terminated space (source.take (space - 1)))) := by
  have stored : terminated space (source.take (space - 1)) = source.take (space - 1) ++ [0] :=
    if_neg (Nat.ne_of_gt some)
  rw [stored]
  have length : (source.take (space - 1) ++ [0]).length ≤ space := by
    rw [List.length_append, List.length_take, List.length_singleton]
    omega
  have copied := written.store (source.take (space - 1) ++ [0]) behind (by omega)
  rw [List.append_assoc (source.take _), ← List.append_assoc front] at copied
  exact ⟨_, copied⟩

/-- Where there is no space nothing is stored. -/
theorem store_nil (size : Nat) (buffer : Buffer) (place : Int) :
    buffer.store size place [] = buffer := by
  have same : put buffer.memory place.toNat [] = buffer.memory := by
    funext index
    exact ite_self _
  unfold store
  rw [List.drop_nil, same, List.isEmpty_nil, Bool.true_or, Bool.not_true, Bool.or_false]

/-- A string that was stored with its end is the one in the buffer. -/
theorem Written.string {memory : Nat → UInt8} {text behind : List UInt8}
    (written : Written size memory (text ++ 0 :: behind) buffer) (nonzero : 0 ∉ text) :
    CString.string buffer.memory size = text := by
  have fits := written.fits
  rw [List.length_append, List.length_cons] at fits
  rw [written.memory, string_put _ nonzero behind (by omega)]

end Buffer

end GuacNebula.CString
