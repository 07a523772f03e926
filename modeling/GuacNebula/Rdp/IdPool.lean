import Mathlib.Data.List.Nodup
import Mathlib.Data.List.Perm.Basic

/-! # Pools of file IDs

The RDP filesystem draws its file IDs from an integer pool of libguac, which is not part of
this repository. `IdPool` is its interface over an arbitrary state, `IdPool.Lawful` is what
its documentation promises, and `queuePool` is the pool that counts upwards and reuses the
integers given back in the order in which they came.
-/

namespace GuacNebula.Rdp

/-- `GUAC_RDP_FS_MAX_FILES`. -/
def fsMaxFiles : Int := 128

/-- An integer pool. `outstanding` and `valid` are not part of its interface: they are the
views by which the behaviour of a pool is described. -/
structure IdPool (π : Type*) where
  nextInt : π → Int × π
  freeInt : π → Int → π
  outstanding : π → List Int
  valid : π → Prop

/-- What libguac documents of its pools, as far as a table of `fsMaxFiles` slots is concerned:
an integer handed out is not outstanding, and integers are handed out in sequence from zero,
so that they index the table. A pool stays valid as long as the integers given back are
outstanding ones. -/
structure IdPool.Lawful {π : Type*} (pool : IdPool π) : Prop where
  nextInt_fresh : ∀ ids, pool.valid ids → (pool.nextInt ids).1 ∉ pool.outstanding ids
  nextInt_index : ∀ ids, pool.valid ids → ((pool.outstanding ids).length : Int) < fsMaxFiles →
    0 ≤ (pool.nextInt ids).1 ∧ (pool.nextInt ids).1 < fsMaxFiles
  outstanding_nextInt : ∀ ids, pool.valid ids →
    pool.outstanding (pool.nextInt ids).2 = (pool.nextInt ids).1 :: pool.outstanding ids
  valid_nextInt : ∀ ids, pool.valid ids → ((pool.outstanding ids).length : Int) < fsMaxFiles →
    pool.valid (pool.nextInt ids).2
  outstanding_freeInt : ∀ ids id, pool.valid ids → id ∈ pool.outstanding ids →
    pool.outstanding (pool.freeInt ids id) = (pool.outstanding ids).erase id
  valid_freeInt : ∀ ids id, pool.valid ids → id ∈ pool.outstanding ids →
    pool.valid (pool.freeInt ids id)

/-- The state of a `queuePool`. -/
structure QueuePool where
  nextValue : Nat
  free : List Int
  outstanding : List Int
  deriving DecidableEq

/-- Every integer below `nextValue` is either free or outstanding, once. -/
structure QueuePool.Valid (ids : QueuePool) : Prop where
  split : (ids.free ++ ids.outstanding).Perm ((List.range ids.nextValue).map Int.ofNat)
  bounded : (ids.nextValue : Int) ≤ fsMaxFiles

/-- The pool that counts upwards unless an integer was given back. -/
def queuePool : IdPool QueuePool where
  nextInt ids :=
    match ids.free with
    | [] => (ids.nextValue,
        { ids with
          nextValue := ids.nextValue + 1
          outstanding := (ids.nextValue : Int) :: ids.outstanding })
    | id :: free => (id, { ids with free := free, outstanding := id :: ids.outstanding })
  freeInt ids id := { ids with free := ids.free ++ [id], outstanding := ids.outstanding.erase id }
  outstanding := QueuePool.outstanding
  valid := QueuePool.Valid

namespace QueuePool

variable {ids : QueuePool}

theorem Valid.mem_iff (valid : ids.Valid) (id : Int) :
    id ∈ ids.free ∨ id ∈ ids.outstanding ↔ 0 ≤ id ∧ id < ids.nextValue := by
  rw [← List.mem_append, valid.split.mem_iff, List.mem_map]
  constructor
  · rintro ⟨value, member, rfl⟩
    exact ⟨Int.natCast_nonneg value, Int.ofNat_lt.mpr (List.mem_range.mp member)⟩
  · rintro ⟨nonneg, below⟩
    exact ⟨id.toNat, List.mem_range.mpr (by omega), Int.toNat_of_nonneg nonneg⟩

theorem Valid.nodup (valid : ids.Valid) : (ids.free ++ ids.outstanding).Nodup :=
  valid.split.nodup_iff.mpr (List.nodup_range.map fun _ _ => Int.ofNat.inj)

theorem Valid.length (valid : ids.Valid) :
    ids.free.length + ids.outstanding.length = ids.nextValue := by
  rw [← List.length_append, valid.split.length_eq, List.length_map, List.length_range]

theorem Valid.nextInt (valid : ids.Valid) (room : (ids.outstanding.length : Int) < fsMaxFiles) :
    (queuePool.nextInt ids).2.Valid := by
  obtain ⟨nextValue, free, outstanding⟩ := ids
  cases free with
  | nil =>
      have counted : outstanding.length = nextValue := by simpa using valid.length
      refine ⟨?_, ?_⟩
      · have split : outstanding.Perm ((List.range nextValue).map Int.ofNat) := valid.split
        simp only [queuePool, List.nil_append, List.range_succ, List.map_append, List.map_cons,
          List.map_nil]
        exact (split.cons _).trans (List.perm_append_singleton _ _).symm
      · simp only [queuePool]
        simp only at room
        omega
  | cons id free => exact ⟨List.perm_middle.trans valid.split, valid.bounded⟩

theorem Valid.freeInt (valid : ids.Valid) {id : Int} (member : id ∈ ids.outstanding) :
    (queuePool.freeInt ids id).Valid where
  split := by
    simp only [queuePool, List.append_assoc, List.singleton_append]
    exact ((List.perm_cons_erase member).symm.append_left _).trans valid.split
  bounded := valid.bounded

end QueuePool

theorem queuePool_lawful : queuePool.Lawful where
  nextInt_fresh := by
    rintro ⟨nextValue, free, outstanding⟩ valid member
    cases free with
    | nil => exact absurd (((valid.mem_iff _).mp (.inr member)).2) (Int.lt_irrefl _)
    | cons id free =>
        exact (List.nodup_cons.mp valid.nodup).1 (List.mem_append_right free member)
  nextInt_index := by
    rintro ⟨nextValue, free, outstanding⟩ valid room
    cases free with
    | nil =>
        have counted : outstanding.length = nextValue := by simpa using valid.length
        exact ⟨Int.natCast_nonneg _, by simpa [queuePool, ← counted] using room⟩
    | cons id free =>
        obtain ⟨nonneg, below⟩ := (valid.mem_iff id).mp (.inl List.mem_cons_self)
        exact ⟨nonneg, Int.lt_of_lt_of_le below valid.bounded⟩
  outstanding_nextInt := by
    rintro ⟨nextValue, free, outstanding⟩ _
    cases free <;> rfl
  valid_nextInt := fun _ valid room => valid.nextInt room
  outstanding_freeInt := fun _ _ _ _ => rfl
  valid_freeInt := fun _ _ valid member => valid.freeInt member

end GuacNebula.Rdp
