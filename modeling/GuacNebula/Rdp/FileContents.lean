import GuacNebula.Rdp.Opening
import GuacNebula.Rdp.Posix

/-! # Contents of files

What POSIX says of opening, writing and reading regular files, and a drive without directories that
behaves like that: each call of its `write` takes two bytes at most.
-/

namespace GuacNebula.Rdp

variable {σ ι : Type*}

/-- `open`. The descriptor is that of the file that the path names, which was there before unless it
may be created, and is empty if it is truncated. An open that fails changes nothing. -/
structure OpeningLaws (os : Os σ) (view : View σ ι) : Prop where
  opened : ∀ {state after path flags fd}, os.openFile state path flags = (after, .ok fd) →
    ∃ file, view.held after fd = some file ∧ view.named after path = some file ∧
      (flags.trunc = true → view.data after file = []) ∧
      (flags.creat = false → view.named state path = some file) ∧
      (flags.creat = false → flags.trunc = false → view.data after = view.data state)
  failed : ∀ {state after path flags errno}, os.openFile state path flags = (after, .error errno) →
    view.data after = view.data state ∧ view.named after = view.named state

/-- `close`. It changes no file and no name. -/
structure ClosingLaws (os : Os σ) (view : View σ ι) : Prop where
  data : ∀ state fd, view.data (os.close state fd) = view.data state
  named : ∀ state fd, view.named (os.close state fd) = view.named state
  dir : ∀ state dir, view.data (os.closedir state dir) = view.data state
  dirNamed : ∀ state dir, view.named (os.closedir state dir) = view.named state

/-- `write` at an offset within a file. At least one byte is written of those that there are, and a
write that fails changes nothing. -/
structure WritingLaws (os : Os σ) (view : View σ ι) : Prop where
  written : ∀ {state after fd offset buffer count file},
    os.write (os.lseek state fd offset) fd buffer = (after, .ok count) →
      view.held state fd = some file → offset.toNat ≤ (view.data state file).length →
      count ≤ buffer.length ∧ (buffer ≠ [] → 0 < count) ∧
        view.data after file = (view.data state file).take offset.toNat ++ buffer.take count ++
          (view.data state file).drop (offset.toNat + count)
  failed : ∀ {state after fd offset buffer errno},
    os.write (os.lseek state fd offset) fd buffer = (after, .error errno) →
      view.data after = view.data state
  held : ∀ state fd offset buffer,
    view.held (os.write (os.lseek state fd offset) fd buffer).1 = view.held state
  named : ∀ {state path file} fd offset buffer, view.named state path = some file →
    view.named (os.write (os.lseek state fd offset) fd buffer).1 path = some file

/-- `read` at an offset. What is read stands there in the file, and it is something unless the file
ends there. -/
structure ReadingLaws (os : Os σ) (view : View σ ι) : Prop where
  read : ∀ {state after fd offset length bytes file},
    os.read (os.lseek state fd offset) fd length = (after, .ok bytes) →
      view.held state fd = some file →
      bytes <+: (view.data state file).drop offset.toNat ∧ bytes.length ≤ length ∧
        (bytes = [] → length = 0 ∨ (view.data state file).length ≤ offset.toNat)
  data : ∀ state fd offset length,
    view.data (os.read (os.lseek state fd offset) fd length).1 = view.data state
  held : ∀ state fd offset length,
    view.held (os.read (os.lseek state fd offset) fd length).1 = view.held state

/-! ## A drive without directories -/

/-- The state of the drive: the files under their paths, the path of each descriptor, and where it
stands in the file. -/
structure Shelf where
  files : CString → Option (List UInt8) := fun _ => none
  descriptors : Int → Option CString := fun _ => none
  position : Int → Nat := fun _ => 0
  nextFd : Int := 3

namespace Shelf

/-- The data of a file, which is empty where there is no file. -/
def data (shelf : Shelf) (path : CString) : List UInt8 := (shelf.files path).getD []

/-- The drive with a file. -/
def put (shelf : Shelf) (path : CString) (data : List UInt8) : Shelf :=
  { shelf with files := Function.update shelf.files path (some data) }

/-- The drive with one more descriptor, for a file. -/
def hold (shelf : Shelf) (path : CString) : Shelf × Except Errno Int :=
  ({ shelf with
      descriptors := Function.update shelf.descriptors shelf.nextFd (some path)
      nextFd := shelf.nextFd + 1 }, .ok shelf.nextFd)

end Shelf

/-- The system calls of the drive. -/
def shelfOs : Os Shelf where
  openFile shelf path flags :=
    if shelf.files path = none ∧ flags.creat = false then (shelf, .error .enoent)
    else if flags.trunc || (shelf.files path).isNone then (shelf.put path []).hold path
    else shelf.hold path
  close shelf fd := { shelf with descriptors := Function.update shelf.descriptors fd none }
  fstat shelf fd := (shelf.descriptors fd).map fun path =>
    { size := UInt64.ofNat (shelf.data path).length
      ctime := 0
      mtime := 0
      atime := 0
      isDirectory := false }
  lseek shelf fd offset :=
    { shelf with position := Function.update shelf.position fd offset.toNat }
  read shelf fd length :=
    match shelf.descriptors fd with
    | none => (shelf, .error .other)
    | some path => (shelf, .ok (((shelf.data path).drop (shelf.position fd)).take length))
  write shelf fd buffer :=
    match shelf.descriptors fd with
    | none => (shelf, .error .other)
    | some path =>
        (shelf.put path ((shelf.data path).take (shelf.position fd) ++ buffer.take 2 ++
          (shelf.data path).drop (shelf.position fd + (buffer.take 2).length)),
          .ok (buffer.take 2).length)
  ftruncate shelf _ _ := (shelf, .error .einval)
  rename shelf _ _ := (shelf, .error .other)
  unlink shelf _ := (shelf, .error .other)
  rmdir shelf _ := (shelf, .error .other)
  mkdir shelf _ := (shelf, .error .other)
  fdopendir shelf _ := (shelf, none)
  readdir shelf _ := (shelf, none)
  closedir shelf _ := shelf

/-- How the drive is looked at: a file is known by its path. -/
def shelfView : View Shelf CString where
  named shelf path := (shelf.files path).map fun _ => path
  isDirectory _ _ := false
  data := Shelf.data
  held := Shelf.descriptors

namespace Shelf

variable (shelf : Shelf)

theorem put_data (path : CString) (data : List UInt8) :
    (shelf.put path data).data path = data := by
  unfold put Shelf.data
  dsimp only
  rw [Function.update_self]
  rfl

theorem put_data_of_ne {name path : CString} (distinct : name ≠ path) (data : List UInt8) :
    (shelf.put path data).data name = shelf.data name := by
  unfold put Shelf.data
  dsimp only
  rw [Function.update_of_ne distinct]

/-- Every name stays. -/
theorem put_named {shelf : Shelf} {name file : CString}
    (named : shelfView.named shelf name = some file) (path : CString) (data : List UInt8) :
    shelfView.named (shelf.put path data) name = some file := by
  obtain ⟨old, there, rfl⟩ := Option.map_eq_some_iff.mp named
  unfold shelfView put
  dsimp only
  by_cases same : name = path
  · rw [same, Function.update_self]
    rfl
  · rw [Function.update_of_ne same, there]
    rfl

theorem hold_held (path : CString) :
    shelfView.held (shelf.hold path).1 shelf.nextFd = some path := Function.update_self ..

/-- What stands at an offset is what is read there. -/
theorem read_eq {fd : Int} {path : CString} (held : shelfView.held shelf fd = some path)
    (offset : UInt64) (length : Nat) :
    shelfOs.read (shelfOs.lseek shelf fd offset) fd length =
      (shelfOs.lseek shelf fd offset, .ok (((shelf.data path).drop offset.toNat).take length)) := by
  have found : shelf.descriptors fd = some path := held
  unfold shelfOs
  dsimp only
  rw [found, Function.update_self]
  rfl

end Shelf

theorem shelf_openingLaws : OpeningLaws shelfOs shelfView where
  opened := by
    intro state after path flags fd opened
    unfold shelfOs at opened
    dsimp only at opened
    by_cases missing : state.files path = none ∧ flags.creat = false
    · rw [if_pos missing] at opened
      cases opened
    rw [if_neg missing] at opened
    have existing (uncreated : flags.creat = false) : shelfView.named state path = some path := by
      obtain ⟨data, there⟩ := Option.ne_none_iff_exists'.mp fun none => missing ⟨none, uncreated⟩
      exact Option.map_eq_some_iff.mpr ⟨data, there, rfl⟩
    split at opened
    all_goals
      rename_i emptied
      obtain ⟨rfl, done⟩ := Prod.mk.inj opened
      obtain rfl := Except.ok.inj done
    · have named : shelfView.named (state.put path []) path = some path :=
        Option.map_eq_some_iff.mpr ⟨[], Function.update_self .., rfl⟩
      refine ⟨path, Shelf.hold_held .., named, fun _ => Shelf.put_data .., existing,
        fun uncreated untruncated => ?_⟩
      obtain ⟨data, there⟩ := Option.ne_none_iff_exists'.mp fun none => missing ⟨none, uncreated⟩
      rw [untruncated, there] at emptied
      cases emptied
    · rw [Bool.not_eq_true, Bool.or_eq_false_iff, Option.isNone_eq_false_iff] at emptied
      obtain ⟨data, there⟩ := Option.isSome_iff_exists.mp emptied.2
      exact ⟨path, Shelf.hold_held .., Option.map_eq_some_iff.mpr ⟨data, there, rfl⟩,
        fun truncated => absurd (emptied.1.symm.trans truncated) Bool.false_ne_true, existing,
        fun _ _ => rfl⟩
  failed := by
    intro state after path flags errno failed
    unfold shelfOs at failed
    dsimp only at failed
    split at failed
    · obtain ⟨rfl, -⟩ := Prod.mk.inj failed
      exact ⟨rfl, rfl⟩
    · split at failed <;> cases (Prod.mk.inj failed).2

theorem shelf_closingLaws : ClosingLaws shelfOs shelfView :=
  ⟨fun _ _ => rfl, fun _ _ => rfl, fun _ _ => rfl, fun _ _ => rfl⟩

theorem shelf_writingLaws : WritingLaws shelfOs shelfView where
  written := by
    intro state after fd offset buffer count file written held inside
    have found : state.descriptors fd = some file := held
    unfold shelfOs at written
    dsimp only at written
    rw [found, Function.update_self] at written
    obtain ⟨rfl, done⟩ := Prod.mk.inj written
    obtain rfl := Except.ok.inj done
    rw [List.length_take]
    refine ⟨Nat.min_le_right .., fun nonempty => ?_, ?_⟩
    · have some := List.length_pos_iff.mpr nonempty
      omega
    · rw [← List.take_eq_take_min]
      exact Shelf.put_data ..
  failed := by
    intro state after fd offset buffer errno failed
    unfold shelfOs at failed
    dsimp only at failed
    split at failed
    · obtain ⟨rfl, -⟩ := Prod.mk.inj failed
      rfl
    · cases (Prod.mk.inj failed).2
  held := by
    intro state fd offset buffer
    unfold shelfOs
    dsimp only
    split <;> rfl
  named := by
    intro state path file fd offset buffer named
    unfold shelfOs
    dsimp only
    split
    · exact named
    · exact Shelf.put_named named ..

theorem shelf_readingLaws : ReadingLaws shelfOs shelfView where
  read := by
    intro state after fd offset length bytes file read held
    rw [Shelf.read_eq _ held] at read
    obtain rfl := Except.ok.inj (Prod.mk.inj read).2
    refine ⟨List.take_prefix .., List.length_take_le .., fun empty => ?_⟩
    exact (List.take_eq_nil_iff.mp empty).imp id List.drop_eq_nil_iff.mp
  data := by
    intro state fd offset length
    unfold shelfOs
    dsimp only
    split <;> rfl
  held := by
    intro state fd offset length
    unfold shelfOs
    dsimp only
    split <;> rfl

end GuacNebula.Rdp
