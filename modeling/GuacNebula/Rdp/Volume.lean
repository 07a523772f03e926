import GuacNebula.Rdp.Disk
import GuacNebula.Rdp.Posix
import GuacNebula.Rdp.Rdpdr

/-! # A drive that can be changed

A local system on which names can be created, moved and removed, and files truncated: the least
system over which the requests that change a drive can be run. A path leads to the number of a file,
which the descriptors of the file keep when its name is moved. Nothing is read, written or listed.
-/

namespace GuacNebula.Rdp

/-- The data of a file. -/
def DiskNode.data : DiskNode → List UInt8
  | .file data => data
  | .directory _ => []

/-- The state of the drive. -/
structure Volume where
  entries : List (CString × Nat)
  files : List DiskNode
  descriptors : List (Int × Nat)
  nextFd : Int
  deriving DecidableEq

namespace Volume

variable (volume : Volume)

/-- The number of the file that a path names. -/
def named (path : CString) : Option Nat := volume.entries.lookup path

/-- The number of the file behind a descriptor. -/
def held (fd : Int) : Option Nat := volume.descriptors.lookup fd

def isDirectory (number : Nat) : Bool := (volume.files[number]?).elim false DiskNode.isDirectory

def data (number : Nat) : List UInt8 := (volume.files[number]?).elim [] DiskNode.data

/-- The names of the drive except one. -/
def forget (path : CString) : List (CString × Nat) :=
  volume.entries.filter fun entry => entry.1 ≠ path

/-- The drive with a new file under a path. -/
def create (path : CString) (node : DiskNode) : Volume :=
  { volume with
    entries := (path, volume.files.length) :: volume.entries
    files := volume.files ++ [node] }

/-- The drive with the data of a file replaced. -/
def store (number : Nat) (data : List UInt8) : Volume :=
  { volume with files := volume.files.set number (.file data) }

/-- The drive with one more descriptor, for a file. -/
def hold (number : Nat) : Volume × Except Errno Int :=
  ({ volume with
      descriptors := (volume.nextFd, number) :: volume.descriptors
      nextFd := volume.nextFd + 1 },
    .ok volume.nextFd)

/-- `open`. A directory is opened for reading only. -/
def openFile (path : CString) (flags : OpenFlags) : Volume × Except Errno Int :=
  match volume.named path with
  | none =>
      if flags.creat then (volume.create path (.file [])).hold volume.files.length
      else (volume, .error .enoent)
  | some number =>
      if flags.creat ∧ flags.excl then (volume, .error .eexist)
      else if volume.isDirectory number then
        if flags.mode ≠ .rdonly ∨ flags.creat ∨ flags.trunc then (volume, .error .eisdir)
        else volume.hold number
      else if flags.trunc then (volume.store number []).hold number
      else volume.hold number

/-- `fstat`. -/
def fstat (fd : Int) : Option FileStat :=
  (volume.held fd).map fun number =>
    { size := UInt64.ofNat (volume.data number).length
      ctime := 0
      mtime := 0
      atime := 0
      isDirectory := volume.isDirectory number }

/-- `ftruncate`. A file that grows is filled with zeros. -/
def ftruncate (fd length : Int) : Volume × Except Errno Unit :=
  match volume.held fd with
  | none => (volume, .error .other)
  | some number =>
      match volume.files[number]? with
      | some (.file data) =>
          if length < 0 then (volume, .error .einval)
          else
            (volume.store number (data.take length.toNat
              ++ List.replicate (length.toNat - data.length) 0), .ok ())
      | _ => (volume, .error .einval)

/-- `rename`. Nothing is moved in place of a directory. -/
def rename (oldPath newPath : CString) : Volume × Except Errno Unit :=
  match volume.named oldPath with
  | none => (volume, .error .enoent)
  | some number =>
      match volume.named newPath with
      | none => ({ volume with entries := (newPath, number) :: volume.forget oldPath }, .ok ())
      | some other =>
          if other = number then (volume, .ok ())
          else if volume.isDirectory other then (volume, .error .eexist)
          else ({ volume with entries := (newPath, number) :: volume.forget oldPath }, .ok ())

/-- `unlink`. -/
def unlink (path : CString) : Volume × Except Errno Unit :=
  match volume.named path with
  | none => (volume, .error .enoent)
  | some number =>
      if volume.isDirectory number then (volume, .error .eisdir)
      else ({ volume with entries := volume.forget path }, .ok ())

/-- `rmdir`. -/
def rmdir (path : CString) : Volume × Except Errno Unit :=
  match volume.named path with
  | none => (volume, .error .enoent)
  | some number =>
      if !volume.isDirectory number then (volume, .error .enotdir)
      else if volume.entries.any fun entry => (path ++ [slash]).isPrefixOf entry.1 then
        (volume, .error .eexist)
      else ({ volume with entries := volume.forget path }, .ok ())

/-- `mkdir`. -/
def mkdir (path : CString) : Volume × Except Errno Unit :=
  match volume.named path with
  | none => (volume.create path (.directory []), .ok ())
  | some _ => (volume, .error .eexist)

end Volume

/-- The system calls of the drive. -/
def volumeOs : FiniteOs Volume where
  openFile := Volume.openFile
  close volume fd :=
    { volume with descriptors := volume.descriptors.filter fun descriptor => descriptor.1 ≠ fd }
  fstat := Volume.fstat
  lseek volume _ _ := volume
  read volume _ _ := (volume, .error .other)
  write volume _ _ := (volume, .error .other)
  ftruncate := Volume.ftruncate
  rename := Volume.rename
  unlink := Volume.unlink
  rmdir := Volume.rmdir
  mkdir := Volume.mkdir
  fdopendir volume _ := (volume, none)
  readdir volume _ := (volume, none)
  closedir volume _ := volume
  remaining _ _ := 0
  readdir_remaining _ _ _ := nofun
  openFile_remaining _ _ _ := Nat.le_refl 0

/-- How the drive is looked at. -/
def volumeView : View Volume Nat where
  named := Volume.named
  isDirectory := Volume.isDirectory
  data := Volume.data
  held := Volume.held

/-- The filesystem that `guac_rdp_fs_alloc` creates on a drive with the given files, each under a
path of its own. -/
def volumeFs (nodes : List (CString × DiskNode)) (drivePath : CString) : Fs Volume QueuePool where
  os :=
    { entries := (nodes.map Prod.fst).zipIdx
      files := nodes.map Prod.snd
      descriptors := []
      nextFd := 3 }
  drivePath := drivePath
  fileIdPool := { nextValue := 0, free := [], outstanding := [] }
  files := fun _ => newFile 0 0 [] [] none
  openFiles := 0
  disableDownload := false

/-! ## The drive keeps the laws -/

namespace Volume

theorem named_forget (volume : Volume) (path : CString) :
    (volume.forget path).lookup path = none := by
  rw [List.lookup_eq_none_iff]
  intro entry member
  have different : entry.1 ≠ path := of_decide_eq_true (List.mem_filter.mp member).2
  exact bne_iff_ne.mpr different.symm

theorem rename_ok {volume after : Volume} {oldPath newPath : CString}
    (renamed : volume.rename oldPath newPath = (after, .ok ())) :
    ∃ number, volume.named oldPath = some number ∧
      ((volume.named newPath = some number ∧ after = volume) ∨
        (volume.named newPath ≠ some number ∧
          after = { volume with entries := (newPath, number) :: volume.forget oldPath })) := by
  unfold rename at renamed
  split at renamed
  · cases renamed
  rename_i number found
  refine ⟨number, found, ?_⟩
  split at renamed
  · rename_i absent
    cases renamed
    exact .inr ⟨by rw [absent]; nofun, rfl⟩
  rename_i other present
  by_cases same : other = number
  · rw [if_pos same] at renamed
    cases renamed
    exact .inl ⟨by rw [present, same], rfl⟩
  · rw [if_neg same] at renamed
    split at renamed
    · cases renamed
    · cases renamed
      exact .inr ⟨by rw [present]; exact fun equal => same (Option.some.inj equal), rfl⟩

theorem unlink_cases (volume : Volume) (path : CString) :
    (∃ errno, volume.unlink path = (volume, .error errno)) ∨
      ∃ number, volume.named path = some number ∧ volume.isDirectory number = false ∧
        volume.unlink path = ({ volume with entries := volume.forget path }, .ok ()) := by
  unfold unlink
  split
  · exact .inl ⟨_, rfl⟩
  rename_i number found
  split
  · exact .inl ⟨_, rfl⟩
  · rename_i plain
    exact .inr ⟨number, found, Bool.eq_false_iff.mpr plain, rfl⟩

theorem openFile_error {volume after : Volume} {path : CString} {flags : OpenFlags} {errno : Errno}
    (failed : volume.openFile path flags = (after, .error errno)) : after = volume := by
  unfold openFile at failed
  split at failed
  · split at failed
    · cases failed
    · cases failed
      rfl
  split at failed
  · cases failed
    rfl
  split at failed
  · split at failed
    · cases failed
      rfl
    · cases failed
  · split at failed <;> cases failed

theorem ftruncate_cases (volume : Volume) (fd length : Int) :
    (∃ errno, volume.ftruncate fd length = (volume, .error errno)) ∨
      ∃ number data, volume.held fd = some number ∧ volume.files[number]? = some (.file data) ∧
        0 ≤ length ∧ volume.ftruncate fd length =
          (volume.store number (data.take length.toNat
            ++ List.replicate (length.toNat - data.length) 0), .ok ()) := by
  unfold ftruncate
  split
  · exact .inl ⟨_, rfl⟩
  rename_i number found
  split
  · rename_i data stored
    by_cases negative : length < 0
    · rw [if_pos negative]
      exact .inl ⟨_, rfl⟩
    · rw [if_neg negative]
      exact .inr ⟨number, data, found, stored, Int.not_lt.mp negative, rfl⟩
  · exact .inl ⟨_, rfl⟩

/-- What is stored in a file is its data. -/
theorem data_store {volume : Volume} {number : Nat} {node : DiskNode}
    (stored : volume.files[number]? = some node) (data : List UInt8) :
    (volume.store number data).data number = data := by
  obtain ⟨within, _⟩ := List.getElem?_eq_some_iff.mp stored
  unfold store Volume.data
  rw [List.getElem?_set_self within]
  rfl

end Volume

theorem volume_renameLaws : RenameLaws volumeOs.toOs volumeView where
  renamed renamed := by
    obtain ⟨number, found, ⟨present, rfl⟩ | ⟨_, rfl⟩⟩ := Volume.rename_ok renamed
    · exact ⟨number, found, present⟩
    · exact ⟨number, found, List.lookup_cons_self⟩
  moved {state after oldPath newPath} renamed different := by
    obtain ⟨number, found, ⟨present, _⟩ | ⟨absent, rfl⟩⟩ := Volume.rename_ok renamed
    · exact absurd (present.trans found.symm) different
    · have apart : (oldPath == newPath) = false := by
        refine beq_eq_false_iff_ne.mpr fun same => absent ?_
        rw [← same, found]
      change List.lookup oldPath ((newPath, number) :: state.forget oldPath) = none
      rw [List.lookup_cons, apart]
      exact Volume.named_forget state oldPath
  kept renamed same := by
    obtain ⟨number, found, ⟨_, rfl⟩ | ⟨absent, _⟩⟩ := Volume.rename_ok renamed
    · rfl
    · exact absurd (same.trans found) absent
  held renamed := by
    obtain ⟨_, _, ⟨_, rfl⟩ | ⟨_, rfl⟩⟩ := Volume.rename_ok renamed <;> rfl

theorem volume_creationLaws : CreationLaws volumeOs.toOs volumeView where
  unlinked {state after path} unlinked := by
    rcases Volume.unlink_cases state path with ⟨errno, failed⟩ | ⟨number, found, plain, done⟩
    · cases failed.symm.trans unlinked
    · cases done.symm.trans unlinked
      exact ⟨number, found, plain, Volume.named_forget state path⟩
  unlink_failed {state after path errno} failed := by
    rcases Volume.unlink_cases state path with ⟨_, unchanged⟩ | ⟨_, _, _, done⟩
    · cases unchanged.symm.trans failed
      rfl
    · cases done.symm.trans failed
  created {state after path} created := by
    have made : state.mkdir path = (after, .ok ()) := created
    unfold Volume.mkdir at made
    split at made
    · rename_i absent
      cases made
      refine ⟨absent, state.files.length, List.lookup_cons_self, ?_⟩
      simp only [volumeView, Volume.isDirectory, Volume.create, List.getElem?_concat_length,
        Option.elim_some]
      rfl
    · cases made
  mkdir_failed {state after path errno} failed := by
    have refused : state.mkdir path = (after, .error errno) := failed
    unfold Volume.mkdir at refused
    split at refused
    · cases refused
    · cases refused
      rfl
  open_failed failed := by rw [Volume.openFile_error failed]

theorem volume_truncationLaws : TruncationLaws volumeOs.toOs volumeView where
  truncated {state after fd length file} truncated held := by
    rcases Volume.ftruncate_cases state fd length
      with ⟨errno, failed⟩ | ⟨number, data, found, stored, nonneg, done⟩
    · cases failed.symm.trans truncated
    · cases done.symm.trans truncated
      obtain rfl : number = file := Option.some.inj (found.symm.trans held)
      refine ⟨nonneg, ?_⟩
      simp only [volumeView, Volume.data_store stored, List.length_append, List.length_take,
        List.length_replicate]
      omega
  truncate_failed {state after fd length errno} failed := by
    rcases Volume.ftruncate_cases state fd length with ⟨_, unchanged⟩ | ⟨_, _, _, _, _, done⟩
    · cases unchanged.symm.trans failed
      rfl
    · cases done.symm.trans failed

end GuacNebula.Rdp
