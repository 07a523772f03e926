import GuacNebula.Rdp.Fs

/-! # A read-only drive

A local system with a fixed, read-only directory tree: the least system over which the
redirected drive can be run. Descriptors are numbered upwards, and a directory stream
remembers the names it has not returned yet.
-/

namespace GuacNebula.Rdp

/-- What a path of the drive names. -/
inductive DiskNode
  | file (data : List UInt8)
  | directory (names : List CString)
  deriving DecidableEq

/-- Whether a node is a directory. -/
def DiskNode.isDirectory : DiskNode → Bool
  | .file _ => false
  | .directory _ => true

/-- An open file description. -/
structure Descriptor where
  fd : Int
  node : DiskNode
  position : Nat
  deriving DecidableEq

/-- The state of the drive. -/
structure Disk where
  nodes : List (CString × DiskNode)
  descriptors : List Descriptor
  streams : Int → List CString
  nextFd : Int

/-- The description of a descriptor. -/
def Disk.find (disk : Disk) (fd : Int) : Option Descriptor :=
  disk.descriptors.find? fun descriptor => descriptor.fd == fd

/-- The drive with the position of a descriptor changed. -/
def Disk.seek (disk : Disk) (fd : Int) (position : Nat) : Disk :=
  { disk with
    descriptors := disk.descriptors.map fun descriptor =>
      if descriptor.fd = fd then { descriptor with position := position } else descriptor }

/-- The drive without a descriptor. -/
def Disk.drop (disk : Disk) (fd : Int) : Disk :=
  { disk with descriptors := disk.descriptors.filter fun descriptor => descriptor.fd ≠ fd }

/-- The drive with one more descriptor, for a node. -/
def Disk.add (disk : Disk) (node : DiskNode) : Disk :=
  { disk with
    descriptors := { fd := disk.nextFd, node := node, position := 0 } :: disk.descriptors
    nextFd := disk.nextFd + 1 }

/-- Opening for anything but reading fails on a read-only drive, with `EISDIR` for a
directory. -/
def Disk.openNode (disk : Disk) (node : DiskNode) (flags : OpenFlags) :
    Disk × Except Errno Int :=
  if flags.mode = .rdonly ∧ !flags.trunc then (disk.add node, .ok disk.nextFd)
  else (disk, .error (if node.isDirectory then .eisdir else .other))

/-- The system calls of the drive. -/
def diskOs : Os Disk where
  openFile disk path flags :=
    match disk.nodes.lookup path with
    | none => (disk, .error (if flags.creat then .other else .enoent))
    | some node => disk.openNode node flags
  close := Disk.drop
  fstat disk fd := (disk.find fd).map fun descriptor =>
    { size := match descriptor.node with
        | .file data => UInt64.ofNat data.length
        | .directory _ => 4096
      ctime := 0
      mtime := 0
      atime := 0
      isDirectory := descriptor.node.isDirectory }
  lseek disk fd offset := disk.seek fd offset.toNat
  read disk fd length :=
    match disk.find fd with
    | none => (disk, .error .other)
    | some ⟨_, .directory _, _⟩ => (disk, .error .eisdir)
    | some ⟨_, .file data, position⟩ =>
        let bytes := (data.drop position).take length
        (disk.seek fd (position + bytes.length), .ok bytes)
  write disk _ _ := (disk, .error .other)
  ftruncate disk _ _ := (disk, .error .einval)
  rename disk _ _ := (disk, .error .other)
  unlink disk _ := (disk, .error .other)
  rmdir disk _ := (disk, .error .other)
  mkdir disk _ := (disk, .error .other)
  fdopendir disk fd :=
    match disk.find fd with
    | some ⟨_, .directory names, _⟩ =>
        ({ disk with streams := Function.update disk.streams fd names }, some fd)
    | _ => (disk, none)
  readdir disk dir :=
    ({ disk with streams := Function.update disk.streams dir (disk.streams dir).tail },
      (disk.streams dir).head?)
  closedir := Disk.drop

/-- A drive before anything is opened on it. -/
def Disk.mounted (nodes : List (CString × DiskNode)) : Disk where
  nodes := nodes
  descriptors := []
  streams := fun _ => []
  nextFd := 3

/-- The filesystem that `guac_rdp_fs_alloc` creates on a drive. -/
def mountedFs (nodes : List (CString × DiskNode)) (drivePath : CString) (disableDownload : Bool) :
    Fs Disk QueuePool where
  os := .mounted nodes
  drivePath := drivePath
  fileIdPool := { nextValue := 0, free := [], outstanding := [] }
  files := fun _ => newFile 0 0 [] [] none
  openFiles := 0
  disableDownload := disableDownload

end GuacNebula.Rdp
