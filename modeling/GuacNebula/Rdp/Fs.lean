import GuacNebula.Rdp.IdPool
import GuacNebula.Rdp.Path
import Mathlib.Logic.Function.Basic

/-! # The RDP filesystem

The drive redirected into an RDP session: a table of open files indexed by file ID, the
number of open files, and the pool from which the IDs are drawn. The local system calls are
the fields of `Os` and the ID pool of libguac is an `IdPool`, each over an arbitrary state of
its own.
-/

namespace GuacNebula.Rdp

/-- The `errno` values the filesystem tells apart. -/
inductive Errno
  | enfile | enoent | enotdir | enospc | eisdir | eacces | eexist | einval | enosys | enotsup
  | other
  deriving DecidableEq, Repr

/-- The `GUAC_RDP_FS_*` error codes. -/
inductive FsError
  | enfile | enoent | enotdir | enospc | eisdir | eacces | eexist | einval | enosys | enotsup
  deriving DecidableEq, Repr

/-- The negative value by which an error is returned. -/
def FsError.code : FsError → Int
  | .enfile => -1
  | .enoent => -2
  | .enotdir => -3
  | .enospc => -4
  | .eisdir => -5
  | .eacces => -6
  | .eexist => -7
  | .einval => -8
  | .enosys => -9
  | .enotsup => -10

/-- `guac_rdp_fs_get_errorcode`. -/
def fsGetErrorcode : Errno → FsError
  | .enfile => .enfile
  | .enoent => .enoent
  | .enotdir => .enotdir
  | .enospc => .enospc
  | .eisdir => .eisdir
  | .eacces => .eacces
  | .eexist => .eexist
  | .einval => .einval
  | .enosys => .enosys
  | .enotsup => .enotsup
  | .other => .einval

/-- `O_RDONLY`, `O_WRONLY` and `O_RDWR`. -/
inductive AccessMode
  | rdonly | wronly | rdwr
  deriving DecidableEq, Repr

/-- The flags given to `open`. -/
structure OpenFlags where
  mode : AccessMode
  creat : Bool
  excl : Bool
  trunc : Bool
  deriving DecidableEq, Repr

/-- What `fstat` reports of an open file. -/
structure FileStat where
  size : UInt64
  ctime : UInt64
  mtime : UInt64
  atime : UInt64
  isDirectory : Bool

/-- The system calls used by the filesystem, over the state of the local system. File
descriptors and directory streams are the integers the system names them by. -/
structure Os (σ : Type*) where
  openFile : σ → CString → OpenFlags → σ × Except Errno Int
  close : σ → Int → σ
  fstat : σ → Int → Option FileStat
  lseek : σ → Int → UInt64 → σ
  read : σ → Int → Nat → σ × Except Errno (List UInt8)
  write : σ → Int → List UInt8 → σ × Except Errno Nat
  ftruncate : σ → Int → Int → σ × Except Errno Unit
  rename : σ → CString → CString → σ × Except Errno Unit
  unlink : σ → CString → σ × Except Errno Unit
  rmdir : σ → CString → σ × Except Errno Unit
  mkdir : σ → CString → σ × Except Errno Unit
  fdopendir : σ → Int → σ × Option Int
  readdir : σ → Int → σ × Option CString
  closedir : σ → Int → σ

/-- `guac_rdp_fs_file`. -/
structure FsFile where
  id : Int
  absolutePath : CString
  realPath : CString
  fd : Int
  dir : Option Int
  dirPattern : CString
  isDirectory : Bool
  size : UInt64
  ctime : UInt64
  mtime : UInt64
  atime : UInt64
  bytesWritten : UInt64

/-- `guac_rdp_fs` together with the state of the system below it. The slots of `files` are
uninitialized memory until a file is opened in them, so the table is total and its initial
contents are arbitrary. -/
structure Fs (σ π : Type*) where
  os : σ
  drivePath : CString
  fileIdPool : π
  files : Int → FsFile
  openFiles : Int
  disableDownload : Bool

/-- Access masks, create dispositions and create options of the RDP drive protocol. -/
def genericAll : UInt32 := 0x10000000
def genericRead : UInt32 := 0x80000000
def genericWrite : UInt32 := 0x40000000
def fileReadData : UInt32 := 0x1
def fileWriteData : UInt32 := 0x2
def fileAppendData : UInt32 := 0x4
def fileSupersede : UInt32 := 0
def fileOpen : UInt32 := 1
def fileCreate : UInt32 := 2
def fileOpenIf : UInt32 := 3
def fileOverwrite : UInt32 := 4
def fileOverwriteIf : UInt32 := 5
def fileDirectoryFile : UInt32 := 0x1

/-- The path that `guac_rdp_fs_open` goes on with: the root in place of an empty path, and
nothing for a relative one. -/
def rootedPath : CString → Option CString
  | [] => some [backslash]
  | first :: rest =>
      if first ≠ backslash ∧ first ≠ slash then none else some (first :: rest)

/-- The access mode for an access mask. -/
def accessMode (access : UInt32) : AccessMode :=
  let writes := access &&& (genericWrite ||| fileWriteData ||| fileAppendData) ≠ 0
  let reads := access &&& (genericRead ||| fileReadData) ≠ 0
  if access &&& genericAll ≠ 0 then .rdwr
  else if writes ∧ reads then .rdwr
  else if writes then .wronly
  else .rdonly

/-- The flags for a create disposition, if it is a known one. -/
def dispositionFlags (mode : AccessMode) (createDisposition : UInt32) : Option OpenFlags :=
  if createDisposition = fileCreate then some ⟨mode, true, true, false⟩
  else if createDisposition = fileOpen then some ⟨mode, false, false, false⟩
  else if createDisposition = fileOpenIf then some ⟨mode, true, false, false⟩
  else if createDisposition = fileOverwrite then some ⟨mode, false, false, true⟩
  else if createDisposition = fileOverwriteIf then some ⟨mode, true, false, true⟩
  else if createDisposition = fileSupersede then some ⟨mode, true, false, true⟩
  else none

variable {σ π : Type*} (os : Os σ) (pool : IdPool π)

/-- The creation of a directory ahead of opening it, when one was asked for. The flags no
longer create anything afterwards. -/
def createDirectory (state : σ) (realPath : CString) (createOptions : UInt32)
    (flags : OpenFlags) : σ × Except FsError OpenFlags :=
  if createOptions &&& fileDirectoryFile ≠ 0 ∧ flags.creat then
    let flags' := { flags with creat := false, excl := false }
    match os.mkdir state realPath with
    | (state, .ok _) => (state, .ok flags')
    | (state, .error errno) =>
        if errno ≠ .eexist ∨ flags.excl then (state, .error (fsGetErrorcode errno))
        else (state, .ok flags')
  else (state, .ok flags)

/-- The native `open`, tried again read-only when it fails on a directory. -/
def nativeOpen (state : σ) (realPath : CString) (flags : OpenFlags) : σ × Except FsError Int :=
  match os.openFile state realPath flags with
  | (state, .ok fd) => (state, .ok fd)
  | (state, .error .eisdir) =>
      match os.openFile state realPath { flags with mode := .rdonly } with
      | (state, .ok fd) => (state, .ok fd)
      | (state, .error errno) => (state, .error (fsGetErrorcode errno))
  | (state, .error errno) => (state, .error (fsGetErrorcode errno))

/-- `WINDOWS_TIME`: a UNIX timestamp as a Windows timestamp. -/
def windowsTime (t : UInt64) : UInt64 := (t + 11644473600) * 10000000

/-- The file structure filled in by `guac_rdp_fs_open`. -/
def newFile (fileId fd : Int) (normalizedPath realPath : CString) (fileStat : Option FileStat) :
    FsFile where
  id := fileId
  absolutePath := normalizedPath
  realPath := realPath
  fd := fd
  dir := none
  dirPattern := []
  isDirectory := fileStat.elim false FileStat.isDirectory
  size := fileStat.elim 0 FileStat.size
  ctime := fileStat.elim 0 fun stat => windowsTime stat.ctime
  mtime := fileStat.elim 0 fun stat => windowsTime stat.mtime
  atime := fileStat.elim 0 fun stat => windowsTime stat.atime
  bytesWritten := 0

/-- The end of `guac_rdp_fs_open`: the file just opened takes an ID from the pool. -/
def registerFile (fs : Fs σ π) (fd : Int) (normalizedPath realPath : CString) :
    Fs σ π × Except FsError Int :=
  let (fileId, fileIdPool) := pool.nextInt fs.fileIdPool
  ({ fs with
      fileIdPool := fileIdPool
      files := Function.update fs.files fileId
        (newFile fileId fd normalizedPath realPath (os.fstat fs.os fd))
      openFiles := fs.openFiles + 1 },
    .ok fileId)

/-- `guac_rdp_fs_open`. -/
def fsOpen (fs : Fs σ π) (path : CString) (access createDisposition createOptions : UInt32) :
    Fs σ π × Except FsError Int :=
  if fs.openFiles ≥ fsMaxFiles then (fs, .error .enfile)
  else match (rootedPath path).bind fsNormalizePath with
  | none => (fs, .error .enoent)
  | some normalizedPath =>
      let realPath := fsTranslatePath fs.drivePath normalizedPath
      match dispositionFlags (accessMode access) createDisposition with
      | none => (fs, .error .enosys)
      | some flags =>
          let unlinked :=
            if createDisposition = fileSupersede then (os.unlink fs.os realPath).1 else fs.os
          match createDirectory os unlinked realPath createOptions flags with
          | (state, .error error) => ({ fs with os := state }, .error error)
          | (state, .ok flags) =>
              match nativeOpen os state realPath flags with
              | (state, .error error) => ({ fs with os := state }, .error error)
              | (state, .ok fd) =>
                  registerFile os pool { fs with os := state } fd normalizedPath realPath

/-- `guac_rdp_fs_get_file`: the slot of a file ID within the table, open or not. -/
def fsGetFile (fs : Fs σ π) (fileId : Int) : Option FsFile :=
  if fileId < 0 ∨ fileId ≥ fsMaxFiles then none else some (fs.files fileId)

/-- The result of a system call, its `errno` translated. -/
def translated {α : Type*} : Except Errno α → Except FsError α
  | .ok value => .ok value
  | .error errno => .error (fsGetErrorcode errno)

/-- `guac_rdp_fs_read`. -/
def fsRead (fs : Fs σ π) (fileId : Int) (offset : UInt64) (length : Nat) :
    Fs σ π × Except FsError (List UInt8) :=
  match fsGetFile fs fileId with
  | none => (fs, .error .einval)
  | some file =>
      let (state, result) := os.read (os.lseek fs.os file.fd offset) file.fd length
      ({ fs with os := state }, translated result)

/-- `guac_rdp_fs_write`. -/
def fsWrite (fs : Fs σ π) (fileId : Int) (offset : UInt64) (buffer : List UInt8) :
    Fs σ π × Except FsError Nat :=
  match fsGetFile fs fileId with
  | none => (fs, .error .einval)
  | some file =>
      match os.write (os.lseek fs.os file.fd offset) file.fd buffer with
      | (state, .error errno) => ({ fs with os := state }, .error (fsGetErrorcode errno))
      | (state, .ok bytesWritten) =>
          ({ fs with
              os := state
              files := Function.update fs.files fileId
                { file with bytesWritten := file.bytesWritten + UInt64.ofNat bytesWritten } },
            .ok bytesWritten)

/-- `guac_rdp_fs_rename`. The paths recorded for the file stay as they are. -/
def fsRename (fs : Fs σ π) (fileId : Int) (newPath : CString) : Fs σ π × Except FsError Unit :=
  match fsGetFile fs fileId with
  | none => (fs, .error .einval)
  | some file =>
      match fsNormalizePath newPath with
      | none => (fs, .error .enoent)
      | some normalizedPath =>
          let (state, result) :=
            os.rename fs.os file.realPath (fsTranslatePath fs.drivePath normalizedPath)
          ({ fs with os := state }, translated result)

/-- `guac_rdp_fs_delete`. -/
def fsDelete (fs : Fs σ π) (fileId : Int) : Fs σ π × Except FsError Unit :=
  match fsGetFile fs fileId with
  | none => (fs, .error .einval)
  | some file =>
      let (state, result) :=
        if file.isDirectory then os.rmdir fs.os file.realPath else os.unlink fs.os file.realPath
      ({ fs with os := state }, translated result)

/-- `guac_rdp_fs_truncate`, whose length parameter is an `int`. -/
def fsTruncate (fs : Fs σ π) (fileId length : Int) : Fs σ π × Except FsError Unit :=
  match fsGetFile fs fileId with
  | none => (fs, .error .einval)
  | some file =>
      let (state, result) := os.ftruncate fs.os file.fd length
      ({ fs with os := state }, translated result)

/-- `guac_rdp_fs_close`. Any slot of the table is closed, whether or not a file is open in
it. -/
def fsClose (fs : Fs σ π) (fileId : Int) : Fs σ π :=
  match fsGetFile fs fileId with
  | none => fs
  | some file =>
      let closed := match file.dir with
        | none => fs.os
        | some dir => os.closedir fs.os dir
      { fs with
        os := os.close closed file.fd
        fileIdPool := pool.freeInt fs.fileIdPool fileId
        openFiles := fs.openFiles - 1 }

/-- The directory stream of a slot, opened on its first use. -/
def openDir (fs : Fs σ π) (fileId : Int) : Fs σ π × Option Int :=
  let file := fs.files fileId
  match file.dir with
  | some dir => (fs, some dir)
  | none =>
      match os.fdopendir fs.os file.fd with
      | (state, none) => ({ fs with os := state }, none)
      | (state, some dir) =>
          ({ fs with
              os := state
              files := Function.update fs.files fileId { file with dir := some dir } },
            some dir)

/-- `guac_rdp_fs_read_dir`: the next entry name of a directory, if there is one. -/
def fsReadDir (fs : Fs σ π) (fileId : Int) : Fs σ π × Option CString :=
  if fileId < 0 ∨ fileId ≥ fsMaxFiles then (fs, none)
  else match openDir os fs fileId with
  | (fs, none) => (fs, none)
  | (fs, some dir) =>
      let (state, name) := os.readdir fs.os dir
      ({ fs with os := state }, name)

end GuacNebula.Rdp
