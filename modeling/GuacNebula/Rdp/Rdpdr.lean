import GuacNebula.Lib.CInt
import GuacNebula.Rdp.Opening
import GuacNebula.Rdp.Transfer
import Mathlib.Algebra.GroupWithZero.Nat

/-! # Device redirection

The remote server sends I/O requests for the devices that were registered with it. A request has a
header, which names a device, a function and the completion ID under which the answer is awaited,
and parameters that depend on the function. The redirected drive answers from the filesystem.

Functions of the C library and of libguac that have no part in the filesystem are the fields of
`RdpdrPlatform`.
-/

namespace GuacNebula.Rdp

open CInt

/-! ## Streams -/

/-- An unsigned number, least significant byte first. -/
def littleEndian (bytes : List UInt8) : Nat := bytes.foldr (fun c value => c.toNat + 256 * value) 0

/-- `Stream_Read_UINT32` and its like, at an offset into the stream. -/
def readUInt (stream : List UInt8) (offset width : Nat) : Nat :=
  littleEndian ((stream.drop offset).take width)

/-- The number read into an `int`. -/
def readInt (stream : List UInt8) (offset width : Nat) : Int := toInt (readUInt stream offset width)

/-- `Stream_Write_UINT32` and its like. -/
def writeUInt : Nat → Nat → List UInt8
  | 0, _ => []
  | width + 1, value => UInt8.ofNat (value % 256) :: writeUInt width (value / 256)

/-- An `int` written as four bytes. -/
def writeInt (value : Int) : List UInt8 := writeUInt 4 (value % 4294967296).toNat

theorem littleEndian_lt (bytes : List UInt8) : littleEndian bytes < 256 ^ bytes.length := by
  induction bytes with
  | nil => simp [littleEndian]
  | cons c bytes ih =>
      have small : c.toNat < 256 := c.toNat_lt
      simp only [littleEndian, List.foldr_cons, List.length_cons, Nat.pow_succ] at ih ⊢
      omega

@[simp] theorem writeUInt_length (width value : Nat) : (writeUInt width value).length = width := by
  induction width generalizing value with
  | zero => rfl
  | succ width ih => simp [writeUInt, ih]

/-- A number that is written and read again loses what does not fit into its bytes. -/
theorem littleEndian_writeUInt (width value : Nat) :
    littleEndian (writeUInt width value) = value % 256 ^ width := by
  induction width generalizing value with
  | zero => simp [writeUInt, littleEndian, Nat.mod_one]
  | succ width ih =>
      have low : (UInt8.ofNat (value % 256)).toNat = value % 256 := by simp
      simp only [littleEndian, writeUInt, List.foldr_cons, low] at ih ⊢
      rw [ih, Nat.pow_succ', Nat.mod_mul]

/-- A number is read back from where it stands. -/
theorem readUInt_writeUInt {before : List UInt8} (width value : Nat) (after : List UInt8) :
    readUInt (before ++ (writeUInt width value ++ after)) before.length width
      = value % 256 ^ width := by
  rw [readUInt, List.drop_left, List.take_left' (writeUInt_length width value),
    littleEndian_writeUInt]

/-- The stream has fewer bytes than a length given as an `int`, which is compared as `size_t`. -/
def isShorter (stream : List UInt8) (length : Int) : Bool := stream.length < toSize length

/-! ## Requests and completions -/

/-- The `STATUS_*` codes that are sent. -/
inductive NtStatus
  | success | noMoreFiles | noSuchFile | notADirectory | diskFull | fileIsADirectory
  | accessDenied | objectNameCollision | invalidParameter | notImplemented | notSupported
  deriving DecidableEq, Repr

/-- `guac_rdp_fs_get_status`. -/
def fsGetStatus : FsError → NtStatus
  | .enfile => .noMoreFiles
  | .enoent => .noSuchFile
  | .enotdir => .notADirectory
  | .enospc => .diskFull
  | .eisdir => .fileIsADirectory
  | .eacces => .accessDenied
  | .eexist => .objectNameCollision
  | .einval => .invalidParameter
  | .enosys => .notImplemented
  | .enotsup => .notSupported

/-- The status for a result. -/
def resultStatus {α : Type*} : Except FsError α → NtStatus
  | .ok _ => .success
  | .error error => fsGetStatus error

/-- `guac_rdpdr_iorequest`. -/
structure IoRequest where
  deviceId : Int
  fileId : Int
  completionId : Int
  majorFunc : Int
  minorFunc : Int
  deriving DecidableEq, Repr

/-- An I/O completion. -/
structure IoCompletion where
  deviceId : Int
  completionId : Int
  status : NtStatus
  output : List UInt8
  deriving DecidableEq, Repr

/-- A registered filesystem: its ID, and its name in UTF-8. -/
structure FsDevice where
  deviceId : Int
  deviceName : CString
  deriving DecidableEq, Repr

/-- `guac_rdp_fs_info`. -/
structure FsInfo where
  blocksAvailable : Int
  blocksTotal : Int
  blockSize : Int

/-- Functions that are not part of the program: whether a name matches a pattern under `fnmatch`
with `FNM_NOESCAPE`, the numbers of `statvfs`, and the UTF-8 functions of libguac. -/
structure RdpdrPlatform (σ : Type*) where
  fnmatch : CString → CString → Bool
  statvfs : σ → CString → Option FsInfo
  utf8Write : Nat → Int → List UInt8
  utf8Read : List UInt8 → Nat × Nat
  utf8Strlen : CString → Nat

/-- A system whose directories end: every name that is returned leaves fewer to be returned, and
opening a file for reading adds none. -/
structure FiniteOs (σ : Type*) extends Os σ where
  remaining : σ → Int → Nat
  readdir_remaining : ∀ state dir name, (readdir state dir).2 = some name →
    remaining (readdir state dir).1 dir < remaining state dir
  openFile_remaining : ∀ state path dir,
    remaining (openFile state path ⟨.rdonly, false, false, false⟩).1 dir ≤ remaining state dir

section Unicode

variable {σ : Type*} (platform : RdpdrPlatform σ)

/-- The loop of `guac_rdp_utf16_to_utf8` over `length` codepoints. -/
def utf16Codepoints : Nat → List UInt8 → Int → List UInt8
  | 0, _, _ => []
  | length + 1, utf16, size =>
      let bytes := platform.utf8Write (readUInt utf16 0 2) size
      bytes ++ utf16Codepoints length (utf16.drop 2) (size - bytes.length)

/-- `guac_rdp_utf16_to_utf8`: the C string in the buffer afterwards. -/
def utf16ToUtf8 (utf16 : List UInt8) (length : Nat) (size : Int) : CString :=
  (utf16Codepoints platform length utf16 size).takeWhile (· ≠ 0)

/-- `guac_rdp_utf8_to_utf16`: the bytes stored. -/
def utf8ToUtf16 : Nat → List UInt8 → Int → List UInt8
  | 0, _, _ => []
  | length + 1, utf8, size =>
      let (codepoint, read) := platform.utf8Read utf8
      writeUInt 2 codepoint
        ++ if size - 2 < 2 then [] else utf8ToUtf16 length (utf8.drop read) (size - 2)

end Unicode

/-- The attributes of a file, `FILE_ATTRIBUTE_DIRECTORY` or `FILE_ATTRIBUTE_NORMAL`. -/
def FsFile.attributes (file : FsFile) : Nat := if file.isDirectory then 0x10 else 0x80

/-- `guac_rdp_fs_convert_path`. -/
def fsConvertPath (parent relPath : CString) : Option CString :=
  fsNormalizePath ((parent ++ backslash :: relPath).take (fsMaxPath - 1))

/-- The path `\Download`. -/
def downloadPath : CString := ascii "\\Download"

/-- The path of a file within the download folder. -/
def inDownloadFolder (path : CString) : Bool := path.take 10 = ascii "\\Download\\"

variable {σ π : Type*} (platform : RdpdrPlatform σ) (os : FiniteOs σ) (pool : IdPool π)

/-- `guac_rdp_fs_get_info`, into a structure of zeros. -/
def fsGetInfo (fs : Fs σ π) : FsInfo :=
  (platform.statvfs fs.os fs.drivePath).getD
    { blocksAvailable := 0, blocksTotal := 0, blockSize := 0 }

/-- The owner of the connection, if present, is sent a file. -/
def downloadToOwner (fs : Fs σ π) (owned : Bool) (path : CString) : Fs σ π :=
  if owned then (downloadToUser os.toOs pool (.idle fs) path).fs else fs

/-- A PDU that was received: whether the owner of the connection is there, the header, and the
stream after it. -/
structure RdpdrPdu where
  owned : Bool
  request : IoRequest
  stream : List UInt8

/-- `guac_rdpdr_new_io_completion`, for a request, with what is written to it. -/
def ioCompletion (device : FsDevice) (pdu : RdpdrPdu) (status : NtStatus) (output : List UInt8) :
    IoCompletion where
  deviceId := device.deviceId
  completionId := pdu.request.completionId
  status := status
  output := output

/-- What processing a PDU does: the filesystem afterwards, and the completions sent. -/
abbrev Processed (σ π : Type*) := Fs σ π × List IoCompletion

variable (fs : Fs σ π) (device : FsDevice) (pdu : RdpdrPdu)

/-- A completion is all that is sent, and the filesystem as it is. -/
def answer (status : NtStatus) (output : List UInt8) : Processed σ π :=
  (fs, [ioCompletion device pdu status output])

/-! ## Opening, reading, writing and closing -/

/-- The download folder is created along with the root, unless downloads are disabled. -/
def createDownloadFolder (fileId : Int) : Fs σ π :=
  match fsGetFile fs fileId with
  | none => fs
  | some file =>
      if file.absolutePath = [backslash] ∧ !fs.disableDownload then
        match fsOpen os.toOs pool fs downloadPath genericRead fileOpenIf fileDirectoryFile with
        | (fs, .error _) => fs
        | (fs, .ok downloadId) => fsClose os.toOs pool fs downloadId
      else fs

/-- `guac_rdpdr_fs_process_create`. -/
def processCreate : Processed σ π :=
  if pdu.stream.length < 32 then (fs, [])
  else
    let pathLength := readInt pdu.stream 28 4
    let rest := pdu.stream.drop 32
    if isShorter rest pathLength then (fs, [])
    else
      let path := utf16ToUtf8 platform rest (pathLength.toNat / 2 - 1) fsMaxPath
      let access := UInt32.ofNat (readUInt pdu.stream 0 4)
      let createDisposition := UInt32.ofNat (readUInt pdu.stream 20 4)
      let createOptions := UInt32.ofNat (readUInt pdu.stream 24 4)
      match fsOpen os.toOs pool fs path access createDisposition createOptions with
      | (fs, .error error) => answer fs device pdu (fsGetStatus error) (writeUInt 4 0 ++ [0])
      | (fs, .ok fileId) =>
          answer (createDownloadFolder os pool fs fileId) device pdu .success
            (writeInt fileId ++ [0])

/-- `GUAC_RDP_MAX_READ_BUFFER`. -/
def maxReadBuffer : Nat := 4194304

/-- `guac_rdpdr_fs_process_read`. -/
def processRead : Processed σ π :=
  if pdu.stream.length < 12 then (fs, [])
  else
    let length := min (readUInt pdu.stream 0 4) maxReadBuffer
    let offset := UInt64.ofNat (readUInt pdu.stream 4 8)
    match fsRead os.toOs fs pdu.request.fileId offset length with
    | (fs, .error error) => answer fs device pdu (fsGetStatus error) (writeUInt 4 0)
    | (fs, .ok buffer) => answer fs device pdu .success (writeUInt 4 buffer.length ++ buffer)

/-- `guac_rdpdr_fs_process_write`. -/
def processWrite : Processed σ π :=
  if pdu.stream.length < 32 then (fs, [])
  else
    let length := readUInt pdu.stream 0 4
    let offset := UInt64.ofNat (readUInt pdu.stream 4 8)
    let rest := pdu.stream.drop 32
    if rest.length < length then (fs, [])
    else
      match fsWrite os.toOs fs pdu.request.fileId offset (rest.take length) with
      | (fs, .error error) => answer fs device pdu (fsGetStatus error) (writeUInt 4 0 ++ [0])
      | (fs, .ok written) => answer fs device pdu .success (writeUInt 4 written ++ [0])

/-- `guac_rdpdr_fs_process_close`. -/
def processClose : Processed σ π :=
  let fileId := pdu.request.fileId
  match fsGetFile fs fileId with
  | none => (fs, [])
  | some file =>
      let fs :=
        if file.bytesWritten > 0 ∧ inDownloadFolder file.absolutePath ∧ !fs.disableDownload then
          (fsDelete os.toOs (downloadToOwner os pool fs pdu.owned file.absolutePath) fileId).1
        else fs
      answer (fsClose os.toOs pool fs fileId) device pdu .success (writeUInt 4 0)

/-! ## Requests that are answered without the filesystem -/

/-- `guac_rdpdr_fs_process_device_control`. -/
def processDeviceControl : Processed σ π := answer fs device pdu .invalidParameter (writeUInt 4 0)

/-- `guac_rdpdr_fs_process_set_volume_info`. -/
def processSetVolumeInfo : Processed σ π := answer fs device pdu .notSupported []

/-- `guac_rdpdr_fs_process_lock_control`. -/
def processLockControl : Processed σ π := answer fs device pdu .notSupported [0, 0, 0, 0, 0]

/-- `guac_rdpdr_fs_process_notify_change_directory`. -/
def processNotifyChangeDirectory : Processed σ π := (fs, [])

/-! ## Volume information -/

/-- `GUAC_FILESYSTEM_LABEL`. -/
def filesystemLabel : List UInt8 :=
  [0x47, 0, 0x55, 0, 0x41, 0, 0x43, 0, 0x46, 0, 0x49, 0, 0x4C, 0, 0x45, 0]

/-- `guac_rdpdr_fs_process_query_volume_info`. -/
def processQueryVolumeInfo : Processed σ π :=
  answer fs device pdu .success
    (writeUInt 4 (17 + filesystemLabel.length) ++ writeUInt 8 0 ++ writeUInt 4 0
      ++ writeUInt 4 filesystemLabel.length ++ [0] ++ filesystemLabel)

/-- `guac_rdpdr_fs_process_query_size_info`. -/
def processQuerySizeInfo : Processed σ π :=
  let info := fsGetInfo platform fs
  answer fs device pdu .success
    (writeUInt 4 24 ++ writeUInt 8 (toSize info.blocksTotal)
      ++ writeUInt 8 (toSize info.blocksAvailable) ++ writeUInt 4 1 ++ writeInt info.blockSize)

/-- `guac_rdpdr_fs_process_query_device_info`. -/
def processQueryDeviceInfo : Processed σ π :=
  answer fs device pdu .success (writeUInt 4 8 ++ writeUInt 4 7 ++ writeUInt 4 0)

/-- `guac_rdpdr_fs_process_query_attribute_info`. -/
def processQueryAttributeInfo : Processed σ π :=
  let nameLength := platform.utf8Strlen device.deviceName
  answer fs device pdu .success
    (writeUInt 4 (12 + nameLength) ++ writeUInt 4 7 ++ writeUInt 4 fsMaxPath
      ++ writeUInt 4 nameLength ++ device.deviceName.take nameLength)

/-- `guac_rdpdr_fs_process_query_full_size_info`. -/
def processQueryFullSizeInfo : Processed σ π :=
  let info := fsGetInfo platform fs
  answer fs device pdu .success
    (writeUInt 4 32 ++ writeUInt 8 (toSize info.blocksTotal)
      ++ writeUInt 8 (toSize info.blocksAvailable) ++ writeUInt 8 (toSize info.blocksAvailable)
      ++ writeUInt 4 1 ++ writeInt info.blockSize)

/-- `guac_rdpdr_fs_process_volume_info`. -/
def processVolumeInfo : Processed σ π :=
  if pdu.stream.length < 4 then (fs, [])
  else
    match readInt pdu.stream 0 4 with
    | 1 => processQueryVolumeInfo fs device pdu
    | 3 => processQuerySizeInfo platform fs device pdu
    | 4 => processQueryDeviceInfo fs device pdu
    | 5 => processQueryAttributeInfo platform fs device pdu
    | 7 => processQueryFullSizeInfo platform fs device pdu
    | _ => (fs, [])

/-! ## File information -/

/-- The information on a file, if its ID lies within the table. -/
def answerFile (fileId : Int) (output : FsFile → List UInt8) : Processed σ π :=
  match fsGetFile fs fileId with
  | none => (fs, [])
  | some file => answer fs device pdu .success (output file)

/-- `guac_rdpdr_fs_process_query_basic_info`. -/
def processQueryBasicInfo : Processed σ π :=
  answerFile fs device pdu pdu.request.fileId fun file =>
    writeUInt 4 36 ++ writeUInt 8 file.ctime.toNat ++ writeUInt 8 file.atime.toNat
      ++ writeUInt 8 file.mtime.toNat ++ writeUInt 8 file.mtime.toNat
      ++ writeUInt 4 file.attributes

/-- `guac_rdpdr_fs_process_query_standard_info`. -/
def processQueryStandardInfo : Processed σ π :=
  answerFile fs device pdu pdu.request.fileId fun file =>
    writeUInt 4 22 ++ writeUInt 8 file.size.toNat ++ writeUInt 8 file.size.toNat ++ writeUInt 4 1
      ++ [0] ++ [if file.isDirectory then 1 else 0]

/-- `guac_rdpdr_fs_process_query_attribute_tag_info`. -/
def processQueryAttributeTagInfo : Processed σ π :=
  answerFile fs device pdu pdu.request.fileId fun file =>
    writeUInt 4 8 ++ writeUInt 4 file.attributes ++ writeUInt 4 0

/-- `guac_rdpdr_fs_process_file_info`. -/
def processFileInfo : Processed σ π :=
  if pdu.stream.length < 4 then (fs, [])
  else
    match readInt pdu.stream 0 4 with
    | 4 => processQueryBasicInfo fs device pdu
    | 5 => processQueryStandardInfo fs device pdu
    | 35 => processQueryAttributeTagInfo fs device pdu
    | _ => (fs, [])

/-- `guac_rdpdr_fs_process_set_basic_info`. -/
def processSetBasicInfo (length : Int) : Processed σ π :=
  answer fs device pdu .success (writeInt length)

/-- A file is truncated to the size that follows the parameters. -/
def processSetSize (length : Int) : Processed σ π :=
  let rest := pdu.stream.drop 32
  if rest.length < 8 then (fs, [])
  else
    let (fs, result) := fsTruncate os.toOs fs pdu.request.fileId (toInt (readUInt rest 0 8))
    answer fs device pdu (resultStatus result) (writeInt length)

/-- `guac_rdpdr_fs_process_set_end_of_file_info`. -/
def processSetEndOfFileInfo (length : Int) : Processed σ π := processSetSize os fs device pdu length

/-- `guac_rdpdr_fs_process_set_allocation_info`. -/
def processSetAllocationInfo (length : Int) : Processed σ π :=
  processSetSize os fs device pdu length

/-- `guac_rdpdr_fs_process_set_disposition_info`. -/
def processSetDispositionInfo (length : Int) : Processed σ π :=
  let (fs, result) := fsDelete os.toOs fs pdu.request.fileId
  answer fs device pdu (resultStatus result) (writeInt length)

/-- The path that a file is to be renamed to, if the parameters are complete. -/
def renameDestination (stream : List UInt8) : Option CString :=
  let rest := stream.drop 32
  if rest.length < 6 then none
  else
    let filenameLength := readInt rest 2 4
    if isShorter (rest.drop 6) filenameLength then none
    else some (utf16ToUtf8 platform (rest.drop 6) (filenameLength.toNat / 2) fsMaxPath)

/-- `guac_rdpdr_fs_process_set_rename_info`: a file that is moved to the download folder is sent to
the owner instead. -/
def processSetRenameInfo (length : Int) : Processed σ π :=
  match renameDestination platform pdu.stream with
  | none => (fs, [])
  | some destination =>
      if inDownloadFolder destination ∧ !fs.disableDownload then
        match fsGetFile fs pdu.request.fileId with
        | none => (fs, [])
        | some file =>
            answer (downloadToOwner os pool fs pdu.owned file.absolutePath) device pdu .success
              (writeInt length)
      else
        let (fs, result) := fsRename os.toOs fs pdu.request.fileId destination
        answer fs device pdu (resultStatus result) (writeInt length)

/-- `guac_rdpdr_fs_process_set_file_info`. -/
def processSetFileInfo : Processed σ π :=
  if pdu.stream.length < 32 then (fs, [])
  else
    let length := readInt pdu.stream 4 4
    match readInt pdu.stream 0 4 with
    | 4 => processSetBasicInfo fs device pdu length
    | 20 => processSetEndOfFileInfo os fs device pdu length
    | 13 => processSetDispositionInfo os fs device pdu length
    | 10 => processSetRenameInfo platform os pool fs device pdu length
    | 19 => processSetAllocationInfo os fs device pdu length
    | _ => (fs, [])

/-! ## Directory information -/

/-- The information on a directory entry: `size` bytes of fields, which are given the length of the
name in UTF-16, and the name, as far as it fits into its buffer. -/
def answerEntry (entryName : CString) (entryFileId : Int) (size : Nat)
    (fields : FsFile → List UInt8 → List UInt8) : List IoCompletion :=
  let length := platform.utf8Strlen entryName
  let utf16Length := length * 2
  let utf16 := utf8ToUtf16 platform length entryName 256
  match fsGetFile fs entryFileId with
  | none => []
  | some file =>
      [ioCompletion device pdu .success
        (writeUInt 4 (size + utf16Length + 2) ++ fields file (writeUInt 4 (utf16Length + 2))
          ++ utf16.take utf16Length ++ [0, 0])]

/-- The fields that all but one kind of directory information begin with. -/
def entryFields (file : FsFile) (nameLength : List UInt8) : List UInt8 :=
  writeUInt 4 0 ++ writeUInt 4 0 ++ writeUInt 8 file.ctime.toNat ++ writeUInt 8 file.atime.toNat
    ++ writeUInt 8 file.mtime.toNat ++ writeUInt 8 file.mtime.toNat ++ writeUInt 8 file.size.toNat
    ++ writeUInt 8 file.size.toNat ++ writeUInt 4 file.attributes ++ nameLength

/-- `guac_rdpdr_fs_process_query_directory_info`. -/
def processQueryDirectoryInfo (entryName : CString) (entryFileId : Int) : List IoCompletion :=
  answerEntry platform fs device pdu entryName entryFileId 64 entryFields

/-- `guac_rdpdr_fs_process_query_full_directory_info`. -/
def processQueryFullDirectoryInfo (entryName : CString) (entryFileId : Int) : List IoCompletion :=
  answerEntry platform fs device pdu entryName entryFileId 68 fun file nameLength =>
    entryFields file nameLength ++ writeUInt 4 0

/-- `guac_rdpdr_fs_process_query_both_directory_info`. -/
def processQueryBothDirectoryInfo (entryName : CString) (entryFileId : Int) : List IoCompletion :=
  answerEntry platform fs device pdu entryName entryFileId (69 + 24) fun file nameLength =>
    entryFields file nameLength ++ writeUInt 4 0 ++ [0] ++ List.replicate 24 0

/-- `guac_rdpdr_fs_process_query_names_info`. -/
def processQueryNamesInfo (entryName : CString) (entryFileId : Int) : List IoCompletion :=
  answerEntry platform fs device pdu entryName entryFileId 12 fun _ nameLength =>
    writeUInt 4 0 ++ writeUInt 4 0 ++ nameLength

/-- The switch on the class of directory information. -/
def processEntry (informationClass : Int) (entryName : CString) (entryFileId : Int) :
    List IoCompletion :=
  match informationClass with
  | 1 => processQueryDirectoryInfo platform fs device pdu entryName entryFileId
  | 2 => processQueryFullDirectoryInfo platform fs device pdu entryName entryFileId
  | 3 => processQueryBothDirectoryInfo platform fs device pdu entryName entryFileId
  | 12 => processQueryNamesInfo platform fs device pdu entryName entryFileId
  | _ => []

/-- What is left to be read of the directory that is open as a file: whether its stream has yet to
be opened, and the names that it has yet to return. -/
def entriesLeft (fileId : Int) : Nat × Nat :=
  match (fs.files fileId).dir with
  | none => (1, 0)
  | some dir => (0, os.remaining fs.os dir)

/-- The second try of a native open for reading is the first one again. -/
theorem nativeOpen_remaining (state : σ) (realPath : CString) (dir : Int) :
    os.remaining (nativeOpen os.toOs state realPath ⟨.rdonly, false, false, false⟩).1 dir
      ≤ os.remaining state dir := by
  have fewer := os.openFile_remaining state realPath dir
  rcases nativeOpen_cases os.toOs state realPath ⟨.rdonly, false, false, false⟩
    with ⟨after, result, first, _, same⟩ | ⟨next, after, result, first, second, same⟩
  · rw [first] at fewer
    rw [same]
    exact fewer
  · have again := os.openFile_remaining next realPath dir
    rw [first] at fewer
    rw [second] at again
    rw [same]
    exact Nat.le_trans again fewer

/-- Opening a file for reading in vain leaves the table alone, and no more names in a stream. -/
theorem fsOpen_remaining {before after : Fs σ π} {path : CString} {error : FsError}
    (refused : fsOpen os.toOs pool before path fileReadData fileOpen 0 = (after, .error error)) :
    after.files = before.files
      ∧ ∀ dir, os.remaining after.os dir ≤ os.remaining before.os dir := by
  have flags : dispositionFlags (accessMode fileReadData) fileOpen
      = some ⟨.rdonly, false, false, false⟩ := by
    decide
  rw [fsOpen_eq] at refused
  cases ready : prepared before ⟨path, fileReadData, fileOpen, 0⟩ with
  | none =>
      obtain ⟨_, same⟩ := fsOpen_refused os.toOs pool ready
      cases same.symm.trans refused
      exact ⟨rfl, fun dir => Nat.le_refl _⟩
  | some plan =>
      obtain ⟨normalized, opens⟩ := plan
      obtain rfl := Option.some.inj (flags.symm.trans (prepared_eq_some ready).2.2)
      have called := (fsOpen_prepared os.toOs pool ready).symm.trans refused
      rw [openSystem_existing] at called
      have fewer := nativeOpen_remaining os before.os (fsTranslatePath before.drivePath normalized)
      rcases opened : nativeOpen os.toOs before.os (fsTranslatePath before.drivePath normalized)
        ⟨.rdonly, false, false, false⟩ with ⟨state, _ | fd⟩
      · rw [opened] at called fewer
        cases called
        exact ⟨rfl, fewer⟩
      · rw [opened] at called
        cases called

/-- Reading the next name leaves less to be read, also when a file has been opened in vain since. -/
theorem entriesLeft_lt {before after later : Fs σ π} {fileId : Int} {name : CString}
    (read : fsReadDir os.toOs before fileId = (after, some name))
    (sameFiles : later.files = after.files)
    (noMore : ∀ dir, os.remaining later.os dir ≤ os.remaining after.os dir) :
    Prod.Lex (· < ·) (· < ·) (entriesLeft os later fileId) (entriesLeft os before fileId) := by
  unfold fsReadDir at read
  by_cases outside : fileId < 0 ∨ fileId ≥ fsMaxFiles
  · rw [if_pos outside] at read
    cases read
  rw [if_neg outside] at read
  unfold openDir at read
  unfold entriesLeft
  rw [sameFiles]
  cases stream : (before.files fileId).dir with
  | none =>
      rcases opened : os.fdopendir before.os (before.files fileId).fd with ⟨state, _ | dir⟩
      · simp only [stream, opened] at read
        cases read
      · simp only [stream, opened] at read
        obtain ⟨rfl, next⟩ := Prod.mk.inj read
        dsimp only
        rw [Function.update_self]
        exact .left _ _ (by decide)
  | some dir =>
      simp only [stream] at read
      obtain ⟨rfl, next⟩ := Prod.mk.inj read
      dsimp only
      rw [stream]
      exact .right _ (Nat.lt_of_le_of_lt (noMore dir) (os.readdir_remaining before.os dir name next))

set_option linter.unusedVariables false in
/-- The loop of `guac_rdpdr_fs_process_query_directory`: the next entry that matches the pattern and
can be opened, with the file ID it got. -/
def findEntry (fs : Fs σ π) (fileId : Int) : Fs σ π × Option (CString × Int) :=
  match read : fsReadDir os.toOs fs fileId with
  | (fs, none) => (fs, none)
  | (fs, some entryName) =>
      let file := fs.files fileId
      match fsConvertPath file.absolutePath entryName with
      | none => findEntry fs fileId
      | some entryPath =>
          if !platform.fnmatch file.dirPattern entryPath then findEntry fs fileId
          else
            match refused : fsOpen os.toOs pool fs entryPath fileReadData fileOpen 0 with
            | (fs, .error _) => findEntry fs fileId
            | (fs, .ok entryFileId) => (fs, some (entryName, entryFileId))
termination_by entriesLeft os fs fileId
decreasing_by
  · exact entriesLeft_lt os read rfl fun _ => Nat.le_refl _
  · exact entriesLeft_lt os read rfl fun _ => Nat.le_refl _
  · obtain ⟨sameFiles, noMore⟩ := fsOpen_remaining os pool refused
    exact entriesLeft_lt os read sameFiles noMore

/-- The parameters of a directory query that is complete: the information class, the pattern that
an initial query brings along, and nothing where bytes are missing. -/
def queryDirectoryParameters (stream : List UInt8) : Option (Int × Option CString) :=
  if stream.length < 9 then none
  else
    let informationClass := readInt stream 0 4
    let pathLength := readInt stream 5 4
    let rest := stream.drop 9
    if readUInt stream 4 1 = 0 then some (informationClass, none)
    else if isShorter rest (toInt (23 + pathLength)) then none
    else
      some (informationClass,
        some (utf16ToUtf8 platform (rest.drop 23) (pathLength.toNat / 2 - 1) fsMaxPath))

/-- The pattern of a directory query, kept in the slot of the directory. -/
def setDirPattern (file : FsFile) : Option CString → Fs σ π
  | none => fs
  | some dirPattern =>
      { fs with files :=
          Function.update fs.files pdu.request.fileId { file with dirPattern := dirPattern } }

/-- `guac_rdpdr_fs_process_query_directory`. -/
def processQueryDirectory : Processed σ π :=
  match fsGetFile fs pdu.request.fileId with
  | none => (fs, [])
  | some file =>
      match queryDirectoryParameters platform pdu.stream with
      | none => (fs, [])
      | some (informationClass, dirPattern) =>
          match findEntry platform os pool (setDirPattern fs pdu file dirPattern)
            pdu.request.fileId with
          | (fs, none) => answer fs device pdu .noMoreFiles (writeUInt 4 0 ++ [0])
          | (fs, some (entryName, entryFileId)) =>
              (fsClose os.toOs pool fs entryFileId,
                processEntry platform fs device pdu informationClass entryName entryFileId)

/-! ## Dispatch -/

/-- The dispatch of `IRP_MJ_DIRECTORY_CONTROL`. -/
def processDirectoryControl : Processed σ π :=
  -- `IRP_MN_QUERY_DIRECTORY`
  if pdu.request.minorFunc = 1 then processQueryDirectory platform os pool fs device pdu
  -- `IRP_MN_NOTIFY_CHANGE_DIRECTORY`
  else if pdu.request.minorFunc = 2 then processNotifyChangeDirectory fs
  else (fs, [])

/-- `guac_rdpdr_device_fs_iorequest_handler`. -/
def deviceFsIorequestHandler : Processed σ π :=
  match pdu.request.majorFunc with
  -- `IRP_MJ_CREATE`, `IRP_MJ_CLOSE`, `IRP_MJ_READ`, `IRP_MJ_WRITE`
  | 0x00 => processCreate platform os pool fs device pdu
  | 0x02 => processClose os pool fs device pdu
  | 0x03 => processRead os fs device pdu
  | 0x04 => processWrite os fs device pdu
  -- `IRP_MJ_DEVICE_CONTROL`
  | 0x0E => processDeviceControl fs device pdu
  -- `IRP_MJ_QUERY_VOLUME_INFORMATION`, `IRP_MJ_SET_VOLUME_INFORMATION`
  | 0x0A => processVolumeInfo platform fs device pdu
  | 0x0B => processSetVolumeInfo fs device pdu
  -- `IRP_MJ_QUERY_INFORMATION`, `IRP_MJ_SET_INFORMATION`
  | 0x05 => processFileInfo fs device pdu
  | 0x06 => processSetFileInfo platform os pool fs device pdu
  -- `IRP_MJ_DIRECTORY_CONTROL`, `IRP_MJ_LOCK_CONTROL`
  | 0x0C => processDirectoryControl platform os pool fs device pdu
  | 0x11 => processLockControl fs device pdu
  | _ => (fs, [])

/-- A device and its handler of I/O requests. The handler of a printer has no part in the
filesystem. -/
inductive RdpdrDevice
  | filesystem (device : FsDevice)
  | printer (iorequestHandler : IoRequest → List UInt8 → List IoCompletion)

/-- The device with an ID, if it is registered. -/
def registeredDevice (devices : List RdpdrDevice) (deviceId : Int) : Option RdpdrDevice :=
  if deviceId < 0 then none else devices[deviceId.toNat]?

/-- `guac_rdpdr`, the registered devices in the order of their IDs, together with the filesystem. -/
structure Rdpdr (σ π : Type*) where
  fs : Fs σ π
  devices : List RdpdrDevice

/-- The header of a Device I/O Request PDU. -/
def readIoRequest (stream : List UInt8) : IoRequest where
  deviceId := readInt stream 0 4
  fileId := readInt stream 4 4
  completionId := readInt stream 8 4
  majorFunc := readInt stream 12 4
  minorFunc := readInt stream 16 4

/-- The filesystem as a request leaves it, and the completions sent. -/
def Rdpdr.afterRequest (rdpdr : Rdpdr σ π) (processed : Processed σ π) :
    Rdpdr σ π × List IoCompletion :=
  ({ rdpdr with fs := processed.1 }, processed.2)

/-- `guac_rdpdr_process_device_iorequest`, while the owner of the connection is there or not. -/
def processDeviceIorequest (rdpdr : Rdpdr σ π) (owned : Bool) (stream : List UInt8) :
    Rdpdr σ π × List IoCompletion :=
  if stream.length < 20 then (rdpdr, [])
  else
    match registeredDevice rdpdr.devices (readIoRequest stream).deviceId with
    | none => (rdpdr, [])
    | some (.printer iorequestHandler) =>
        (rdpdr, iorequestHandler (readIoRequest stream) (stream.drop 20))
    | some (.filesystem device) =>
        rdpdr.afterRequest (deviceFsIorequestHandler platform os pool rdpdr.fs device
          { owned := owned, request := readIoRequest stream, stream := stream.drop 20 })

/-- A request that is addressed to a filesystem reaches its handler. -/
theorem processDeviceIorequest_filesystem (rdpdr : Rdpdr σ π) {device : FsDevice} {owned : Bool}
    {stream : List UInt8} (complete : 20 ≤ stream.length)
    (addressed : registeredDevice rdpdr.devices (readIoRequest stream).deviceId
      = some (.filesystem device)) :
    processDeviceIorequest platform os pool rdpdr owned stream
      = rdpdr.afterRequest (deviceFsIorequestHandler platform os pool rdpdr.fs device
        { owned := owned, request := readIoRequest stream, stream := stream.drop 20 }) := by
  unfold processDeviceIorequest
  rw [if_neg (Nat.not_lt.mpr complete), addressed]

end GuacNebula.Rdp
