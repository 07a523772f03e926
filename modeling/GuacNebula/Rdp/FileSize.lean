import GuacNebula.Rdp.Volume

/-! # The size of a file

The remote server sets the size of a file to a number of 64 bits, which reaches the system as an
`int`. A size of at least 2^32 can turn into one that the system accepts, and the file is cut to it.
-/

namespace GuacNebula.Rdp

open CInt

/-- The size that a request asks for. -/
def requestedSize (stream : List UInt8) : Nat := readUInt (stream.drop 32) 0 8

/-- A complete request for the end of a file or its allocation. -/
structure SetsSize (pdu : RdpdrPdu) : Prop where
  complete : 40 ≤ pdu.stream.length
  informationClass : readInt pdu.stream 0 4 = 20 ∨ readInt pdu.stream 0 4 = 19

section

variable {σ ι π : Type*}

/-- The file gets the size, or the request fails with an error status and the file stays as it
was. -/
def SizeSetOrRefused (view : View σ ι) (object : ι) (size : Nat) (before : σ)
    (processed : Processed σ π) : Prop :=
  ∃ completion, processed.2 = [completion] ∧
    ((view.data processed.1.os object).length = size ∨
      (completion.status ≠ .success ∧
        view.data processed.1.os object = view.data before object))

variable (platform : RdpdrPlatform σ) (os : FiniteOs σ) (pool : IdPool π) (fs : Fs σ π)
  (device : FsDevice) (pdu : RdpdrPdu) {file : FsFile}

/-- Both kinds of requests truncate the file. -/
theorem processSetFileInfo_size (request : SetsSize pdu) :
    processSetFileInfo platform os pool fs device pdu =
      processSetSize os fs device pdu (readInt pdu.stream 4 4) := by
  have complete := request.complete
  rw [processSetFileInfo, if_neg (by omega)]
  rcases request.informationClass with endOfFile | allocation
  · rw [endOfFile]
    rfl
  · rw [allocation]
    rfl

theorem fsTruncate_open (os : Os σ) {fs : Fs σ π} {fileId length : Int} {after : σ}
    {result : Except Errno Unit} (isOpen : fsGetFile fs fileId = some file)
    (truncated : os.ftruncate fs.os file.fd length = (after, result)) :
    fsTruncate os fs fileId length = ({ fs with os := after }, translated result) := by
  simp only [fsTruncate, isOpen, truncated]

/-- What the system says to the length goes into the answer. -/
theorem processSetSize_open (request : SetsSize pdu) (length : Int)
    (isOpen : fsGetFile fs pdu.request.fileId = some file) {after : σ} {result : Except Errno Unit}
    (truncated : os.ftruncate fs.os file.fd (toInt (requestedSize pdu.stream)) = (after, result)) :
    processSetSize os fs device pdu length =
      ({ fs with os := after },
        [ioCompletion device pdu (resultStatus (translated result)) (writeInt length)]) := by
  have complete := request.complete
  have truncates := fsTruncate_open os.toOs isOpen truncated
  unfold processSetSize
  rw [requestedSize] at truncates
  rw [if_neg (by rw [List.length_drop]; omega), truncates]
  rfl

/-- Whatever the system fails with, the status is not that of success. -/
theorem resultStatus_error (errno : Errno) :
    resultStatus (translated (.error errno : Except Errno Unit)) ≠ .success := by
  cases errno <;> nofun

/-- A size as an `int`: it is the same, negative, or what is left of it beyond 2^32. -/
theorem toInt_size (size : Nat) :
    (size < 2147483648 → toInt size = size) ∧
      (2147483648 ≤ size % 4294967296 → toInt size < 0) ∧
      (size % 4294967296 < 2147483648 → toInt size = (size % 4294967296 : Nat)) := by
  unfold toInt
  omega

/-- The file gets the requested size, or the request fails and leaves it alone, exactly if the size
is less than 2^31, or becomes negative as an `int`, or what becomes of it is a length that the
system refuses to give to the file. -/
theorem setSize_exact_iff {view : View σ ι} (laws : TruncationLaws os.toOs view)
    (request : SetsSize pdu) (isOpen : fsGetFile fs pdu.request.fileId = some file) {object : ι}
    (held : view.held fs.os file.fd = some object) :
    SizeSetOrRefused view object (requestedSize pdu.stream) fs.os
        (processSetFileInfo platform os pool fs device pdu) ↔
      requestedSize pdu.stream < 2147483648 ∨
        2147483648 ≤ requestedSize pdu.stream % 4294967296 ∨
        ∃ after errno, os.ftruncate fs.os file.fd (requestedSize pdu.stream % 4294967296 : Nat) =
          (after, .error errno) := by
  obtain ⟨small, negative, wrapped⟩ := toInt_size (requestedSize pdu.stream)
  rw [processSetFileInfo_size platform os pool fs device pdu request]
  rcases truncated : os.ftruncate fs.os file.fd (toInt (requestedSize pdu.stream))
    with ⟨after, errno | _⟩
  · rw [processSetSize_open os fs device pdu request _ isOpen truncated]
    have same := congrFun (laws.truncate_failed truncated) object
    refine ⟨fun _ => ?_, fun _ => ⟨_, rfl, .inr ⟨resultStatus_error errno, same⟩⟩⟩
    by_cases low : requestedSize pdu.stream % 4294967296 < 2147483648
    · rw [wrapped low] at truncated
      exact .inr (.inr ⟨after, errno, truncated⟩)
    · exact .inr (.inl (Nat.le_of_not_lt low))
  · rw [processSetSize_open os fs device pdu request _ isOpen truncated]
    obtain ⟨nonneg, length⟩ := laws.truncated truncated held
    constructor
    · rintro ⟨completion, sent, exact | ⟨failed, _⟩⟩
      · refine .inl ?_
        have same : ((requestedSize pdu.stream : Nat) : Int) = toInt (requestedSize pdu.stream) :=
          (congrArg Int.ofNat exact).symm.trans length
        have fits := toInt_fits (requestedSize pdu.stream)
        unfold FitsInt at fits
        omega
      · cases sent
        exact absurd rfl failed
    · rintro (fits | high | ⟨last, errno, refused⟩)
      · rw [small fits] at length
        exact ⟨_, rfl, .inl (Int.ofNat.inj length)⟩
      · have below := negative high
        omega
      · by_cases low : requestedSize pdu.stream % 4294967296 < 2147483648
        · rw [wrapped low, refused] at truncated
          cases truncated
        · have below := negative (Nat.le_of_not_lt low)
          omega

end

/-! ## A file that is cut -/

/-- A platform of the drive on which no name matches a pattern and no text is converted. -/
def volumePlatform : RdpdrPlatform Volume where
  fnmatch _ _ := false
  statvfs _ _ := none
  utf8Write _ _ := []
  utf8Read _ := (0, 1)
  utf8Strlen := List.length

/-- A drive on which a file is open for writing, as the file ID 0. -/
def openedVolume : Fs Volume QueuePool :=
  (fsOpen volumeOs.toOs queuePool (volumeFs [(ascii "/d/a", .file (ascii "text"))] (ascii "/d"))
    (ascii "\\a") genericWrite fileOpen 0).1

/-- A request to set the end of the file 0 to a size. -/
def endOfFileRequest (size : Nat) : RdpdrPdu where
  owned := true
  request := { deviceId := 0, fileId := 0, completionId := 7, majorFunc := 6, minorFunc := 0 }
  stream := writeUInt 4 20 ++ writeUInt 4 8 ++ List.replicate 24 0 ++ writeUInt 8 size

/-- The device of the drive. -/
def volumeDevice : FsDevice := { deviceId := 0, deviceName := ascii "D" }

/-- A file is cut to two bytes. -/
theorem setSize_exact_two :
    SizeSetOrRefused volumeView 0 2 openedVolume.os
      (processSetFileInfo volumePlatform volumeOs queuePool openedVolume volumeDevice
        (endOfFileRequest 2)) :=
  (setSize_exact_iff volumePlatform volumeOs queuePool openedVolume volumeDevice
    (endOfFileRequest 2) volume_truncationLaws ⟨by decide, .inl (by decide)⟩ rfl rfl).mpr
    (.inl (by decide))

/-- A file of four bytes that is to grow to 2^32 bytes is emptied, and the request succeeds. -/
theorem setSize_wraps :
    ((processSetFileInfo volumePlatform volumeOs queuePool openedVolume volumeDevice
        (endOfFileRequest 4294967296)).2.map IoCompletion.status) = [.success] ∧
      volumeView.data openedVolume.os 0 = ascii "text" ∧
      volumeView.data (processSetFileInfo volumePlatform volumeOs queuePool openedVolume
        volumeDevice (endOfFileRequest 4294967296)).1.os 0 = [] ∧
      requestedSize (endOfFileRequest 4294967296).stream = 4294967296 ∧
      ¬ SizeSetOrRefused volumeView 0 4294967296 openedVolume.os
        (processSetFileInfo volumePlatform volumeOs queuePool openedVolume volumeDevice
          (endOfFileRequest 4294967296)) := by
  have status : ((processSetFileInfo volumePlatform volumeOs queuePool openedVolume volumeDevice
      (endOfFileRequest 4294967296)).2.map IoCompletion.status) = [.success] := by decide +kernel
  have emptied : volumeView.data (processSetFileInfo volumePlatform volumeOs queuePool openedVolume
      volumeDevice (endOfFileRequest 4294967296)).1.os 0 = [] := by decide +kernel
  refine ⟨status, by decide, emptied, by decide +kernel, ?_⟩
  rintro ⟨completion, sent, exact | ⟨failed, _⟩⟩
  · rw [emptied] at exact
    cases exact
  · rw [sent] at status
    exact failed (List.singleton_inj.mp status)

end GuacNebula.Rdp
