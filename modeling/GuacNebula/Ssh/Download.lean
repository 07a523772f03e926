import GuacNebula.Ssh.Listing

/-! # Downloads over SFTP

A file is sent blob by blob: with each ack more of it is read, until there is no more or reading
fails. Both ways of asking for a file, from the terminal and through the filesystem of the client,
open it and leave the rest to the acks.
-/

namespace GuacNebula.Ssh

open Rdp Run

/-! ## Streams -/

/-- What `libssh2_sftp_read` returns. -/
inductive SftpRead
  | data (bytes : List UInt8)
  | endOfFile
  | failure
  deriving DecidableEq, Repr

/-- An ack: a successful one, with what will be read for it, or one with an error status. -/
inductive DownloadAck
  | success (read : SftpRead)
  | error
  deriving DecidableEq, Repr

/-- The instructions on the stream of a download. -/
inductive DownloadInstruction
  | file (mimetype name : CString)
  | body (mimetype name : CString)
  | blob (bytes : List UInt8)
  | finish
  deriving DecidableEq, Repr

/-- A stream whose data is an open file. -/
structure Download where
  file : Resource := {}
  sent : List DownloadInstruction
  streamFreed : Bool := false
  deriving DecidableEq, Repr

/-- `guac_common_ssh_sftp_ack_handler`. -/
def downloadAckHandler (download : Download) : DownloadAck → Download
  | .success (.data bytes) =>
      { download with
        file := download.file.use
        sent := download.sent ++ [.blob bytes] }
  | .success .endOfFile =>
      { file := download.file.use.close
        sent := download.sent ++ [.finish]
        streamFreed := true }
  | .success .failure =>
      { file := download.file.use.close
        sent := download.sent ++ [.finish]
        streamFreed := true }
  | .error => { download with streamFreed := true }

/-- An ack arrives. There are none for a stream that has been freed. -/
def downloadStep (download : Download) (ack : DownloadAck) : Download :=
  if download.streamFreed then download else downloadAckHandler download ack

/-! ## Opening a file -/

/-- What the server and the C library answer: the permissions found under a path, whether a file
can be opened for reading, the entries of a directory that can be opened, and the last component of
a path. -/
structure SftpServer where
  stat : CString → Option Nat
  openFile : CString → Bool
  opendir : CString → Option (List SftpEntry)
  basename : CString → CString

variable {lib : GuacString} (server : SftpServer)

/-- `guac_common_ssh_sftp_download_file`. -/
def downloadFile (filesystem : SftpFilesystem lib) (filename : CString) : Option Download :=
  if filesystem.disableDownload then none
  else if server.openFile filename then
    some { sent := [.file octetStreamMimetype (server.basename filename)] }
  else none

/-- What a get request leads to. -/
inductive GetResult
  | nothing
  | listing (context : ListingContext) (listing : SftpListing)
  | download (download : Download)

/-- `guac_common_ssh_sftp_get_handler`. -/
def getHandler (filesystem : SftpFilesystem lib) (name : CString) : GetResult :=
  match translateName lib filesystem name with
  | none => .nothing
  | some fullpath =>
      match server.stat fullpath with
      | none => .nothing
      | some permissions =>
          if isDirectory permissions then
            match server.opendir fullpath with
            | none => .nothing
            | some entries =>
                let (directoryName, length) := lib.strlcpy name sftpMaxPath
                if length ≥ sftpMaxPath then .nothing
                else
                  .listing { lib, stat := server.stat, directoryName } { remaining := entries }
          else if filesystem.disableDownload then .nothing
          else if server.openFile fullpath then
            .download { sent := [.body octetStreamMimetype name] }
          else .nothing

/-- The download was opened in one of the two ways. -/
def Opened (filesystem : SftpFilesystem lib) (download : Download) : Prop :=
  (∃ filename, downloadFile server filesystem filename = some download)
    ∨ ∃ name, getHandler server filesystem name = .download download

/-! ## The handle of the file -/

/-- The file is in use until the stream is freed, and has been closed once then. -/
def ClosedOnce (download : Download) : Prop :=
  download.file = { closes := download.streamFreed.toNat }

instance (download : Download) : Decidable (ClosedOnce download) :=
  inferInstanceAs (Decidable (_ = _))

/-- No ack with an error status arrives before the stream is freed. -/
def NoError (download : Download) (ack : DownloadAck) : Prop :=
  ack = .error → download.streamFreed = true

section Handle

variable {server} {filesystem : SftpFilesystem lib} {download : Download}

/-- A file is open when its download begins. -/
theorem Opened.file (opened : Opened server filesystem download) :
    download.file = {} ∧ download.streamFreed = false := by
  rcases opened with ⟨filename, asked⟩ | ⟨name, asked⟩
  · unfold downloadFile at asked
    split_ifs at asked
    cases asked
    exact ⟨rfl, rfl⟩
  · unfold getHandler at asked
    split at asked
    case h_1 => cases asked
    case h_2 fullpath _ =>
      split at asked
      case h_1 => cases asked
      case h_2 permissions _ =>
        split at asked
        case isTrue =>
          split at asked
          case h_1 => cases asked
          case h_2 entries _ =>
            dsimp only at asked
            split at asked <;> cases asked
        case isFalse =>
          split_ifs at asked
          cases asked
          exact ⟨rfl, rfl⟩

/-- An ack keeps the file open as long as the stream, or closes it with the stream, unless it has an
error status. -/
theorem ClosedOnce.step_iff (closed : ClosedOnce download) (ack : DownloadAck) :
    ClosedOnce (downloadStep download ack) ↔ NoError download ack := by
  cases freed : download.streamFreed with
  | true =>
      have same : downloadStep download ack = download := if_pos freed
      rw [same]
      exact iff_of_true closed fun _ => freed
  | false =>
      have handled : downloadStep download ack = downloadAckHandler download ack :=
        if_neg (by simp [freed])
      rw [ClosedOnce, freed] at closed
      rw [handled]
      cases ack with
      | success read =>
          refine iff_of_true ?_ nofun
          cases read with
          | data bytes => simp [ClosedOnce, downloadAckHandler, closed, freed, Resource.use]
          | endOfFile => simp [ClosedOnce, downloadAckHandler, closed, Resource.use, Resource.close]
          | failure => simp [ClosedOnce, downloadAckHandler, closed, Resource.use, Resource.close]
      | error =>
          refine iff_of_false ?_ fun met => ?_
          · simp [ClosedOnce, downloadAckHandler, closed]
          · exact absurd (freed.symm.trans (met rfl)) (by decide)

end Handle

/-- **Through any sequence of acks, the file of a download is closed once with its stream, and not
used after that, exactly if no ack with an error status arrives for the open stream.** -/
theorem download_closed_iff (filesystem : SftpFilesystem lib) {download : Download}
    (opened : Opened server filesystem download) (acks : List DownloadAck) :
    Always downloadStep ClosedOnce download acks ↔ Guarded downloadStep NoError download acks := by
  obtain ⟨file, freed⟩ := opened.file
  have start : ClosedOnce download := by rw [ClosedOnce, file, freed]; rfl
  exact always_iff_guarded start start (fun _ _ _ _ closed => closed)
    fun _ ack closed _ => ClosedOnce.step_iff closed ack

/-- A server that has the file `a`, and no directories. -/
def sampleServer : SftpServer where
  stat path := if path = [0x2F, 0x73, 0x2F, 0x61] then some 0o100644 else none
  openFile path := path = [0x2F, 0x73, 0x2F, 0x61]
  opendir _ := none
  basename path := path.drop 3

/-- The download of `a` from the directory `/s`. -/
def sampleDownload : Download where
  sent := [.file octetStreamMimetype [0x61]]

theorem sampleDownload_opened : Opened sampleServer sampleFilesystem sampleDownload :=
  .inl ⟨[0x2F, 0x73, 0x2F, 0x61], by decide⟩

/-- The file has one byte and is read to its end. -/
theorem download_closed_at_end :
    Always downloadStep ClosedOnce sampleDownload
      [.success (.data [0x61]), .success .endOfFile] :=
  (download_closed_iff sampleServer sampleFilesystem sampleDownload_opened _).mpr
    ⟨nofun, nofun, trivial⟩

/-- The user refuses the first blob: the stream is freed, and the file stays open. -/
theorem download_left_open :
    Opened sampleServer sampleFilesystem sampleDownload
      ∧ ¬ Always downloadStep ClosedOnce sampleDownload [.success (.data [0x61]), .error] :=
  ⟨sampleDownload_opened, fun always => absurd always.last (by decide)⟩

end GuacNebula.Ssh
