import GuacNebula.Common.Json
import GuacNebula.Rdp.Fs

/-! # Transfers to the user

A file of the drive is sent to the user over a stream: as the blobs of a download, or, for a
directory that was requested through the filesystem object, as a JSON listing. The user
acknowledges what arrives, and the ack handler of the stream sends the next part. A
`Session` follows one such stream, together with the filesystem and what was sent.
-/

namespace GuacNebula.Rdp

open GuacNebula.Common

/-- `GUAC_USER_STREAM_INDEX_MIMETYPE`. -/
def streamIndexMimetype : CString := ascii "application/vnd.glyptodon.guacamole.stream-index+json"

def octetStreamMimetype : CString := ascii "application/octet-stream"

/-- `guac_rdp_ls_status`. -/
structure LsStatus where
  fileId : Int
  directoryName : CString
  jsonState : JsonState

/-- `guac_rdp_download_status`. -/
structure DownloadStatus where
  fileId : Int
  offset : UInt64

/-- The data of a stream, which also selects its ack handler. -/
inductive StreamData
  | listing (status : LsStatus)
  | download (status : DownloadStatus)

/-- An instruction sent to the user on behalf of a transfer. -/
inductive Instruction
  | body (mimetype name : CString)
  | file (mimetype name : CString)
  | blob (data : List UInt8)
  | streamEnd
  | noFilesystem
  deriving DecidableEq

/-- The data of a blob instruction. -/
def Instruction.blobData : Instruction → Option (List UInt8)
  | .blob data => some data
  | _ => none

/-- The transfer of one file to the user. `closed` is not part of the program: it lists the
IDs that the handlers passed to `guac_rdp_fs_close`. -/
structure Session (σ π : Type*) where
  fs : Fs σ π
  loaded : Bool
  stream : Option StreamData
  sent : List Instruction
  closed : List Int

/-- A session in which nothing has been transferred. -/
def Session.idle {σ π : Type*} (fs : Fs σ π) : Session σ π where
  fs := fs
  loaded := true
  stream := none
  sent := []
  closed := []

variable {σ π : Type*} (os : Os σ) (pool : IdPool π)

/-- What the loop of `guac_rdp_ls_ack_handler` works on. -/
structure Listing (σ π : Type*) where
  fs : Fs σ π
  jsonState : JsonState
  blobs : List (List UInt8)
  closed : List Int

/-- How that loop ends: a blob was written, the directory was exhausted, an open produced an
ID outside the table, or the directory was read for as long as the model looked. -/
inductive LsOutcome
  | paused
  | exhausted
  | badFileId
  | reading
  deriving DecidableEq

/-- The mimetype under which an entry is listed. -/
def entryMimetype (isDirectory : Bool) : CString :=
  if isDirectory then streamIndexMimetype else octetStreamMimetype

/-- The body of the loop: one entry is listed, unless its path is invalid or cannot be
opened. The flag is `blob_written`, and is missing when the ID of the opened file is bad. -/
def lsEntry (status : LsStatus) (listing : Listing σ π) (filename : CString) :
    Listing σ π × Option Bool :=
  if filename = [dot] ∨ filename = [dot, dot] then (listing, some false)
  else match fsAppendFilename status.directoryName filename with
  | none => (listing, some false)
  | some absolutePath =>
      match fsOpen os pool listing.fs absolutePath genericRead fileOpen 0 with
      | (fs, .error _) => ({ listing with fs := fs }, some false)
      | (fs, .ok fileId) =>
          match fsGetFile fs fileId with
          | none => ({ listing with fs := fs }, none)
          | some file =>
              let written := jsonWriteProperty absolutePath (entryMimetype file.isDirectory)
                listing.jsonState
              ({ fs := fsClose os pool fs fileId
                 jsonState := written.state
                 blobs := listing.blobs ++ written.blobs
                 closed := fileId :: listing.closed },
                some written.blobWritten)

/-- The loop of `guac_rdp_ls_ack_handler`, for at most `fuel` reads of the directory. The next
entry is read before the flag is tested. -/
def lsLoop (status : LsStatus) : Nat → Listing σ π → Bool → Listing σ π × LsOutcome
  | 0, listing, _ => (listing, .reading)
  | fuel + 1, listing, blobWritten =>
      let (fs, filename) := fsReadDir os listing.fs status.fileId
      let listing := { listing with fs := fs }
      match filename with
      | none => (listing, .exhausted)
      | some filename =>
          if blobWritten then (listing, .paused)
          else match lsEntry os pool status listing filename with
          | (listing, some blobWritten) => lsLoop status fuel listing blobWritten
          | (listing, none) => (listing, .badFileId)

/-- The session with the state that the loop of the listing left behind. -/
def Session.afterListing (session : Session σ π) (status : LsStatus) (listing : Listing σ π) :
    Session σ π :=
  { session with
    fs := listing.fs
    stream := some (.listing { status with jsonState := listing.jsonState })
    sent := session.sent ++ listing.blobs.map .blob
    closed := listing.closed }

/-- The end of a listing: the JSON object is completed and everything is released. -/
def Session.finishListing (session : Session σ π) (status : LsStatus) (listing : Listing σ π) :
    Session σ π :=
  let ended := jsonEndObject listing.jsonState
  let flushed := (jsonFlush ended.state).2
  { session with
    fs := fsClose os pool listing.fs status.fileId
    stream := none
    sent := session.sent ++ (listing.blobs ++ ended.blobs ++ flushed).map .blob ++ [.streamEnd]
    closed := status.fileId :: listing.closed }

/-- `guac_rdp_ls_ack_handler`. -/
def lsAckHandler (fuel : Nat) (session : Session σ π) (status : LsStatus) (success : Bool) :
    Session σ π :=
  if success then
    match lsLoop os pool status fuel
        { fs := session.fs, jsonState := status.jsonState, blobs := [],
          closed := session.closed } false with
    | (listing, .exhausted) => session.finishListing os pool status listing
    | (listing, _) => session.afterListing status listing
  else
    { session with
      fs := fsClose os pool session.fs status.fileId
      stream := none
      closed := status.fileId :: session.closed }

/-- The size of the buffer of `guac_rdp_download_ack_handler`. -/
def downloadBufferSize : Nat := 4096

/-- `guac_rdp_download_ack_handler`. The stream is freed at the end of the file, after a read
error and after a failed ack; the file stays open. -/
def downloadAckHandler (session : Session σ π) (status : DownloadStatus) (success : Bool) :
    Session σ π :=
  if !session.loaded then { session with sent := session.sent ++ [.noFilesystem] }
  else if success then
    match fsRead os session.fs status.fileId status.offset downloadBufferSize with
    | (fs, .ok bytes) =>
        if bytes.length > 0 then
          { session with
            fs := fs
            stream := some (.download
              { status with offset := status.offset + UInt64.ofNat bytes.length })
            sent := session.sent ++ [.blob bytes] }
        else { session with fs := fs, stream := none, sent := session.sent ++ [.streamEnd] }
    | (fs, .error _) =>
        { session with fs := fs, stream := none, sent := session.sent ++ [.streamEnd] }
  else { session with stream := none }

/-- An ack on the stream, if it has not been freed. -/
def ackStream (fuel : Nat) (session : Session σ π) (success : Bool) : Session σ π :=
  match session.stream with
  | none => session
  | some (.listing status) => lsAckHandler os pool fuel session status success
  | some (.download status) => downloadAckHandler os session status success

/-- `guac_rdp_fs_basename`: the part of a path after its last separator. -/
def fsBasename (path : CString) : CString :=
  (path.reverse.takeWhile fun c => !isSeparator c).reverse

/-- What makes the program open a file for the user: the user requests it, or the remote
server has left it in the download folder. -/
inductive TransferRequest
  | get (name : CString)
  | toUser (path : CString)

/-- `guac_rdp_download_get_handler` after the file was opened. -/
def Session.getOpened (session : Session σ π) (name : CString) (fileId : Int) (file : FsFile) :
    Session σ π :=
  if file.isDirectory then
    { session with
      stream := some (.listing
        { fileId := fileId
          directoryName := name.take (fsMaxPath - 1)
          jsonState := jsonBeginObject })
      sent := session.sent ++ [.body streamIndexMimetype name] }
  else if !session.fs.disableDownload then
    { session with
      stream := some (.download { fileId := fileId, offset := 0 })
      sent := session.sent ++ [.body octetStreamMimetype name] }
  else session

/-- `guac_rdp_download_get_handler`. -/
def downloadGetHandler (session : Session σ π) (name : CString) : Session σ π :=
  if !session.loaded then session
  else match fsOpen os pool session.fs name genericRead fileOpen 0 with
  | (fs, .error _) => { session with fs := fs }
  | (fs, .ok fileId) =>
      match fsGetFile fs fileId with
      | none => { session with fs := fs }
      | some file => { session with fs := fs }.getOpened name fileId file

/-- `guac_rdp_download_to_user`. -/
def downloadToUser (session : Session σ π) (path : CString) : Session σ π :=
  if !session.loaded then session
  else if session.fs.disableDownload then session
  else match fsOpen os pool session.fs path fileReadData fileOpen 0 with
  | (fs, .error _) => { session with fs := fs }
  | (fs, .ok fileId) =>
      { session with
        fs := fs
        stream := some (.download { fileId := fileId, offset := 0 })
        sent := session.sent ++ [.file octetStreamMimetype (fsBasename path)] }

/-- The start of a transfer. -/
def startTransfer (session : Session σ π) : TransferRequest → Session σ π
  | .get name => downloadGetHandler os pool session name
  | .toUser path => downloadToUser os pool session path

end GuacNebula.Rdp
