import GuacNebula.Common.JsonValidity
import GuacNebula.Lib.Resource
import GuacNebula.Rdp.Transfer
import GuacNebula.Ssh.Sftp

/-! # Directory listings over SFTP

The contents of a directory are sent as a JSON object, whose properties are the paths of the entries.
Entries are read and written until a blob has been sent, and then the next ack is awaited. The handle
of the directory remembers which entry comes next.
-/

namespace GuacNebula.Ssh

open Common Rdp Run

open Rfc8259 (Plain Utf8 parse stringObject)

/-! ## Entries -/

/-- An entry as `libssh2_sftp_readdir` returns it: its name, and the permissions among its
attributes. -/
structure SftpEntry where
  filename : CString
  permissions : Nat
  deriving DecidableEq, Repr

/-- `guac_ssh_append_filename`. -/
def sshAppendFilename (lib : GuacString) (path filename : CString) : Option CString :=
  if filename = [dot] ∨ filename = [dot, dot] ∨ slash ∈ filename then none
  else
    let (stored, length) := lib.strlcpy path sftpMaxPath
    let (stored, length) :=
      if length > 0 ∧ stored.getLast? ≠ some slash then
        let (separator, more) := lib.strlcpy [slash] (sftpMaxPath - length)
        (stored ++ separator, length + more)
      else (stored, length)
    let (name, more) := lib.strlcpy filename (sftpMaxPath - length)
    if length + more ≥ sftpMaxPath then none else some (stored ++ name)

/-- `LIBSSH2_SFTP_S_ISLNK`. -/
def isLink (permissions : Nat) : Bool := permissions &&& 0o170000 = 0o120000

/-- `LIBSSH2_SFTP_S_ISDIR`. -/
def isDirectory (permissions : Nat) : Bool := permissions &&& 0o170000 = 0o040000

/-- What a listing depends on: the string functions, the permissions that `libssh2_sftp_stat` finds
under a path, if it does, and the name of the directory. -/
structure ListingContext where
  lib : GuacString
  stat : CString → Option Nat
  directoryName : CString

/-- The property for an entry, if it is to be listed. -/
def entryProperty (context : ListingContext) (entry : SftpEntry) : Option (CString × CString) :=
  if entry.filename = [dot] ∨ entry.filename = [dot, dot] then none
  else
    (sshAppendFilename context.lib context.directoryName entry.filename).map fun absolutePath =>
      let permissions :=
        if isLink entry.permissions then (context.stat absolutePath).getD entry.permissions
        else entry.permissions
      (absolutePath, entryMimetype (isDirectory permissions))

/-! ## The listing -/

/-- `guac_common_ssh_sftp_ls_state` with its stream: the entries that the handle of the directory has
yet to return, the JSON that was written, and what was done to the handle, to the memory of the
state and to the stream. -/
structure SftpListing where
  remaining : List SftpEntry
  json : JsonStream := .begun
  directory : Resource := {}
  memory : Resource := {}
  ended : Bool := false
  streamFreed : Bool := false

/-- The loop over the entries, until a blob is written: what is left of them, the JSON, and whether
the end was reached. -/
def listEntries (context : ListingContext) :
    List SftpEntry → JsonStream → List SftpEntry × JsonStream × Bool
  | [], json => ([], json, true)
  | entry :: remaining, json =>
      match entryProperty context entry with
      | none => listEntries context remaining json
      | some (absolutePath, mimetype) =>
          let written := jsonWritePropertyInt absolutePath mimetype json.state
          let json := json.write (jsonWritePropertyInt absolutePath mimetype)
          if written.blobWritten then (remaining, json, false)
          else listEntries context remaining json

/-- `guac_common_ssh_sftp_ls_ack_handler`. -/
def lsAckHandler (context : ListingContext) (listing : SftpListing) (success : Bool) :
    SftpListing :=
  if !success then
    { listing with
      directory := listing.directory.close
      streamFreed := true
      memory := listing.memory.use.close }
  else
    let (remaining, json, exhausted) := listEntries context listing.remaining listing.json
    let listing :=
      { listing with
        remaining, json, directory := listing.directory.use, memory := listing.memory.use }
    if exhausted then
      { listing with
        json := exec jsonStep json [.endObject, .flush]
        directory := listing.directory.close
        memory := listing.memory.close
        ended := true
        streamFreed := true }
    else listing

/-- An ack arrives. There are none for a stream that has been freed. -/
def listingStep (context : ListingContext) (listing : SftpListing) (success : Bool) :
    SftpListing :=
  if listing.streamFreed then listing else lsAckHandler context listing success

/-- The directory and the state are in use until the stream is freed, and have been released once
then. -/
def ReleasedOnce (listing : SftpListing) : Prop :=
  listing.directory = { closes := listing.streamFreed.toNat }
    ∧ listing.memory = { closes := listing.streamFreed.toNat }

/-- The properties of the entries that are listed. -/
def listed (context : ListingContext) (entries : List SftpEntry) : List (CString × CString) :=
  entries.filterMap (entryProperty context)

/-! ## Release -/

section Release

variable {context : ListingContext} {listing : SftpListing}

theorem ReleasedOnce.ack (released : ReleasedOnce listing) (underway : listing.streamFreed = false)
    (success : Bool) : ReleasedOnce (lsAckHandler context listing success) := by
  obtain ⟨directory, memory⟩ := released
  rw [underway] at directory memory
  unfold lsAckHandler
  split
  · rw [directory, memory]
    exact ⟨rfl, rfl⟩
  · dsimp only
    rw [directory, memory]
    split
    · exact ⟨rfl, rfl⟩
    · rw [ReleasedOnce, underway]
      exact ⟨rfl, rfl⟩

theorem ReleasedOnce.step (released : ReleasedOnce listing) (success : Bool) :
    ReleasedOnce (listingStep context listing success) := by
  unfold listingStep
  split
  case isTrue => exact released
  case isFalse underway => exact released.ack (Bool.eq_false_iff.mpr underway) success

/-- Whatever acks arrive, the directory and the state are released once, with the stream. -/
theorem releasedOnce_exec (context : ListingContext) (entries : List SftpEntry)
    (acks : List Bool) : ReleasedOnce (exec (listingStep context) { remaining := entries } acks) :=
  exec_invariant ⟨rfl, rfl⟩ fun _ success released => released.step success

end Release

/-! ## What is written -/

/-- The call that writes a property. -/
def propertyCall (property : CString × CString) : JsonCall := .property property.1 property.2

/-- The loop writes the first of the properties, and stops before it reads another entry. -/
theorem listEntries_spec (context : ListingContext) (entries : List SftpEntry)
    (json : JsonStream) :
    let after := listEntries context entries json
    (∃ written, after.2.1 = exec jsonStep json (written.map propertyCall)
        ∧ listed context entries = written ++ listed context after.1)
      ∧ (after.2.2 = true → after.1 = []) ∧ (after.2.2 = false → after.1.length < entries.length) := by
  induction entries generalizing json with
  | nil => exact ⟨⟨[], rfl, rfl⟩, fun _ => rfl, nofun⟩
  | cons entry entries ih =>
      cases found : entryProperty context entry with
      | none =>
          have next : listEntries context (entry :: entries) json =
              listEntries context entries json := by
            rw [listEntries, found]
          obtain ⟨⟨written, result, split⟩, exhausted, fewer⟩ := ih json
          rw [next]
          refine ⟨⟨written, result, ?_⟩, exhausted, fun more => ?_⟩
          · rw [listed, List.filterMap_cons_none found]
            exact split
          · exact Nat.lt_succ_of_lt (fewer more)
      | some property =>
          obtain ⟨absolutePath, mimetype⟩ := property
          have first : listed context (entry :: entries) =
              (absolutePath, mimetype) :: listed context entries :=
            List.filterMap_cons_some found
          rw [listEntries, found, first]
          dsimp only
          split
          · exact ⟨⟨[(absolutePath, mimetype)], rfl, rfl⟩, nofun, fun _ => Nat.lt_succ_self _⟩
          · obtain ⟨⟨written, result, split⟩, exhausted, fewer⟩ :=
              ih (json.write (jsonWritePropertyInt absolutePath mimetype))
            refine ⟨⟨(absolutePath, mimetype) :: written, result, ?_⟩, exhausted, fun more => ?_⟩
            · rw [split, List.cons_append]
            · exact Nat.lt_succ_of_lt (fewer more)

/-- A listing that is under way: the properties of the entries that have been read are written. -/
structure Underway (context : ListingContext) (entries : List SftpEntry) (listing : SftpListing) :
    Prop where
  streamFreed : listing.streamFreed = false
  written : ∃ done, listing.json = exec jsonStep .begun (done.map propertyCall)
    ∧ listed context entries = done ++ listed context listing.remaining

/-- A listing that is complete. -/
structure Complete (context : ListingContext) (entries : List SftpEntry) (listing : SftpListing) :
    Prop where
  streamFreed : listing.streamFreed = true
  ended : listing.ended = true
  sent : listing.json.sent.flatten = writtenObject (listed context entries)

section Progress

variable {context : ListingContext} {entries : List SftpEntry} {listing : SftpListing}

/-- With an ack, a listing is completed or has fewer entries left. -/
theorem Underway.step (underway : Underway context entries listing) :
    Complete context entries (listingStep context listing true)
      ∨ Underway context entries (listingStep context listing true)
        ∧ (listingStep context listing true).remaining.length < listing.remaining.length := by
  obtain ⟨done, json, split⟩ := underway.written
  obtain ⟨⟨written, result, rest⟩, exhausted, fewer⟩ :=
    listEntries_spec context listing.remaining listing.json
  have all : (listEntries context listing.remaining listing.json).2.1 =
      exec jsonStep .begun ((done ++ written).map propertyCall) := by
    rw [result, json, List.map_append, exec_append]
  have here : listingStep context listing true = lsAckHandler context listing true := by
    rw [listingStep, underway.streamFreed]
    rfl
  rw [here]
  unfold lsAckHandler
  simp only [Bool.not_true, Bool.false_eq_true, ↓reduceIte]
  cases last : (listEntries context listing.remaining listing.json).2.2 with
  | true =>
      refine .inl ⟨rfl, rfl, ?_⟩
      have complete : listed context entries = done ++ written := by
        rw [split, rest, exhausted last, listed, List.filterMap_nil, List.append_nil]
      rw [complete, writtenObject, objectCalls, exec_append]
      exact congrArg (fun stream => (exec jsonStep stream [.endObject, .flush]).sent.flatten) all
  | false =>
      refine .inr ⟨⟨underway.streamFreed, done ++ written, all, ?_⟩, fewer last⟩
      rw [split, rest, List.append_assoc]
      rfl

theorem Complete.step (complete : Complete context entries listing) :
    listingStep context listing true = listing :=
  if_pos complete.streamFreed

theorem Complete.exec (complete : Complete context entries listing) (acks : Nat) :
    Complete context entries (exec (listingStep context) listing (List.replicate acks true)) := by
  induction acks with
  | zero => exact complete
  | succ acks ih =>
      rw [List.replicate_succ, exec_cons, complete.step]
      exact ih

/-- After some acks a listing is complete, unless there were as many entries left. -/
theorem Underway.exec (underway : Underway context entries listing) (acks : Nat) :
    Complete context entries (exec (listingStep context) listing (List.replicate acks true))
      ∨ Underway context entries (exec (listingStep context) listing (List.replicate acks true))
        ∧ acks ≤ listing.remaining.length := by
  induction acks generalizing listing with
  | zero => exact .inr ⟨underway, Nat.zero_le _⟩
  | succ acks ih =>
      rw [List.replicate_succ, exec_cons]
      rcases underway.step with complete | ⟨next, fewer⟩
      · exact .inl (complete.exec acks)
      · rcases ih next with complete | ⟨later, few⟩
        · exact .inl complete
        · exact .inr ⟨later, by omega⟩

end Progress

theorem begun_underway (context : ListingContext) (entries : List SftpEntry) :
    Underway context entries { remaining := entries } :=
  ⟨rfl, [], rfl, rfl⟩

/-! ## What is read -/

section Paths

variable {context : ListingContext}

/-- A path that is stored fits into its buffer. -/
theorem sshAppendFilename_length {lib : GuacString} (lawful : lib.Lawful)
    {path filename full : CString} (appended : sshAppendFilename lib path filename = some full) :
    full.length < sftpMaxPath := by
  simp only [sshAppendFilename, lawful.strlcpy] at appended
  split_ifs at appended
  all_goals
    cases appended
    simp only [List.length_append, List.length_take, List.length_singleton] at *
    omega

/-- A mimetype consists of printable characters of ASCII. -/
theorem entryMimetype_ascii (isDirectory : Bool) :
    (entryMimetype isDirectory).all (fun c => 0x20 ≤ c && c < 0x80) = true := by
  cases isDirectory <;> rfl

theorem entryMimetype_length_le (isDirectory : Bool) :
    (entryMimetype isDirectory).length ≤ 64 := by
  cases isDirectory <;> exact Nat.le_of_ble_eq_true rfl

theorem entryMimetype_plain (isDirectory : Bool) :
    Utf8 (entryMimetype isDirectory) ∧ Plain (entryMimetype isDirectory)
      ∧ (entryMimetype isDirectory).length < 2147483648 := by
  have printable := List.all_eq_true.mp (entryMimetype_ascii isDirectory)
  have short := entryMimetype_length_le isDirectory
  refine ⟨Rfc8259.utf8_ascii_all fun c member => ?_, fun c member => ?_, by omega⟩
  · exact of_decide_eq_true (Bool.and_eq_true_iff.mp (printable c member)).2
  · exact of_decide_eq_true (Bool.and_eq_true_iff.mp (printable c member)).1

/-- The name of a property that is listed is a path that fits into its buffer, and its value is one
of two mimetypes. -/
theorem listed_property (lawful : context.lib.Lawful) {entries : List SftpEntry}
    {property : CString × CString} (member : property ∈ listed context entries) :
    property.1.length < sftpMaxPath ∧ ∃ isDirectory, property.2 = entryMimetype isDirectory := by
  obtain ⟨entry, _, found⟩ := List.mem_filterMap.mp member
  unfold entryProperty at found
  split at found
  case isTrue => cases found
  case isFalse =>
    obtain ⟨absolutePath, appended, rfl⟩ := Option.map_eq_some_iff.mp found
    exact ⟨sshAppendFilename_length lawful appended, _, rfl⟩

end Paths

/-- However many acks arrive, the handle and the state are released once with the stream, enough acks
complete the listing, and the blobs of a complete listing are a JSON object with one property for
every entry to be listed, in order. -/
def ListsDirectory (context : ListingContext) (entries : List SftpEntry) : Prop :=
  ∀ acks : Nat,
    let listing := exec (listingStep context) { remaining := entries } (List.replicate acks true)
    ReleasedOnce listing ∧ (entries.length < acks → listing.streamFreed = true)
      ∧ (listing.streamFreed = true → listing.ended = true
        ∧ parse listing.json.sent.flatten = some (stringObject (listed context entries)))

/-- The listing does all it should if the text for its properties is read as them. -/
theorem listsDirectory_iff_parses (context : ListingContext) (entries : List SftpEntry) :
    ListsDirectory context entries ↔
      parse (writtenObject (listed context entries)) =
        some (stringObject (listed context entries)) := by
  constructor
  · intro lists
    obtain ⟨_, _, sent⟩ := lists (entries.length + 1)
    rcases (begun_underway context entries).exec (entries.length + 1) with complete | ⟨_, many⟩
    · rw [← complete.sent]
      exact (sent complete.streamFreed).2
    · exact absurd many (Nat.not_succ_le_self _)
  · intro read acks
    refine ⟨releasedOnce_exec context entries _, ?_⟩
    rcases (begun_underway context entries).exec acks with complete | ⟨underway, few⟩
    · exact ⟨fun _ => complete.streamFreed, fun _ => ⟨complete.ended, complete.sent ▸ read⟩⟩
    · refine ⟨fun enough => absurd enough (Nat.not_lt.mpr few), fun freed => ?_⟩
      exact absurd (underway.streamFreed.symm.trans freed) (by decide)

section Readable

variable {context : ListingContext} (lawful : context.lib.Lawful) (entries : List SftpEntry)
include lawful

theorem listed_short : ∀ property ∈ listed context entries,
    ShortSegments property.1 ∧ ShortSegments property.2 := by
  intro property member
  obtain ⟨fits, isDirectory, mimetype⟩ := listed_property lawful member
  have value := (entryMimetype_plain isDirectory).2.2
  unfold sftpMaxPath at fits
  exact ⟨shortSegments_of_length (by omega), shortSegments_of_length (by rw [mimetype]; omega)⟩

/-- The mimetypes can always be read. -/
theorem listed_readable_iff :
    ((∀ property ∈ listed context entries, Utf8 property.1 ∧ Utf8 property.2)
        ∧ Rfc8259.PlainMembers (listed context entries)) ↔
      ∀ property ∈ listed context entries, Utf8 property.1 ∧ Plain property.1 := by
  constructor
  · rintro ⟨valid, plain⟩ property member
    exact ⟨(valid property member).1, (plain property member).1⟩
  · intro readable
    refine ⟨fun property member => ?_, fun property member => ?_⟩
    · obtain ⟨_, isDirectory, mimetype⟩ := listed_property lawful member
      exact ⟨(readable property member).1, mimetype ▸ (entryMimetype_plain isDirectory).1⟩
    · obtain ⟨_, isDirectory, mimetype⟩ := listed_property lawful member
      exact ⟨(readable property member).2, mimetype ▸ (entryMimetype_plain isDirectory).2.1⟩

theorem listed_parses_iff :
    parse (writtenObject (listed context entries)) = some (stringObject (listed context entries)) ↔
      (∀ property ∈ listed context entries, Utf8 property.1 ∧ Plain property.1)
        ∧ (listed context entries).length ≤ 4294967296 := by
  rw [writtenObject_parses_iff, withinInt_zero_iff, and_iff_right (listed_short lawful entries),
    listed_readable_iff lawful entries, and_comm]

end Readable

/-- **A directory is listed with one property for each of its entries exactly if the paths of the
entries that are to be listed are in UTF-8 without control characters, and there are no more of them
than an `int` can count.** -/
theorem sftpListing_complete_iff (context : ListingContext) (lawful : context.lib.Lawful)
    (entries : List SftpEntry) :
    ListsDirectory context entries ↔
      (∀ property ∈ listed context entries, Utf8 property.1 ∧ Plain property.1)
        ∧ (listed context entries).length ≤ 4294967296 :=
  (listsDirectory_iff_parses context entries).trans (listed_parses_iff lawful entries)

/-- The directory `/d`, in which there are no links. -/
def sampleContext : ListingContext where
  lib := documentedString
  stat _ := none
  directoryName := [0x2F, 0x64]

/-- A directory with the entries `..` and `a`, the latter a file, is listed. -/
theorem sftpListing_complete_file :
    ListsDirectory sampleContext [⟨[0x2E, 0x2E], 0o040755⟩, ⟨[0x61], 0o100644⟩] := by
  have file : listed sampleContext [⟨[0x2E, 0x2E], 0o040755⟩, ⟨[0x61], 0o100644⟩] =
      [([0x2F, 0x64, 0x2F, 0x61], octetStreamMimetype)] := rfl
  refine (sftpListing_complete_iff sampleContext documentedString_lawful _).mpr ?_
  have ascii : ∀ b ∈ ([0x2F, 0x64, 0x2F, 0x61] : CString), b < 0x80 := by simp
  have plain : Plain [0x2F, 0x64, 0x2F, 0x61] := by decide
  rw [file]
  exact ⟨List.forall_mem_singleton.mpr ⟨Rfc8259.utf8_ascii_all ascii, plain⟩,
    Nat.le_of_ble_eq_true rfl⟩

/-- A directory with a file whose name is a line break is not. -/
theorem sftpListing_line_break : ¬ ListsDirectory sampleContext [⟨[0x0A], 0o100644⟩] := by
  have file : listed sampleContext [⟨[0x0A], 0o100644⟩] =
      [([0x2F, 0x64, 0x2F, 0x0A], octetStreamMimetype)] := rfl
  rw [listsDirectory_iff_parses, listed_parses_iff documentedString_lawful, file]
  exact fun both => absurd (both.1 _ List.mem_cons_self).2 (by decide)

end GuacNebula.Ssh
