import GuacNebula.Rdp.AppendedName
import GuacNebula.Rdp.PathStack

/-! # The path of an uploaded file

The name that the client gives to an upload is moved to the root of the drive: a backslash is put in
front of it and the separators in it are replaced. The loop counts from one as if the backslash had
been stored in its first turn, but the terminator behind the last byte it copies has no turn of its
own.
-/

namespace GuacNebula.Rdp

open CString

/-- The character that replaces a separator. -/
def underscore : UInt8 := 0x5F

/-- What a character of the name becomes. -/
def replaceSeparator (c : UInt8) : UInt8 := if isSeparator c then underscore else c

/-- The loop of `__generate_upload_path`: the place behind the bytes that it has stored. -/
def copyUploadName : Nat → CString → Nat → Buffer → Nat × Buffer
  | 0, _, place, buffer => (place, buffer)
  | _ + 1, [], place, buffer => (place, buffer)
  | turns + 1, c :: filename, place, buffer =>
      copyUploadName turns filename (place + 1) (buffer.store fsMaxPath place [replaceSeparator c])

/-- `__generate_upload_path`, with a buffer of `GUAC_RDP_FS_MAX_PATH` bytes. -/
def generateUploadPath (filename : CString) (memory : Nat → UInt8) : Buffer :=
  let buffer : Buffer := { memory := memory }
  let (place, buffer) :=
    copyUploadName (fsMaxPath - 1) filename 1 (buffer.store fsMaxPath 0 [backslash])
  buffer.store fsMaxPath place [0]

/-! ## Names that fit -/

/-- The path of a name, of which the beginning is kept: one leading backslash, and no other
separator. -/
def uploadPath (filename : CString) : CString := backslash :: filename.map replaceSeparator

/-- The path that an upload is opened at lies in its buffer, it is the path of the name or of its
beginning, and it is normalized to one component at most. -/
structure UploadConfined (filename : CString) (written : Buffer) : Prop where
  inside : written.outside = false
  path : ∃ count, string written.memory fsMaxPath = uploadPath (filename.take count)
  component : ∀ normalized, fsNormalizePath (string written.memory fsMaxPath) = some normalized →
    ∃ component, normalized = backslash :: component ∧ ∀ c ∈ component, isSeparator c = false

theorem replaceSeparator_plain (c : UInt8) : isSeparator (replaceSeparator c) = false := by
  unfold replaceSeparator
  split_ifs with separator
  · decide
  · exact Bool.eq_false_iff.mpr separator

theorem replaceSeparator_ne_zero {c : UInt8} (nonzero : c ≠ 0) : replaceSeparator c ≠ 0 := by
  unfold replaceSeparator
  split_ifs
  · decide
  · exact nonzero

theorem zero_not_mem_uploadPath {filename : CString} (text : 0 ∉ filename) :
    0 ∉ uploadPath filename := by
  refine List.not_mem_cons_of_ne_of_not_mem (by decide) fun member => ?_
  obtain ⟨c, inside, zero⟩ := List.mem_map.mp member
  exact replaceSeparator_ne_zero (fun same => text (same ▸ inside)) zero

/-- A path that has a separator at its beginning only is normalized to one component at most. -/
theorem fsNormalizePath_uploadPath {filename normalized : CString}
    (found : fsNormalizePath (uploadPath filename) = some normalized) :
    ∃ component, normalized = backslash :: component ∧ ∀ c ∈ component, isSeparator c = false := by
  have plain : ∀ c ∈ filename.map replaceSeparator, isSeparator c = false := by
    rintro _ member
    obtain ⟨c, _, rfl⟩ := List.mem_map.mp member
    exact replaceSeparator_plain c
  have whole : componentStack (uploadPath filename) =
      LexicalPath.resolve dot [] (filename.map replaceSeparator) := by
    have one : pieces (filename.map replaceSeparator) = [filename.map replaceSeparator] :=
      List.splitOnP_eq_singleton plain
    rw [uploadPath, componentStack_cons (by decide), componentStack, one]
    rfl
  obtain ⟨_, rfl⟩ := (fsNormalizePath_eq_some_iff _ _).mp found
  rw [whole]
  unfold LexicalPath.resolve
  split_ifs
  · exact ⟨[], rfl, List.forall_mem_nil _⟩
  · exact ⟨[], rfl, List.forall_mem_nil _⟩
  · exact ⟨filename.map replaceSeparator, congrArg _ (List.intercalate_singleton ..), plain⟩

section Copy

variable {memory : Nat → UInt8} {buffer : Buffer}

/-- As much of the name is copied as the loop has turns for. -/
theorem copyUploadName_written (turns : Nat) (filename front : CString) {place : Nat}
    (behind : place = front.length) (fits : place + turns ≤ fsMaxPath)
    (written : Buffer.Written fsMaxPath memory front buffer) :
    (copyUploadName turns filename place buffer).1 =
        (front ++ (filename.take turns).map replaceSeparator).length ∧
      Buffer.Written fsMaxPath memory (front ++ (filename.take turns).map replaceSeparator)
        (copyUploadName turns filename place buffer).2 := by
  induction turns generalizing filename front place buffer with
  | zero =>
      rw [List.take_zero, List.map_nil, List.append_nil]
      exact ⟨behind, written⟩
  | succ turns ih =>
      cases filename with
      | nil =>
          rw [List.take_nil, List.map_nil, List.append_nil]
          exact ⟨behind, written⟩
      | cons c filename =>
          rw [List.take_succ_cons, List.map_cons, List.append_cons]
          refine ih filename (front ++ [replaceSeparator c]) ?_ (by omega)
            (written_byte written behind (by omega) _)
          rw [List.length_append, List.length_singleton, behind]

/-- What is stored before the terminator, and where that is stored. -/
theorem generateUploadPath_eq (filename : CString) (memory : Nat → UInt8) :
    ∃ buffer, Buffer.Written fsMaxPath memory (uploadPath (filename.take (fsMaxPath - 1))) buffer ∧
      generateUploadPath filename memory =
        buffer.store fsMaxPath (uploadPath (filename.take (fsMaxPath - 1))).length [0] := by
  have begun : Buffer.Written fsMaxPath memory ([] ++ [backslash])
      ((⟨memory, false⟩ : Buffer).store fsMaxPath 0 [backslash]) :=
    written_byte (Buffer.Written.start fsMaxPath memory) rfl (by decide) backslash
  obtain ⟨place, copied⟩ := copyUploadName_written (fsMaxPath - 1) filename [backslash]
    (show 1 = [backslash].length from rfl) (by decide) begun
  refine ⟨_, copied, ?_⟩
  unfold generateUploadPath
  dsimp only
  rw [place]
  rfl

theorem uploadPath_take_length (filename : CString) :
    (uploadPath (filename.take (fsMaxPath - 1))).length =
      min (fsMaxPath - 1) filename.length + 1 := by
  rw [uploadPath, List.length_cons, List.length_map, List.length_take]

/-- The terminator of a long name is stored behind the buffer. -/
theorem generateUploadPath_outside {filename : CString} (long : fsMaxPath < filename.length + 2)
    (memory : Nat → UInt8) : (generateUploadPath filename memory).outside = true := by
  obtain ⟨buffer, _, same⟩ := generateUploadPath_eq filename memory
  have size : fsMaxPath = 4096 := rfl
  rw [same, uploadPath_take_length]
  refine Buffer.store_outside.mpr (.inr ⟨List.cons_ne_nil _ _, ?_⟩)
  rw [List.length_singleton]
  omega

end Copy

/-- **The path of an upload** stays in its buffer, and is confined to the root, exactly if two bytes
are left for the backslash and the terminator. -/
theorem generateUploadPath_confined_iff {filename : CString} (text : 0 ∉ filename)
    (memory : Nat → UInt8) :
    UploadConfined filename (generateUploadPath filename memory) ↔
      filename.length + 2 ≤ fsMaxPath := by
  constructor
  · intro confined
    by_contra long
    have outside := generateUploadPath_outside (Nat.lt_of_not_le long) memory
    rw [confined.inside] at outside
    cases outside
  · intro fits
    obtain ⟨buffer, written, same⟩ := generateUploadPath_eq filename memory
    have length := uploadPath_take_length filename
    have ended := written_byte written rfl (by omega) 0
    rw [same]
    have path := ended.string (zero_not_mem_uploadPath fun member =>
      text (List.mem_of_mem_take member))
    exact
      { inside := ended.inside
        path := ⟨_, path⟩
        component := by
          rw [path]
          exact fun _ => fsNormalizePath_uploadPath }

/-- The name `../b` becomes one component. -/
theorem generateUploadPath_confined_parent :
    UploadConfined [dot, dot, slash, 0x62]
      (generateUploadPath [dot, dot, slash, 0x62] fun _ => 0) :=
  (generateUploadPath_confined_iff (by decide) _).mpr (by decide)

/-- The path of a name of 4095 bytes has no room for its terminator. -/
theorem generateUploadPath_overflow :
    ¬∀ filename : CString, 0 ∉ filename → ∀ memory,
      UploadConfined filename (generateUploadPath filename memory) := by
  intro confined
  have text : (0 : UInt8) ∉ List.replicate 4095 (0x61 : UInt8) := fun member =>
    absurd (List.eq_of_mem_replicate member) (by decide)
  have long : fsMaxPath < (List.replicate 4095 (0x61 : UInt8)).length + 2 := by
    rw [List.length_replicate]
    decide
  have outside := generateUploadPath_outside long fun _ => 0
  rw [(confined _ text fun _ => 0).inside] at outside
  cases outside

end GuacNebula.Rdp
