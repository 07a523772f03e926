import GuacNebula.Lib.CInt
import GuacNebula.Rdp.AppendedName
import GuacNebula.Ssh.Sftp

/-! # File names appended to an SFTP path

The path, a slash and the file name are copied one after the other. What the copies return is added
up in an `int` and compared with the size of the buffer at last. `appendFilename_exact_iff` is that
a name is appended exactly, for the redirected drive as for SFTP, unless it is so long that the sum
leaves the range of `int`.
-/

namespace GuacNebula.Ssh

open CInt CString Rdp

/-- The copies of the path and of the slash behind it, and the length they lead to. -/
def copyPath (lib : GuacString) (memory : Nat → UInt8) (path : CString) : Int × Buffer :=
  let (stored, returned) := lib.strlcpy path sftpMaxPath
  let buffer : Buffer := { memory := memory }
  let buffer := buffer.store sftpMaxPath 0 (terminated sftpMaxPath stored)
  let length := toInt returned
  if length > 0 ∧ buffer.memory (length - 1).toNat ≠ slash then
    let space := toSize (sftpMaxPath - length)
    let (stored, returned) := lib.strlcpy [slash] space
    (toInt (length + returned), buffer.store sftpMaxPath length (terminated space stored))
  else (length, buffer)

/-- The copy of the file name to where the length leads, and whether all of it is within the
maximum. -/
def copyName (lib : GuacString) (filename : CString) (length : Int) (buffer : Buffer) :
    Bool × Buffer :=
  let space := toSize (sftpMaxPath - length)
  let (stored, returned) := lib.strlcpy filename space
  (!decide (toInt (length + returned) ≥ sftpMaxPath),
    buffer.store sftpMaxPath length (terminated space stored))

/-- `guac_ssh_append_filename`, in memory. -/
def appendFilename (lib : GuacString) (memory : Nat → UInt8) (path filename : CString) :
    Bool × Buffer :=
  if filename = [dot] then (false, { memory := memory })
  else if filename = [dot, dot] then (false, { memory := memory })
  else if slash ∈ filename then (false, { memory := memory })
  else copyName lib filename (copyPath lib memory path).1 (copyPath lib memory path).2

/-- Only a slash separates. -/
def isSlash (c : UInt8) : Bool := c = slash

/-- The name is valid and does not fit, and the length of the result passes for one that fits. -/
structure Overlong (path filename : CString) : Prop where
  short : path.length < sftpMaxPath
  valid : ValidName isSlash filename
  long : sftpMaxPath ≤ (withSlash isSlash path ++ filename).length
  passes : toInt (withSlash isSlash path ++ filename).length < sftpMaxPath

/-- A name is appended exactly to a path within the limit, by both functions. -/
structure NamesAppended (lib : GuacString) (memory : Nat → UInt8) (path filename : CString) :
    Prop where
  fs : path.length < fsMaxPath →
    Appends fsMaxPath isSeparator path filename (Rdp.appendFilename memory path filename)
  sftp : path.length < sftpMaxPath →
    Appends sftpMaxPath isSlash path filename (appendFilename lib memory path filename)

/-- The byte before the end of the path is its last one. -/
theorem path_last {memory : Nat → UInt8} {front behind : CString} {last : UInt8} {buffer : Buffer}
    (written : Buffer.Written sftpMaxPath memory (front ++ [last] ++ 0 :: behind) buffer) :
    buffer.memory front.length = last := by
  rw [written.memory, put, if_pos (Nat.zero_le _), Nat.sub_zero, List.append_assoc,
    List.getD_append_right _ _ _ _ (Nat.le_refl _), Nat.sub_self]
  rfl

section Copies

variable {lib : GuacString} (lawful : lib.Lawful) (memory : Nat → UInt8)
include lawful

/-- The path and its slash are copied, with a terminator if there is space for one. -/
theorem copyPath_written {path : CString} (short : path.length < sftpMaxPath) :
    (copyPath lib memory path).1 = (withSlash isSlash path).length ∧
      ∃ stored, Buffer.Written sftpMaxPath memory stored (copyPath lib memory path).2 ∧
        ((withSlash isSlash path).length < sftpMaxPath →
          ∃ behind, stored = withSlash isSlash path ++ behind) := by
  have room : sftpMaxPath = 2048 := rfl
  have length : toInt path.length = path.length := by
    unfold toInt
    omega
  have next : toInt ((path.length : Int) + 1) = (path.length + 1 : Nat) := by
    unfold toInt
    omega
  have space : toSize (sftpMaxPath - (path.length : Int)) = sftpMaxPath - path.length := by
    unfold toSize
    omega
  have start : Buffer.Written sftpMaxPath memory ([] ++ []) { memory := memory } :=
    Buffer.Written.start sftpMaxPath memory
  obtain ⟨firstEnd, first⟩ := start.copy path 0 sftpMaxPath rfl (by decide) (by decide)
  unfold copyPath
  simp only [lawful.strlcpy, length, List.length_singleton, Int.natCast_one, next, space]
  rw [List.take_of_length_le (by omega), List.nil_append] at first
  rw [List.take_of_length_le (by omega)]
  rcases List.eq_nil_or_concat path with rfl | ⟨front, c, rfl⟩
  · exact ⟨rfl, _, first, fun _ => ⟨_, rfl⟩⟩
  · rw [List.concat_eq_append] at first short ⊢
    have longer : (front ++ [c]).length = front.length + 1 := List.length_append
    have index : (((front ++ [c]).length : Int) - 1).toNat = front.length := by omega
    rw [index, path_last first, withSlash_concat]
    by_cases separator : c = slash
    · have same : isSlash c = true := decide_eq_true separator
      rw [if_neg fun all => all.2 separator, if_pos same]
      exact ⟨rfl, _, first, fun _ => ⟨_, rfl⟩⟩
    · have other : ¬ isSlash c = true := fun same => separator (of_decide_eq_true same)
      have length : (front ++ [c] ++ [slash]).length = (front ++ [c]).length + 1 :=
        List.length_append
      rw [if_pos ⟨by omega, separator⟩, if_neg other, length]
      obtain ⟨secondEnd, second⟩ := first.copy [slash] (front ++ [c]).length
        (sftpMaxPath - (front ++ [c]).length) rfl (by omega) (by omega)
      refine ⟨rfl, _, second, fun fits => ⟨0 :: secondEnd, ?_⟩⟩
      have whole : [slash].take (sftpMaxPath - (front ++ [c]).length - 1) = [slash] :=
        List.take_of_length_le (by rw [List.length_singleton]; omega)
      rw [whole]

/-- What the function makes of a valid name: the sum of the lengths is compared as an `int`, nothing
is stored outside of the buffer, and what fits is stored whole. -/
theorem appendFilename_valid {path filename : CString} (pathText : 0 ∉ path)
    (nameText : 0 ∉ filename) (short : path.length < sftpMaxPath)
    (valid : ValidName isSlash filename) :
    ((appendFilename lib memory path filename).1 = true ↔
        toInt (withSlash isSlash path ++ filename).length < sftpMaxPath) ∧
      (appendFilename lib memory path filename).2.outside = false ∧
      ((withSlash isSlash path ++ filename).length < sftpMaxPath →
        CString.string (appendFilename lib memory path filename).2.memory sftpMaxPath =
          withSlash isSlash path ++ filename) := by
  have room : sftpMaxPath = 2048 := rfl
  have plain : slash ∉ filename := fun member =>
    absurd (valid.plain slash member) (by decide)
  obtain ⟨index, stored, written, behind⟩ := copyPath_written lawful memory short
  have bounds := withSlash_length isSlash path
  have space : toSize (sftpMaxPath - ((withSlash isSlash path).length : Int)) =
      sftpMaxPath - (withSlash isSlash path).length := by
    unfold toSize
    omega
  rw [appendFilename, if_neg valid.ne_current, if_neg valid.ne_parent, if_neg plain, index]
  generalize (copyPath lib memory path).2 = buffer at written
  unfold copyName
  simp only [lawful.strlcpy, space]
  rw [Bool.not_eq_true', decide_eq_false_iff_not, Int.not_le, List.length_append, Int.natCast_add]
  refine ⟨Iff.rfl, ?_⟩
  by_cases full : (withSlash isSlash path).length < sftpMaxPath
  · obtain ⟨back, rfl⟩ := behind full
    obtain ⟨later, copied⟩ := written.copy filename (withSlash isSlash path).length
      (sftpMaxPath - (withSlash isSlash path).length) rfl (by omega) (by omega)
    refine ⟨copied.inside, fun fits => ?_⟩
    rw [List.take_of_length_le (by omega)] at copied ⊢
    refine copied.string fun member => ?_
    rcases List.mem_append.mp member with inPath | inName
    · exact zero_not_mem_withSlash isSlash pathText inPath
    · exact nameText inName
  · -- The path and its slash leave no space, and the name is not stored at all.
    have none : terminated (sftpMaxPath - (withSlash isSlash path).length)
        (filename.take (sftpMaxPath - (withSlash isSlash path).length - 1)) = [] :=
      if_pos (by omega)
    rw [none, Buffer.store_nil]
    exact ⟨written.inside, fun fits => absurd fits (by omega)⟩

omit lawful in
/-- A name that is not valid is refused before anything is stored. -/
theorem appendFilename_invalid {path filename : CString}
    (invalid : ¬ ValidName isSlash filename) :
    appendFilename lib memory path filename = (false, { memory := memory }) := by
  unfold appendFilename
  split_ifs with current parent separated
  · rfl
  · rfl
  · rfl
  · refine absurd ⟨current, parent, fun c member => decide_eq_false fun same => ?_⟩ invalid
    exact separated (same ▸ member)

/-- A name is appended exactly unless the length of the result passes for one that fits. -/
theorem appendFilename_appends_iff {path filename : CString} (pathText : 0 ∉ path)
    (nameText : 0 ∉ filename) (short : path.length < sftpMaxPath) :
    Appends sftpMaxPath isSlash path filename (appendFilename lib memory path filename) ↔
      ¬ Overlong path filename := by
  have room : sftpMaxPath = 2048 := rfl
  by_cases valid : ValidName isSlash filename
  · obtain ⟨success, inside, whole⟩ :=
      appendFilename_valid lawful memory pathText nameText short valid
    constructor
    · intro appends overlong
      have fits := (appends.success.mp (success.mpr overlong.passes)).2
      exact absurd overlong.long (Nat.not_le.mpr fits)
    · intro usual
      have same : toInt (withSlash isSlash path ++ filename).length < sftpMaxPath ↔
          (withSlash isSlash path ++ filename).length < sftpMaxPath := by
        constructor
        · intro passes
          by_contra long
          exact usual ⟨short, valid, Nat.not_lt.mp long, passes⟩
        · intro fits
          unfold toInt
          omega
      rw [same] at success
      exact ⟨success.trans ⟨fun fits => ⟨valid, fits⟩, fun all => all.2⟩,
        fun appended => whole (success.mp appended), inside⟩
  · rw [appendFilename_invalid memory valid]
    exact ⟨fun _ overlong => valid overlong.valid,
      fun _ => ⟨⟨nofun, fun all => absurd all.1 valid⟩, nofun, rfl⟩⟩

end Copies

end GuacNebula.Ssh
