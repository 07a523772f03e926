import GuacNebula.Lib.CString
import GuacNebula.Rdp.PathScratch
import GuacNebula.Ssh.Sftp

/-! # Relative paths

A relative path is combined with its parent in a buffer, by three copies that each continue where
the length returned by the ones before leads, be it within the buffer or not. A combined path that
is cut is not told from one that is whole. `convertPath_whole_iff` is when neither makes a
difference.
-/

namespace GuacNebula.Rdp

open CInt CString LexicalPath
open Ssh (GuacString documentedString documentedString_lawful)

/-- The buffer that `guac_rdp_fs_convert_path` combines the paths in. -/
def combinedPath (lib : GuacString) (memory : Nat → UInt8) (parent relPath : CString) : Buffer :=
  let (stored, returned) := lib.strlcpy parent fsMaxPath
  let buffer : Buffer := { memory := memory }
  let buffer := buffer.store fsMaxPath 0 (terminated fsMaxPath stored)
  let length := toInt returned
  let size := toSize (fsMaxPath - length)
  let (stored, returned) := lib.strlcpy [backslash] size
  let buffer := buffer.store fsMaxPath length (terminated size stored)
  let length := toInt (length + returned)
  let size := toSize (fsMaxPath - length)
  let (stored, _) := lib.strlcpy relPath size
  buffer.store fsMaxPath length (terminated size stored)

/-- `guac_rdp_fs_convert_path`. -/
def convertPath (lib : GuacString) (memory : Nat → UInt8) (parent relPath : CString) :
    Option CString :=
  normalizePath (CString.string (combinedPath lib memory parent relPath).memory fsMaxPath)

/-- As much of the parent as its length says as an `int`, and the relative path, as far as there is
room in the buffer. -/
def cutPath (parent relPath : CString) : CString :=
  (parent.take (toInt parent.length).toNat ++ backslash :: relPath).take (fsMaxPath - 1)

/-- Nothing is stored outside of the buffer, and what the path is converted to is what the whole
combined path is normalized to. -/
structure ConvertsWhole (lib : GuacString) (memory : Nat → UInt8) (parent relPath : CString) :
    Prop where
  inside : (combinedPath lib memory parent relPath).outside = false
  whole : convertPath lib memory parent relPath = none ∨
    convertPath lib memory parent relPath = fsNormalizePath (parent ++ backslash :: relPath)

/-- What is stored with space for it at a place that is not in the buffer is stored outside. -/
theorem store_outside_of_space {buffer : Buffer} {place : Int} {space : Nat} (text : CString)
    (some : 0 < space) (beyond : place < 0 ∨ (fsMaxPath : Int) ≤ place) :
    (buffer.store fsMaxPath place (terminated space text)).outside = true := by
  rw [Buffer.store_outside, terminated, if_neg (Nat.ne_of_gt some)]
  refine Or.inr ⟨List.append_ne_nil_of_right_ne_nil _ (List.cons_ne_nil _ _), ?_⟩
  rw [List.length_append, List.length_singleton]
  omega

section Copies

variable {lib : GuacString} (lawful : lib.Lawful) (memory : Nat → UInt8) {parent : CString}
  (relPath : CString)
include lawful

/-- The copies stay in the buffer if the length of the parent does. -/
theorem combinedPath_written (nonneg : 0 ≤ toInt parent.length)
    (within : toInt parent.length < fsMaxPath) :
    ∃ behind, Buffer.Written fsMaxPath memory (cutPath parent relPath ++ 0 :: behind)
      (combinedPath lib memory parent relPath) := by
  have room : fsMaxPath = 4096 := rfl
  obtain ⟨length, same⟩ := Int.eq_ofNat_of_zero_le nonneg
  have least : length ≤ parent.length := by
    unfold toInt at same
    omega
  have next : toInt ((length : Int) + 1) = (length + 1 : Nat) := by
    unfold toInt
    omega
  have space : toSize (fsMaxPath - (length : Int)) = fsMaxPath - length := by
    unfold toSize
    omega
  have spaceLeft : toSize (fsMaxPath - ((length + 1 : Nat) : Int)) = fsMaxPath - 1 - length := by
    unfold toSize
    omega
  have front : (parent.take length).length = length := by
    rw [List.length_take]
    omega
  unfold combinedPath
  simp only [lawful.strlcpy, same, space, List.length_singleton, Int.natCast_one, next, spaceLeft]
  have start : Buffer.Written fsMaxPath memory ([] ++ []) { memory := memory } :=
    Buffer.Written.start fsMaxPath memory
  obtain ⟨firstEnd, first⟩ := start.copy parent 0 fsMaxPath rfl (by decide) (by decide)
  have split : [] ++ parent.take (fsMaxPath - 1) ++ 0 :: firstEnd =
      parent.take length ++ ((parent.take (fsMaxPath - 1)).drop length ++ 0 :: firstEnd) := by
    have both := List.take_append_drop length (parent.take (fsMaxPath - 1))
    rw [List.take_take, Nat.min_eq_left (by omega)] at both
    rw [List.nil_append, ← List.append_assoc, both]
  rw [split] at first
  obtain ⟨secondEnd, second⟩ := first.copy [backslash] length (fsMaxPath - length)
    (by rw [front]) (by omega) (by omega)
  have cut : cutPath parent relPath =
      parent.take length ++ (backslash :: relPath).take (fsMaxPath - 1 - length) := by
    rw [cutPath, same, Int.toNat_natCast, List.take_append, front, List.take_take,
      Nat.min_eq_right (by omega)]
  rw [cut]
  by_cases full : length = fsMaxPath - 1
  · -- There is no space for the separator, and what follows is not stored at all.
    have none : fsMaxPath - 1 - length = 0 := by omega
    have one : fsMaxPath - length - 1 = 0 := by omega
    rw [one, List.take_zero, List.append_nil] at second
    refine ⟨secondEnd, ?_⟩
    rw [none, one, List.take_zero, List.append_nil, List.take_zero]
    exact (Buffer.store_nil fsMaxPath _ _).symm ▸ second
  · have separator : [backslash].take (fsMaxPath - length - 1) = [backslash] :=
      List.take_of_length_le (by rw [List.length_singleton]; omega)
    rw [separator] at second ⊢
    obtain ⟨thirdEnd, third⟩ := second.copy relPath (length + 1 : Nat) (fsMaxPath - 1 - length)
      (by rw [List.length_append, front]; rfl) (by omega) (by omega)
    refine ⟨thirdEnd, ?_⟩
    rw [List.append_assoc (parent.take length), List.singleton_append] at third
    have more : fsMaxPath - 1 - length - 1 + 1 = fsMaxPath - 1 - length := by omega
    rw [← List.take_succ_cons, more] at third
    exact third

/-- A parent whose length leads out of the buffer is followed by a copy outside of it: by that of
the separator, or by that of the relative path if the length leads right behind the buffer. -/
theorem combinedPath_outside
    (beyond : ¬ (0 ≤ toInt parent.length ∧ toInt parent.length < fsMaxPath)) :
    (combinedPath lib memory parent relPath).outside = true := by
  have room : fsMaxPath = 4096 := rfl
  have fits := toInt_fits parent.length
  unfold FitsInt at fits
  unfold combinedPath
  simp only [lawful.strlcpy, List.length_singleton, Int.natCast_one]
  generalize toInt parent.length = length at beyond fits
  by_cases behind : length = fsMaxPath
  · refine store_outside_of_space _ ?_ ?_
    · subst behind
      decide
    · subst behind
      decide
  · refine Buffer.store_outside.mpr (Or.inl (store_outside_of_space _ ?_ (by omega)))
    unfold toSize
    omega

end Copies

/-- A cut path is not the normalization of one that is too long. -/
theorem fsNormalizePath_long {path : CString} (long : fsMaxPath ≤ path.length) :
    fsNormalizePath path = none :=
  (fsNormalizePath_eq_none_iff path).mpr fun normalizable =>
    absurd normalizable.short (Nat.not_lt.mpr long)

/-- What the copies leave is normalized. -/
theorem convertPath_eq {lib : GuacString} (lawful : lib.Lawful) (memory : Nat → UInt8)
    {parent relPath : CString} (parentText : 0 ∉ parent) (relText : 0 ∉ relPath)
    (nonneg : 0 ≤ toInt parent.length) (within : toInt parent.length < fsMaxPath) :
    convertPath lib memory parent relPath = fsNormalizePath (cutPath parent relPath) := by
  obtain ⟨_, written⟩ := combinedPath_written lawful memory relPath nonneg within
  have nonzero : 0 ∉ cutPath parent relPath := by
    intro member
    rcases List.mem_append.mp (List.mem_of_mem_take member) with inParent | inRest
    · exact parentText (List.mem_of_mem_take inParent)
    · exact List.not_mem_cons_of_ne_of_not_mem (by decide) relText inRest
  have short : (cutPath parent relPath).length ≤ 4294967296 := by
    have room : fsMaxPath = 4096 := rfl
    rw [cutPath, List.length_take]
    omega
  rw [convertPath, written.string nonzero, normalizePath_short short]

/-- Paths that fit together are not cut. -/
theorem cutPath_whole {parent relPath : CString}
    (fits : parent.length + 1 + relPath.length < fsMaxPath) :
    cutPath parent relPath = parent ++ backslash :: relPath := by
  have room : fsMaxPath = 4096 := rfl
  have length : toInt parent.length = parent.length := by
    unfold toInt
    omega
  rw [cutPath, length, Int.toNat_natCast, List.take_length, List.take_of_length_le]
  rw [List.length_append, List.length_cons]
  omega

/-- A relative path is converted to what the whole combined path is normalized to, or refused, and
nothing is stored outside of the buffer, exactly if the combined path fits into it, or the parent
does and what is left of the combined path cannot be normalized. -/
theorem convertPath_whole_iff (lib : GuacString) (lawful : lib.Lawful) (memory : Nat → UInt8)
    (parent relPath : CString) (parentText : 0 ∉ parent) (relText : 0 ∉ relPath) :
    ConvertsWhole lib memory parent relPath ↔
      parent.length + 1 + relPath.length < fsMaxPath ∨
        (0 ≤ toInt parent.length ∧ toInt parent.length < fsMaxPath) ∧
          ¬ Normalizable (cutPath parent relPath) := by
  by_cases within : 0 ≤ toInt parent.length ∧ toInt parent.length < fsMaxPath
  · have converted := convertPath_eq lawful memory parentText relText within.1 within.2
    obtain ⟨_, written⟩ := combinedPath_written lawful memory relPath within.1 within.2
    by_cases fits : parent.length + 1 + relPath.length < fsMaxPath
    · refine ⟨fun _ => Or.inl fits, fun _ => ⟨written.inside, Or.inr ?_⟩⟩
      rw [converted, cutPath_whole fits]
    · have tooLong : fsNormalizePath (parent ++ backslash :: relPath) = none := by
        refine fsNormalizePath_long ?_
        rw [List.length_append, List.length_cons]
        omega
      rw [← fsNormalizePath_eq_none_iff, ← converted]
      constructor
      · intro whole
        rcases whole.whole with refused | same
        · exact Or.inr ⟨within, refused⟩
        · exact Or.inr ⟨within, same.trans tooLong⟩
      · rintro (short | ⟨_, refused⟩)
        · exact absurd short fits
        · exact ⟨written.inside, Or.inl refused⟩
  · have outside := combinedPath_outside lawful memory relPath within
    constructor
    · exact fun whole => absurd (outside.symm.trans whole.inside) nofun
    · rintro (fits | ⟨inside, _⟩)
      · refine absurd ?_ within
        have room : fsMaxPath = 4096 := rfl
        unfold toInt
        omega
      · exact absurd inside within

/-- `b` in `\a`. -/
theorem convertPath_whole_iff_short :
    ConvertsWhole documentedString (fun _ => 0) [backslash, 0x61] [0x62] :=
  (convertPath_whole_iff documentedString documentedString_lawful (fun _ => 0) [backslash, 0x61]
    [0x62] (by decide) (by decide)).mpr (Or.inl (by decide))

/-- A directory sixteen levels deep, with names of 250 bytes. -/
def deepDirectory : List CString := List.replicate 16 (List.replicate 250 0x61)

/-- The name of an entry of that directory is cut to 78 bytes, and the path of another file is what
the path is converted to. -/
theorem convertPath_cut :
    convertPath documentedString (fun _ => 0) (writePath backslash deepDirectory)
        (List.replicate 200 0x61) =
          some (writePath backslash (deepDirectory ++ [List.replicate 78 0x61])) ∧
      ¬ ConvertsWhole documentedString (fun _ => 0) (writePath backslash deepDirectory)
        (List.replicate 200 0x61) := by
  have taken : room deepDirectory = 4016 := by
    rw [deepDirectory, room_replicate, List.length_replicate]
  have length : (writePath backslash deepDirectory).length = 4016 := by
    rw [writePath, List.length_cons, length_intercalate, taken]
  have within : toInt (writePath backslash deepDirectory).length = 4016 := by
    rw [length]
    decide
  have cut : cutPath (writePath backslash deepDirectory) (List.replicate 200 0x61) =
      writePath backslash (deepDirectory ++ [List.replicate 78 0x61]) := by
    have written : writePath backslash (deepDirectory ++ [List.replicate 78 0x61]) =
        writePath backslash deepDirectory ++ backslash :: List.replicate 78 0x61 :=
      congrArg (backslash :: ·) (intercalate_concat backslash
        (List.ne_nil_of_mem (List.mem_replicate.mpr ⟨by decide, rfl⟩)) _)
    have count : Int.toNat 4016 = 4016 := rfl
    have whole : (writePath backslash deepDirectory).take (fsMaxPath - 1) =
        writePath backslash deepDirectory := List.take_of_length_le (by rw [length]; decide)
    have name : (List.replicate 200 (0x61 : UInt8)).take 78 = List.replicate 78 0x61 :=
      List.take_replicate
    rw [written, cutPath, within, count, List.take_of_length_le (Nat.le_of_eq length),
      List.take_append, length, whole, ← name]
    rfl
  have allNames : ∀ name ∈ deepDirectory ++ [List.replicate 78 0x61], IsName fsRules name := by
    intro name member
    rcases List.mem_append.mp member with inside | last
    · rw [List.eq_of_mem_replicate inside]
      exact isName_replicate 250 (by decide)
    · rw [List.mem_singleton.mp last]
      exact isName_replicate 78 (by decide)
  have fits : room (deepDirectory ++ [List.replicate 78 0x61]) < fsMaxPath := by
    rw [room_append, taken]
    decide
  have parentText : (0 : UInt8) ∉ writePath backslash deepDirectory := by
    intro member
    rcases List.mem_cons.mp member with zero | inside
    · exact absurd zero (by decide)
    · rcases mem_intercalate inside with zero | ⟨name, written, inside⟩
      · exact absurd zero (by decide)
      · rw [List.eq_of_mem_replicate written] at inside
        exact absurd (List.eq_of_mem_replicate inside) (by decide)
  have converted : convertPath documentedString (fun _ => 0) (writePath backslash deepDirectory)
      (List.replicate 200 0x61) =
        some (writePath backslash (deepDirectory ++ [List.replicate 78 0x61])) := by
    rw [convertPath_eq documentedString_lawful (fun _ => 0) parentText
      (fun member => absurd (List.eq_of_mem_replicate member) (by decide))
      (by rw [within]; decide) (by rw [within]; decide), cut]
    exact fsNormalizePath_written allNames (by decide) fits
  refine ⟨converted, fun whole => ?_⟩
  have tooLong : fsNormalizePath (writePath backslash deepDirectory ++
      backslash :: List.replicate 200 0x61) = none := by
    refine fsNormalizePath_long ?_
    rw [List.length_append, length, List.length_cons, List.length_replicate]
    decide
  rcases whole.whole with refused | same
  · exact absurd (converted.symm.trans refused) nofun
  · exact absurd (converted.symm.trans (same.trans tooLong)) nofun

end GuacNebula.Rdp
