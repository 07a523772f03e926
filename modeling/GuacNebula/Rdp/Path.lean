import Mathlib.Data.List.Basic

/-! # Paths of the redirected drive

The remote server names files by absolute Windows-style paths. This module models how the
RDP filesystem normalizes such a path, maps it below the drive directory, and appends the
name of a directory entry to the path of its directory. A C string is the list of its bytes
without the terminator.
-/

namespace GuacNebula.Rdp

/-- The bytes of a C string, without the terminating NUL. -/
abbrev CString := List UInt8

/-- The bytes of an ASCII literal. -/
def ascii (text : String) : CString := text.toList.map fun c => c.toNat.toUInt8

/-- `GUAC_RDP_FS_MAX_PATH`, the size in bytes of a path buffer, terminator included. -/
def fsMaxPath : Nat := 4096

/-- `GUAC_RDP_MAX_PATH_DEPTH`, the number of components a normalized path may have. -/
def maxPathDepth : Nat := 64

def slash : UInt8 := 0x2F
def backslash : UInt8 := 0x5C
def colon : UInt8 := 0x3A
def dot : UInt8 := 0x2E

/-- Either separator ends a path component. -/
def isSeparator (c : UInt8) : Bool := c == slash || c == backslash

/-- What `guac_rdp_fs_normalize_path` does with a complete component, the components found so
far being given last one first. -/
def closeComponent (components : List CString) (component : CString) : Option (List CString) :=
  if component = [dot, dot] then some components.tail
  else if component = [dot] ∨ component = [] then some components
  else if components.length ≥ maxPathDepth then none
  else some (component :: components)

/-- The scan of `guac_rdp_fs_normalize_path` over the bytes after the leading separator. The
terminator closes the last component, and a colon makes the scan fail. -/
def scanComponents : List UInt8 → CString → List CString → Option (List CString)
  | [], current, components => closeComponent components current
  | c :: rest, current, components =>
      if isSeparator c then (closeComponent components current).bind (scanComponents rest [])
      else if c = colon then none
      else scanComponents rest (current ++ [c]) components

/-- `guac_strljoin`: the elements joined by a delimiter, cut to a buffer of `size` bytes. -/
def strljoin (elements : List CString) (delimiter : CString) (size : Nat) : CString :=
  (List.intercalate delimiter elements).take (size - 1)

/-- `guac_rdp_fs_normalize_path`. -/
def fsNormalizePath : CString → Option CString
  | [] => none
  | first :: scratch =>
      if !isSeparator first then none
      else if scratch.length ≥ fsMaxPath - 1 then none
      else (scanComponents scratch [] []).map fun components =>
        backslash :: strljoin components.reverse [backslash] (fsMaxPath - 1)

/-- `__guac_rdp_fs_translate_path`: the drive path followed by the virtual path with forward
slashes, both cut so that the result fits its buffer. -/
def fsTranslatePath (drivePath virtualPath : CString) : CString :=
  let drive := drivePath.take (fsMaxPath - 1)
  drive ++ (virtualPath.map fun c => if c = backslash then slash else c).take
    (fsMaxPath - 1 - drive.length)

/-- The copy of a file name into the `space` bytes left in a path buffer. It fails at a
separator, and when no byte remains for the terminator. -/
def copyFilename : Nat → CString → Option CString
  | 0, _ => none
  | _ + 1, [] => some []
  | space + 1, c :: rest =>
      if isSeparator c then none else (copyFilename space rest).map (c :: ·)

/-- The path with a trailing slash, unless it is empty or already ends in a separator. -/
def withTrailingSlash (path : CString) : CString :=
  match path.getLast? with
  | none => path
  | some last => if isSeparator last then path else path ++ [slash]

/-- `guac_rdp_fs_append_filename`. -/
def fsAppendFilename (path filename : CString) : Option CString :=
  if filename = [dot] then none
  else if filename = [dot, dot] then none
  else if path.length ≥ fsMaxPath then none
  else
    let directory := withTrailingSlash path
    (copyFilename (fsMaxPath - directory.length) filename).map (directory ++ ·)

end GuacNebula.Rdp
