import GuacNebula.Rdp.Confinement

/-! # Normalized paths as stacks

What a normalized path is to its path can be said without the scan: the pieces between the
separators are processed on a stack. `fsNormalizePath_eq_some_iff` is that the scan does the same,
and fails where the stack gets too high.
-/

namespace GuacNebula.Rdp

open LexicalPath

/-- The pieces of a path, between separators. -/
def pieces (path : CString) : List CString := path.splitOnP isSeparator

/-- The components of a path, the last one first: `''` and `.` are ignored, and `..` pops the last
one if there is any. -/
def componentStack (path : CString) : List CString := stacked dot [] (pieces path)

/-- The stack never has more than `depth` components, after none of the pieces. -/
def StacksAtMost (depth : Nat) (path : CString) : Prop :=
  ∀ count, (stacked dot [] ((pieces path).take count)).length ≤ depth

/-- The path with the given components. -/
def writePath (separator : UInt8) (components : List CString) : CString :=
  separator :: [separator].intercalate components

/-- The paths that can be normalized. -/
structure Normalizable (path : CString) : Prop where
  absolute : ∃ first rest, path = first :: rest ∧ isSeparator first = true
  short : path.length < fsMaxPath
  noStream : colon ∉ path
  shallow : StacksAtMost maxPathDepth path

/-- A leading separator has only an empty piece before it. -/
theorem pieces_cons {first : UInt8} (separator : isSeparator first = true) (rest : CString) :
    pieces (first :: rest) = [] :: pieces rest := by
  rw [pieces, List.splitOnP_cons_eq_if_modifyHead, if_pos separator]
  rfl

theorem componentStack_cons {first : UInt8} (separator : isSeparator first = true)
    (rest : CString) : componentStack (first :: rest) = componentStack rest := by
  rw [componentStack, pieces_cons separator]
  rfl

theorem stacksAtMost_cons {first : UInt8} (separator : isSeparator first = true) (depth : Nat)
    (rest : CString) : StacksAtMost depth (first :: rest) ↔ StacksAtMost depth rest := by
  unfold StacksAtMost
  rw [pieces_cons separator]
  constructor
  · exact fun all count => all (count + 1)
  · intro all count
    cases count with
    | zero => exact Nat.zero_le _
    | succ count => exact all count

/-- The scan of a path from its beginning. -/
theorem scan_pieces (rules : Rules UInt8) (separates : rules.separates = isSeparator)
    (sameDot : rules.dot = dot) (path : CString) (found : List CString) :
    scan rules path [] [] = some found ↔
      (∀ c ∈ path, isSeparator c = false → rules.refuses c = false) ∧
        StacksAtMost rules.maxDepth path ∧ found = componentStack path := by
  have ends : rules.separates slash = true := by
    rw [separates]
    rfl
  rw [scan_eq_some_iff ends, separates, sameDot]
  rfl

/-- Only a colon is refused. -/
theorem fsRules_refuses (path : CString) :
    (∀ c ∈ path, isSeparator c = false → fsRules.refuses c = false) ↔ colon ∉ path := by
  constructor
  · intro plain member
    exact absurd (plain colon member rfl) (by decide)
  · intro absent c member _
    exact decide_eq_false fun same => absent (same ▸ member)

/-- The part that is scanned is kept whole, and so is what it is normalized to. -/
theorem fsNormalizePath_cons {first : UInt8} (separator : isSeparator first = true)
    (rest normalized : CString) :
    fsNormalizePath (first :: rest) = some normalized ↔
      rest.length < fsMaxPath - 1 ∧ colon ∉ rest ∧ StacksAtMost maxPathDepth rest ∧
        normalized = writePath backslash (componentStack rest).reverse := by
  have scanned := scan_pieces fsRules rfl rfl rest
  constructor
  · intro found
    obtain ⟨_, scratch, names, same, _, scan, written, _⟩ := fsNormalizePath_scanned found
    cases same
    obtain ⟨plain, depths, rfl⟩ := (scanned names).mp scan
    refine ⟨?_, (fsRules_refuses rest).mp plain, depths, written⟩
    rw [fsNormalizePath] at found
    split_ifs at found with relative long
    omega
  · rintro ⟨short, plain, depths, rfl⟩
    have scan := (scanned _).mpr ⟨(fsRules_refuses rest).mpr plain, depths, rfl⟩
    have found : fsNormalizePath (first :: rest) =
        some (backslash :: strljoin (componentStack rest).reverse [backslash] (fsMaxPath - 1)) := by
      rw [fsNormalizePath, if_neg (by rw [separator]; decide), if_neg (by omega),
        scanComponents_eq, scan, Option.map_some]
    obtain ⟨_, scratch, names, same, _, scan', written, _⟩ := fsNormalizePath_scanned found
    cases same
    cases scan.symm.trans scan'
    exact found.trans (congrArg some written)

/-- Turning the slashes of a path turns those that it was written with. -/
theorem forwardSlashes_writePath {names : List CString} (plain : ∀ name ∈ names, backslash ∉ name) :
    forwardSlashes (writePath backslash names) = writePath slash names := by
  have turned (name : CString) (absent : backslash ∉ name) : forwardSlashes name = name := by
    refine (List.map_congr_left fun c member => ?_).trans (List.map_id name)
    exact if_neg fun (same : c = backslash) => absent (same ▸ member)
  have joined : forwardSlashes ([backslash].intercalate names) = [slash].intercalate names := by
    induction names with
    | nil => rfl
    | cons name names ih =>
        have first := turned name (plain name List.mem_cons_self)
        cases names with
        | nil => rw [List.intercalate_singleton, List.intercalate_singleton, first]
        | cons next names =>
            have rest := ih fun other member => plain other (List.mem_cons_of_mem _ member)
            rw [List.intercalate_cons_cons, List.intercalate_cons_cons, forwardSlashes,
              List.map_append, List.map_append]
            exact congrArg₂ _ (congrArg₂ _ first rfl) rest
  exact congrArg₂ List.cons rfl joined

/-- Exactly the paths that can be normalized are, to the components of their stack. -/
theorem fsNormalizePath_eq_some_iff (path normalized : CString) :
    fsNormalizePath path = some normalized ↔
      Normalizable path ∧ normalized = writePath backslash (componentStack path).reverse := by
  cases path with
  | nil =>
      constructor
      · intro found
        cases found
      · rintro ⟨normalizable, _⟩
        obtain ⟨_, _, same, _⟩ := normalizable.absolute
        cases same
  | cons first rest =>
      by_cases separator : isSeparator first = true
      · rw [fsNormalizePath_cons separator, componentStack_cons separator]
        have length : (first :: rest).length = rest.length + 1 := List.length_cons
        have room : fsMaxPath = 4096 := rfl
        have other : colon ≠ first := by
          rintro rfl
          exact absurd separator (by decide)
        constructor
        · rintro ⟨short, plain, depths, same⟩
          refine ⟨⟨⟨first, rest, rfl, separator⟩, by omega, ?_, ?_⟩, same⟩
          · exact List.not_mem_cons_of_ne_of_not_mem other plain
          · exact (stacksAtMost_cons separator _ rest).mpr depths
        · rintro ⟨normalizable, same⟩
          have short := normalizable.short
          refine ⟨by omega, List.not_mem_of_not_mem_cons normalizable.noStream, ?_, same⟩
          exact (stacksAtMost_cons separator _ rest).mp normalizable.shallow
      · constructor
        · intro found
          rw [fsNormalizePath, if_pos (by rw [Bool.eq_false_iff.mpr separator]; rfl)] at found
          cases found
        · rintro ⟨normalizable, _⟩
          obtain ⟨_, _, same, absolute⟩ := normalizable.absolute
          cases same
          exact absurd absolute separator

theorem fsNormalizePath_eq_none_iff (path : CString) :
    fsNormalizePath path = none ↔ ¬ Normalizable path := by
  rw [Option.eq_none_iff_forall_ne_some]
  constructor
  · exact fun none normalizable => none _ ((fsNormalizePath_eq_some_iff path _).mpr
      ⟨normalizable, rfl⟩)
  · exact fun refused normalized found =>
      refused ((fsNormalizePath_eq_some_iff path normalized).mp found).1

/-- `/a/../\b/.` is `\b`. -/
example : componentStack [slash, 0x61, slash, dot, dot, slash, backslash, 0x62, slash, dot] =
    [[0x62]] := by
  decide

end GuacNebula.Rdp
