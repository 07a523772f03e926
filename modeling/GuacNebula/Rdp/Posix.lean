import GuacNebula.Rdp.Fs

/-! # What POSIX says of the local system

The state of the local system is looked at through a `View`: which file a path names, whether it is
a directory, what it contains, and which file a descriptor stands for. The documented behaviour of a
system call is a law about what it changes of the view.
-/

namespace GuacNebula.Rdp

/-- How the state of a local system is looked at. -/
structure View (σ ι : Type*) where
  named : σ → CString → Option ι
  isDirectory : σ → ι → Bool
  data : σ → ι → List UInt8
  held : σ → Int → Option ι

variable {σ ι : Type*}

/-- What is found under each path: the file, whether it is a directory, and its data. -/
def View.contents (view : View σ ι) (state : σ) (path : CString) :
    Option (ι × Bool × List UInt8) :=
  (view.named state path).map fun file => (file, view.isDirectory state file, view.data state file)

/-- `rename`. It moves the name of a file, unless the new path names the same file already. -/
structure RenameLaws (os : Os σ) (view : View σ ι) : Prop where
  renamed : ∀ {state after oldPath newPath}, os.rename state oldPath newPath = (after, .ok ()) →
    ∃ file, view.named state oldPath = some file ∧ view.named after newPath = some file
  moved : ∀ {state after oldPath newPath}, os.rename state oldPath newPath = (after, .ok ()) →
    view.named state newPath ≠ view.named state oldPath → view.named after oldPath = none
  kept : ∀ {state after oldPath newPath}, os.rename state oldPath newPath = (after, .ok ()) →
    view.named state newPath = view.named state oldPath → view.named after = view.named state
  held : ∀ {state after oldPath newPath}, os.rename state oldPath newPath = (after, .ok ()) →
    view.held after = view.held state

/-- `unlink`, `mkdir` and an `open` that fails. A directory is not unlinked, a directory is created
where there was nothing, and what fails leaves everything in place. -/
structure CreationLaws (os : Os σ) (view : View σ ι) : Prop where
  unlinked : ∀ {state after path}, os.unlink state path = (after, .ok ()) →
    ∃ file, view.named state path = some file ∧ view.isDirectory state file = false
      ∧ view.named after path = none
  unlink_failed : ∀ {state after path errno}, os.unlink state path = (after, .error errno) →
    view.contents after = view.contents state
  created : ∀ {state after path}, os.mkdir state path = (after, .ok ()) →
    view.named state path = none
      ∧ ∃ file, view.named after path = some file ∧ view.isDirectory after file = true
  mkdir_failed : ∀ {state after path errno}, os.mkdir state path = (after, .error errno) →
    view.contents after = view.contents state
  open_failed : ∀ {state after path flags errno},
    os.openFile state path flags = (after, .error errno) →
      view.contents after = view.contents state

/-- `ftruncate`. It gives a file a length, which is not negative, or fails without a change. -/
structure TruncationLaws (os : Os σ) (view : View σ ι) : Prop where
  truncated : ∀ {state after fd length file}, os.ftruncate state fd length = (after, .ok ()) →
    view.held state fd = some file →
      0 ≤ length ∧ ((view.data after file).length : Int) = length
  truncate_failed : ∀ {state after fd length errno},
    os.ftruncate state fd length = (after, .error errno) → view.data after = view.data state

/-- A path under which nothing is found names nothing. -/
theorem View.contents_eq_none_iff {view : View σ ι} {state : σ} {path : CString} :
    view.contents state path = none ↔ view.named state path = none :=
  Option.map_eq_none_iff

theorem View.contents_eq_some {view : View σ ι} {state : σ} {path : CString} {file : ι}
    (named : view.named state path = some file) :
    view.contents state path =
      some (file, view.isDirectory state file, view.data state file) := by
  rw [View.contents, named]
  rfl

end GuacNebula.Rdp
