import GuacNebula.Terminal.OscSkip
import Mathlib.Data.List.TakeWhile

/-! # Operating system commands with a string

Five commands take a string: the name of a file to download, the directory for uploads, the name
of a pipe stream, and, twice, the title of the window. Each of their handlers collects bytes up to
a terminator and hands them to a callback. The terminators they know are single bytes: the
backslash, which stands for the `ST` it is the second byte of and also occurs in names, the 8-bit
`ST`, which also occurs within the encodings of other characters, and `BEL`. The escape character
of a 7-bit `ST` is collected like any other byte.
-/

namespace GuacNebula.Terminal

open CInt Run

/-- The commands that take a string. -/
inductive StringCommand where
  | download | setDirectory | openPipeStream | iconName | windowTitle
  deriving DecidableEq, Repr

namespace StringCommand

/-- The number of a command, in digits. -/
def number : StringCommand → List UInt8
  | download => [0x34, 0x38, 0x32, 0x32, 0x30, 0x30]
  | setDirectory => [0x34, 0x38, 0x32, 0x32, 0x30, 0x31]
  | openPipeStream => [0x34, 0x38, 0x32, 0x32, 0x30, 0x32]
  | iconName => [0x30]
  | windowTitle => [0x32]

/-- The handler that collects the string of a command. -/
def handler : StringCommand → CharHandler
  | download => .download
  | setDirectory => .setDirectory
  | openPipeStream => .openPipeStream
  | iconName => .windowTitle
  | windowTitle => .windowTitle

/-- The number of bytes the handler of a command has room for, its terminating zero apart. -/
def capacity : StringCommand → Nat
  | iconName => 4095
  | windowTitle => 4095
  | _ => 2047

/-- What the handler of a command has collected. -/
def buffer (command : StringCommand) (statics : HandlerStatics) : List UInt8 :=
  match command with
  | download => statics.filename
  | setDirectory => statics.directory
  | openPipeStream => statics.pipeParam
  | iconName => statics.title
  | windowTitle => statics.title

/-- The string that an output hands to the callback of a command. -/
def received (command : StringCommand) (output : Output) : Option (List UInt8) :=
  match command, output with
  | download, .download name => some name
  | setDirectory, .uploadPath path => some path
  | openPipeStream, .pipe name => some name
  | iconName, .title name => some name
  | windowTitle, .title name => some name
  | _, _ => none

/-- The strings the callback of a command has been called with, latest first. -/
def calls (command : StringCommand) (term : Term) : List (List UInt8) :=
  term.output.filterMap command.received

/-- The callback of a command is there. Those of the pipe stream and the title always are. -/
def Installed (command : StringCommand) (term : Term) : Prop :=
  match command with
  | download => term.fileDownloadHandler = true
  | setDirectory => term.uploadPathHandler = true
  | _ => True

/-- The byte separates the string of a command from flags before it. -/
def Separates (command : StringCommand) (c : UInt8) : Prop :=
  command = openPipeStream ∧ c = 0x3B

instance (command : StringCommand) (c : UInt8) : Decidable (command.Separates c) :=
  inferInstanceAs (Decidable (_ ∧ _))

end StringCommand

/-- The handler collects the string of a command. -/
def CharHandler.collectsString : CharHandler → Bool
  | .download => true
  | .setDirectory => true
  | .openPipeStream => true
  | .windowTitle => true
  | _ => false

theorem StringCommand.collects (command : StringCommand) :
    command.handler.collectsString = true := by
  cases command <;> rfl

theorem StringCommand.handler_ne_echo (command : StringCommand) :
    CharHandler.echo ≠ command.handler := by
  cases command <;> nofun

/-- A command hands its string to its callback: the callback is called once, with the string, the
console is as before, and the terminal back in text. -/
def Delivers (platform : Platform) (term : Term) (command : StringCommand)
    (payload terminator : List UInt8) : Prop :=
  let after :=
    exec (writeByte platform) term (oscSequence command.number payload terminator)
  after.charHandler = .echo ∧ after.toConsole = term.toConsole
    ∧ command.calls after = payload :: command.calls term

/-- The number that the digits make up, read on from `operation`. -/
def readOperation (operation : Int) (digits : List UInt8) : Int :=
  digits.foldl (fun operation c => toInt (operation * 10 + (c.toNat - 0x30 : Nat))) operation

/-- No handler but the current one has collected anything. -/
def Term.Idle (term : Term) : Prop :=
  ∀ command : StringCommand, term.charHandler ≠ command.handler → command.buffer term.statics = []

/-! ## Steps -/

/-- What neither calls a callback, nor touches what is collected for one, nor begins to collect. -/
structure Term.SameStrings (before after : Term) : Prop where
  filename : after.statics.filename = before.statics.filename
  directory : after.statics.directory = before.statics.directory
  pipeParam : after.statics.pipeParam = before.statics.pipeParam
  title : after.statics.title = before.statics.title
  callbacks : after.uploadPathHandler = before.uploadPathHandler
    ∧ after.fileDownloadHandler = before.fileDownloadHandler
  calls : ∀ command : StringCommand, command.calls after = command.calls before
  handler : before.charHandler.collectsString = false → after.charHandler.collectsString = false

namespace Term.SameStrings

variable {first second third : Term}

theorem refl (term : Term) : term.SameStrings term :=
  ⟨rfl, rfl, rfl, rfl, ⟨rfl, rfl⟩, fun _ => rfl, id⟩

theorem trans (left : first.SameStrings second) (right : second.SameStrings third) :
    first.SameStrings third where
  filename := right.filename.trans left.filename
  directory := right.directory.trans left.directory
  pipeParam := right.pipeParam.trans left.pipeParam
  title := right.title.trans left.title
  callbacks := ⟨right.callbacks.1.trans left.callbacks.1,
    right.callbacks.2.trans left.callbacks.2⟩
  calls command := (right.calls command).trans (left.calls command)
  handler text := right.handler (left.handler text)

/-- A branch keeps what both of its sides keep. -/
theorem ite {condition : Prop} [Decidable condition] (left : first.SameStrings second)
    (right : first.SameStrings third) :
    first.SameStrings (if condition then second else third) := by
  split
  · exact left
  · exact right

theorem buffer (same : first.SameStrings second) (command : StringCommand) :
    command.buffer second.statics = command.buffer first.statics := by
  cases command with
  | download => exact same.filename
  | setDirectory => exact same.directory
  | openPipeStream => exact same.pipeParam
  | iconName => exact same.title
  | windowTitle => exact same.title

theorem installed (same : first.SameStrings second) {command : StringCommand}
    (installed : command.Installed first) : command.Installed second := by
  cases command with
  | download => exact same.callbacks.2.trans installed
  | setDirectory => exact same.callbacks.1.trans installed
  | _ => trivial

end Term.SameStrings

section Steps

variable (platform : Platform) (term : Term) (c : UInt8)

theorem sendString_sameStrings (text : String) : term.SameStrings (sendString term text) := by
  unfold sendString
  apply Term.SameStrings.ite (Term.SameStrings.refl term)
  exact ⟨rfl, rfl, rfl, rfl, ⟨rfl, rfl⟩, fun command => by cases command <;> rfl, id⟩

theorem pipeStreamFlush_sameStrings : term.SameStrings (pipeStreamFlush term) := by
  unfold pipeStreamFlush
  refine Term.SameStrings.ite ?_ (Term.SameStrings.refl term)
  exact ⟨rfl, rfl, rfl, rfl, ⟨rfl, rfl⟩, fun command => by cases command <;> rfl, id⟩

theorem pipeStreamWrite_sameStrings : term.SameStrings (pipeStreamWrite term c) := by
  have flushed := pipeStreamFlush_sameStrings term
  unfold pipeStreamWrite
  refine Term.SameStrings.ite ?_ (Term.SameStrings.refl term)
  exact (Term.SameStrings.ite flushed (Term.SameStrings.refl term)).trans
    ⟨rfl, rfl, rfl, rfl, ⟨rfl, rfl⟩, fun _ => rfl, id⟩

theorem pipeStreamClose_sameStrings : term.SameStrings (pipeStreamClose term) := by
  unfold pipeStreamClose
  refine Term.SameStrings.ite ?_ (Term.SameStrings.refl term)
  exact (pipeStreamFlush_sameStrings term).trans
    ⟨rfl, rfl, rfl, rfl, ⟨rfl, rfl⟩, fun command => by cases command <;> rfl, id⟩

theorem echo_sameStrings : term.SameStrings (echo platform term c) := by
  have codepoint (before : Term) (value : Int) :
      before.SameStrings (echoCodepoint platform before value) := by
    unfold echoCodepoint
    apply Term.SameStrings.ite (sendString_sameStrings ..)
    repeat' apply Term.SameStrings.ite
    all_goals first
      | exact ⟨rfl, rfl, rfl, rfl, ⟨rfl, rfl⟩, fun _ => rfl, id⟩
      | exact ⟨rfl, rfl, rfl, rfl, ⟨rfl, rfl⟩, fun _ => rfl, fun _ => rfl⟩
  have byte (before : Term) : before.SameStrings (echoByte platform before c) := by
    unfold echoByte
    rcases decodeByte before.mapping.isSome before.statics.codepoint
      before.statics.bytesRemaining c with ⟨value, bytesRemaining⟩
    have decoded : before.SameStrings
        { before with
          statics := { before.statics with
            codepoint := value, bytesRemaining := bytesRemaining } } :=
      ⟨rfl, rfl, rfl, rfl, ⟨rfl, rfl⟩, fun _ => rfl, id⟩
    exact Term.SameStrings.ite decoded (decoded.trans (codepoint _ _))
  have piped : term.SameStrings
      (if term.pipeStream.opened ∧ c ≠ 0x1B then pipeStreamWrite term c else term) :=
    Term.SameStrings.ite (pipeStreamWrite_sameStrings term c) (Term.SameStrings.refl term)
  exact Term.SameStrings.ite piped (piped.trans (byte _))

theorem escape_sameStrings : term.SameStrings (escape term c) := by
  unfold escape
  split
  case h_12 =>
    exact (sendString_sameStrings term _).trans
      ⟨rfl, rfl, rfl, rfl, ⟨rfl, rfl⟩, fun _ => rfl, fun _ => rfl⟩
  all_goals exact ⟨rfl, rfl, rfl, rfl, ⟨rfl, rfl⟩, fun _ => rfl, fun _ => rfl⟩

theorem csi_sameStrings : term.SameStrings (csi term c) := by
  have executed (before : Term) (argc : Nat) (argv : Nat → Int) (function : CsiFunction) :
      before.SameStrings (csiExecute before argc argv function) := by
    cases function with
    | identify =>
        exact Term.SameStrings.ite (sendString_sameStrings ..) (Term.SameStrings.refl before)
    | report =>
        unfold csiExecute csiReport
        dsimp only
        apply Term.SameStrings.ite (Term.SameStrings.refl before)
        apply Term.SameStrings.ite (sendString_sameStrings ..)
        exact Term.SameStrings.ite (sendString_sameStrings ..) (Term.SameStrings.refl before)
    | _ => exact ⟨rfl, rfl, rfl, rfl, ⟨rfl, rfl⟩, fun _ => rfl, id⟩
  have finished : term.SameStrings { term with statics := csiFinishParameter term.statics } := by
    unfold csiFinishParameter
    split <;> exact ⟨rfl, rfl, rfl, rfl, ⟨rfl, rfl⟩, fun _ => rfl, id⟩
  unfold csi
  apply Term.SameStrings.ite
  · exact Term.SameStrings.ite ⟨rfl, rfl, rfl, rfl, ⟨rfl, rfl⟩, fun _ => rfl, id⟩
      (Term.SameStrings.refl term)
  apply Term.SameStrings.ite
  · apply Term.SameStrings.ite finished
    exact (finished.trans (executed _ _ _ _)).trans
      ⟨rfl, rfl, rfl, rfl, ⟨rfl, rfl⟩, fun _ => rfl, fun _ => rfl⟩
  · exact Term.SameStrings.ite ⟨rfl, rfl, rfl, rfl, ⟨rfl, rfl⟩, fun _ => rfl, id⟩
      (Term.SameStrings.refl term)

theorem xtermPalette_sameStrings : term.SameStrings (xtermPalette platform term c) := by
  have read : term.SameStrings (paletteByte platform term c) := by
    unfold paletteByte
    repeat' apply Term.SameStrings.ite
    all_goals exact ⟨rfl, rfl, rfl, rfl, ⟨rfl, rfl⟩, fun _ => rfl, id⟩
  exact Term.SameStrings.ite
    (read.trans ⟨rfl, rfl, rfl, rfl, ⟨rfl, rfl⟩, fun _ => rfl, fun _ => rfl⟩) read

/-- The command handler begins to collect a string after a semicolon only. -/
theorem osc_sameStrings (notSeparator : c ≠ 0x3B) : term.SameStrings (osc term c) := by
  unfold osc
  rw [if_neg notSeparator]
  exact Term.SameStrings.ite ⟨rfl, rfl, rfl, rfl, ⟨rfl, rfl⟩, fun _ => rfl, id⟩
    ⟨rfl, rfl, rfl, rfl, ⟨rfl, rfl⟩, fun _ => rfl, fun _ => rfl⟩

/-- Handlers that collect no string leave all strings alone. -/
theorem writeByte_sameStrings (text : term.charHandler.collectsString = false)
    (noCommand : ¬ (term.charHandler = .osc ∧ c = 0x3B)) :
    term.SameStrings (writeByte platform term c) := by
  unfold writeByte
  cases handled : term.charHandler with
  | echo => exact echo_sameStrings platform term c
  | escape => exact escape_sameStrings term c
  | osc => exact osc_sameStrings term c fun separator => noCommand ⟨handled, separator⟩
  | csi => exact csi_sameStrings term c
  | closePipeStream =>
      exact Term.SameStrings.ite
        ((pipeStreamClose_sameStrings term).trans
          ⟨rfl, rfl, rfl, rfl, ⟨rfl, rfl⟩, fun _ => rfl, fun _ => rfl⟩)
        (Term.SameStrings.refl term)
  | xtermPalette => exact xtermPalette_sameStrings platform term c
  | setScrollback =>
      exact Term.SameStrings.ite ⟨rfl, rfl, rfl, rfl, ⟨rfl, rfl⟩, fun _ => rfl, fun _ => rfl⟩
        ⟨rfl, rfl, rfl, rfl, ⟨rfl, rfl⟩, fun _ => rfl, id⟩
  | apc =>
      dsimp only [apc, Term.handler]
      split_ifs
      all_goals first
        | exact ⟨rfl, rfl, rfl, rfl, ⟨rfl, rfl⟩, fun _ => rfl, id⟩
        | exact ⟨rfl, rfl, rfl, rfl, ⟨rfl, rfl⟩, fun _ => rfl, fun _ => rfl⟩
  | ctrlFunc =>
      have filled : term.SameStrings
          (if c = 0x38 then term.onConsole (fillScreen platform) else term) :=
        Term.SameStrings.ite ⟨rfl, rfl, rfl, rfl, ⟨rfl, rfl⟩, fun _ => rfl, id⟩
          (Term.SameStrings.refl term)
      exact filled.trans ⟨rfl, rfl, rfl, rfl, ⟨rfl, rfl⟩, fun _ => rfl, fun _ => rfl⟩
  | g0Charset => exact ⟨rfl, rfl, rfl, rfl, ⟨rfl, rfl⟩, fun _ => rfl, fun _ => rfl⟩
  | g1Charset => exact ⟨rfl, rfl, rfl, rfl, ⟨rfl, rfl⟩, fun _ => rfl, fun _ => rfl⟩
  | download => cases handled ▸ text
  | setDirectory => cases handled ▸ text
  | openPipeStream => cases handled ▸ text
  | windowTitle => cases handled ▸ text

/-- A byte for another handler neither calls the callback of a command nor is it collected for
it. Only a semicolon read by the command handler makes the handler of the command the next one. -/
theorem writeByte_other (command : StringCommand) (other : term.charHandler ≠ command.handler) :
    command.calls (writeByte platform term c) = command.calls term
      ∧ command.buffer (writeByte platform term c).statics = command.buffer term.statics
      ∧ ((writeByte platform term c).charHandler = command.handler →
        term.charHandler = .osc ∧ c = 0x3B)
      ∧ (command.Installed term → command.Installed (writeByte platform term c)) := by
  by_cases begins : term.charHandler = .osc ∧ c = 0x3B
  · obtain ⟨handled, rfl⟩ := begins
    have step : writeByte platform term 0x3B =
        { term with
          charHandler := (oscHandler term.statics.operation).getD .osc
          statics := { term.statics with operation := 0 } } := by
      have inside : term = term.inOsc term.statics := by
        rw [Term.inOsc, ← handled]
      rw [inside, writeByte_inOsc]
      rfl
    rw [step]
    exact ⟨rfl, by cases command <;> rfl, fun _ => ⟨handled, rfl⟩, by cases command <;> exact id⟩
  by_cases text : term.charHandler.collectsString = false
  · have same := writeByte_sameStrings platform term c text begins
    refine ⟨same.calls command, same.buffer command, fun moved => ?_, same.installed⟩
    have collects := same.handler text
    rw [moved, command.collects] at collects
    cases collects
  unfold writeByte
  cases handled : term.charHandler with
  | download =>
      rw [handled] at other
      dsimp only [download, Term.handler]
      cases command
      case download => exact absurd rfl other
      all_goals
        split_ifs
        all_goals first
          | exact ⟨rfl, rfl, fun moved => absurd moved (StringCommand.handler_ne_echo _), id⟩
          | exact ⟨rfl, rfl, fun moved => absurd (handled.symm.trans moved) other, id⟩
  | setDirectory =>
      rw [handled] at other
      dsimp only [setDirectory, Term.handler]
      cases command
      case setDirectory => exact absurd rfl other
      all_goals
        split_ifs
        all_goals first
          | exact ⟨rfl, rfl, fun moved => absurd moved (StringCommand.handler_ne_echo _), id⟩
          | exact ⟨rfl, rfl, fun moved => absurd (handled.symm.trans moved) other, id⟩
  | openPipeStream =>
      rw [handled] at other
      have closed := pipeStreamClose_sameStrings term
      dsimp only [openPipeStream, Term.handler]
      split_ifs
      · refine ⟨?_, ?_, fun moved => absurd moved command.handler_ne_echo, closed.installed⟩
        · cases command
          case openPipeStream => exact absurd rfl other
          all_goals exact closed.calls _
        · cases command
          case openPipeStream => exact absurd rfl other
          case download => exact closed.filename
          case setDirectory => exact closed.directory
          all_goals exact closed.title
      all_goals
        cases command
        case openPipeStream => exact absurd rfl other
        all_goals exact ⟨rfl, rfl, fun moved => absurd (handled.symm.trans moved) other, id⟩
  | windowTitle =>
      rw [handled] at other
      dsimp only [windowTitle, Term.handler]
      cases command
      case iconName => exact absurd rfl other
      case windowTitle => exact absurd rfl other
      all_goals
        split_ifs
        all_goals first
          | exact ⟨rfl, rfl, fun moved => absurd moved (StringCommand.handler_ne_echo _), id⟩
          | exact ⟨rfl, rfl, fun moved => absurd (handled.symm.trans moved) other, id⟩
  | _ => exact absurd (by rw [handled]; rfl) text

/-- A terminator makes the handler of a command hand over what it has collected. -/
theorem writeByte_terminates {command : StringCommand} (own : term.charHandler = command.handler)
    (installed : command.Installed term) (ends : isStringTerminator c = true) :
    let after := writeByte platform term c
    after.charHandler = .echo ∧ after.toConsole = term.toConsole
      ∧ command.calls after = terminated (command.buffer term.statics) :: command.calls term
      ∧ command.buffer after.statics = [] ∧ command.Installed after := by
  unfold writeByte
  rw [own]
  cases command with
  | download =>
      change term.fileDownloadHandler = true at installed
      have step : download term c =
          { term with
            charHandler := .echo
            output := .download (terminated term.statics.filename) :: term.output
            statics := { term.statics with filename := [] } } := by
        dsimp only [download, Term.handler]
        rw [if_pos ends, if_pos installed]
      dsimp only [StringCommand.handler]
      rw [step]
      exact ⟨rfl, rfl, rfl, rfl, installed⟩
  | setDirectory =>
      change term.uploadPathHandler = true at installed
      have step : setDirectory term c =
          { term with
            charHandler := .echo
            output := .uploadPath (terminated term.statics.directory) :: term.output
            statics := { term.statics with directory := [] } } := by
        dsimp only [setDirectory, Term.handler]
        rw [if_pos ends, if_pos installed]
      dsimp only [StringCommand.handler]
      rw [step]
      exact ⟨rfl, rfl, rfl, rfl, installed⟩
  | openPipeStream =>
      have closed := pipeStreamClose_sameStrings term
      dsimp only [StringCommand.handler, openPipeStream, Term.handler]
      rw [if_pos ends]
      exact ⟨rfl, pipeStreamClose_toConsole term,
        congrArg (_ :: ·) (closed.calls .openPipeStream), rfl, trivial⟩
  | iconName =>
      dsimp only [StringCommand.handler, windowTitle, Term.handler]
      rw [if_pos ends]
      exact ⟨rfl, rfl, rfl, rfl, trivial⟩
  | windowTitle =>
      dsimp only [StringCommand.handler, windowTitle, Term.handler]
      rw [if_pos ends]
      exact ⟨rfl, rfl, rfl, rfl, trivial⟩

/-- Any other byte is collected, or begins the string anew behind flags. -/
theorem writeByte_collects {command : StringCommand} (own : term.charHandler = command.handler)
    (goesOn : isStringTerminator c = false) :
    let after := writeByte platform term c
    after.charHandler = command.handler ∧ after.toConsole = term.toConsole
      ∧ command.calls after = command.calls term
      ∧ command.buffer after.statics =
        (if command.Separates c then []
          else store (command.buffer term.statics) command.capacity c)
      ∧ (command.Installed term → command.Installed after) := by
  have notEnds : ¬ isStringTerminator c = true := Bool.eq_false_iff.mp goesOn
  unfold writeByte
  rw [own]
  cases command with
  | download =>
      dsimp only [StringCommand.handler, download]
      rw [if_neg notEnds]
      exact ⟨own, rfl, rfl, rfl, id⟩
  | setDirectory =>
      dsimp only [StringCommand.handler, setDirectory]
      rw [if_neg notEnds]
      exact ⟨own, rfl, rfl, rfl, id⟩
  | openPipeStream =>
      dsimp only [StringCommand.handler, openPipeStream]
      rw [if_neg notEnds]
      by_cases separator : c = 0x3B
      · rw [if_pos separator, if_pos ⟨rfl, separator⟩]
        exact ⟨own, rfl, rfl, rfl, id⟩
      · rw [if_neg separator, if_neg (fun both => separator both.2)]
        exact ⟨own, rfl, rfl, rfl, id⟩
  | iconName =>
      dsimp only [StringCommand.handler, windowTitle]
      rw [if_neg notEnds]
      exact ⟨own, rfl, rfl, rfl, id⟩
  | windowTitle =>
      dsimp only [StringCommand.handler, windowTitle]
      rw [if_neg notEnds]
      exact ⟨own, rfl, rfl, rfl, id⟩

/-- A handler that stops collecting has given up what it has collected. -/
theorem writeByte_gives_up {command : StringCommand} (own : term.charHandler = command.handler)
    (ends : isStringTerminator c = true) :
    command.buffer (writeByte platform term c).statics = [] := by
  unfold writeByte
  rw [own]
  cases command with
  | download =>
      dsimp only [StringCommand.handler, download, Term.handler]
      rw [if_pos ends]
      rfl
  | setDirectory =>
      dsimp only [StringCommand.handler, setDirectory, Term.handler]
      rw [if_pos ends]
      rfl
  | openPipeStream =>
      dsimp only [StringCommand.handler, openPipeStream, Term.handler]
      rw [if_pos ends]
      rfl
  | iconName =>
      dsimp only [StringCommand.handler, windowTitle, Term.handler]
      rw [if_pos ends]
      rfl
  | windowTitle =>
      dsimp only [StringCommand.handler, windowTitle, Term.handler]
      rw [if_pos ends]
      rfl

theorem writeByte_idle (idle : term.Idle) : (writeByte platform term c).Idle := by
  intro command leaves
  by_cases own : term.charHandler = command.handler
  · cases ends : isStringTerminator c with
    | true => exact writeByte_gives_up platform term c own ends
    | false => exact absurd (writeByte_collects platform term c own ends).1 leaves
  · exact (writeByte_other platform term c command own).2.1.trans (idle command own)

/-- Calls are only ever added. -/
theorem writeByte_calls {command : StringCommand} (installed : command.Installed term) :
    (∃ more, command.calls (writeByte platform term c) = more ++ command.calls term)
      ∧ command.Installed (writeByte platform term c) := by
  by_cases own : term.charHandler = command.handler
  · cases ends : isStringTerminator c with
    | true =>
        obtain ⟨_, _, called, _, kept⟩ := writeByte_terminates platform term c own installed ends
        exact ⟨⟨[_], called⟩, kept⟩
    | false =>
        obtain ⟨_, _, same, _, kept⟩ := writeByte_collects platform term c own ends
        exact ⟨⟨[], same⟩, kept installed⟩
  · obtain ⟨same, _, _, kept⟩ := writeByte_other platform term c command own
    exact ⟨⟨[], same⟩, kept installed⟩

end Steps

/-! ## Runs -/

section Runs

variable (platform : Platform) {command : StringCommand}

theorem exec_idle {term : Term} (idle : term.Idle) (bytes : List UInt8) :
    (exec (writeByte platform) term bytes).Idle :=
  exec_invariant idle fun term c idle => writeByte_idle platform term c idle

theorem exec_calls {term : Term} (installed : command.Installed term) (bytes : List UInt8) :
    (∃ more, command.calls (exec (writeByte platform) term bytes) = more ++ command.calls term)
      ∧ command.Installed (exec (writeByte platform) term bytes) := by
  induction bytes generalizing term with
  | nil => exact ⟨⟨[], rfl⟩, installed⟩
  | cons c bytes ih =>
      obtain ⟨⟨first, called⟩, kept⟩ := writeByte_calls platform term c installed
      obtain ⟨⟨second, calledLater⟩, keptLater⟩ := ih kept
      refine ⟨⟨second ++ first, ?_⟩, keptLater⟩
      rw [exec_cons, calledLater, called, List.append_assoc]

/-- A callback that has been called with another string is not called with the right one only. -/
theorem exec_calls_ne {term : Term} (installed : command.Installed term)
    {payload other : List UInt8} {before : List (List UInt8)} (wrong : other ≠ payload)
    (called : command.calls term = other :: before) (bytes : List UInt8) :
    command.calls (exec (writeByte platform) term bytes) ≠ payload :: before := by
  obtain ⟨⟨more, later⟩, _⟩ := exec_calls platform installed bytes
  rw [later, called]
  intro same
  have lengths := congrArg List.length same
  cases more with
  | nil => exact wrong (List.cons.inj same).1
  | cons first more =>
      simp only [List.length_append, List.length_cons] at lengths
      omega

/-- While no terminator comes, the handler of a command collects what fits. -/
theorem exec_collects {term : Term} (own : term.charHandler = command.handler)
    (installed : command.Installed term) (bytes : List UInt8)
    (plain : ∀ c ∈ bytes, isStringTerminator c = false ∧ ¬ command.Separates c)
    (fits : (command.buffer term.statics).length + bytes.length ≤ command.capacity) :
    let after := exec (writeByte platform) term bytes
    after.charHandler = command.handler ∧ after.toConsole = term.toConsole
      ∧ command.calls after = command.calls term
      ∧ command.buffer after.statics = command.buffer term.statics ++ bytes
      ∧ command.Installed after := by
  induction bytes generalizing term with
  | nil => exact ⟨own, rfl, rfl, (List.append_nil _).symm, installed⟩
  | cons c bytes ih =>
      obtain ⟨goesOn, notSeparator⟩ := plain c (List.mem_cons_self ..)
      obtain ⟨stays, console, calls, buffer, kept⟩ :=
        writeByte_collects platform term c own goesOn
      rw [List.length_cons] at fits
      rw [if_neg notSeparator, store, if_pos (by omega)] at buffer
      have room : (command.buffer (writeByte platform term c).statics).length + bytes.length
          ≤ command.capacity := by
        rw [buffer, List.length_append, List.length_singleton]
        omega
      obtain ⟨stays', console', calls', buffer', kept'⟩ :=
        ih stays (kept installed) (fun c member => plain c (List.mem_cons_of_mem _ member)) room
      refine ⟨stays', console'.trans console, calls'.trans calls, ?_, kept'⟩
      rw [exec_cons, buffer', buffer, List.append_assoc]
      rfl

/-- While the bytes are digits, the command handler reads its number on. -/
theorem exec_number (term : Term) {digits : List UInt8} (number : ∀ c ∈ digits, isDigit c = true)
    (statics : HandlerStatics) :
    exec (writeByte platform) (term.inOsc statics) digits
      = term.inOsc { statics with operation := readOperation statics.operation digits } := by
  induction digits generalizing statics with
  | nil => rfl
  | cons c digits ih =>
      rw [exec_cons, writeByte_inOsc, if_pos (number c (List.mem_cons_self ..)),
        ih fun c member => number c (List.mem_cons_of_mem _ member)]
      rfl

/-- After the number of a command and the semicolon, the handler that the number selects is in
charge, and nothing has been collected, called or printed. -/
theorem exec_begins {term : Term} (echoes : term.charHandler = .echo) {digits : List UInt8}
    (number : ∀ c ∈ digits, isDigit c = true) :
    exec (writeByte platform) term (0x1B :: 0x5D :: (digits ++ [0x3B])) =
      { term with
        charHandler := (oscHandler (readOperation term.statics.operation digits)).getD .osc
        statics := { term.statics with codepoint := 0x1B, bytesRemaining := 0, operation := 0 } } := by
  have begun : writeByte platform (writeByte platform term 0x1B) 0x5D =
      term.inOsc { term.statics with codepoint := 0x1B, bytesRemaining := 0 } := by
    rw [writeByte_escape platform term echoes]
    rfl
  rw [exec_cons, exec_cons, begun, exec_append, exec_number platform term number, exec_cons,
    writeByte_inOsc]
  rfl

/-- A string without zero bytes is not cut short. -/
theorem terminated_of_ne_zero {bytes : List UInt8} (nonzero : ∀ c ∈ bytes, c ≠ 0) :
    terminated bytes = bytes :=
  List.takeWhile_eq_self_iff.mpr fun c member => decide_eq_true (nonzero c member)

/-- What has been collected for a string that began late is too short, also together with the
escape character of a terminator. -/
theorem terminated_store_ne {payload buffer : List UInt8} (capacity : Nat)
    (printable : ∀ c ∈ payload, 0x20 ≤ c) (short : buffer.length < payload.length) :
    terminated (store buffer capacity 0x1B) ≠ payload := by
  have cut : terminated (store buffer capacity 0x1B) <+: store buffer capacity 0x1B :=
    List.takeWhile_prefix _
  unfold store at cut ⊢
  split_ifs at cut ⊢ with room
  · intro same
    rw [same] at cut
    have whole : payload = buffer ++ [0x1B] := by
      refine cut.eq_of_length_le ?_
      rw [List.length_append, List.length_singleton]
      exact short
    have escape : (0x1B : UInt8) ∈ payload := by
      rw [whole]
      exact List.mem_append_right _ (List.mem_singleton_self _)
    exact absurd (printable _ escape) (by decide)
  · intro same
    have length := cut.length_le
    rw [same] at length
    omega

/-- A handler that did not get the string from its beginning never hands it to the callback. -/
theorem exec_astray {payload terminator : List UInt8} {before : List (List UInt8)}
    (printable : ∀ c ∈ payload, 0x20 ≤ c) (ends : IsTerminator terminator)
    {term : Term} (bytes : List UInt8) (idle : term.Idle) (installed : command.Installed term)
    (called : command.calls term = before)
    (late : term.charHandler = command.handler →
      (command.buffer term.statics).length + bytes.length < payload.length)
    (inside : bytes.length ≤ payload.length) :
    command.calls (exec (writeByte platform) term (bytes ++ terminator)) ≠ payload :: before := by
  have uncalled : before ≠ payload :: before := Ne.symm (List.cons_ne_self payload before)
  have short {buffer : List UInt8} (fewer : buffer.length < payload.length) :
      terminated buffer ≠ payload := by
    intro same
    have cut : terminated buffer <+: buffer := List.takeWhile_prefix _
    rw [same] at cut
    exact absurd cut.length_le (by omega)
  induction bytes generalizing term with
  | nil =>
      rcases ends with rfl | rfl
      · rw [List.nil_append, exec_cons, exec_nil]
        by_cases own : term.charHandler = command.handler
        · obtain ⟨_, _, after, _⟩ := writeByte_terminates platform term 0x07 own installed rfl
          rw [after]
          exact fun same => short (late own) (List.cons.inj same).1
        · rw [(writeByte_other platform term 0x07 command own).1, called]
          exact uncalled
      · rw [List.nil_append, exec_cons, exec_cons, exec_nil]
        by_cases own : term.charHandler = command.handler
        · obtain ⟨stays, _, _, buffer, kept⟩ := writeByte_collects platform term 0x1B own rfl
          obtain ⟨_, _, after, _⟩ :=
            writeByte_terminates platform _ 0x5C stays (kept installed) rfl
          rw [if_neg fun separates => absurd separates.2 (by decide)] at buffer
          rw [after, buffer]
          exact fun same => terminated_store_ne _ printable (late own) (List.cons.inj same).1
        · obtain ⟨same, _, begins, _⟩ := writeByte_other platform term 0x1B command own
          have other : (writeByte platform term 0x1B).charHandler ≠ command.handler :=
            fun moved => absurd (begins moved).2 (by decide)
          rw [(writeByte_other platform _ 0x5C command other).1, same, called]
          exact uncalled
  | cons c bytes ih =>
      rw [List.length_cons] at late inside
      rw [List.cons_append, exec_cons]
      have idle' := writeByte_idle platform term c idle
      by_cases own : term.charHandler = command.handler
      · have fewer := late own
        cases stops : isStringTerminator c with
        | true =>
            obtain ⟨_, _, after, _, kept⟩ := writeByte_terminates platform term c own installed stops
            rw [called] at after
            exact exec_calls_ne platform kept (short (by omega)) after _
        | false =>
            obtain ⟨_, _, same, buffer, kept⟩ := writeByte_collects platform term c own stops
            refine ih idle' (kept installed) (same.trans called) (fun _ => ?_) (by omega)
            rw [buffer, store]
            split_ifs
            · rw [List.length_nil]
              omega
            · rw [List.length_append, List.length_singleton]
              omega
            · omega
      · obtain ⟨same, buffer, _, kept⟩ := writeByte_other platform term c command own
        refine ih idle' (kept installed) (same.trans called) (fun _ => ?_) (by omega)
        rw [buffer, idle command own, List.length_nil]
        omega

/-- The handler of a command, in charge from the first byte of the string on, hands over the bytes
before the first terminator. -/
theorem exec_delivers_iff {payload terminator : List UInt8} {term : Term}
    (own : term.charHandler = command.handler) (installed : command.Installed term)
    (empty : command.buffer term.statics = [])
    (printable : ∀ c ∈ payload, 0x20 ≤ c) (noFlags : ∀ c ∈ payload, ¬ command.Separates c)
    (fits : payload.length ≤ command.capacity) (ends : IsTerminator terminator) :
    let after := exec (writeByte platform) term (payload ++ terminator)
    (after.charHandler = .echo ∧ after.toConsole = term.toConsole
        ∧ command.calls after = payload :: command.calls term)
      ↔ (∀ c ∈ payload, isStringTerminator c = false)
        ∧ (terminator = [0x07] ∨ payload.length = command.capacity) := by
  intro after
  have nonzero (c : UInt8) (member : c ∈ payload) : c ≠ 0 := by
    rintro rfl
    exact absurd (printable 0 member) (by decide)
  by_cases plain : ∀ c ∈ payload, isStringTerminator c = false
  · rw [and_iff_right plain]
    obtain ⟨stays, console, same, buffer, kept⟩ :=
      exec_collects platform own installed payload
        (fun c member => ⟨plain c member, noFlags c member⟩)
        (by rw [empty, List.length_nil]; omega)
    rw [empty, List.nil_append] at buffer
    have split : after =
        exec (writeByte platform) (exec (writeByte platform) term payload) terminator :=
      exec_append ..
    rw [split]
    rcases ends with rfl | rfl
    · obtain ⟨echoes, console', calls, _⟩ :=
        writeByte_terminates platform _ 0x07 stays kept rfl
      rw [buffer, terminated_of_ne_zero nonzero, same] at calls
      exact ⟨fun _ => Or.inl rfl, fun _ => ⟨echoes, console'.trans console, calls⟩⟩
    · obtain ⟨stays', console', same', buffer', kept'⟩ :=
        writeByte_collects platform _ 0x1B stays rfl
      obtain ⟨echoes, console'', calls, _⟩ :=
        writeByte_terminates platform _ 0x5C stays' (kept' kept) rfl
      rw [if_neg fun separates => absurd separates.2 (by decide), buffer, store] at buffer'
      rw [buffer', same', same] at calls
      constructor
      · rintro ⟨_, _, delivered⟩
        refine Or.inr (Nat.le_antisymm fits (Nat.le_of_not_lt fun room => ?_))
        have escaped : ∀ c ∈ payload ++ [0x1B], c ≠ 0 := by
          intro c member
          rcases List.mem_append.mp member with member | member
          · exact nonzero c member
          · rw [List.mem_singleton.mp member]
            decide
        rw [if_pos room, terminated_of_ne_zero escaped] at calls
        have same := (List.cons.inj (calls.symm.trans delivered)).1
        have length := congrArg List.length same
        rw [List.length_append, List.length_singleton] at length
        omega
      · rintro (bell | full)
        · cases bell
        · rw [if_neg (by omega), terminated_of_ne_zero nonzero] at calls
          exact ⟨echoes, console''.trans (console'.trans console), calls⟩
  · refine iff_of_false (fun delivered => ?_) fun both => plain both.1
    obtain ⟨c, found⟩ : ∃ c, payload.find? isStringTerminator = some c := by
      refine Option.isSome_iff_exists.mp (List.find?_isSome.mpr ?_)
      simpa only [not_forall, Bool.not_eq_false, exists_prop] using plain
    obtain ⟨stops, first, rest, parts, goesOn⟩ := List.find?_eq_some_iff_append.mp found
    have length := congrArg List.length parts
    rw [List.length_append, List.length_cons] at length
    have inside (c : UInt8) (member : c ∈ first) : c ∈ payload := by
      rw [parts]
      exact List.mem_append_left _ member
    obtain ⟨stays, _, same, buffer, kept⟩ :=
      exec_collects platform own installed first
        (fun c member => ⟨by simpa using goesOn c member, noFlags c (inside c member)⟩)
        (by rw [empty, List.length_nil]; omega)
    rw [empty, List.nil_append] at buffer
    obtain ⟨_, _, calls, _, kept'⟩ := writeByte_terminates platform _ c stays kept stops
    rw [buffer, terminated_of_ne_zero fun c member => nonzero c (inside c member), same] at calls
    have split : after = exec (writeByte platform)
        (writeByte platform (exec (writeByte platform) term first) c) (rest ++ terminator) := by
      change exec (writeByte platform) term (payload ++ terminator) = _
      rw [parts, List.append_assoc, List.cons_append, exec_append, exec_cons]
    rw [split] at delivered
    refine exec_calls_ne platform kept' (fun whole => ?_) calls (rest ++ terminator) delivered.2.2
    rw [whole] at length
    omega

end Runs

/-- **The string of a command reaches its callback exactly if the number selects the handler of
the command, what is left of an earlier number included, no byte of the string is taken for a
terminator, and the escape character of `ESC \` is not collected.** -/
theorem oscString_delivers_iff (platform : Platform) (start : Term) (history : List UInt8)
    (fresh : start.statics = HandlerStatics.zero)
    (echoes : (exec (writeByte platform) start history).charHandler = .echo)
    (command : StringCommand) (installed : command.Installed start)
    (payload : List UInt8) (printable : ∀ c ∈ payload, 0x20 ≤ c)
    (noFlags : ∀ c ∈ payload, ¬ command.Separates c) (fits : payload.length ≤ command.capacity)
    {terminator : List UInt8} (ends : IsTerminator terminator) :
    Delivers platform (exec (writeByte platform) start history) command payload terminator
      ↔ oscHandler (readOperation (exec (writeByte platform) start history).statics.operation
            command.number) = some command.handler
        ∧ (∀ c ∈ payload, isStringTerminator c = false)
        ∧ (terminator = [0x07] ∨ payload.length = command.capacity) := by
  have idle : start.Idle := by
    intro command _
    rw [fresh]
    cases command <;> rfl
  have idle' := exec_idle platform idle history
  have installed' := (exec_calls platform installed history).2
  generalize exec (writeByte platform) start history = term at echoes idle' installed' ⊢
  have number : ∀ c ∈ command.number, isDigit c = true := by
    cases command <;> exact List.all_eq_true.mp rfl
  have bytes : oscSequence command.number payload terminator
      = (0x1B :: 0x5D :: (command.number ++ [0x3B])) ++ (payload ++ terminator) := by
    simp only [oscSequence, List.cons_append, List.append_assoc, List.nil_append]
  have empty : command.buffer term.statics = [] :=
    idle' command fun own => command.handler_ne_echo (echoes.symm.trans own)
  unfold Delivers
  rw [bytes, exec_append, exec_begins platform echoes number]
  by_cases selected : oscHandler (readOperation term.statics.operation command.number)
      = some command.handler
  · rw [selected, and_iff_right rfl]
    have unread : command.buffer { term.statics with
        codepoint := 0x1B, bytesRemaining := 0, operation := 0 } = [] := by
      cases command <;> exact empty
    have there : command.Installed { term with
        charHandler := (some command.handler).getD .osc
        statics := { term.statics with codepoint := 0x1B, bytesRemaining := 0, operation := 0 } } := by
      cases command <;> exact installed'
    exact exec_delivers_iff platform rfl there unread printable noFlags fits ends
  · refine iff_of_false (fun delivered => ?_) fun both => selected both.1
    refine exec_astray platform printable ends payload ?_ ?_ rfl (fun own => ?_) le_rfl
      delivered.2.2
    · intro other _
      have unread := idle' other fun own => other.handler_ne_echo (echoes.symm.trans own)
      cases other <;> exact unread
    · cases command <;> exact installed'
    · dsimp only at own
      cases found : oscHandler (readOperation term.statics.operation command.number) with
      | none =>
          rw [found] at own
          cases command <;> cases own
      | some handler =>
          rw [found] at own
          exact absurd (found.trans (congrArg some own)) selected

/-- The title `hé` of command 2, terminated by `BEL`. -/
theorem oscString_delivers_title :
    Delivers samplePlatform (exec (writeByte samplePlatform)
        (create sampleMetrics (sampleOptions 1 3)) []) .windowTitle [0x68, 0xC3, 0xA9] [0x07] :=
  (oscString_delivers_iff samplePlatform (create sampleMetrics (sampleOptions 1 3)) [] rfl rfl
    .windowTitle trivial [0x68, 0xC3, 0xA9] (by simp) (by simp [StringCommand.Separates])
    (by decide) (Or.inl rfl)).mpr ⟨rfl, by simp [isStringTerminator], Or.inl rfl⟩

/-- The title `x` of command 2, terminated by `ESC \`, is handed over with the escape character. -/
theorem oscString_keeps_escape :
    ¬ Delivers samplePlatform (create sampleMetrics (sampleOptions 1 3)) .windowTitle [0x78]
      [0x1B, 0x5C] := by
  rintro ⟨_, _, calls⟩
  exact absurd calls (by decide +kernel)

end GuacNebula.Terminal
