import GuacNebula.Terminal.InputRuns

/-! # Typed text

Keys that stand for characters send the UTF-8 encoding of these, as far as the characters are within
the basic multilingual plane. If the program echoes what it reads, the text that has been typed is
the text that is displayed.
-/

namespace GuacNebula.Terminal

open Common Run

variable {User Stream Pipe : Type}

/-! ## Keys -/

/-- The keysym of a character. -/
def keysymOf (code : Nat) : Int := if code ≤ 0xFF then code else 0x01000000 + code

/-- A key is pressed and released. -/
def tap (keysym : Int) : List (InputAction User Stream) := [.key keysym true, .key keysym false]

/-- A text is typed. -/
def typing (codes : List Nat) : List (InputAction User Stream) :=
  codes.flatMap fun code => tap (keysymOf code)

/-- The part of a text that can be typed. -/
def typable (codes : List Nat) : List Nat := codes.filter (· ≤ 0xFFFF)

/-- Keys are accepted, and no modifiers are held that give them another meaning but maybe Ctrl. -/
structure InputTerm.Ready (state : InputTerm User Stream Pipe) (ctrl : Bool) : Prop where
  started : state.started = true
  modCtrl : state.modCtrl = ctrl
  modAlt : state.modAlt = false
  modMeta : state.modMeta = false
  free : state.term.inputStream = false

/-- Keys have sent bytes to the program. The terminal is the same but for its console, which may
have been scrolled. -/
structure InputTerm.Typed (sink : Sink Pipe) (ctrl : Bool) (bytes : List UInt8)
    (before after : InputTerm User Stream Pipe) : Prop where
  ready : after.Ready ctrl
  stdin : sink.taken after.stdin = sink.taken before.stdin ++ bytes
  term : after.term = { before.term with toConsole := after.term.toConsole }

/-- A key that is neither a modifier nor a shortcut. Paging is one while Shift is held. -/
structure PlainKey (ctrl : Bool) (keysym : Int) : Prop where
  modifier : ¬ (0xFFE1 ≤ keysym ∧ keysym ≤ 0xFFEA)
  shortcut : ctrl = true → keysym ≠ 0x56 ∧ keysym ≠ 0x43
  paging : keysym ≠ 0xFF55 ∧ keysym ≠ 0xFF56

namespace InputTerm

variable {sink : Sink Pipe} {ctrl : Bool} {bytes more : List UInt8}
  {first second third : InputTerm User Stream Pipe}

theorem Typed.refl (ready : first.Ready ctrl) : Typed sink ctrl [] first first :=
  ⟨ready, (List.append_nil _).symm, rfl⟩

theorem Typed.trans (left : Typed sink ctrl bytes first second)
    (right : Typed sink ctrl more second third) : Typed sink ctrl (bytes ++ more) first third where
  ready := right.ready
  stdin := by rw [right.stdin, left.stdin, List.append_assoc]
  term := by rw [right.term, left.term]

theorem sendData_typed (unlimited : sink.Unlimited) (ready : first.Ready ctrl)
    (data : List UInt8) : Typed sink ctrl data first (first.sendData sink data).2 := by
  have sent : (first.sendData sink data).2 = (first.writeAll sink data).2 :=
    congrArg Prod.snd (if_neg (by rw [ready.free]; exact Bool.false_ne_true))
  rw [sent]
  exact ⟨⟨ready.started, ready.modCtrl, ready.modAlt, ready.modMeta, ready.free⟩,
    unlimited.writeAll_taken first.stdin data, rfl⟩

theorem setCursor_typed (ready : first.Ready ctrl) (type : CursorType) :
    Typed sink ctrl [] first (first.setCursor type) := by
  unfold setCursor
  split
  · exact .refl ready
  · exact ⟨⟨ready.started, ready.modCtrl, ready.modAlt, ready.modMeta, ready.free⟩,
      (List.append_nil _).symm, rfl⟩

theorem pressKey_typed {keysym : Int} (plain : PlainKey ctrl keysym)
    (sends : ∀ state : InputTerm User Stream Pipe, state.Ready ctrl →
      Typed sink ctrl bytes state (state.typeKey sink keysym).2) (ready : first.Ready ctrl) :
    Typed sink ctrl bytes first (first.pressKey sink keysym).2 := by
  have noPaste : ¬ ((keysym = 0x56 ∧ first.modCtrl) ∨ (keysym = 0x76 ∧ first.modMeta)) := by
    rw [ready.modCtrl, ready.modMeta]
    rintro (⟨upper, held⟩ | ⟨-, held⟩)
    · exact (plain.shortcut held).1 upper
    · exact Bool.false_ne_true held
  have noCopy : ¬ ((keysym = 0x43 ∧ first.modCtrl) ∨ (keysym = 0x63 ∧ first.modMeta)) := by
    rw [ready.modCtrl, ready.modMeta]
    rintro (⟨upper, held⟩ | ⟨-, held⟩)
    · exact (plain.shortcut held).2 upper
    · exact Bool.false_ne_true held
  have noAlt {state : InputTerm User Stream Pipe} (ready : state.Ready ctrl) :
      ¬ state.modAlt = true := by
    rw [ready.modAlt]
    exact Bool.false_ne_true
  unfold pressKey
  rw [if_neg noPaste, if_neg noCopy, if_neg fun both => plain.paging.1 both.2,
    if_neg fun both => plain.paging.2 both.2]
  dsimp only
  by_cases bottom : first.term.grid.scrollOffset ≠ 0
  · have revealed : Typed sink ctrl [] first
        (first.scrolled (scrolledDown · first.term.grid.scrollOffset)) :=
      ⟨⟨ready.started, ready.modCtrl, ready.modAlt, ready.modMeta, ready.free⟩,
        (List.append_nil _).symm, rfl⟩
    rw [if_pos bottom, if_neg (noAlt revealed.ready)]
    exact revealed.trans (sends _ revealed.ready)
  · rw [if_neg bottom, if_neg (noAlt ready)]
    exact sends first ready

/-- A key that is pressed and released sends what it stands for. -/
theorem tap_typed [DecidableEq Stream] {platform : InputPlatform Pipe} {keysym : Int}
    (plain : PlainKey ctrl keysym)
    (sends : ∀ state : InputTerm User Stream Pipe, state.Ready ctrl →
      Typed platform.sink ctrl bytes state (state.typeKey platform.sink keysym).2)
    (ready : first.Ready ctrl) :
    ∃ after, inputRun platform first (tap keysym) = some after ∧
      Typed platform.sink ctrl bytes first after := by
  have modifier := plain.modifier
  have pressed {state : InputTerm User Stream Pipe} (ready : state.Ready ctrl) (down : Bool) :
      state.sendKey platform.sink keysym down =
        if down then (state.setCursor .blank).pressKey platform.sink keysym
        else (0, state.setCursor .blank) := by
    unfold sendKey
    rw [if_neg (by rw [ready.started]; decide), if_neg (by omega), if_neg (by omega),
      if_neg (by omega), if_neg (by omega)]
  have hidden : Typed platform.sink ctrl [] first (first.setCursor .blank) :=
    setCursor_typed ready .blank
  have down : Typed platform.sink ctrl bytes first
      (first.sendKey platform.sink keysym true).2 := by
    rw [pressed ready, if_pos rfl]
    exact hidden.trans (pressKey_typed plain sends hidden.ready)
  refine ⟨_, rfl, ?_⟩
  have up : Typed platform.sink ctrl [] (first.sendKey platform.sink keysym true).2
      ((first.sendKey platform.sink keysym true).2.sendKey platform.sink keysym false).2 := by
    rw [pressed down.ready, if_neg Bool.false_ne_true]
    exact setCursor_typed down.ready .blank
  exact List.append_nil bytes ▸ down.trans up

/-- Keys that are tapped one after the other send what they stand for. -/
theorem taps_typed [DecidableEq Stream] {platform : InputPlatform Pipe} {Key : Type}
    (keysym : Key → Int) (sent : Key → List UInt8) (keys : List Key)
    (plain : ∀ key ∈ keys, PlainKey ctrl (keysym key))
    (sends : ∀ key ∈ keys, ∀ state : InputTerm User Stream Pipe, state.Ready ctrl →
      Typed platform.sink ctrl (sent key) state (state.typeKey platform.sink (keysym key)).2)
    (ready : first.Ready ctrl) :
    ∃ after, inputRun platform first (keys.flatMap fun key => tap (keysym key)) = some after ∧
      Typed platform.sink ctrl (keys.flatMap sent) first after := by
  induction keys generalizing first with
  | nil => exact ⟨first, rfl, .refl ready⟩
  | cons key keys ih =>
      obtain ⟨tapped, ran, typed⟩ := tap_typed (plain key (List.mem_cons_self ..))
        (sends key (List.mem_cons_self ..)) ready
      obtain ⟨after, runs, rest⟩ := ih (fun other member => plain other (List.mem_cons_of_mem _ member))
        (fun other member => sends other (List.mem_cons_of_mem _ member)) typed.ready
      refine ⟨after, ?_, typed.trans rest⟩
      unfold inputRun at ran ⊢
      rw [List.flatMap_cons, List.foldlM_append, ran]
      exact runs

end InputTerm

/-! ## Characters -/

theorem keysymOf_plain {code : Nat} : PlainKey false (keysymOf code) := by
  unfold keysymOf
  refine ⟨?_, nofun, ?_⟩
  · split_ifs <;> omega
  · split_ifs <;> omega

/-- No keysym of a key that is not printable is that large. -/
theorem keyString_of_large (applicationCursorKeys : Bool) {keysym : Int} (large : 0xFFFF < keysym) :
    keyString applicationCursorKeys keysym = none := by
  have known : ∀ application, ∀ entry ∈ keyStrings application, ∀ key ∈ entry.1, key ≤ 0xFFFF := by
    decide
  refine Option.map_eq_none_iff.mpr (List.find?_eq_none.mpr fun entry member found => ?_)
  have small := known applicationCursorKeys entry member keysym (List.contains_iff_mem.mp found)
  omega

/-- The key of a character sends its encoding if it is within the basic multilingual plane. -/
theorem typeKey_character {sink : Sink Pipe} (unlimited : sink.Unlimited)
    {state : InputTerm User Stream Pipe} (ready : state.Ready false) {code : Nat}
    (small : code < 0x110000) :
    InputTerm.Typed sink false ((typable [code]).flatMap Utf8.encode) state
      (state.typeKey sink (keysymOf code)).2 := by
  have noCtrl : ¬ state.modCtrl = true := by
    rw [ready.modCtrl]
    exact Bool.false_ne_true
  unfold InputTerm.typeKey
  rw [if_neg noCtrl]
  unfold typable
  by_cases plane : code ≤ 0xFFFF
  · have unicode : IsUnicodeKey (keysymOf code) ∧ keysymOf code % 0x10000 = code := by
      unfold keysymOf IsUnicodeKey
      split_ifs <;> omega
    have sent : (([code] : List Nat).filter (· ≤ 0xFFFF)).flatMap Utf8.encode = Utf8.encode code := by
      rw [List.filter_cons_of_pos (by simpa using plane)]
      exact List.append_nil _
    rw [if_pos unicode.1, unicode.2, terminalEncodeUtf8_eq (by omega), sent]
    exact InputTerm.sendData_typed unlimited ready _
  · have large : 0x01010000 ≤ keysymOf code := by
      unfold keysymOf
      split_ifs <;> omega
    have noUnicode : ¬ IsUnicodeKey (keysymOf code) := by
      unfold IsUnicodeKey
      omega
    rw [if_neg noUnicode, if_neg (by omega), if_neg (by omega), keyString_of_large _ (by omega),
      List.filter_cons_of_neg (by simpa using plane)]
    exact .refl ready

theorem flatMap_typable (codes : List Nat) :
    (codes.flatMap fun code => (typable [code]).flatMap Utf8.encode) =
      (typable codes).flatMap Utf8.encode := by
  induction codes with
  | nil => rfl
  | cons code codes ih =>
      have split : typable (code :: codes) = typable [code] ++ typable codes :=
        List.filter_append [code] codes
      rw [List.flatMap_cons, ih, split, List.flatMap_append]

section Typing

variable [DecidableEq Stream] {platform : InputPlatform Pipe}
  {state : InputTerm User Stream Pipe}

/-- Typed text reaches the program in UTF-8, without the characters beyond the basic multilingual
plane. -/
theorem typing_typed (unlimited : platform.sink.Unlimited) (ready : state.Ready false)
    {codes : List Nat} (unicode : ∀ code ∈ codes, code < 0x110000) :
    ∃ typed, inputRun platform state (typing codes) = some typed ∧
      InputTerm.Typed platform.sink false ((typable codes).flatMap Utf8.encode) state typed := by
  rw [← flatMap_typable]
  exact InputTerm.taps_typed keysymOf _ codes (fun _ _ => keysymOf_plain)
    (fun code member _ ready => typeKey_character unlimited ready (unicode code member)) ready

end Typing

/-! ## Control codes -/

theorem ctrlCode_control {keysym : Int} {code : UInt8} (sent : ctrlCode keysym = some code) :
    code < 0x20 ∨ code = 0x7F := by
  have small {value : Nat} (below : value < 0x20) : UInt8.ofNat value < 0x20 := by
    rw [UInt8.lt_iff_toNat_lt, UInt8.toNat_ofNat', Nat.mod_eq_of_lt (by omega)]
    exact below
  unfold ctrlCode at sent
  split_ifs at sent
  all_goals obtain rfl := Option.some.inj sent
  · exact .inl (small (by omega))
  · exact .inl (small (by omega))
  · exact .inr rfl
  · exact .inl (by decide)
  · exact .inl (small (by omega))

/-- A key whose control code is the given one. -/
def ctrlKey (code : UInt8) : Int :=
  if code = 0x7F then 0x3F
  else if code = 0x00 then 0x40
  else if code ≤ 0x1A then code.toNat + 0x60
  else code.toNat + 0x18

theorem ctrlKey_code {code : UInt8} (control : code < 0x20 ∨ code = 0x7F) :
    ctrlCode (ctrlKey code) = some code := by
  have every : ∀ value < 0x20, ctrlCode (ctrlKey (UInt8.ofNat value)) = some (UInt8.ofNat value) := by
    decide
  rcases control with below | rfl
  · have found := every code.toNat below
    rwa [UInt8.ofNat_toNat] at found
  · rfl

theorem ctrlKey_plain {code : UInt8} (control : code < 0x20 ∨ code = 0x7F) :
    PlainKey true (ctrlKey code) := by
  have every : ∀ value < 0x20, ¬ (0xFFE1 ≤ ctrlKey (UInt8.ofNat value)) ∧
      ctrlKey (UInt8.ofNat value) ≠ 0x56 ∧ ctrlKey (UInt8.ofNat value) ≠ 0x43 ∧
      ctrlKey (UInt8.ofNat value) ≠ 0xFF55 ∧ ctrlKey (UInt8.ofNat value) ≠ 0xFF56 := by
    decide
  rcases control with below | rfl
  · obtain ⟨modifier, paste, copy, pageUp, pageDown⟩ := every code.toNat below
    rw [UInt8.ofNat_toNat] at modifier paste copy pageUp pageDown
    exact ⟨fun both => modifier both.1, fun _ => ⟨paste, copy⟩, pageUp, pageDown⟩
  · exact ⟨by decide, by decide, by decide⟩

/-- While Ctrl is held, a key sends its control code, if it has one. -/
theorem typeKey_control {sink : Sink Pipe} (unlimited : sink.Unlimited)
    {state : InputTerm User Stream Pipe} (ready : state.Ready true) (keysym : Int) :
    InputTerm.Typed sink true (ctrlCode keysym).toList state (state.typeKey sink keysym).2 := by
  unfold InputTerm.typeKey
  rw [if_pos ready.modCtrl]
  cases ctrlCode keysym with
  | none => exact .refl ready
  | some code => exact InputTerm.sendData_typed unlimited ready [code]

/-! ## Echo -/

/-- A program writes. -/
def writing (bytes : List UInt8) : List (InputAction User Stream) :=
  bytes.map fun c => .terminal (.write c)

/-- A terminal that reads text has read text before. -/
def Term.Continues (before after : Term) : Prop :=
  after.charHandler = .echo → before.charHandler = .echo

theorem Term.Continues.ite {first second third : Term} {condition : Prop} [Decidable condition]
    (left : first.Continues second) (right : first.Continues third) :
    first.Continues (if condition then second else third) := by
  split
  · exact left
  · exact right

section Echo

variable {platform : Platform} {term : Term} {c : UInt8}

theorem echoCodepoint_continues (codepoint : Int) :
    term.Continues (echoCodepoint platform term codepoint) := by
  unfold echoCodepoint
  apply Term.Continues.ite
  · unfold sendString
    exact .ite id id
  · iterate 7
      apply Term.Continues.ite
      · exact id
    iterate 2
      apply Term.Continues.ite
      · exact nofun
    exact .ite id (.ite id id)

theorem echoByte_continues : term.Continues (echoByte platform term c) := by
  unfold echoByte
  dsimp only
  apply Term.Continues.ite
  · exact id
  · intro echoes
    have before := echoCodepoint_continues _ echoes
    exact before

/-- Text does not lead back from an escape sequence. -/
theorem echo_continues : term.Continues (echo platform term c) := by
  have piped : term.Continues (pipeStreamWrite term c) := by
    unfold pipeStreamWrite pipeStreamFlush
    dsimp only
    apply Term.Continues.ite _ id
    intro echoes
    split_ifs at echoes <;> exact echoes
  have written : term.Continues
      (if term.pipeStream.opened = true ∧ c ≠ 0x1B then pipeStreamWrite term c else term) :=
    .ite piped id
  unfold echo
  dsimp only
  exact .ite written fun echoes => written (echoByte_continues echoes)

theorem exec_echo_charHandler {bytes : List UInt8}
    (echoes : (exec (echo platform) term bytes).charHandler = .echo) : term.charHandler = .echo := by
  induction bytes generalizing term with
  | nil => exact echoes
  | cons c bytes ih => exact echo_continues (ih echoes)

/-- Text that does not begin an escape sequence is echoed. -/
theorem exec_writeByte {bytes : List UInt8}
    (echoes : (exec (echo platform) term bytes).charHandler = .echo) :
    exec (writeByte platform) term bytes = exec (echo platform) term bytes := by
  induction bytes generalizing term with
  | nil => rfl
  | cons c bytes ih =>
      have here : writeByte platform term c = echo platform term c := by
        unfold writeByte
        rw [exec_echo_charHandler echoes]
      rw [exec_cons, exec_cons, here]
      exact ih echoes

theorem exec_echo_encode (plain : term.Plain) {codes : List Nat}
    (displayable : ∀ code ∈ codes, Displayable code) :
    exec (echo platform) term (codes.flatMap Utf8.encode) =
      codes.foldl (Term.shown platform) term := by
  induction codes generalizing term with
  | nil => rfl
  | cons code codes ih =>
      obtain ⟨first, later⟩ := List.forall_mem_cons.mp displayable
      obtain ⟨ran, -⟩ := plain.echo_encode platform first []
      rw [List.flatMap_cons, exec_append, ran]
      exact ih (plain.shown code) later

theorem foldl_shown (codes : List Nat) :
    (codes.foldl (Term.shown platform) term).charHandler = term.charHandler ∧
      (codes.foldl (Term.shown platform) term).toConsole =
        codes.foldl (fun console code => printCodepoint platform console code) term.toConsole := by
  induction codes generalizing term with
  | nil => exact ⟨rfl, rfl⟩
  | cons code codes ih => exact ih

theorem foldl_shown_output (codes : List Nat) :
    (codes.foldl (Term.shown platform) term).output = term.output := by
  induction codes generalizing term with
  | nil => rfl
  | cons code codes ih => exact ih

end Echo

section Runs

variable [DecidableEq Stream] {platform : InputPlatform Pipe}
  {state : InputTerm User Stream Pipe}

/-- Output of a program that has no answer only changes the terminal. -/
theorem inputRun_writing {bytes : List UInt8}
    (silent : (exec (writeByte platform.toPlatform) state.term bytes).output = state.term.output) :
    ∃ after, inputRun platform state (writing bytes) = some after ∧
      after.term = exec (writeByte platform.toPlatform) state.term bytes ∧
      after.stdin = state.stdin := by
  induction bytes generalizing state with
  | nil => exact ⟨state, rfl, rfl, rfl⟩
  | cons c bytes ih =>
      obtain ⟨sent, output, -⟩ := (writeByte_answers platform.toPlatform state.term c).output
      obtain ⟨more, later, -⟩ := (foldl_writeByte_answers platform.toPlatform
        (writeByte platform.toPlatform state.term c) bytes).output
      have unsent : more ++ sent = [] := by
        have whole : more ++ (sent ++ state.term.output) = state.term.output := by
          rw [← output]
          exact later.symm.trans silent
        rw [← List.append_assoc] at whole
        exact List.append_left_eq_self.mp whole
      obtain ⟨rfl, rfl⟩ := List.append_eq_nil_iff.mp unsent
      obtain ⟨after, ran, shown, stdin⟩ :=
        @ih (state.terminal platform.sink platform.toPlatform platform.metrics (.write c))
          (later.trans rfl)
      refine ⟨after, ran, shown, stdin.trans ?_⟩
      unfold InputTerm.terminal scrollStep
      dsimp only
      rw [output, List.nil_append, Nat.sub_self]
      rfl

/-- Text that is typed reaches the program in UTF-8, except for the characters beyond the basic
multilingual plane, which are dropped. If the program echoes what it has read, the characters are
printed one after the other where the cursor was, and nothing else happens to the console or is
sent to the program. -/
theorem typed_text_returns (unlimited : platform.sink.Unlimited) (ready : state.Ready false)
    (plain : state.term.Plain) (echoes : state.term.charHandler = .echo) (codes : List Nat)
    (displayable : ∀ code ∈ codes, Displayable code) :
    ∃ typed shown,
      inputRun platform state (typing codes) = some typed ∧
      platform.sink.taken typed.stdin =
        platform.sink.taken state.stdin ++ (typable codes).flatMap Utf8.encode ∧
      inputRun platform typed (writing ((typable codes).flatMap Utf8.encode)) = some shown ∧
      shown.term.toConsole = (typable codes).foldl
        (fun console code => printCodepoint platform.toPlatform console code)
        typed.term.toConsole ∧
      shown.stdin = typed.stdin := by
  have unicode : ∀ code ∈ codes, code < 0x110000 := by
    intro code member
    have upper := (displayable code member).2.1
    omega
  have printable : ∀ code ∈ typable codes, Displayable code :=
    fun code member => displayable code (List.mem_of_mem_filter member)
  obtain ⟨typed, ran, sent⟩ := typing_typed unlimited ready unicode
  have handler : typed.term.charHandler = .echo := by
    rw [sent.term]
    exact echoes
  have still : typed.term.Plain := by
    rw [sent.term]
    exact ⟨plain.unmapped, plain.closed⟩
  have text : exec (echo platform.toPlatform) typed.term ((typable codes).flatMap Utf8.encode) =
      (typable codes).foldl (Term.shown platform.toPlatform) typed.term :=
    exec_echo_encode still printable
  obtain ⟨kept, console⟩ := @foldl_shown platform.toPlatform typed.term (typable codes)
  have echoed : exec (writeByte platform.toPlatform) typed.term
      ((typable codes).flatMap Utf8.encode) =
      exec (echo platform.toPlatform) typed.term ((typable codes).flatMap Utf8.encode) :=
    exec_writeByte (by rw [text, kept, handler])
  have silent : (exec (writeByte platform.toPlatform) typed.term
      ((typable codes).flatMap Utf8.encode)).output = typed.term.output := by
    rw [echoed, text, foldl_shown_output]
  obtain ⟨shown, wrote, term, stdin⟩ := inputRun_writing silent
  refine ⟨typed, shown, ran, sent.stdin, wrote, ?_, stdin⟩
  rw [term, echoed, text, console]

/-- While Ctrl is held, keys other than the shortcuts send exactly their control codes, and every
control code can be sent. -/
theorem ctrl_keys_send_controls (unlimited : platform.sink.Unlimited) (ready : state.Ready true) :
    (∀ keys : List Int, (∀ key ∈ keys, PlainKey true key) →
      ∃ typed, inputRun platform state (keys.flatMap tap) = some typed ∧
        platform.sink.taken typed.stdin =
          platform.sink.taken state.stdin ++ keys.filterMap ctrlCode ∧
        ∀ code ∈ keys.filterMap ctrlCode, code < 0x20 ∨ code = 0x7F) ∧
      ∀ codes : List UInt8, (∀ code ∈ codes, code < 0x20 ∨ code = 0x7F) →
        ∃ typed, inputRun platform state ((codes.map ctrlKey).flatMap tap) = some typed ∧
          platform.sink.taken typed.stdin = platform.sink.taken state.stdin ++ codes := by
  have sends (keys : List Int) (plain : ∀ key ∈ keys, PlainKey true key) :
      ∃ typed, inputRun platform state (keys.flatMap tap) = some typed ∧
        platform.sink.taken typed.stdin =
          platform.sink.taken state.stdin ++ keys.filterMap ctrlCode := by
    obtain ⟨typed, ran, sent⟩ := InputTerm.taps_typed id (fun key => (ctrlCode key).toList) keys
      plain (fun key _ _ ready => typeKey_control unlimited ready key) ready
    refine ⟨typed, ran, ?_⟩
    rw [List.filterMap_eq_flatMap_toList]
    exact sent.stdin
  refine ⟨fun keys plain => ?_, fun codes controls => ?_⟩
  · obtain ⟨typed, ran, sent⟩ := sends keys plain
    refine ⟨typed, ran, sent, fun code member => ?_⟩
    obtain ⟨key, -, found⟩ := List.mem_filterMap.mp member
    exact ctrlCode_control found
  · have plain : ∀ key ∈ codes.map ctrlKey, PlainKey true key :=
      List.forall_mem_map.mpr fun code member => ctrlKey_plain (controls code member)
    obtain ⟨typed, ran, sent⟩ := sends (codes.map ctrlKey) plain
    refine ⟨typed, ran, ?_⟩
    have same : (codes.map ctrlKey).filterMap ctrlCode = codes := by
      rw [List.filterMap_map]
      exact (List.filterMap_congr fun code member => ctrlKey_code (controls code member)).trans
        List.filterMap_some
    rw [sent, same]

end Runs

/-- A terminal whose program takes all input. -/
def openInput : InputPlatform (List UInt8) := { sampleInput with sink := .appending }

/-- A terminal that has been started. -/
def startedInputTerm : InputTerm Nat Nat (List UInt8) := { sampleInputTerm with started := true }

/-- Two characters return, the second one of two bytes, and one beyond the plane is dropped. -/
theorem typed_text_returns_plane :
    ∃ typed shown : InputTerm Nat Nat (List UInt8),
      inputRun openInput startedInputTerm (typing [0x48, 0xE9, 0x1F600]) = some typed ∧
      typed.stdin = [] ++ (typable [0x48, 0xE9, 0x1F600]).flatMap Utf8.encode ∧
      inputRun openInput typed
        (writing ((typable [0x48, 0xE9, 0x1F600]).flatMap Utf8.encode)) = some shown ∧
      shown.term.toConsole = (typable [0x48, 0xE9, 0x1F600]).foldl
        (fun console code => printCodepoint openInput.toPlatform console code)
        typed.term.toConsole ∧
      shown.stdin = typed.stdin :=
  @typed_text_returns _ _ _ _ openInput startedInputTerm Sink.appending_unlimited
    ⟨rfl, rfl, rfl, rfl, rfl⟩ ⟨rfl, rfl⟩ rfl [0x48, 0xE9, 0x1F600] (by simp [Displayable])

/-- End of file is sent, whichever key it is. -/
theorem ctrl_keys_send_end :
    ∃ typed : InputTerm Nat Nat (List UInt8),
      inputRun openInput { startedInputTerm with modCtrl := true }
        (([0x04] : List UInt8).map ctrlKey |>.flatMap tap) = some typed ∧
      typed.stdin = [] ++ [0x04] :=
  (@ctrl_keys_send_controls _ _ _ _ openInput { startedInputTerm with modCtrl := true }
    Sink.appending_unlimited ⟨rfl, rfl, rfl, rfl, rfl⟩).2 [0x04] <|
    List.forall_mem_singleton.mpr (.inl (by decide))

end GuacNebula.Terminal
