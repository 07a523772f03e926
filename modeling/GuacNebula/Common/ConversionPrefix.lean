import GuacNebula.Common.CharsetConversion
import GuacNebula.Terminal.SelectionCopy

/-! # Converted text

A writer that finds too little room for a character writes nothing, or only a part of it, and the
loop goes on with the next character. The output is the encoding of a front part of the text
exactly if nothing is written any more behind the first character that does not fit, the input does
not end within a character, and the reader does not take what is behind the input for a line feed.
-/

namespace GuacNebula.Common

/-- The front part of a text that fits into the room, at most up to a null character. -/
def fitting (encode : Int → List UInt8) : Nat → List Int → List Int
  | _, [] => []
  | room, char :: text =>
    if (encode char).length ≤ room then
      char :: if char = 0 then [] else fitting encode (room - (encode char).length) text
    else []

/-- The room that is left by the front part of a text that fits. -/
def spareRoom (encode : Int → List UInt8) (room : Nat) (text : List Int) : Nat :=
  room - ((fitting encode room text).flatMap encode).length

/-- Behind the front part of the text that fits, there is no room left, or the text has been
terminated, or the rest is not terminated and nothing of it is written. -/
def StopsThere (writer : IconvWrite) (encode : Int → List UInt8) (room : Nat) (text : List Int)
    (left : List UInt8) : Prop :=
  spareRoom encode room text = 0 ∨ 0 ∈ fitting encode room text ∨
    left = [] ∧ 0 ∉ text ∧ ∀ char ∈ text.drop (fitting encode room text).length,
      writer (spareRoom encode room text) char = []

/-- The text ends with a carriage return, and the room for it is at least so many bytes. -/
def ReturnsLast (encode : Int → List UInt8) (needed room : Nat) (text : List Int) : Prop :=
  text.getLast? = some 13 ∧ 0 ∉ text ∧ needed ≤ spareRoom encode room text.dropLast

/-- The room for a carriage return with which it makes a difference what is behind the input. -/
def roomForPeek (encode : Int → List UInt8) : Charset → Nat
  | .utf8 => (encode 10).length
  | _ => 1

/-- The output is the encoding of a front part of the text, and a null character that is part of it
is returned. -/
def Conversion.IsFront (unicode : Unicode) (target : Charset) (crlf : Bool) (text : List Int)
    (result : Conversion) : Prop :=
  ∃ count, result.output = target.encode unicode crlf (text.take count)
    ∧ (result.terminated = true ↔ 0 ∈ text.take count)

/-- Whatever the surroundings, the conversion ends within the limits of its input and its output,
with a front part of the text. -/
def ConvertsFront (unicode : Unicode) (source : Charset) (normalize : Bool) (target : Charset)
    (crlf : Bool) (input : List UInt8) (room : Nat) : Prop :=
  ∀ surroundings, ∃ turns result,
    convert (source.reader unicode normalize) (target.writer unicode crlf) surroundings turns
        input room = some result
      ∧ result.consumed ≤ input.length ∧ result.output.length ≤ room
      ∧ result.IsFront unicode target crlf (source.text unicode normalize input)

/-! ## Text that fits -/

section Fitting

variable {writer : IconvWrite} {encode : Int → List UInt8} {room needed : Nat} {char : Int}
  {text : List Int} {left : List UInt8}

theorem fitting_fits (enough : (encode char).length ≤ room) (other : char ≠ 0) :
    fitting encode room (char :: text) =
      char :: fitting encode (room - (encode char).length) text := by
  rw [fitting, if_pos enough, if_neg other]

theorem fitting_null (enough : (encode 0).length ≤ room) :
    fitting encode room (0 :: text) = [0] := by
  rw [fitting, if_pos enough, if_pos rfl]

theorem fitting_stops (short : ¬ (encode char).length ≤ room) :
    fitting encode room (char :: text) = [] := by
  rw [fitting, if_neg short]

theorem spareRoom_fits (enough : (encode char).length ≤ room) (other : char ≠ 0) :
    spareRoom encode room (char :: text) =
      spareRoom encode (room - (encode char).length) text := by
  unfold spareRoom
  rw [fitting_fits enough other, List.flatMap_cons, List.length_append, Nat.sub_sub]

theorem spareRoom_of_nil (stops : fitting encode room text = []) :
    spareRoom encode room text = room := by
  unfold spareRoom
  rw [stops]
  rfl

theorem stopsThere_fits (enough : (encode char).length ≤ room) (other : char ≠ 0) :
    StopsThere writer encode room (char :: text) left ↔
      StopsThere writer encode (room - (encode char).length) text left := by
  have before : (0 ∈ char :: fitting encode (room - (encode char).length) text) ↔
      0 ∈ fitting encode (room - (encode char).length) text := by
    rw [List.mem_cons, or_iff_right other.symm]
  have whole : (0 ∉ char :: text) ↔ 0 ∉ text := by rw [List.mem_cons, or_iff_right other.symm]
  unfold StopsThere
  rw [spareRoom_fits enough other, fitting_fits enough other, before, whole, List.length_cons,
    List.drop_succ_cons]

theorem stopsThere_of_nil (stops : fitting encode room text = []) :
    StopsThere writer encode room text left ↔
      room = 0 ∨ left = [] ∧ 0 ∉ text ∧ ∀ char ∈ text, writer room char = [] := by
  unfold StopsThere
  rw [spareRoom_of_nil stops, stops, or_iff_right (List.not_mem_nil (a := (0 : Int)))]
  rfl

/-- Nothing fits of a text of which nothing is written. -/
theorem fitting_silent (law : WriterLaw writer encode)
    (silent : ∀ char ∈ text, writer room char = []) : fitting encode room text = [] := by
  cases text with
  | nil => rfl
  | cons char text =>
      refine fitting_stops fun enough => law.nonempty char ?_
      rw [← law.fits room char enough]
      exact silent char List.mem_cons_self

theorem returnsLast_fits (enough : (encode char).length ≤ room) (other : char ≠ 0)
    (more : text ≠ []) : ReturnsLast encode needed room (char :: text) ↔
      ReturnsLast encode needed (room - (encode char).length) text := by
  have whole : (0 ∉ char :: text) ↔ 0 ∉ text := by rw [List.mem_cons, or_iff_right other.symm]
  unfold ReturnsLast
  rw [List.getLast?_cons_of_ne_nil more, List.dropLast_cons_of_ne_nil more,
    spareRoom_fits enough other, whole]

theorem ReturnsLast.ne_nil (last : ReturnsLast encode needed room text) : text ≠ [] := by
  rintro rfl
  cases last.1

theorem returnsLast_single (single : text = []) (returns : char = 13) :
    ReturnsLast encode needed room (char :: text) ↔ needed ≤ room := by
  subst single returns
  exact ⟨fun last => last.2.2, fun enough => ⟨rfl, by decide, enough⟩⟩

/-- Where nothing is written, the room stays as it is up to the last character. -/
theorem returnsLast_silent (law : WriterLaw writer encode)
    (silent : ∀ char ∈ text, writer room char = []) :
    ReturnsLast encode needed room text ↔ text.getLast? = some 13 ∧ 0 ∉ text ∧ needed ≤ room := by
  have none : fitting encode room text.dropLast = [] :=
    fitting_silent law fun char member => silent char (List.dropLast_subset _ member)
  unfold ReturnsLast
  rw [spareRoom_of_nil none]

/-- Where a conversion stops in front of a character, it stops behind it just as well. -/
theorem stopsThere_skips (law : WriterLaw writer encode) (positive : 0 < room)
    (short : ¬ (encode char).length ≤ room)
    (stops : StopsThere writer encode room (char :: text) left) :
    writer room char = [] ∧ StopsThere writer encode room text left := by
  obtain ⟨ends, unterminated, silent⟩ :=
    ((stopsThere_of_nil (fitting_stops short)).mp stops).resolve_left (Nat.ne_of_gt positive)
  obtain ⟨here, rest⟩ := List.forall_mem_cons.mp silent
  exact ⟨here, (stopsThere_of_nil (fitting_silent law rest)).mpr
    (.inr ⟨ends, fun member => unterminated (List.mem_cons_of_mem _ member), rest⟩)⟩

theorem returnsLast_skips (law : WriterLaw writer encode) (positive : 0 < room)
    (short : ¬ (encode char).length ≤ room)
    (stops : StopsThere writer encode room (char :: text) left) (more : text ≠ [])
    (returns : ReturnsLast encode needed room (char :: text)) :
    ReturnsLast encode needed room text := by
  obtain ⟨-, -, silent⟩ :=
    ((stopsThere_of_nil (fitting_stops short)).mp stops).resolve_left (Nat.ne_of_gt positive)
  obtain ⟨last, unterminated, enough⟩ := (returnsLast_silent law silent).mp returns
  refine (returnsLast_silent law (List.forall_mem_cons.mp silent).2).mpr
    ⟨?_, fun member => unterminated (List.mem_cons_of_mem _ member), enough⟩
  rw [← last, List.getLast?_cons_of_ne_nil more]

end Fitting

/-! ## Conversions that stop there -/

/-- What is written never exceeds the room. -/
theorem convert_output_le {reader : CharReader} {writer : IconvWrite}
    {encode : Int → List UInt8} (law : WriterLaw writer encode)
    {surroundings : Nat → Surroundings} {turns room : Nat} {input : List UInt8}
    {result : Conversion}
    (returns : convert reader writer surroundings turns input room = some result) :
    result.output.length ≤ room := by
  induction turns generalizing surroundings input room result with
  | zero => cases returns
  | succ turns ih =>
      by_cases done : input = [] ∨ room = 0
      · rw [convert_done done] at returns
        cases returns
        exact Nat.zero_le _
      obtain ⟨pending, some⟩ := not_or.mp done
      have positive := Nat.pos_of_ne_zero some
      by_cases null : (reader (surroundings 0) input).value = 0
      · rw [convert_null pending positive null] at returns
        cases returns
        exact law.within room 0 positive
      · rw [convert_turn pending positive null] at returns
        obtain ⟨later, ran, rfl⟩ := Option.map_eq_some_iff.mp returns
        have written := law.within room (reader (surroundings 0) input).value positive
        have rest := ih ran
        change (_ ++ later.output).length ≤ room
        rw [List.length_append]
        omega

namespace Charset

variable {unicode : Unicode} {source target : Charset} {normalize crlf : Bool}
  {input left : List UInt8} {text : List Int} {char : Int} {bytes room : Nat}

/-- Where there is no room for a line feed, as much is written as for a carriage return. -/
theorem writer_return (lawful : unicode.Lawful) (positive : 0 < room)
    (short : ¬ (target.encodeChar unicode crlf 10).length ≤ room) :
    target.writer unicode crlf room 10 = target.writer unicode crlf room 13 := by
  cases crlf with
  | true => rw [writer_newline lawful target positive, if_neg short]
  | false =>
      obtain ⟨rest, returns, feed⟩ := encodePlain_ending lawful target
      rw [encodeChar_other fun both => absurd both.1 Bool.false_ne_true, feed] at short
      rw [writer_plain lawful target 10 positive, writer_plain lawful target 13 positive, feed,
        returns, if_neg short]
      exact (if_neg short).symm

/-- A character is read, or at least nothing else is written for it. -/
theorem reader_writes (lawful : unicode.Lawful) (target : Charset) (crlf : Bool)
    (first : source.nextChar? unicode normalize input = some (char, bytes)) (positive : 0 < room)
    (safe : source.PeeksBehind normalize → char = 13 →
      source.nextChar? unicode normalize (input.drop bytes) = none →
        ¬ roomForPeek (target.encodeChar unicode crlf) source ≤ room)
    (surroundings : Surroundings) :
    (source.reader unicode normalize surroundings input).advance = bytes ∧
      ((source.reader unicode normalize surroundings input).value = 0 ↔ char = 0) ∧
      target.writer unicode crlf room (source.reader unicode normalize surroundings input).value =
        target.writer unicode crlf room char := by
  by_cases outside : source.PeeksBehind normalize ∧ char = 13 ∧
      source.nextChar? unicode normalize (input.drop bytes) = none
  · obtain ⟨peeks, rfl, last⟩ := outside
    have short := safe peeks rfl last
    obtain ⟨rfl, other⟩ := peeks
    obtain ⟨value, advance⟩ := reader_last first last surroundings
    cases source with
    | utf16 => exact absurd rfl other
    | cp1252 | iso8859_1 => exact absurd positive short
    | utf8 =>
        rw [value, advance]
        split_ifs
        · exact ⟨rfl, iff_of_false (by decide) (by decide), writer_return lawful positive short⟩
        · exact ⟨rfl, Iff.rfl, rfl⟩
  · obtain ⟨value, advance⟩ := reader_next first
      (fun peeks returns last => outside ⟨peeks, returns, last⟩) surroundings
    exact ⟨advance, by rw [value], by rw [value]⟩

/-- Text of which nothing is written is skipped up to the end of the input. -/
theorem convert_silent (lawful : unicode.Lawful)
    (reads : Reads unicode source normalize input text left) (ends : left = [])
    (unterminated : 0 ∉ text) (positive : 0 < room)
    (silent : ∀ char ∈ text, target.writer unicode crlf room char = [])
    (safe : source.PeeksBehind normalize → text.getLast? = some 13 →
      ¬ roomForPeek (target.encodeChar unicode crlf) source ≤ room)
    (surroundings : Nat → Surroundings) :
    convert (source.reader unicode normalize) (target.writer unicode crlf) surroundings
      (text.length + 1) input room = some ⟨false, input.length, []⟩ := by
  induction reads generalizing surroundings with
  | nil input =>
      rw [convert_done (.inl ends), ends]
      rfl
  | @cons input left char bytes text first more ih =>
      rw [List.mem_cons, not_or] at unterminated
      obtain ⟨here, later⟩ := List.forall_mem_cons.mp silent
      have bounds := nextChar?_bounds first
      have next := ih ends unterminated.2 later
        (fun peeks last => safe peeks (by rw [List.getLast?_cons, last]; rfl))
        fun turn => surroundings (turn + 1)
      obtain ⟨advance, null, writes⟩ := reader_writes lawful target crlf first
        positive (fun peeks returns last => safe peeks (by rw [more.eq_nil last, returns]; rfl))
        (surroundings 0)
      rw [List.length_cons, convert_turn (nextChar?_pending first) positive
        (mt null.mp (Ne.symm unterminated.1)), advance, writes, here, List.length_nil, Nat.sub_zero,
        next]
      change some (Conversion.mk false (bytes + (input.drop bytes).length) []) = _
      rw [List.length_drop, Nat.add_sub_cancel' bounds.2]

theorem isFront_nil (text : List Int) (consumed : Nat) :
    Conversion.IsFront unicode target crlf text ⟨false, consumed, []⟩ :=
  ⟨0, rfl, iff_of_false Bool.false_ne_true List.not_mem_nil⟩

theorem isFront_null (text : List Int) (consumed : Nat) :
    Conversion.IsFront unicode target crlf (0 :: text)
      ⟨true, consumed, target.encodeChar unicode crlf 0⟩ :=
  ⟨1, (List.append_nil _).symm, iff_of_true rfl List.mem_cons_self⟩

/-- A front part that begins with the first character goes on with one of the other characters. -/
theorem isFront_after (lawful : unicode.Lawful) (other : char ≠ 0) {result : Conversion} :
    Conversion.IsFront unicode target crlf (char :: text)
        (result.after bytes (target.encodeChar unicode crlf char)) ↔
      result.IsFront unicode target crlf text := by
  constructor
  · rintro ⟨count, output, terminated⟩
    cases count with
    | zero =>
        exact absurd (List.append_eq_nil_iff.mp output).1
          (encodeChar_nonempty lawful target crlf char)
    | succ count =>
        rw [List.take_succ_cons, List.mem_cons, or_iff_right (Ne.symm other)] at terminated
        exact ⟨count, List.append_cancel_left output, terminated⟩
  · rintro ⟨count, output, terminated⟩
    refine ⟨count + 1, ?_, ?_⟩
    · change _ ++ result.output = _
      rw [output]
      rfl
    · rw [List.take_succ_cons, List.mem_cons, or_iff_right (Ne.symm other)]
      exact terminated

/-- A conversion that stops behind what fits converts a front part of the text. -/
theorem convert_front (lawful : unicode.Lawful)
    (reads : Reads unicode source normalize input text left)
    (stops : StopsThere (target.writer unicode crlf) (target.encodeChar unicode crlf) room text left)
    (safe : source.PeeksBehind normalize →
      ¬ ReturnsLast (target.encodeChar unicode crlf)
        (roomForPeek (target.encodeChar unicode crlf) source) room text)
    (surroundings : Nat → Surroundings) :
    ∃ turns result,
      convert (source.reader unicode normalize) (target.writer unicode crlf) surroundings turns
          input room = some result
        ∧ result.consumed ≤ input.length ∧ result.IsFront unicode target crlf text := by
  have law := writer_law lawful target crlf
  induction reads generalizing room surroundings with
  | nil input =>
      refine ⟨1, ⟨false, 0, []⟩, convert_done ?_, Nat.zero_le _, isFront_nil _ _⟩
      obtain none | ⟨empty, -⟩ := (stopsThere_of_nil rfl).mp stops
      · exact .inr none
      · exact .inl empty
  | @cons input left char bytes text first more ih =>
      have bounds := nextChar?_bounds first
      have pending := nextChar?_pending first
      by_cases full : room = 0
      · exact ⟨1, ⟨false, 0, []⟩, convert_done (.inr full), Nat.zero_le _, isFront_nil _ _⟩
      have positive := Nat.pos_of_ne_zero full
      by_cases enough : (target.encodeChar unicode crlf char).length ≤ room
      case neg =>
        obtain ⟨ends, unterminated, silent⟩ :=
          ((stopsThere_of_nil (fitting_stops enough)).mp stops).resolve_left full
        have skipped := convert_silent lawful (.cons first more) ends unterminated positive silent
          (fun peeks last needed =>
            safe peeks ((returnsLast_silent law silent).mpr ⟨last, unterminated, needed⟩))
          surroundings
        exact ⟨_, _, skipped, Nat.le_refl _, isFront_nil _ _⟩
      obtain ⟨advance, null, writes⟩ := reader_writes lawful target crlf first positive
        (fun peeks returns last needed =>
          safe peeks ((returnsLast_single (more.eq_nil last) returns).mpr needed))
        (surroundings 0)
      rw [law.fits room char enough] at writes
      by_cases other : char = 0
      · subst other
        rw [null.mpr rfl] at writes
        refine ⟨1, _, convert_null pending positive (null.mpr rfl), ?_, ?_⟩
        · rw [advance]
          exact bounds.2
        · rw [writes]
          exact isFront_null _ _
      · obtain ⟨turns, result, ran, consumed, front⟩ := ih ((stopsThere_fits enough other).mp stops)
          (fun peeks last =>
            safe peeks ((returnsLast_fits enough other last.ne_nil).mpr last))
          fun turn => surroundings (turn + 1)
        refine ⟨turns + 1, result.after bytes (target.encodeChar unicode crlf char), ?_, ?_,
          (isFront_after lawful other).mpr front⟩
        · rw [convert_turn pending positive (mt null.mp other), advance, writes, ran]
          rfl
        · rw [List.length_drop] at consumed
          change bytes + result.consumed ≤ _
          omega

/-! ## Conversions that do not -/

/-- A front part of a text whose first character does not fit is nothing at all. -/
theorem isFront_short {result : Conversion} (within : result.output.length ≤ room)
    (short : ¬ (target.encodeChar unicode crlf char).length ≤ room)
    (front : result.IsFront unicode target crlf (char :: text)) :
    result.output = [] ∧ result.terminated = false := by
  obtain ⟨count, output, terminated⟩ := front
  cases count with
  | zero => exact ⟨output, Bool.eq_false_iff.mpr (mt terminated.mp List.not_mem_nil)⟩
  | succ count =>
      have whole : result.output = target.encodeChar unicode crlf char ++ _ := output
      rw [whole, List.length_append] at within
      exact absurd (Nat.le_of_add_right_le within) short

theorem isFront_skipped {later : Conversion} (within : later.output.length ≤ room)
    (short : ¬ (target.encodeChar unicode crlf char).length ≤ room)
    (front : Conversion.IsFront unicode target crlf (char :: text) (later.after bytes [])) :
    later.IsFront unicode target crlf text := by
  obtain ⟨nothing, continues⟩ := isFront_short within short front
  exact ⟨0, nothing, iff_of_false (Bool.eq_false_iff.mp continues) List.not_mem_nil⟩

/-- In surroundings of zeros, every character is read. -/
theorem reader_zeros (first : source.nextChar? unicode normalize input = some (char, bytes)) :
    (source.reader unicode normalize ⟨0, 0, 0⟩ input).value = char ∧
      (source.reader unicode normalize ⟨0, 0, 0⟩ input).advance = bytes := by
  by_cases outside : source.PeeksBehind normalize ∧ char = 13 ∧
      source.nextChar? unicode normalize (input.drop bytes) = none
  · obtain ⟨⟨rfl, -⟩, rfl, last⟩ := outside
    have zero : source.imagined ⟨0, 0, 0⟩ ≠ 10 := by cases source <;> decide
    obtain ⟨value, advance⟩ := reader_last first last ⟨0, 0, 0⟩
    exact ⟨value.trans (if_neg zero), advance.trans (if_neg zero)⟩
  · exact reader_next first (fun peeks returns last => outside ⟨peeks, returns, last⟩) _

/-- If nothing is put out and no null character is returned, the text is not terminated, nothing of
it is written, and the input does not end within a character. -/
theorem silent_of_convert (reads : Reads unicode source normalize input text left)
    (last : source.nextChar? unicode normalize left = none) (positive : 0 < room) {turns : Nat}
    {result : Conversion}
    (ran : convert (source.reader unicode normalize) (target.writer unicode crlf)
      (fun _ => ⟨0, 0, 0⟩) turns input room = some result)
    (nothing : result.output = []) (unterminated : result.terminated = false) :
    left = [] ∧ 0 ∉ text ∧ ∀ char ∈ text, target.writer unicode crlf room char = [] := by
  induction reads generalizing turns result with
  | nil input =>
      by_cases empty : input = []
      · exact ⟨empty, List.not_mem_nil, fun _ member => absurd member List.not_mem_nil⟩
      cases turns with
      | zero => cases ran
      | succ turns =>
          rw [convert_null empty positive (reader_truncated last)] at ran
          cases ran
          cases unterminated
  | @cons input left char bytes text first more ih =>
      obtain ⟨value, advance⟩ := reader_zeros first
      have pending := nextChar?_pending first
      cases turns with
      | zero => cases ran
      | succ turns =>
          by_cases null : char = 0
          · rw [convert_null pending positive (value.trans null)] at ran
            cases ran
            cases unterminated
          · rw [convert_char pending positive value advance null] at ran
            obtain ⟨later, goesOn, rfl⟩ := Option.map_eq_some_iff.mp ran
            obtain ⟨here, rest⟩ := List.append_eq_nil_iff.mp nothing
            rw [here, List.length_nil, Nat.sub_zero] at goesOn
            obtain ⟨ends, other, silent⟩ := ih last goesOn rest unterminated
            exact ⟨ends, fun member => other ((List.mem_cons.mp member).resolve_left (Ne.symm null)),
              List.forall_mem_cons.mpr ⟨here, silent⟩⟩

/-- A conversion of a front part of the text stops behind what fits. -/
theorem stopsThere_of_front (lawful : unicode.Lawful)
    (reads : Reads unicode source normalize input text left)
    (last : source.nextChar? unicode normalize left = none) {turns : Nat} {result : Conversion}
    (ran : convert (source.reader unicode normalize) (target.writer unicode crlf)
      (fun _ => ⟨0, 0, 0⟩) turns input room = some result)
    (front : result.IsFront unicode target crlf text) :
    StopsThere (target.writer unicode crlf) (target.encodeChar unicode crlf) room text left := by
  have law := writer_law lawful target crlf
  induction reads generalizing room turns result with
  | nil input =>
      refine (stopsThere_of_nil rfl).mpr (or_iff_not_imp_left.mpr fun some => ?_)
      obtain ⟨count, output, terminated⟩ := front
      rw [List.take_nil] at output terminated
      exact silent_of_convert (.nil input) last (Nat.pos_of_ne_zero some) ran output
        (Bool.eq_false_iff.mpr (mt terminated.mp List.not_mem_nil))
  | @cons input left char bytes text first more ih =>
      by_cases enough : (target.encodeChar unicode crlf char).length ≤ room
      case neg =>
        refine (stopsThere_of_nil (fitting_stops enough)).mpr
          (or_iff_not_imp_left.mpr fun some => ?_)
        obtain ⟨nothing, unterminated⟩ := isFront_short (convert_output_le law ran) enough front
        exact silent_of_convert (.cons first more) last (Nat.pos_of_ne_zero some) ran nothing
          unterminated
      by_cases null : char = 0
      · subst null
        refine .inr (.inl ?_)
        rw [fitting_null enough]
        exact List.mem_cons_self
      have positive : 0 < room :=
        Nat.lt_of_lt_of_le (List.length_pos_iff.mpr (law.nonempty char)) enough
      obtain ⟨value, advance⟩ := reader_zeros first
      cases turns with
      | zero => cases ran
      | succ turns =>
          rw [convert_char (nextChar?_pending first) positive value advance null,
            law.fits room char enough] at ran
          obtain ⟨later, goesOn, rfl⟩ := Option.map_eq_some_iff.mp ran
          exact (stopsThere_fits enough null).mpr
            (ih last goesOn ((isFront_after lawful null).mp front))

theorem roomForPeek_pos (lawful : unicode.Lawful) :
    0 < roomForPeek (target.encodeChar unicode crlf) source := by
  cases source with
  | utf8 => exact List.length_pos_iff.mpr (encodeChar_nonempty lawful target crlf 10)
  | utf16 | cp1252 | iso8859_1 => exact Nat.one_pos

theorem imagined_feed (other : source ≠ .utf16) : source.imagined ⟨10, 0, 10⟩ = 10 := by
  cases source with
  | utf16 => exact absurd rfl other
  | utf8 | cp1252 | iso8859_1 => rfl

/-- The encoding of a carriage return does not begin with that of a line feed. -/
theorem encodeChar_feed_return (lawful : unicode.Lawful) (more : List UInt8) :
    target.encodeChar unicode crlf 10 ++ more ≠ target.encodeChar unicode crlf 13 := by
  obtain ⟨rest, returns, feed⟩ := encodePlain_ending lawful target
  have other : ¬ (crlf = true ∧ (13 : Int) = 10) := fun both => absurd both.2 (by decide)
  rw [encodeChar_other other, returns]
  intro same
  cases crlf with
  | true =>
      rw [encodeChar_newline, returns, feed] at same
      have lengths := congrArg List.length same
      rw [List.length_append, List.length_append, List.length_cons, List.length_cons] at lengths
      omega
  | false =>
      rw [encodeChar_other fun both => absurd both.1 Bool.false_ne_true, feed] at same
      exact absurd (List.cons_eq_cons.mp same).1 (by decide)

/-- A carriage return that is the last character and is read as a line feed is converted to
something else, or the input is advanced by more than there is of it. -/
theorem not_isFront_last (lawful : unicode.Lawful) (other : source ≠ .utf16)
    (returns : source.nextChar? unicode true input = some (13, bytes))
    (last : source.nextChar? unicode true (input.drop bytes) = none)
    (needed : roomForPeek (target.encodeChar unicode crlf) source ≤ room) {later : Conversion}
    (consumed : bytes + source.imaginedSize + later.consumed ≤ input.length) :
    ¬ Conversion.IsFront unicode target crlf [13]
      (later.after (bytes + source.imaginedSize) (target.writer unicode crlf room 10)) := by
  have law := writer_law lawful target crlf
  cases source with
  | utf16 => exact absurd rfl other
  | cp1252 | iso8859_1 =>
      have short := nextChar?_eq_none.mp last
      cases behind : input.drop bytes with
      | nil =>
          have done := List.drop_eq_nil_iff.mp behind
          change bytes + 1 + later.consumed ≤ input.length at consumed
          omega
      | cons byte rest =>
          rw [behind] at short
          cases short
  | utf8 =>
      rintro ⟨count, output, -⟩
      change target.writer unicode crlf room 10 ++ later.output = _ at output
      rw [law.fits room 10 needed] at output
      cases count with
      | zero => exact law.nonempty 10 (List.append_eq_nil_iff.mp output).1
      | succ count =>
          rw [List.take_succ_cons, List.take_nil] at output
          exact encodeChar_feed_return lawful _ (output.trans (List.append_nil _))

/-- In surroundings of line feeds, a text that stops behind what fits but ends with a carriage
return is not converted. -/
theorem not_returnsLast_of_front (lawful : unicode.Lawful) (other : source ≠ .utf16)
    (reads : Reads unicode source true input text left)
    (last : source.nextChar? unicode true left = none)
    (stops : StopsThere (target.writer unicode crlf) (target.encodeChar unicode crlf) room text left)
    {turns : Nat} {result : Conversion}
    (ran : convert (source.reader unicode true) (target.writer unicode crlf)
      (fun _ => ⟨10, 0, 10⟩) turns input room = some result)
    (consumed : result.consumed ≤ input.length) (front : result.IsFront unicode target crlf text) :
    ¬ ReturnsLast (target.encodeChar unicode crlf)
      (roomForPeek (target.encodeChar unicode crlf) source) room text := by
  have law := writer_law lawful target crlf
  intro returns
  induction reads generalizing room turns result with
  | nil input => exact returns.ne_nil rfl
  | @cons input left char bytes text first more ih =>
      have pending := nextChar?_pending first
      have positive : 0 < room := Nat.lt_of_lt_of_le (roomForPeek_pos lawful)
        (Nat.le_trans returns.2.2 (Nat.sub_le _ _))
      have null : char ≠ 0 := fun null => returns.2.1 (null ▸ List.mem_cons_self)
      cases turns with
      | zero => cases ran
      | succ turns =>
          by_cases single : text = []
          · subst single
            cases more
            obtain rfl : char = 13 := Option.some.inj returns.1
            obtain ⟨value, advance⟩ := reader_last first last ⟨10, 0, 10⟩
            rw [if_pos (imagined_feed other)] at value advance
            rw [convert_char pending positive value advance (by decide)] at ran
            obtain ⟨later, -, rfl⟩ := Option.map_eq_some_iff.mp ran
            exact not_isFront_last lawful other first last returns.2.2 consumed front
          obtain ⟨value, advance⟩ := reader_next first
            (fun _ _ none => single (more.eq_nil none)) ⟨10, 0, 10⟩
          rw [convert_char pending positive value advance null] at ran
          obtain ⟨later, goesOn, rfl⟩ := Option.map_eq_some_iff.mp ran
          have within : later.consumed ≤ (input.drop bytes).length := by
            change bytes + later.consumed ≤ input.length at consumed
            rw [List.length_drop]
            omega
          by_cases enough : (target.encodeChar unicode crlf char).length ≤ room
          · rw [law.fits room char enough] at goesOn front
            exact ih last ((stopsThere_fits enough null).mp stops) goesOn within
              ((isFront_after lawful null).mp front)
              ((returnsLast_fits enough null single).mp returns)
          · -- nothing is written up to the last character
            obtain ⟨here, skips⟩ := stopsThere_skips law positive enough stops
            rw [here] at goesOn front
            have bounded := Nat.le_trans (convert_output_le law goesOn) (Nat.sub_le room _)
            exact ih last skips goesOn within (isFront_skipped bounded enough front)
              (returnsLast_skips law positive enough stops single returns)

end Charset

/-! ## The law -/

section Law

variable {unicode : Unicode} {source target : Charset} {normalize crlf : Bool}
  {input : List UInt8} {room : Nat}

theorem ConvertsFront.stops (lawful : unicode.Lawful)
    (law : ConvertsFront unicode source normalize target crlf input room) :
    StopsThere (target.writer unicode crlf) (target.encodeChar unicode crlf) room
      (source.text unicode normalize input) (source.truncated unicode normalize input) := by
  obtain ⟨turns, result, ran, -, -, front⟩ := law fun _ => ⟨0, 0, 0⟩
  obtain ⟨reads, last⟩ := source.text_reads unicode normalize input
  exact Charset.stopsThere_of_front lawful reads last ran front

theorem ConvertsFront.not_returnsLast (lawful : unicode.Lawful)
    (law : ConvertsFront unicode source normalize target crlf input room)
    (peeks : source.PeeksBehind normalize) :
    ¬ ReturnsLast (target.encodeChar unicode crlf)
      (roomForPeek (target.encodeChar unicode crlf) source) room
      (source.text unicode normalize input) := by
  have stops := law.stops lawful
  obtain ⟨turns, result, ran, consumed, -, front⟩ := law fun _ => ⟨10, 0, 10⟩
  obtain ⟨rfl, other⟩ := peeks
  obtain ⟨reads, last⟩ := source.text_reads unicode true input
  exact Charset.not_returnsLast_of_front lawful other reads last stops ran consumed front

/-- **When a front part of the text is converted.** The conversion ends within its limits with the
encoding of a front part of the text, and returns whether that is terminated, exactly if it stops
behind what fits and does not peek behind a last carriage return. -/
theorem convertsFront_iff (unicode : Unicode) (lawful : unicode.Lawful) (source : Charset)
    (normalize : Bool) (target : Charset) (crlf : Bool) (input : List UInt8) (room : Nat) :
    ConvertsFront unicode source normalize target crlf input room ↔
      StopsThere (target.writer unicode crlf) (target.encodeChar unicode crlf) room
          (source.text unicode normalize input) (source.truncated unicode normalize input)
        ∧ (source.PeeksBehind normalize →
          ¬ ReturnsLast (target.encodeChar unicode crlf)
            (roomForPeek (target.encodeChar unicode crlf) source) room
            (source.text unicode normalize input)) := by
  constructor
  · intro law
    exact ⟨law.stops lawful, law.not_returnsLast lawful⟩
  · rintro ⟨stops, safe⟩ surroundings
    obtain ⟨reads, -⟩ := source.text_reads unicode normalize input
    obtain ⟨turns, result, ran, consumed, front⟩ :=
      Charset.convert_front lawful reads stops safe surroundings
    exact ⟨turns, result, ran, consumed,
      convert_output_le (Charset.writer_law lawful target crlf) ran, front⟩

/-- Terminated text with enough room is converted. -/
theorem terminated_text_converts :
    ConvertsFront asciiUnicode .cp1252 true .utf8 true [0x41, 0x0D, 0x0A, 0x0D, 0x00, 0x0D] 5 :=
  (convertsFront_iff asciiUnicode asciiUnicode_lawful .cp1252 true .utf8 true
    [0x41, 0x0D, 0x0A, 0x0D, 0x00, 0x0D] 5).mpr
      ⟨.inr (.inl (by decide)), fun _ returns => absurd returns.2.1 (by decide)⟩

/-- A euro sign in front of a letter is dropped if there is room for a single byte. -/
theorem euro_sign_is_dropped :
    ¬ ConvertsFront Terminal.utf8Unicode .utf8 false .utf8 false [0xE2, 0x82, 0xAC, 0x61] 1 := by
  intro law
  obtain full | terminated | ⟨-, -, silent⟩ := law.stops Terminal.utf8Unicode_lawful
  · exact absurd full (by decide)
  · exact absurd terminated (by decide)
  · exact absurd (silent 0x61 (by decide)) (by decide)

end Law

end GuacNebula.Common
