import GuacNebula.Common.CharsetConversion

/-! # Text that is converted as a whole

A text for which there is room is converted up to its first null character. A charset keeps a
character that it reads from what it has written for it, and a text of such characters is read from
its encoding.
-/

namespace GuacNebula.Common

/-- A text up to its first null character. -/
def untilNull : List Int → List Int
  | [] => []
  | char :: text => char :: if char = 0 then [] else untilNull text

/-- `guac_utf8_read` and `guac_utf8_write` are inverse on a single codepoint, and on whatever is
read. -/
structure Unicode.Inverse (unicode : Unicode) : Prop where
  read_write : ∀ code : Nat, code < 0x110000 →
    unicode.utf8Read (unicode.utf8Write code 4) =
      some (code, (unicode.utf8Write code 4).length)
  write_read : ∀ input code bytes, unicode.utf8Read input = some (code, bytes) →
    unicode.utf8Read (unicode.utf8Write code 4) =
      some (code, (unicode.utf8Write code 4).length)

/-- The charset has the character: what is written for it is read as the character. -/
def Charset.Keeps (unicode : Unicode) (charset : Charset) (char : Int) : Prop :=
  ∀ rest, charset.char? unicode (charset.encodePlain unicode char ++ rest) =
    some (char, (charset.encodePlain unicode char).length)

section Null

variable {text : List Int}

theorem untilNull_isPrefix (text : List Int) : untilNull text <+: text := by
  induction text with
  | nil => exact List.prefix_rfl
  | cons char text ih =>
      refine List.cons_prefix_cons.mpr ⟨rfl, ?_⟩
      split
      · exact List.nil_prefix
      · exact ih

theorem untilNull_terminated (unterminated : 0 ∉ text) : untilNull (text ++ [0]) = text ++ [0] := by
  induction text with
  | nil => rfl
  | cons char text ih =>
      rw [List.mem_cons, not_or] at unterminated
      rw [List.cons_append, untilNull, if_neg (Ne.symm unterminated.1), ih unterminated.2]

/-- A text ends with its first null character if there is none in front of the last character. -/
theorem untilNull_eq_iff : untilNull text = text ↔ 0 ∉ text.dropLast := by
  induction text with
  | nil => exact iff_of_true rfl List.not_mem_nil
  | cons char text ih =>
      rw [untilNull, List.cons_eq_cons, and_iff_right rfl]
      cases text with
      | nil => exact iff_of_true (ite_self _) List.not_mem_nil
      | cons next text =>
          rw [List.dropLast_cons_of_ne_nil (List.cons_ne_nil _ _), List.mem_cons, not_or]
          by_cases null : char = 0
          · rw [if_pos null]
            exact iff_of_false (List.cons_ne_nil _ _).symm fun other => other.1 null.symm
          · rw [if_neg null, ih, and_iff_right (Ne.symm null)]

end Null

namespace Charset

variable {unicode : Unicode} {source target charset : Charset} {normalize crlf : Bool}
  {input left rest : List UInt8} {text : List Int} {char : Int} {room : Nat}

/-- A text for which there is room is converted up to its first null character. -/
theorem convert_fits (lawful : unicode.Lawful)
    (reads : Reads unicode source normalize input text left)
    (safe : source.PeeksBehind normalize → text.getLast? ≠ some 13) (ends : 0 ∈ text ∨ left = [])
    (fits : (target.encode unicode crlf (untilNull text)).length ≤ room)
    (surroundings : Nat → Surroundings) :
    ∃ turns result,
      convert (source.reader unicode normalize) (target.writer unicode crlf) surroundings turns
          input room = some result
        ∧ result.output = target.encode unicode crlf (untilNull text)
        ∧ (result.terminated = true ↔ 0 ∈ text) := by
  have law := writer_law lawful target crlf
  induction reads generalizing room surroundings with
  | nil input =>
      have empty := ends.resolve_left List.not_mem_nil
      exact ⟨1, ⟨false, 0, []⟩, convert_done (.inl empty), rfl,
        iff_of_false Bool.false_ne_true List.not_mem_nil⟩
  | @cons input left char bytes text first more ih =>
      have pending := nextChar?_pending first
      obtain ⟨value, advance⟩ := reader_next first
        (fun peeks returns last => safe peeks (by rw [more.eq_nil last, returns]; rfl))
        (surroundings 0)
      have size : (target.encode unicode crlf (untilNull (char :: text))).length =
          (target.encodeChar unicode crlf char).length +
            (target.encode unicode crlf (if char = 0 then [] else untilNull text)).length :=
        List.length_append
      rw [size] at fits
      have enough := Nat.le_of_add_right_le fits
      have positive : 0 < room :=
        Nat.lt_of_lt_of_le (List.length_pos_iff.mpr (law.nonempty char)) enough
      by_cases null : char = 0
      · subst null
        refine ⟨1, _, convert_null pending positive value, ?_, iff_of_true rfl List.mem_cons_self⟩
        change target.writer unicode crlf room 0 = _ ++ []
        rw [law.fits room 0 enough, List.append_nil]
      · rw [if_neg null] at fits
        obtain ⟨turns, result, ran, output, terminated⟩ := ih
          (fun peeks last => safe peeks (by rw [List.getLast?_cons, last]; rfl))
          (ends.imp_left fun member => (List.mem_cons.mp member).resolve_left (Ne.symm null))
          (Nat.le_sub_of_add_le' fits) fun turn => surroundings (turn + 1)
        refine ⟨turns + 1, result.after bytes (target.encodeChar unicode crlf char), ?_, ?_, ?_⟩
        · rw [convert_char pending positive value advance null, law.fits room char enough, ran]
          rfl
        · change _ ++ result.output = target.encode unicode crlf (untilNull (char :: text))
          rw [output, untilNull, if_neg null]
          rfl
        · rw [List.mem_cons, or_iff_right (Ne.symm null)]
          exact terminated

/-- A text that the charset has is read from its encoding. -/
theorem reads_encode (kept : ∀ char ∈ text, charset.Keeps unicode char) (rest : List UInt8) :
    Reads unicode charset false (charset.encode unicode false text ++ rest) text rest := by
  induction text with
  | nil => exact .nil rest
  | cons char text ih =>
      obtain ⟨here, later⟩ := List.forall_mem_cons.mp kept
      have bytes : charset.encode unicode false (char :: text) =
          charset.encodePlain unicode char ++ charset.encode unicode false text :=
        congrArg (· ++ _) (encodeChar_other fun both => absurd both.1 Bool.false_ne_true)
      rw [bytes, List.append_assoc]
      refine .cons (nextChar?_plain.trans (here _)) ?_
      rw [List.drop_left]
      exact ih later

theorem Reads.unique {first second : List Int}
    (reads : Reads unicode charset normalize input first left)
    (other : Reads unicode charset normalize input second left)
    (last : charset.nextChar? unicode normalize left = none) : first = second := by
  induction reads generalizing second with
  | nil input => exact (other.eq_nil last).symm
  | cons next more ih =>
      cases other with
      | nil => exact absurd (next.symm.trans last) (Option.some_ne_none _)
      | cons same others =>
          cases next.symm.trans same
          exact congrArg _ (ih others last)

/-- Texts that the charset has are told apart by their encodings. -/
theorem encode_injective {first second : List Int}
    (kept : ∀ char ∈ first, charset.Keeps unicode char)
    (others : ∀ char ∈ second, charset.Keeps unicode char)
    (same : charset.encode unicode false first = charset.encode unicode false second) :
    first = second := by
  have reads := reads_encode kept []
  rw [same] at reads
  exact reads.unique (reads_encode others []) (nextChar?_eq_none.mpr char?_nil)

/-! ## Characters that a charset has -/

theorem keeps_utf8 (lawful : unicode.Lawful) {code : Nat}
    (inverse : unicode.utf8Read (unicode.utf8Write code 4) =
      some (code, (unicode.utf8Write code 4).length)) : Charset.utf8.Keeps unicode code := by
  intro rest
  have whole : (unicode.utf8Write code 4 ++ rest).take (unicode.utf8Write code 4).length =
      unicode.utf8Write code 4 := List.take_left
  rw [← whole] at inverse
  have read := ((lawful.read_take _ _ _ _).mp inverse).1
  rw [whole] at read
  change (unicode.utf8Read (unicode.utf8Write code 4 ++ rest)).map _ = _
  rw [read]
  rfl

theorem toNat_toByte (value : Int) : ((toByte value).toNat : Int) = value % 256 := by
  have bound : (value % 256).toNat < 256 := by omega
  unfold toByte
  rw [UInt8.toNat_ofNat_of_lt' bound]
  omega

/-- What is written of a character in UTF-16 are its lowest 16 bits. -/
theorem char?_utf16 (char : Int) (rest : List UInt8) :
    Charset.utf16.char? unicode (Charset.utf16.encodePlain unicode char ++ rest) =
      some (char % 0x10000, 2) := by
  have low := toNat_toByte char
  have high := toNat_toByte (char / 256)
  have unit : (((toByte char).toNat + 256 * (toByte (char / 256)).toNat : Nat) : Int) =
      char % 0x10000 := by omega
  exact congrArg (fun value => some (value, 2)) unit

theorem keeps_utf16 (single : 0 ≤ char ∧ char < 0x10000) : Charset.utf16.Keeps unicode char := by
  intro rest
  rw [char?_utf16, Int.emod_eq_of_lt single.1 single.2]
  rfl

end Charset

end GuacNebula.Common
