import GuacNebula.Common.Utf16RoundTrip

/-! # Line endings

A reader that normalizes line endings takes a pair of carriage return and line feed for a line feed,
and a writer may put out a line feed as a pair. A carriage return on its own is a character like all
others, also in front of a pair.
-/

namespace GuacNebula.Common

open Terminal (utf8Unicode utf8Unicode_lawful)

/-- The text with pairs of carriage return and line feed replaced by line feeds. -/
def unixLines : List Int → List Int
  | 13 :: 10 :: text => 10 :: unixLines text
  | char :: text => char :: unixLines text
  | [] => []

/-- The text with line feeds that are no part of a pair replaced by pairs. -/
def windowsLines : List Int → List Int
  | 13 :: 10 :: text => 13 :: 10 :: windowsLines text
  | 10 :: text => 13 :: 10 :: windowsLines text
  | char :: text => char :: windowsLines text
  | [] => []

/-- What a character is written as if line feeds are written as pairs. -/
def lineEnding (char : Int) : List Int := if char = 10 then [13, 10] else [char]

/-- Whatever the surroundings, a terminated input is converted to the output. -/
def ConvertsTo (reader : CharReader) (writer : IconvWrite) (input : List UInt8) (room : Nat)
    (output : List UInt8) : Prop :=
  ∀ surroundings, ∃ turns result, convert reader writer surroundings turns input room = some result
    ∧ result.output = output ∧ result.terminated = true

section Lines

variable {char : Int} {text : List Int}

/-- A character is no carriage return of a pair. -/
def Single (char : Int) (text : List Int) : Prop := ¬ (char = 13 ∧ text.head? = some 10)

theorem unixLines_cons (single : Single char text) :
    unixLines (char :: text) = char :: unixLines text := by
  rw [unixLines]
  intro rest returns feed
  exact single ⟨returns, by rw [feed]; rfl⟩

theorem windowsLines_cons (single : Single char text) :
    windowsLines (char :: text) = lineEnding char ++ windowsLines text := by
  unfold lineEnding
  by_cases newline : char = 10
  · rw [if_pos newline, newline]
    rfl
  · rw [if_neg newline, windowsLines]
    · rfl
    · intro rest returns feed
      exact single ⟨returns, by rw [feed]; rfl⟩
    · exact newline

theorem single_of_other (other : ∀ rest, char = 13 → text = 10 :: rest → False) :
    Single char text := by
  rintro ⟨returns, feed⟩
  cases text with
  | nil => cases feed
  | cons next rest => exact other rest returns (congrArg (· :: rest) (Option.some.inj feed))

/-- What is written for the line feeds of a text makes its lines end with pairs. -/
theorem windowsLines_eq (text : List Int) :
    windowsLines text = (unixLines text).flatMap lineEnding := by
  induction text using unixLines.induct with
  | case1 text ih => exact congrArg (13 :: 10 :: ·) ih
  | case2 char text other ih =>
      have single := single_of_other other
      rw [windowsLines_cons single, unixLines_cons single, List.flatMap_cons, ih]
  | case3 => rfl

theorem windowsLines_head (text : List Int) : (windowsLines text).head? ≠ some 10 := by
  induction text using unixLines.induct with
  | case1 text ih => exact fun feed => absurd (Option.some.inj feed) (by decide)
  | case2 char text other ih =>
      rw [windowsLines_cons (single_of_other other)]
      unfold lineEnding
      split_ifs with newline
      · exact fun feed => absurd (Option.some.inj feed) (by decide)
      · exact fun feed => newline (Option.some.inj feed)
  | case3 => exact fun feed => nomatch feed

theorem unixLines_windowsLines (text : List Int) :
    unixLines (windowsLines text) = unixLines text := by
  induction text using unixLines.induct with
  | case1 text ih => exact congrArg (10 :: ·) ih
  | case2 char text other ih =>
      have single := single_of_other other
      rw [windowsLines_cons single, unixLines_cons single]
      unfold lineEnding
      split_ifs with newline
      · rw [newline]
        exact congrArg (10 :: ·) ih
      · have alone : Single char (windowsLines text) := fun pair =>
          windowsLines_head text pair.2
        exact (unixLines_cons alone).trans (congrArg (char :: ·) ih)
  | case3 => rfl

theorem windowsLines_idempotent (text : List Int) :
    windowsLines (windowsLines text) = windowsLines text := by
  rw [windowsLines_eq, unixLines_windowsLines, ← windowsLines_eq]

theorem mem_unixLines (member : char ∈ unixLines text) : char ∈ text := by
  induction text using unixLines.induct with
  | case1 text ih =>
      exact List.mem_cons_of_mem _ (List.mem_cons.mpr ((List.mem_cons.mp member).imp_right ih))
  | case2 first text other ih =>
      rw [unixLines_cons (single_of_other other)] at member
      exact List.mem_cons.mpr ((List.mem_cons.mp member).imp_right ih)
  | case3 => exact member

theorem mem_windowsLines (member : char ∈ windowsLines text) :
    char = 13 ∨ char = 10 ∨ char ∈ text := by
  rw [windowsLines_eq] at member
  obtain ⟨first, inside, written⟩ := List.mem_flatMap.mp member
  unfold lineEnding at written
  split_ifs at written
  · rw [List.mem_cons, List.mem_singleton] at written
    exact written.imp_right .inl
  · rw [List.mem_singleton] at written
    exact .inr (.inr (written ▸ mem_unixLines inside))

theorem unixLines_sublist (text : List Int) : (unixLines text).Sublist (windowsLines text) := by
  rw [windowsLines_eq]
  induction unixLines text with
  | nil => exact List.Sublist.refl _
  | cons char text ih =>
      have here : [char].Sublist (lineEnding char) := by
        unfold lineEnding
        split_ifs with newline
        · rw [newline]
          exact (List.Sublist.refl _).cons 13
        · exact List.Sublist.refl _
      exact here.append ih

end Lines

namespace Charset

variable {unicode : Unicode} {source target charset : Charset} {crlf : Bool}
  {input left : List UInt8} {char : Int} {text : List Int}

/-- A terminated text goes on with a character that is no line feed if it does not begin with
one. -/
theorem reads_follow (reads : Reads unicode charset false input (text ++ [0]) left)
    (lone : text.head? ≠ some 10) :
    ∃ follow bytes, charset.char? unicode input = some (follow, bytes) ∧ follow ≠ 10 := by
  cases text with
  | nil =>
      cases reads with
      | cons first more => exact ⟨0, _, nextChar?_plain.symm.trans first, by decide⟩
  | cons follow text =>
      cases reads with
      | cons first more =>
          exact ⟨follow, _, nextChar?_plain.symm.trans first, fun feed => lone (congrArg _ feed)⟩

/-- A terminated text is read with its line endings normalized. -/
theorem reads_unixLines (reads : Reads unicode charset false input (text ++ [0]) left) :
    Reads unicode charset true input (unixLines text ++ [0]) left := by
  induction text using unixLines.induct generalizing input with
  | case1 text ih =>
      cases reads with
      | cons returns more =>
          cases more with
          | cons feed rest =>
              rw [nextChar?_plain] at returns feed
              rw [List.drop_drop] at rest
              refine .cons ?_ (ih rest)
              unfold nextChar?
              rw [returns]
              dsimp only
              rw [if_pos ⟨rfl, rfl⟩, feed]
              rfl
  | case2 char text other ih =>
      rw [unixLines_cons (single_of_other other)]
      cases reads with
      | cons first more =>
          rw [nextChar?_plain] at first
          refine .cons ?_ (ih more)
          unfold nextChar?
          rw [first]
          dsimp only
          split_ifs with both
          · obtain ⟨-, rfl⟩ := both
            obtain ⟨follow, size, next, lone⟩ := reads_follow more fun feed =>
              single_of_other other ⟨rfl, feed⟩
            rw [next]
            split
            · rename_i same
              exact absurd (congrArg Prod.fst (Option.some.inj same)) lone
            · rfl
          · rfl
  | case3 =>
      cases reads with
      | cons first more =>
          rw [nextChar?_plain] at first
          cases more
          refine .cons ?_ (.nil _)
          unfold nextChar?
          rw [first]
          exact if_neg fun both => absurd both.2 (by decide)

/-- Line feeds written as pairs are the encoding of lines that end with pairs. -/
theorem encode_crlf (unicode : Unicode) (charset : Charset) (text : List Int) :
    charset.encode unicode true text = charset.encode unicode false (text.flatMap lineEnding) := by
  induction text with
  | nil => rfl
  | cons char text ih =>
      have here : charset.encodeChar unicode true char =
          charset.encode unicode false (lineEnding char) := by
        unfold lineEnding
        split_ifs with newline
        · rw [newline]
          change _ = _ ++ (_ ++ [])
          rw [List.append_nil]
          rfl
        · rw [encodeChar_other fun both => newline both.2]
          exact (List.append_nil _).symm
      change charset.encodeChar unicode true char ++ charset.encode unicode true text = _
      rw [here, ih, List.flatMap_cons]
      exact List.flatMap_append.symm

theorem encode_windowsLines (unicode : Unicode) (charset : Charset) (text : List Int) :
    charset.encode unicode true (unixLines text ++ [0]) =
      charset.encode unicode false (windowsLines text ++ [0]) := by
  rw [encode_crlf, List.flatMap_append, ← windowsLines_eq]
  rfl

/-! ## Characters of a charset -/

theorem cp1252Value_kept : ∀ code < 256,
    (writeCp1252 1 (cp1252Value (UInt8.ofNat code))).map cp1252Value =
      [cp1252Value (UInt8.ofNat code)] := by
  decide +kernel

theorem keeps_cp1252 (byte : UInt8) : Charset.cp1252.Keeps unicode (cp1252Value byte) := by
  intro rest
  have kept := cp1252Value_kept byte.toNat byte.toNat_lt
  rw [UInt8.ofNat_toNat] at kept
  obtain ⟨written, bytes, same⟩ := List.map_eq_singleton_iff.mp kept
  change Charset.cp1252.char? unicode (writeCp1252 1 (cp1252Value byte) ++ rest) =
    some (cp1252Value byte, (writeCp1252 1 (cp1252Value byte)).length)
  rw [bytes, ← same]
  rfl

theorem keeps_iso8859_1 (single : 0 ≤ char ∧ char < 256) :
    Charset.iso8859_1.Keeps unicode char := by
  intro rest
  have byte := toNat_toByte char
  rw [Int.emod_eq_of_lt single.1 single.2] at byte
  have bytes : writeIso8859_1 1 char = [toByte char] := by
    unfold writeIso8859_1
    rw [if_neg (by omega)]
  change Charset.iso8859_1.char? unicode (writeIso8859_1 1 char ++ rest) =
    some (char, (writeIso8859_1 1 char).length)
  rw [bytes]
  exact congrArg (fun value => some (value, 1)) byte

/-- A charset has the characters that it reads. -/
theorem keeps_of_char? (lawful : unicode.Lawful) (inverse : unicode.Inverse) {bytes : Nat}
    (first : charset.char? unicode input = some (char, bytes)) : charset.Keeps unicode char := by
  unfold char? at first
  split at first
  · obtain ⟨⟨code, size⟩, read, same⟩ := Option.map_eq_some_iff.mp first
    cases same
    exact keeps_utf8 lawful (inverse.write_read _ _ _ read)
  · cases first
    rename_i low high rest
    have first := low.toNat_lt
    have second := high.toNat_lt
    exact keeps_utf16 (by omega)
  · cases first
    exact keeps_cp1252 _
  · cases first
    rename_i byte rest
    have bound := byte.toNat_lt
    exact keeps_iso8859_1 (by omega)
  · cases first

theorem Reads.keeps (lawful : unicode.Lawful) (inverse : unicode.Inverse)
    (reads : Reads unicode charset false input text left) :
    ∀ char ∈ text, charset.Keeps unicode char := by
  induction reads with
  | nil => exact fun _ member => absurd member List.not_mem_nil
  | cons first more ih =>
      rw [nextChar?_plain] at first
      exact List.forall_mem_cons.mpr ⟨keeps_of_char? lawful inverse first, ih⟩

/-- Every charset has the first 128 characters. -/
theorem keeps_ascii (lawful : unicode.Lawful) (inverse : unicode.Inverse) (charset : Charset)
    {code : Nat} (ascii : code < 128) : charset.Keeps unicode code := by
  cases charset with
  | utf8 => exact keeps_utf8 lawful (inverse.read_write code (by omega))
  | utf16 => exact keeps_utf16 (by omega)
  | iso8859_1 => exact keeps_iso8859_1 (by omega)
  | cp1252 =>
      have value : (UInt8.ofNat code).toNat = code := 
        UInt8.toNat_ofNat_of_lt' (Nat.lt_trans ascii (by decide))
      have byte : cp1252Value (UInt8.ofNat code) = code := by
        unfold cp1252Value
        rw [value, if_neg]
        rintro ⟨high, -⟩
        have bound := UInt8.le_iff_toNat_le.mp high
        rw [value] at bound
        exact absurd ascii (Nat.not_lt.mpr bound)
      rw [← byte]
      exact keeps_cp1252 _

end Charset

/-! ## Conversions of line endings -/

section Conversions

variable {unicode : Unicode} {source target : Charset} {crlf : Bool} {input left : List UInt8}
  {text : List Int} {room : Nat}

theorem convertsTo_of_reads (lawful : unicode.Lawful)
    (reads : source.Reads unicode true input (text ++ [0]) left) (unterminated : 0 ∉ text)
    (fits : (target.encode unicode crlf (text ++ [0])).length ≤ room) :
    ConvertsTo (source.reader unicode true) (target.writer unicode crlf) input room
      (target.encode unicode crlf (text ++ [0])) := by
  intro surroundings
  have null : (0 : Int) ∈ text ++ [0] := List.mem_append_right _ List.mem_cons_self
  have last : (text ++ [0]).getLast? ≠ some 13 := by
    rw [List.getLast?_append]
    exact fun returns => absurd (Option.some.inj returns) (by decide)
  rw [← untilNull_terminated unterminated] at fits ⊢
  obtain ⟨turns, result, ran, output, terminated⟩ :=
    Charset.convert_fits lawful reads (fun _ => last) (.inl null) fits surroundings
  exact ⟨turns, result, ran, output, terminated.mpr null⟩

/-- Terminated text is converted to lines that end with pairs. -/
theorem convertsTo_windowsLines (lawful : unicode.Lawful)
    (reads : source.Reads unicode false input (text ++ [0]) left) (unterminated : 0 ∉ text)
    (fits : (target.encode unicode false (windowsLines text ++ [0])).length ≤ room) :
    ConvertsTo (source.reader unicode true) (target.writer unicode true) input room
      (target.encode unicode false (windowsLines text ++ [0])) := by
  rw [← Charset.encode_windowsLines] at fits ⊢
  exact convertsTo_of_reads lawful (Charset.reads_unixLines reads)
    (fun member => unterminated (mem_unixLines member)) fits

/-- Terminated text is converted to lines that end with line feeds. -/
theorem convertsTo_unixLines (lawful : unicode.Lawful)
    (reads : source.Reads unicode false input (text ++ [0]) left) (unterminated : 0 ∉ text)
    (fits : (target.encode unicode false (windowsLines text ++ [0])).length ≤ room) :
    ConvertsTo (source.reader unicode true) (target.writer unicode false) input room
      (target.encode unicode false (unixLines text ++ [0])) := by
  have shorter := ((unixLines_sublist text).append_right [0]).flatMap
    (target.encodeChar unicode false)
  exact convertsTo_of_reads lawful (Charset.reads_unixLines reads)
    (fun member => unterminated (mem_unixLines member)) (shorter.length_le.trans fits)

/-- Lines that end with pairs are read from their encoding. -/
theorem reads_windowsLines (lawful : unicode.Lawful) (inverse : unicode.Inverse)
    (kept : ∀ char ∈ text, target.Keeps unicode char) :
    target.Reads unicode false (target.encode unicode false (windowsLines text ++ [0]))
      (windowsLines text ++ [0]) [] := by
  have all : ∀ char ∈ windowsLines text ++ [0], target.Keeps unicode char := by
    intro char member
    rw [List.mem_append, List.mem_singleton] at member
    obtain inside | rfl := member
    · obtain rfl | rfl | inside := mem_windowsLines inside
      · exact Charset.keeps_ascii lawful inverse target (by decide : 13 < 128)
      · exact Charset.keeps_ascii lawful inverse target (by decide : 10 < 128)
      · exact kept char inside
    · exact Charset.keeps_ascii lawful inverse target (by decide : 0 < 128)
  have reads := Charset.reads_encode all []
  rw [List.append_nil] at reads
  exact reads

/-- **Conversion of line endings.** A reader that normalizes line endings and a writer of pairs
replace pairs and lone line feeds by pairs, and keep every other character. The conversion of what
they have written changes nothing, and the conversion with a plain writer recovers the text with
line feeds. The charsets are the same, or the one that is written has the characters of the text. -/
theorem line_endings_converted (unicode : Unicode) (lawful : unicode.Lawful)
    (inverse : unicode.Inverse) (source target : Charset) (input left : List UInt8)
    (text : List Int) (room : Nat)
    (reads : source.Reads unicode false input (text ++ [0]) left) (unterminated : 0 ∉ text)
    (represented : source = target ∨ ∀ char ∈ text, target.Keeps unicode char)
    (fits : (target.encode unicode false (windowsLines text ++ [0])).length ≤ room) :
    ConvertsTo (source.reader unicode true) (target.writer unicode true) input room
        (target.encode unicode false (windowsLines text ++ [0]))
      ∧ ConvertsTo (target.reader unicode true) (target.writer unicode true)
        (target.encode unicode false (windowsLines text ++ [0])) room
        (target.encode unicode false (windowsLines text ++ [0]))
      ∧ ConvertsTo (target.reader unicode true) (target.writer unicode false)
        (target.encode unicode false (windowsLines text ++ [0])) room
        (target.encode unicode false (unixLines text ++ [0])) := by
  have kept : ∀ char ∈ text, target.Keeps unicode char := by
    obtain rfl | kept := represented
    · exact fun char member => reads.keeps lawful inverse char (List.mem_append_left _ member)
    · exact kept
  have again := reads_windowsLines lawful inverse kept
  have other : 0 ∉ windowsLines text := by
    intro member
    obtain null | null | member := mem_windowsLines member
    · cases null
    · cases null
    · exact unterminated member
  have fitsAgain : (target.encode unicode false
      (windowsLines (windowsLines text) ++ [0])).length ≤ room := by
    rw [windowsLines_idempotent]
    exact fits
  have repeated := convertsTo_windowsLines lawful again other fitsAgain
  have recovered := convertsTo_unixLines lawful again other fitsAgain
  rw [windowsLines_idempotent] at repeated
  rw [unixLines_windowsLines] at recovered
  exact ⟨convertsTo_windowsLines lawful reads unterminated fits, repeated, recovered⟩

/-- A carriage return in front of a pair, and a lone line feed. -/
theorem sample_endings_converted :
    ConvertsTo (Charset.cp1252.reader utf8Unicode true) (Charset.utf8.writer utf8Unicode true)
        [0x80, 0x0D, 0x0D, 0x0A, 0x0A, 0x00] 9
        [0xE2, 0x82, 0xAC, 0x0D, 0x0D, 0x0A, 0x0D, 0x0A, 0x00]
      ∧ ConvertsTo (Charset.utf8.reader utf8Unicode true) (Charset.utf8.writer utf8Unicode false)
        [0xE2, 0x82, 0xAC, 0x0D, 0x0D, 0x0A, 0x0D, 0x0A, 0x00] 9
        [0xE2, 0x82, 0xAC, 0x0D, 0x0A, 0x0A, 0x00] := by
  have kept : ∀ char ∈ ([0x20AC, 13, 13, 10, 10] : List Int), Charset.utf8.Keeps utf8Unicode char :=
    codes_kept utf8Unicode_lawful utf8Unicode_inverse
      [Char.ofNat 0x20AC, Char.ofNat 13, Char.ofNat 13, Char.ofNat 10, Char.ofNat 10]
  have text : Charset.cp1252.text utf8Unicode false [0x80, 0x0D, 0x0D, 0x0A, 0x0A, 0x00] =
      [0x20AC, 13, 13, 10, 10] ++ [0] := by decide
  have reads := (Charset.cp1252.text_reads utf8Unicode false
    [0x80, 0x0D, 0x0D, 0x0A, 0x0A, 0x00]).1
  rw [text] at reads
  have converted := line_endings_converted utf8Unicode utf8Unicode_lawful utf8Unicode_inverse
    .cp1252 .utf8 _ _ _ 9 reads (by decide) (.inr kept) (by decide)
  have pairs : Charset.utf8.encode utf8Unicode false
      (windowsLines [0x20AC, 13, 13, 10, 10] ++ [0]) =
        [0xE2, 0x82, 0xAC, 0x0D, 0x0D, 0x0A, 0x0D, 0x0A, 0x00] := by decide
  have feeds : Charset.utf8.encode utf8Unicode false
      (unixLines [0x20AC, 13, 13, 10, 10] ++ [0]) =
        [0xE2, 0x82, 0xAC, 0x0D, 0x0A, 0x0A, 0x00] := by decide
  rw [pairs, feeds] at converted
  exact ⟨converted.1, converted.2.2⟩

end Conversions

end GuacNebula.Common
