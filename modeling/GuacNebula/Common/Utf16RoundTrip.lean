import GuacNebula.Common.ConvertedText
import GuacNebula.Terminal.SelectionCopy

/-! # Text in UTF-16 and back

The writer of UTF-16 writes a single unit for each character and keeps its lowest 16 bits. Text
comes back from UTF-16 as it was exactly if no character needs more bits than that, and no null
character ends it early.
-/

namespace GuacNebula.Common

open Terminal (utf8Unicode utf8Unicode_lawful)

/-- The codepoints of characters. -/
def codes (text : List Char) : List Int := text.map fun char => (char.toNat : Int)

/-- Whatever the surroundings, the text is converted from UTF-8 to UTF-16 and comes back as it
was. -/
def RoundTrips (unicode : Unicode) (text : List Char) (room16 room8 : Nat) : Prop :=
  ∀ surroundings surroundingsBack, ∃ turns there turnsBack result,
    convert (Charset.utf8.reader unicode false) (Charset.utf16.writer unicode false) surroundings
        turns (Charset.utf8.encode unicode false (codes text)) room16 = some there
      ∧ convert (Charset.utf16.reader unicode false) (Charset.utf8.writer unicode false)
        surroundingsBack turnsBack there.output room8 = some result
      ∧ result.output = Charset.utf8.encode unicode false (codes text)

/-- The lowest 16 bits of each character of a text. -/
def units (text : List Int) : List Int := text.map (· % 0x10000)

section

variable {unicode : Unicode} {text : List Char} {room16 room8 : Nat}

theorem codes_kept (lawful : unicode.Lawful) (inverse : unicode.Inverse) (text : List Char) :
    ∀ char ∈ codes text, Charset.utf8.Keeps unicode char := by
  intro char member
  obtain ⟨char, -, rfl⟩ := List.mem_map.mp member
  refine Charset.keeps_utf8 lawful (inverse.read_write char.toNat ?_)
  have valid := char.valid
  change char.toNat < 0xD800 ∨ 0xDFFF < char.toNat ∧ char.toNat < 0x110000 at valid
  omega

/-- Text in UTF-16 reads as the lowest 16 bits of its characters. -/
theorem reads_units (unicode : Unicode) (text : List Int) :
    Charset.utf16.Reads unicode false (Charset.utf16.encode unicode false text) (units text)
      [] := by
  have same : Charset.utf16.encode unicode false text =
      Charset.utf16.encode unicode false (units text) := by
    induction text with
    | nil => rfl
    | cons char text ih =>
        have unit : Charset.utf16.encodePlain unicode char =
            Charset.utf16.encodePlain unicode (char % 0x10000) := by
          have low : char % 0x10000 % 256 = char % 256 := by omega
          have high : char % 0x10000 / 256 % 256 = char / 256 % 256 := by omega
          change [toByte char, toByte (char / 256)] =
            [toByte (char % 0x10000), toByte (char % 0x10000 / 256)]
          unfold toByte
          rw [low, high]
        change Charset.utf16.encodePlain unicode char ++ _ =
          Charset.utf16.encodePlain unicode (char % 0x10000) ++ _
        rw [unit]
        exact congrArg _ ih
  have kept : ∀ char ∈ units text, Charset.utf16.Keeps unicode char := by
    intro char member
    obtain ⟨code, -, rfl⟩ := List.mem_map.mp member
    exact Charset.keeps_utf16 ⟨Int.emod_nonneg _ (by decide), Int.emod_lt_of_pos _ (by decide)⟩
  have reads := Charset.reads_encode kept []
  rw [List.append_nil, ← same] at reads
  exact reads

theorem encode_utf16_length (unicode : Unicode) (text : List Int) :
    (Charset.utf16.encode unicode false text).length = 2 * text.length := by
  induction text with
  | nil => rfl
  | cons char text ih =>
      change (Charset.utf16.encode unicode false text).length + 2 = _
      rw [ih, List.length_cons]
      omega

theorem encode_utf8_length_le (unicode : Unicode) (text : List Int) :
    (Charset.utf8.encode unicode false text).length ≤ 4 * text.length := by
  induction text with
  | nil => exact Nat.le_refl _
  | cons char text ih =>
      have bound := unicode.write_le char 4
      change (unicode.utf8Write char 4 ++ Charset.utf8.encode unicode false text).length ≤ _
      rw [List.length_append, List.length_cons]
      omega

/-- What comes back from UTF-16 are the lowest 16 bits, up to the first null character. -/
theorem roundTrips_iff_encode (lawful : unicode.Lawful) (inverse : unicode.Inverse)
    (enough16 : 2 * text.length ≤ room16) (enough8 : 4 * text.length ≤ room8) :
    RoundTrips unicode text room16 room8 ↔
      Charset.utf8.encode unicode false (untilNull (units (untilNull (codes text)))) =
        Charset.utf8.encode unicode false (codes text) := by
  have plain (charset : Charset) : ¬ charset.PeeksBehind false := fun peeks => nomatch peeks.1
  have count : (codes text).length = text.length := List.length_map _
  have shorter := (untilNull_isPrefix (codes text)).length_le
  have reads := Charset.reads_encode (codes_kept lawful inverse text) []
  rw [List.append_nil] at reads
  have fits16 : (Charset.utf16.encode unicode false (untilNull (codes text))).length ≤ room16 := by
    rw [encode_utf16_length]
    omega
  have there := Charset.convert_fits lawful reads (fun peeks => absurd peeks (plain .utf8))
    (.inr rfl) fits16
  have fits8 : (Charset.utf8.encode unicode false
      (untilNull (units (untilNull (codes text))))).length ≤ room8 := by
    have bound := encode_utf8_length_le unicode (untilNull (units (untilNull (codes text))))
    have shortened := (untilNull_isPrefix (units (untilNull (codes text)))).length_le
    have same : (units (untilNull (codes text))).length = (untilNull (codes text)).length :=
      List.length_map _
    omega
  have back := Charset.convert_fits lawful (reads_units unicode (untilNull (codes text)))
    (fun peeks => absurd peeks (plain .utf16)) (.inr rfl) fits8
  constructor
  · intro trips
    obtain ⟨turns, first, ran, output, -⟩ := there fun _ => ⟨0, 0, 0⟩
    obtain ⟨turnsBack, second, ranBack, outputBack, -⟩ := back fun _ => ⟨0, 0, 0⟩
    obtain ⟨_, _, _, _, other, otherBack, same⟩ := trips (fun _ => ⟨0, 0, 0⟩) fun _ => ⟨0, 0, 0⟩
    obtain rfl := convert_unique ran other
    rw [output] at otherBack
    obtain rfl := convert_unique ranBack otherBack
    exact outputBack.symm.trans same
  · intro same surroundings surroundingsBack
    obtain ⟨turns, first, ran, output, -⟩ := there surroundings
    obtain ⟨turnsBack, second, ranBack, outputBack, -⟩ := back surroundingsBack
    exact ⟨turns, first, turnsBack, second, ran, by rw [output]; exact ranBack,
      outputBack.trans same⟩

theorem units_eq_iff {text : List Int} (nonneg : ∀ char ∈ text, 0 ≤ char) :
    units text = text ↔ ∀ char ∈ text, char < 0x10000 := by
  induction text with
  | nil => exact iff_of_true rfl fun _ member => absurd member List.not_mem_nil
  | cons char text ih =>
      obtain ⟨here, later⟩ := List.forall_mem_cons.mp nonneg
      have unit : char % 0x10000 = char ↔ char < 0x10000 := by omega
      rw [List.forall_mem_cons, ← ih later, ← unit]
      exact List.cons_eq_cons

/-- A text is what comes back of it exactly if it has no character of more than 16 bits and ends
with its first null character. -/
theorem untilNull_units_iff {text : List Int} :
    untilNull (units (untilNull text)) = text ↔ units text = text ∧ untilNull text = text := by
  constructor
  · intro same
    have shorter := untilNull_isPrefix text
    have shortened := untilNull_isPrefix (units (untilNull text))
    have count : (units (untilNull text)).length = (untilNull text).length := List.length_map _
    have lengths := congrArg List.length same
    have first := shorter.length_le
    have second := shortened.length_le
    have whole : untilNull text = text := shorter.eq_of_length (by omega)
    have units := shortened.eq_of_length (by omega)
    rw [same, whole] at units
    exact ⟨units.symm, whole⟩
  · rintro ⟨units, whole⟩
    rw [whole, units, whole]

theorem codes_small_iff (text : List Char) :
    units (codes text) = codes text ↔ ∀ char ∈ text, char.toNat < 0x10000 := by
  rw [units_eq_iff fun char member => by
    obtain ⟨char, -, rfl⟩ := List.mem_map.mp member
    exact Int.natCast_nonneg _]
  unfold codes
  rw [List.forall_mem_map]
  exact forall₂_congr fun char _ => Int.ofNat_lt

theorem codes_null_iff (text : List Char) :
    untilNull (codes text) = codes text ↔ ∀ char ∈ text.dropLast, char.toNat ≠ 0 := by
  unfold codes
  rw [untilNull_eq_iff, ← List.map_dropLast, List.mem_map]
  constructor
  · intro none char member null
    exact none ⟨char, member, congrArg _ null⟩
  · rintro other ⟨char, member, null⟩
    exact other char member (Int.natCast_eq_zero.mp null)

/-- **When text comes back from UTF-16.** With enough room, exactly if all its characters are below
U+10000 and it has no null character in front of its last character. -/
theorem roundTrips_iff (unicode : Unicode) (lawful : unicode.Lawful) (inverse : unicode.Inverse)
    (text : List Char) (room16 room8 : Nat) (enough16 : 2 * text.length ≤ room16)
    (enough8 : 4 * text.length ≤ room8) :
    RoundTrips unicode text room16 room8 ↔
      (∀ char ∈ text, char.toNat < 0x10000) ∧ ∀ char ∈ text.dropLast, char.toNat ≠ 0 := by
  have single : ∀ char ∈ untilNull (units (untilNull (codes text))),
      Charset.utf8.Keeps unicode char := by
    intro char member
    obtain ⟨code, -, rfl⟩ := List.mem_map.mp ((untilNull_isPrefix _).subset member)
    obtain ⟨unit, same⟩ := Int.eq_ofNat_of_zero_le
      (Int.emod_nonneg code (by decide : (0x10000 : Int) ≠ 0))
    rw [same]
    exact Charset.keeps_utf8 lawful (inverse.read_write unit (by omega))
  rw [roundTrips_iff_encode lawful inverse enough16 enough8, ← codes_small_iff, ← codes_null_iff,
    ← untilNull_units_iff]
  exact ⟨Charset.encode_injective single (codes_kept lawful inverse text),
    congrArg (Charset.utf8.encode unicode false)⟩

theorem utf8Unicode_reads {code : Nat} (small : code < 0x200000) :
    utf8Unicode.utf8Read (utf8Unicode.utf8Write code 4) =
      some (code, (utf8Unicode.utf8Write code 4).length) := by
  have bytes : utf8Unicode.utf8Write code 4 = Utf8.encode code := by
    rw [Terminal.utf8Unicode_write, Terminal.sampleBytes, if_neg (by omega), if_pos (by omega)]
    rfl
  have decoded := Utf8.decode_encode small []
  rw [List.append_nil] at decoded
  have size := Utf8.encode_length code
  rw [bytes]
  change (if _ ∧ (Utf8.decode (Utf8.encode code)).2 ≤ _ then _ else none) = _
  rw [decoded, ← size, if_pos ⟨by rw [size]; exact Utf8.size_pos code, Nat.le_refl _⟩,
    List.take_length, decoded]

theorem utf8Unicode_inverse : utf8Unicode.Inverse where
  read_write code small := utf8Unicode_reads (by omega)
  write_read input code bytes read := by
    obtain ⟨-, pair⟩ := Option.ite_none_right_eq_some.mp read
    obtain ⟨rfl, -⟩ := Prod.mk.inj (Option.some.inj pair)
    exact utf8Unicode_reads (Utf8.decode_lt _)

/-- A euro sign comes back. -/
theorem euro_round_trips : RoundTrips utf8Unicode [Char.ofNat 0x20AC, Char.ofNat 0] 4 8 := by
  refine (roundTrips_iff utf8Unicode utf8Unicode_lawful utf8Unicode_inverse
    [Char.ofNat 0x20AC, Char.ofNat 0] 4 8 (by decide) (by decide)).mpr ⟨?_, ?_⟩
  · rw [List.forall_mem_cons, List.forall_mem_singleton]
    decide
  · change ∀ char ∈ [Char.ofNat 0x20AC], char.toNat ≠ 0
    rw [List.forall_mem_singleton]
    decide

/-- A character of the supplementary planes comes back as another one. -/
theorem supplementary_is_lost : ¬ RoundTrips utf8Unicode [Char.ofNat 0x1F600] 2 4 := by
  intro trips
  have same := (roundTrips_iff_encode utf8Unicode_lawful utf8Unicode_inverse (by decide)
    (by decide)).mp trips
  exact absurd same (by decide)

end

end GuacNebula.Common
