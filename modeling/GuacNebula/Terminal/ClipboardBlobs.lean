import GuacNebula.Common.Iconv

/-! # Blobs of clipboard data

The clipboard data of a user arrives in blobs. Each blob is converted on its own, with the line
endings normalized, and the result is appended to the clipboard of the terminal.

The conversion carries nothing from one blob to the next. Where the data is cut between two
characters, the blobs are converted to the parts of one text. A cut through a character leaves bytes
that cannot be read, and a cut after a carriage return hides the character after it.
-/

namespace GuacNebula.Terminal

open Common

/-- `guac_terminal_clipboard_reset`. -/
def clipboardReset (clipboard : Clipboard) (mimetype : List UInt8) : Clipboard :=
  clipboard.reset mimetype

/-- `guac_terminal_clipboard_append`. There is no result if the conversion does not end. -/
def clipboardAppend (unicode : Unicode) (unset : Int) (clipboard : Clipboard)
    (data : List UInt8) : Option Clipboard :=
  (iconv (readUtf8Normalized unicode unset) (writeUtf8 unicode) data clipboardMaxLength).map
    fun converted => clipboard.append converted.2

/-- The clipboard after the blobs of a stream. -/
def receiveBlobs (unicode : Unicode) (unset : Int) (clipboard : Clipboard) :
    List (List UInt8) → Option Clipboard
  | [] => some clipboard
  | blob :: blobs =>
    (clipboardAppend unicode unset clipboard blob).bind fun clipboard =>
      receiveBlobs unicode unset clipboard blobs

/-- Both ways to receive the data end with the same clipboard contents. -/
def SameContents (unicode : Unicode) (clipboard : Clipboard) (mimetype : List UInt8)
    (first second : List (List UInt8)) : Prop :=
  ∀ unset : Int, ∃ left right,
    receiveBlobs unicode unset (clipboardReset clipboard mimetype) first = some left ∧
      receiveBlobs unicode unset (clipboardReset clipboard mimetype) second = some right ∧
        left.buffer = right.buffer

/-- Every cut of the data lies between two characters of it, where a line ending of two characters
counts as one, and no character before a cut is a carriage return. -/
def CutsBetween (unicode : Unicode) : List (List UInt8) → Prop
  | [] => True
  | blob :: blobs =>
    (∃ text, unicode.Reads true (blob ++ blobs.flatten) text blobs.flatten ∧
      (blobs.flatten = [] ∨ text.getLast? ≠ some 13)) ∧ CutsBetween unicode blobs

/-- The UTF-8 encoding of a text. -/
def encodeUtf8 (unicode : Unicode) (text : List Nat) : List UInt8 :=
  text.flatMap fun char : Nat => unicode.utf8Write (char : Int) 4

/-- The data is a text that the clipboard has room for, without a null character before its end. -/
def FitsClipboard (unicode : Unicode) (data : List UInt8) : Prop :=
  ∃ text, unicode.Reads true data text [] ∧ 0 ∉ text.dropLast ∧
    (encodeUtf8 unicode text).length ≤ clipboardMaxLength

/-- The data is a text that the clipboard has room for, or whose first part fills it, and this part
has no null character before its end. -/
def KeptWhole (unicode : Unicode) (data : List UInt8) : Prop :=
  ∃ kept dropped, unicode.Reads true data (kept ++ dropped) [] ∧ 0 ∉ kept.dropLast ∧
    (encodeUtf8 unicode kept).length ≤ clipboardMaxLength ∧
      (dropped = [] ∨ (encodeUtf8 unicode kept).length = clipboardMaxLength)

/-! ## Conversion -/

/-- The reader takes the values off the input and leaves the rest. -/
inductive Takes (reader : IconvRead) : List UInt8 → List Nat → List UInt8 → Prop where
  | nil (input : List UInt8) : Takes reader input [] input
  | cons {input rest left : List UInt8} {value : Nat} {values : List Nat}
      (read : reader input = ((value : Int), rest)) (shorter : rest.length < input.length)
      (more : Takes reader rest values left) : Takes reader input (value :: values) left

variable {unicode : Unicode} {reader : IconvRead}

theorem encodeUtf8_cons (char : Nat) (text : List Nat) :
    encodeUtf8 unicode (char :: text) = unicode.utf8Write char 4 ++ encodeUtf8 unicode text :=
  rfl

theorem encodeUtf8_append (front back : List Nat) :
    encodeUtf8 unicode (front ++ back) = encodeUtf8 unicode front ++ encodeUtf8 unicode back :=
  List.flatMap_append

theorem writeUtf8_char (lawful : unicode.Lawful) {char room : Nat}
    (fits : (unicode.utf8Write char 4).length ≤ room) :
    writeUtf8 unicode room char = unicode.utf8Write char 4 :=
  (lawful.write_eq char room).trans (if_pos fits)

/-- A turn of the loop on input with a first value. -/
theorem iconvLoop_takes {writer : IconvWrite} (fuel : Nat) {input rest : List UInt8} {value : Nat}
    (read : reader input = ((value : Int), rest)) (shorter : rest.length < input.length)
    {room : Nat} (room_pos : 0 < room) :
    iconvLoop reader writer (fuel + 1) input room =
      if value = 0 then some (true, writer room value)
      else
        (iconvLoop reader writer fuel rest (room - (writer room value).length)).map fun result =>
          (result.1, writer room value ++ result.2) := by
  have pending : input ≠ [] := List.ne_nil_of_length_pos (Nat.zero_lt_of_lt shorter)
  rw [iconvLoop_succ fuel pending (Nat.pos_iff_ne_zero.mp room_pos), read]
  exact ite_congr (propext Int.natCast_eq_zero) (fun _ => rfl) (fun _ => rfl)

/-- Input that can be read to its end is converted. -/
theorem Takes.iconvLoop_returns {writer : IconvWrite} {input : List UInt8} {values : List Nat}
    (takes : Takes reader input values []) {fuel : Nat} (enough : values.length < fuel)
    (room : Nat) : ∃ result, iconvLoop reader writer fuel input room = some result := by
  induction values generalizing input fuel room with
  | nil =>
    obtain ⟨fuel, rfl⟩ : ∃ less, fuel = less + 1 := ⟨fuel - 1, by omega⟩
    cases takes
    exact ⟨_, iconvLoop_done fuel (Or.inl rfl)⟩
  | cons value values ih =>
    obtain ⟨fuel, rfl⟩ : ∃ less, fuel = less + 1 := ⟨fuel - 1, by omega⟩
    rw [List.length_cons] at enough
    by_cases full : room = 0
    · exact ⟨_, iconvLoop_done fuel (Or.inr full)⟩
    cases takes with
    | cons read shorter more =>
      rw [iconvLoop_takes fuel read shorter (Nat.pos_of_ne_zero full)]
      split
      · exact ⟨_, rfl⟩
      · obtain ⟨result, ran⟩ :=
          ih more (Nat.lt_of_succ_lt_succ enough) (room - (writer room value).length)
        rw [ran]
        exact ⟨_, rfl⟩

/-- The converted text begins with the encoding of the part that has room. -/
theorem Takes.iconvLoop_kept (lawful : unicode.Lawful) {input : List UInt8}
    {kept more : List Nat} (takes : Takes reader input (kept ++ more) [])
    (nonnull : 0 ∉ kept.dropLast) {room : Nat} (fits : (encodeUtf8 unicode kept).length ≤ room)
    {fuel : Nat} (enough : (kept ++ more).length < fuel) :
    ∃ null extra, iconvLoop reader (writeUtf8 unicode) fuel input room =
      some (null, encodeUtf8 unicode kept ++ extra) ∧ (more = [] → extra = []) := by
  induction kept generalizing input room fuel with
  | nil =>
    obtain ⟨⟨null, extra⟩, ran⟩ := takes.iconvLoop_returns enough room
    refine ⟨null, extra, ran, ?_⟩
    rintro rfl
    obtain ⟨fuel, rfl⟩ : ∃ less, fuel = less + 1 := ⟨fuel - 1, by omega⟩
    cases takes
    rw [iconvLoop_done fuel (Or.inl rfl)] at ran
    cases ran
    rfl
  | cons value kept ih =>
    obtain ⟨fuel, rfl⟩ : ∃ less, fuel = less + 1 := ⟨fuel - 1, by omega⟩
    have positive := lawful.write_pos value
    rw [encodeUtf8_cons, List.length_append] at fits
    have written : writeUtf8 unicode room value = unicode.utf8Write value 4 :=
      writeUtf8_char lawful (by omega)
    rw [List.cons_append] at takes enough
    rw [List.length_cons] at enough
    cases takes with
    | cons read shorter rest =>
      rw [iconvLoop_takes fuel read shorter (by omega), written]
      split
      case isTrue null =>
        subst null
        have last : kept = [] := by
          cases kept with
          | nil => rfl
          | cons next kept => exact absurd List.mem_cons_self nonnull
        subst last
        have whole : encodeUtf8 unicode [0] = unicode.utf8Write 0 4 := List.append_nil _
        exact ⟨true, [], by rw [whole, List.append_nil]; rfl, fun _ => rfl⟩
      case isFalse =>
        have inner : 0 ∉ kept.dropLast := by
          cases kept with
          | nil => exact List.not_mem_nil
          | cons next kept => exact fun member => nonnull (List.mem_cons_of_mem _ member)
        have left : (encodeUtf8 unicode kept).length ≤
            room - (unicode.utf8Write value 4).length := by omega
        obtain ⟨null, extra, ran, whole⟩ := ih rest inner left (Nat.lt_of_succ_lt_succ enough)
        rw [ran]
        exact ⟨null, extra, by rw [encodeUtf8_cons, List.append_assoc]; rfl, whole⟩

theorem Takes.length_le {input left : List UInt8} {values : List Nat}
    (takes : Takes reader input values left) : values.length + left.length ≤ input.length := by
  induction takes with
  | nil => exact Nat.le_of_eq (Nat.zero_add _)
  | cons read shorter _ ih =>
    rw [List.length_cons]
    omega

/-- A blob that reads to its end appends the encoding of the part that has room. -/
theorem clipboardAppend_takes (lawful : unicode.Lawful) {unset : Int} {blob : List UInt8}
    {kept more : List Nat} (takes : Takes (readUtf8As unicode unset true) blob (kept ++ more) [])
    (nonnull : 0 ∉ kept.dropLast) (fits : (encodeUtf8 unicode kept).length ≤ clipboardMaxLength)
    (clipboard : Clipboard) :
    ∃ extra, clipboardAppend unicode unset clipboard blob =
      some (clipboard.append (encodeUtf8 unicode kept ++ extra)) ∧ (more = [] → extra = []) := by
  have enough : (kept ++ more).length < blob.length + clipboardMaxLength + 1 := by
    have short := takes.length_le
    omega
  obtain ⟨null, extra, ran, whole⟩ := takes.iconvLoop_kept lawful nonnull fits enough
  refine ⟨extra, ?_, whole⟩
  have converted : iconv (readUtf8Normalized unicode unset) (writeUtf8 unicode) blob
      clipboardMaxLength = some (null, encodeUtf8 unicode kept ++ extra) := ran
  unfold clipboardAppend
  rw [converted, Option.map_some]

theorem not_mem_dropLast_append {front back : List Nat} (nonnull : 0 ∉ (front ++ back).dropLast) :
    0 ∉ front.dropLast ∧ 0 ∉ back.dropLast := by
  by_cases empty : back = []
  · subst empty
    rw [List.append_nil] at nonnull
    exact ⟨nonnull, List.not_mem_nil⟩
  · rw [List.dropLast_append_of_ne_nil empty] at nonnull
    exact ⟨fun member => nonnull (List.mem_append_left _ (List.dropLast_subset _ member)),
      fun member => nonnull (List.mem_append_right _ member)⟩

theorem Clipboard.append_fits {clipboard : Clipboard} {data : List UInt8}
    (fits : clipboard.buffer.length + data.length ≤ clipboardMaxLength) :
    (clipboard.append data).buffer = clipboard.buffer ++ data := by
  rw [Clipboard.append_buffer]
  exact List.take_of_length_le (by rwa [List.length_append])

/-- Blobs that read to their ends append the encoding of the part of the text that has room. -/
theorem receiveBlobs_kept (lawful : unicode.Lawful) {unset : Int} {blobs : List (List UInt8)}
    {parts : List (List Nat)}
    (taken : List.Forall₂ (fun blob part => Takes (readUtf8As unicode unset true) blob part [])
      blobs parts)
    {kept dropped : List Nat} (joined : parts.flatten = kept ++ dropped)
    (nonnull : 0 ∉ kept.dropLast) (clipboard : Clipboard)
    (fits : clipboard.buffer.length + (encodeUtf8 unicode kept).length ≤ clipboardMaxLength)
    (full : dropped = [] ∨
      clipboard.buffer.length + (encodeUtf8 unicode kept).length = clipboardMaxLength) :
    ∃ after, receiveBlobs unicode unset clipboard blobs = some after ∧
      after.buffer = clipboard.buffer ++ encodeUtf8 unicode kept := by
  induction taken generalizing kept dropped clipboard with
  | nil =>
    obtain ⟨rfl, -⟩ := List.append_eq_nil_iff.mp joined.symm
    exact ⟨clipboard, rfl, (List.append_nil _).symm⟩
  | @cons blob part blobs parts takes taken ih =>
    rw [List.flatten_cons] at joined
    rcases List.append_eq_append_iff.mp joined with ⟨rest, rfl, split⟩ | ⟨more, rfl, split⟩
    · -- the blob lies within the part that has room
      obtain ⟨partNonnull, restNonnull⟩ := not_mem_dropLast_append nonnull
      rw [encodeUtf8_append, List.length_append] at fits full
      rw [← List.append_nil part] at takes
      obtain ⟨extra, appended, whole⟩ :=
        clipboardAppend_takes lawful takes partNonnull (by omega) clipboard
      rw [whole rfl, List.append_nil] at appended
      have buffer : (clipboard.append (encodeUtf8 unicode part)).buffer =
          clipboard.buffer ++ encodeUtf8 unicode part := Clipboard.append_fits (by omega)
      have length := congrArg List.length buffer
      rw [List.length_append] at length
      obtain ⟨after, received, contents⟩ := ih split restNonnull
        (clipboard.append (encodeUtf8 unicode part)) (by omega)
        (full.imp_right fun all => by omega)
      refine ⟨after, ?_, ?_⟩
      · unfold receiveBlobs
        rw [appended]
        exact received
      · rw [contents, buffer, encodeUtf8_append, List.append_assoc]
    · -- the blob reaches to the end of that part at least
      obtain ⟨extra, appended, whole⟩ := clipboardAppend_takes lawful takes nonnull
        (Nat.le_of_add_left_le fits) clipboard
      have buffer : (clipboard.append (encodeUtf8 unicode kept ++ extra)).buffer =
          clipboard.buffer ++ encodeUtf8 unicode kept := by
        rcases full with empty | all
        · obtain ⟨rfl, -⟩ := List.append_eq_nil_iff.mp (split.symm.trans empty)
          rw [whole rfl, List.append_nil]
          exact Clipboard.append_fits fits
        · rw [Clipboard.append_buffer, ← List.append_assoc, List.take_left']
          rw [List.length_append, all]
      have length := congrArg List.length buffer
      rw [List.length_append] at length
      have rest : dropped = [] ∨ (clipboard.append (encodeUtf8 unicode kept ++ extra)).buffer.length
          = clipboardMaxLength := full.imp_right fun all => length.trans all
      have restFull : parts.flatten = [] ∨
          (clipboard.append (encodeUtf8 unicode kept ++ extra)).buffer.length +
            (encodeUtf8 unicode []).length = clipboardMaxLength := by
        apply rest.imp_left
        intro empty
        exact (List.append_eq_nil_iff.mp (split.symm.trans empty)).2
      obtain ⟨after, received, contents⟩ := ih (List.nil_append _).symm List.not_mem_nil
        (clipboard.append (encodeUtf8 unicode kept ++ extra)) (Clipboard.length_le _) restFull
      refine ⟨after, ?_, ?_⟩
      · unfold receiveBlobs
        rw [appended]
        exact received
      · rw [contents, buffer]
        exact List.append_nil _

/-! ## Cuts between characters -/

theorem Takes.append {input middle left : List UInt8} {front back : List Nat}
    (first : Takes reader input front middle) (second : Takes reader middle back left) :
    Takes reader input (front ++ back) left := by
  induction first with
  | nil => exact second
  | cons read shorter _ ih => exact .cons read shorter (ih second)

/-- The characters before a cut are taken as in the whole data, unless the last one is a carriage
return and no character is seen after it. -/
theorem Reads.takes_take (lawful : unicode.Lawful) {unset : Int} {data middle : List UInt8}
    {text : List Nat} (reads : unicode.Reads true data text middle) {count : Nat}
    (within : data.length ≤ middle.length + count)
    (seen : text.getLast? ≠ some 13 ∨
      unicode.utf8Read (middle.take (middle.length + count - data.length)) ≠ none ∨ unset ≠ 10) :
    Takes (readUtf8As unicode unset true) (data.take count) text
      (middle.take (middle.length + count - data.length)) := by
  induction reads generalizing count with
  | nil input =>
    rw [Nat.add_sub_cancel_left]
    exact .nil _
  | @cons data rest middle char text first more ih =>
    have long : middle.length ≤ rest.length := Nat.le_of_add_left_le more.length_le
    have shorter := Unicode.firstChar_length first
    have cut := lawful.firstChar_take first (Nat.le_trans within (Nat.add_le_add_right long count))
    have same : middle.length + (rest.length + count - data.length) - rest.length =
        middle.length + count - data.length := by omega
    have inside : rest.length ≤ middle.length + (rest.length + count - data.length) := by omega
    have inner := ih inside
    rw [same] at inner
    have short : (rest.take (rest.length + count - data.length)).length <
        (data.take count).length := by
      rw [List.length_take, List.length_take]
      omega
    cases more with
    | nil =>
      have seen : char ≠ 13 ∨
          unicode.utf8Read (rest.take (rest.length + count - data.length)) ≠ none ∨ unset ≠ 10 := by
        apply seen.imp_left
        intro last returns
        exact last (congrArg some returns)
      exact .cons (readUtf8As_some cut seen) short (.nil _)
    | @cons _ after _ next text second more =>
      have long := more.length_le
      have again := lawful.firstChar_take second
        (Nat.le_trans inside (Nat.add_le_add_right (Nat.le_of_add_left_le long) _))
      have peeked := (Unicode.Reads.cons again (.nil _)).utf8Read_ne_none (List.cons_ne_nil _ _)
      refine .cons (readUtf8As_some cut (Or.inr (Or.inl peeked))) short (inner ?_)
      rwa [List.getLast?_cons_cons] at seen

theorem Reads.takes (lawful : unicode.Lawful) {unset : Int} {blob part rest : List UInt8}
    {text : List Nat} (reads : unicode.Reads true (blob ++ rest) text (part ++ rest))
    (seen : text.getLast? ≠ some 13 ∨ unicode.utf8Read part ≠ none ∨ unset ≠ 10) :
    Takes (readUtf8As unicode unset true) blob text part := by
  have size : (part ++ rest).length + blob.length - (blob ++ rest).length = part.length := by
    rw [List.length_append, List.length_append]
    omega
  have within : (blob ++ rest).length ≤ (part ++ rest).length + blob.length := by
    rw [List.length_append, List.length_append]
    omega
  have cut : (part ++ rest).take part.length = part := List.take_left
  have taken := Reads.takes_take lawful reads within (by rwa [size, cut])
  rwa [size, cut, List.take_left] at taken

/-- What is taken for the text when a carriage return at its end meets the variable as it was. -/
def settled (unset : Int) (text : List Nat) : List Nat :=
  if unset = 10 ∧ text.getLast? = some 13 then text.dropLast ++ [10] else text

theorem settled_append (unset : Int) (front : List Nat) {back : List Nat} (nonempty : back ≠ []) :
    settled unset (front ++ back) = front ++ settled unset back := by
  unfold settled
  rw [List.getLast?_append_of_ne_nil _ nonempty, List.dropLast_append_of_ne_nil nonempty]
  split
  · rw [List.append_assoc]
  · rfl

/-- The whole data is taken as its text. -/
theorem Reads.takes_settled (lawful : unicode.Lawful) (unset : Int) {data : List UInt8}
    {text : List Nat} (reads : unicode.Reads true data text []) :
    Takes (readUtf8As unicode unset true) data (settled unset text) [] := by
  unfold settled
  split
  case isFalse other =>
    have seen : text.getLast? ≠ some 13 ∨ unicode.utf8Read [] ≠ none ∨ unset ≠ 10 := by
      by_cases line : unset = 10
      · exact Or.inl fun last => other ⟨line, last⟩
      · exact Or.inr (Or.inr line)
    rw [← List.append_nil data] at reads
    exact Reads.takes lawful reads seen
  case isTrue both =>
    obtain ⟨rfl, last⟩ := both
    obtain ⟨front, rfl⟩ := List.getLast?_eq_some_iff.mp last
    obtain ⟨middle, before, after⟩ := Unicode.Reads.append_iff.mp reads
    have seen := after.utf8Read_ne_none (List.cons_ne_nil _ _)
    rw [← List.append_nil data, ← List.append_nil middle] at before
    rw [List.dropLast_concat]
    apply (Reads.takes lawful before (Or.inr (Or.inl seen))).append
    cases after with
    | cons first more =>
      cases more
      exact .cons (readUtf8As_last first Unicode.utf8Read_nil) (Unicode.firstChar_length first)
        (.nil [])

/-- The blobs are taken as the parts of the text. -/
theorem CutsBetween.takes (lawful : unicode.Lawful) (unset : Int) {blobs : List (List UInt8)}
    (cuts : CutsBetween unicode blobs) {text : List Nat}
    (reads : unicode.Reads true blobs.flatten text []) :
    ∃ parts : List (List Nat),
      List.Forall₂ (fun blob part => Takes (readUtf8As unicode unset true) blob part []) blobs
        parts ∧ parts.flatten = settled unset text := by
  induction blobs generalizing text with
  | nil =>
    cases reads with
    | nil => exact ⟨[], .nil, by unfold settled; simp⟩
    | cons first more =>
      rw [List.flatten_nil, Unicode.firstChar_nil] at first
      cases first
  | cons blob blobs ih =>
    obtain ⟨⟨front, before, last⟩, cuts⟩ := cuts
    rw [List.flatten_cons] at reads
    obtain ⟨back, rfl, after⟩ := before.continue reads
    obtain ⟨parts, taken, joined⟩ := ih cuts after
    by_cases rest : blobs.flatten = []
    · rw [rest] at before after
      cases after with
      | cons first more =>
        rw [Unicode.firstChar_nil] at first
        cases first
      | nil =>
        rw [List.append_nil] at before ⊢
        refine ⟨settled unset front :: parts,
          .cons (Reads.takes_settled lawful unset before) taken, ?_⟩
        rw [List.flatten_cons, joined]
        unfold settled
        simp
    · have seen := last.resolve_left rest
      have nonempty : back ≠ [] := by
        rintro rfl
        exact rest after.eq_of_nil.symm
      refine ⟨front :: parts, .cons (Reads.takes lawful before (Or.inl seen)) taken, ?_⟩
      rw [List.flatten_cons, joined, settled_append unset front nonempty]

theorem encodeUtf8_settled (lawful : unicode.Lawful) (unset : Int) (text : List Nat) :
    (encodeUtf8 unicode (settled unset text)).length = (encodeUtf8 unicode text).length := by
  unfold settled
  split
  case isFalse => rfl
  case isTrue both =>
    obtain ⟨front, rfl⟩ := List.getLast?_eq_some_iff.mp both.2
    have single : ∀ char : Nat, char < 128 → (encodeUtf8 unicode [char]).length = 1 := by
      intro char ascii
      rw [encodeUtf8_cons, lawful.write_ascii char ascii]
      rfl
    rw [List.dropLast_concat, encodeUtf8_append, encodeUtf8_append, List.length_append,
      List.length_append, single 10 (by decide), single 13 (by decide)]

theorem dropLast_settled (unset : Int) (text : List Nat) :
    (settled unset text).dropLast = text.dropLast := by
  unfold settled
  split
  · exact List.dropLast_concat
  · rfl

/-- The contents after blobs that are cut between characters do not depend on the cuts. -/
theorem KeptWhole.contents (lawful : unicode.Lawful) {data : List UInt8}
    (whole : KeptWhole unicode data) (unset : Int) :
    ∃ contents : List UInt8, ∀ (clipboard : Clipboard) (blobs : List (List UInt8)),
      clipboard.buffer = [] → blobs.flatten = data → CutsBetween unicode blobs →
        ∃ after, receiveBlobs unicode unset clipboard blobs = some after ∧
          after.buffer = contents := by
  obtain ⟨kept, dropped, reads, nonnull, fits, full⟩ := whole
  obtain ⟨front, back, split, size, inner, rest⟩ : ∃ front back,
      settled unset (kept ++ dropped) = front ++ back ∧
        (encodeUtf8 unicode front).length = (encodeUtf8 unicode kept).length ∧
          0 ∉ front.dropLast ∧ (dropped = [] → back = []) := by
    by_cases empty : dropped = []
    · subst empty
      refine ⟨settled unset kept, [], ?_, encodeUtf8_settled lawful unset kept, ?_, fun _ => rfl⟩
      · rw [List.append_nil, List.append_nil]
      · rwa [dropLast_settled]
    · exact ⟨kept, settled unset dropped, settled_append unset kept empty, rfl, nonnull,
        fun none => absurd none empty⟩
  refine ⟨encodeUtf8 unicode front, ?_⟩
  intro clipboard blobs start joined cuts
  subst joined
  obtain ⟨parts, taken, flat⟩ := cuts.takes lawful unset reads
  have none : clipboard.buffer.length = 0 := congrArg List.length start
  obtain ⟨after, received, contents⟩ := receiveBlobs_kept lawful taken (flat.trans split) inner
    clipboard (by omega) ((full.imp rest fun all => by omega))
  rw [start] at contents
  exact ⟨after, received, contents⟩

/-! ## Cuts elsewhere -/

theorem cutsBetween_of_empty {blobs : List (List UInt8)} (empty : blobs.flatten = []) :
    CutsBetween unicode blobs := by
  induction blobs with
  | nil => trivial
  | cons blob blobs ih =>
    rw [List.flatten_cons, List.append_eq_nil_iff] at empty
    obtain ⟨rfl, empty⟩ := empty
    exact ⟨⟨[], .nil _, Or.inl empty⟩, ih empty⟩

/-- A cut lies between two characters or within one. -/
theorem Reads.position {blob rest : List UInt8} {text : List Nat}
    (reads : unicode.Reads true (blob ++ rest) text []) :
    (∃ front, unicode.Reads true (blob ++ rest) front rest) ∨
      ∃ front char part after, part ≠ [] ∧
        unicode.Reads true (blob ++ rest) front (part ++ rest) ∧
          unicode.firstChar true (part ++ rest) = some (char, after) ∧
            after.length < rest.length := by
  generalize whole : blob ++ rest = data at reads
  induction text generalizing blob data with
  | nil =>
    cases reads
    obtain ⟨rfl, rfl⟩ := List.append_eq_nil_iff.mp whole
    exact Or.inl ⟨[], .nil []⟩
  | cons char text ih =>
    subst whole
    cases reads with
    | @cons _ after _ _ _ first more =>
      by_cases empty : blob = []
      · subst empty
        exact Or.inl ⟨[], .nil rest⟩
      by_cases within : after.length < rest.length
      · exact Or.inr ⟨[], char, blob, after, empty, .nil _, first, within⟩
      obtain ⟨blob', same⟩ := List.suffix_of_suffix_length_le (List.suffix_append blob rest)
        (Unicode.firstChar_suffix first) (Nat.le_of_not_lt within)
      rcases ih _ same more with ⟨front, before⟩ |
        ⟨front, next, part, left, pending, before, cut⟩
      · exact Or.inl ⟨char :: front, .cons first before⟩
      · exact Or.inr ⟨char :: front, next, part, left, pending, .cons first before, cut⟩

/-- What is put out before a place that the conversion reaches. -/
theorem Takes.iconvLoop_before (lawful : unicode.Lawful) {input part : List UInt8}
    {front : List Nat} (takes : Takes reader input front part) (nonnull : 0 ∉ front) {room : Nat}
    (fits : (encodeUtf8 unicode front).length ≤ room) {fuel : Nat} {null : Bool}
    {output : List UInt8}
    (ran : iconvLoop reader (writeUtf8 unicode) fuel input room = some (null, output)) :
    ∃ fuel more, iconvLoop reader (writeUtf8 unicode) fuel part
      (room - (encodeUtf8 unicode front).length) = some (null, more) ∧
        output = encodeUtf8 unicode front ++ more := by
  induction takes generalizing fuel room output with
  | nil input => exact ⟨fuel, output, ran, rfl⟩
  | @cons input rest left value values read shorter takes ih =>
    cases fuel with
    | zero => cases ran
    | succ fuel =>
      have positive := lawful.write_pos value
      have other : value ≠ 0 := fun null => nonnull (null ▸ List.mem_cons_self)
      rw [encodeUtf8_cons, List.length_append] at fits
      rw [iconvLoop_takes fuel read shorter (by omega), if_neg other,
        writeUtf8_char lawful (by omega)] at ran
      obtain ⟨⟨last, result⟩, turns, same⟩ := Option.map_eq_some_iff.mp ran
      cases same
      have inner : 0 ∉ values := fun member => nonnull (List.mem_cons_of_mem _ member)
      obtain ⟨fuel, more, ran, rfl⟩ := ih inner (by omega) turns
      refine ⟨fuel, more, ?_, ?_⟩
      · rw [encodeUtf8_cons, List.length_append, ← Nat.sub_sub]
        exact ran
      · rw [encodeUtf8_cons, List.append_assoc]

theorem receiveBlobs_extends {unset : Int} {clipboard after : Clipboard}
    {blobs : List (List UInt8)}
    (received : receiveBlobs unicode unset clipboard blobs = some after) :
    clipboard.buffer <+: after.buffer := by
  induction blobs generalizing clipboard with
  | nil =>
    cases received
    exact List.prefix_rfl
  | cons blob blobs ih =>
    obtain ⟨middle, appended, received⟩ := Option.bind_eq_some_iff.mp received
    obtain ⟨converted, -, rfl⟩ := Option.map_eq_some_iff.mp appended
    exact (List.prefix_append _ _).trans (ih received)

/-- The value that follows what a blob is certain to have is found in the clipboard. -/
theorem received_next (lawful : unicode.Lawful) {unset : Int} {blob part : List UInt8}
    {front : List Nat} {value : Nat}
    (takes : Takes (readUtf8As unicode unset true) blob front part) (nonnull : 0 ∉ front)
    (pending : part ≠ []) (read : (readUtf8As unicode unset true part).1 = value)
    (ascii : value < 128) {clipboard after : Clipboard}
    {blobs : List (List UInt8)}
    (room : clipboard.buffer.length + (encodeUtf8 unicode front).length < clipboardMaxLength)
    (received : receiveBlobs unicode unset clipboard (blob :: blobs) = some after) :
    clipboard.buffer ++ (encodeUtf8 unicode front ++ [UInt8.ofNat value]) <+: after.buffer := by
  obtain ⟨middle, appended, received⟩ := Option.bind_eq_some_iff.mp received
  obtain ⟨⟨null, output⟩, ran, rfl⟩ := Option.map_eq_some_iff.mp appended
  obtain ⟨fuel, more, ran, rfl⟩ := takes.iconvLoop_before lawful nonnull (by omega) ran
  apply List.IsPrefix.trans _ (receiveBlobs_extends received)
  have code : unicode.utf8Write value 4 = [UInt8.ofNat value] := lawful.write_ascii value ascii
  have left : 0 < clipboardMaxLength - (encodeUtf8 unicode front).length := by omega
  have written : writeUtf8 unicode (clipboardMaxLength - (encodeUtf8 unicode front).length) value =
      [UInt8.ofNat value] := by
    rw [← code]
    exact writeUtf8_char lawful (by rw [code]; exact left)
  -- the next turn puts out the value
  obtain ⟨tail, rfl⟩ : ∃ tail, more = UInt8.ofNat value :: tail := by
    cases fuel with
    | zero => cases ran
    | succ fuel =>
      rw [iconvLoop_succ fuel pending (Nat.pos_iff_ne_zero.mp left), read, written] at ran
      split at ran
      · cases ran
        exact ⟨[], rfl⟩
      · obtain ⟨⟨last, result⟩, turns, same⟩ := Option.map_eq_some_iff.mp ran
        cases same
        exact ⟨result, rfl⟩
  rw [Clipboard.append_buffer]
  apply List.prefix_take_iff.mpr
  refine ⟨⟨tail, ?_⟩, ?_⟩
  · rw [List.append_assoc, List.append_assoc, List.singleton_append]
  · rw [List.length_append, List.length_append, List.length_singleton]
    omega

/-- Where a character is cut, the reader finds another one for some value of the variable. -/
theorem cut_read (lawful : unicode.Lawful) {part rest after : List UInt8} {char : Nat}
    (first : unicode.firstChar true (part ++ rest) = some (char, after))
    (within : after.length < rest.length) :
    ∃ (unset : Int) (value : Nat), unset ≠ 10 ∧ value < 128 ∧
      (readUtf8As unicode unset true part).1 = value ∧
        ¬[UInt8.ofNat value] <+: unicode.utf8Write char 4 := by
  cases read : unicode.utf8Read part with
  | none =>
    have short (unset : Int) : (readUtf8As unicode unset true part).1 = unset := by
      rw [readUtf8As_none (Unicode.firstChar_eq_none.mpr read)]
    by_cases same : [UInt8.ofNat 65] <+: unicode.utf8Write char 4
    · refine ⟨66, 66, by decide, by decide, short 66, ?_⟩
      intro again
      exact absurd (List.prefix_of_prefix_length_le same again (Nat.le_refl 1)) (by decide)
    · exact ⟨65, 65, by decide, by decide, short 65, same⟩
  | some result =>
    obtain ⟨value, bytes⟩ := result
    have taken : part = (part ++ rest).take part.length := List.take_left.symm
    obtain ⟨whole, bound⟩ := (lawful.read_take _ _ _ _).mp (taken ▸ read)
    unfold Unicode.firstChar at first
    rw [whole] at first
    dsimp only at first
    have long : ((part ++ rest).drop bytes).length ≥ rest.length := by
      rw [List.length_drop, List.length_append]
      omega
    split_ifs at first with both
    case neg =>
      cases first
      omega
    obtain ⟨-, rfl⟩ := both
    split at first
    case h_2 =>
      cases first
      omega
    case h_1 more next =>
      cases first
      -- the carriage return has lost its line feed
      have lone : unicode.firstChar true part = some (13, part.drop bytes) := by
        unfold Unicode.firstChar
        rw [read]
        dsimp only
        rw [if_pos ⟨rfl, rfl⟩]
        split
        case h_2 => rfl
        case h_1 other peek =>
          have cut : part.drop bytes = ((part ++ rest).drop bytes).take (part.length - bytes) := by
            rw [List.drop_append_of_le_length bound, List.take_left' List.length_drop]
          obtain ⟨again, inside⟩ := (lawful.read_take _ _ _ _).mp (cut ▸ peek)
          cases next.symm.trans again
          rw [List.length_drop, List.length_drop, List.length_append] at within
          omega
      refine ⟨65, 13, by decide, by decide, ?_, ?_⟩
      · rw [readUtf8As_some lone (Or.inr (Or.inr (by decide)))]
      · rw [lawful.write_ascii 10 (by decide)]
        decide

/-- Another value at a place of the text leads to other contents. -/
theorem received_other (lawful : unicode.Lawful) {unset : Int} {blob part : List UInt8}
    {front tail : List Nat} {char value : Nat}
    (takes : Takes (readUtf8As unicode unset true) blob front part) (nonnull : 0 ∉ front)
    (pending : part ≠ []) (read : (readUtf8As unicode unset true part).1 = value)
    (ascii : value < 128) (other : ¬[UInt8.ofNat value] <+: unicode.utf8Write char 4)
    {clipboard after : Clipboard} {blobs : List (List UInt8)}
    (fits : clipboard.buffer.length + (encodeUtf8 unicode (front ++ char :: tail)).length ≤
      clipboardMaxLength)
    (received : receiveBlobs unicode unset clipboard (blob :: blobs) = some after) :
    after.buffer ≠ clipboard.buffer ++ encodeUtf8 unicode (front ++ char :: tail) := by
  intro contents
  have positive := lawful.write_pos char
  rw [encodeUtf8_append, encodeUtf8_cons] at contents fits
  rw [List.length_append, List.length_append] at fits
  have found := received_next lawful takes nonnull pending read ascii (by omega) received
  rw [contents] at found
  have inside := (List.prefix_append_right_inj _).mp ((List.prefix_append_right_inj _).mp found)
  exact other (List.prefix_of_prefix_length_le inside (List.prefix_append _ _) positive)

/-- A carriage return in front of a cut is not taken for the line feed of a pair. -/
theorem not_return_of_received (lawful : unicode.Lawful) {blob : List UInt8}
    {blobs : List (List UInt8)} {front back : List Nat}
    (before : unicode.Reads true (blob ++ blobs.flatten) front blobs.flatten)
    (nonempty : back ≠ []) (nonnull : 0 ∉ front) {clipboard after : Clipboard}
    (fits : clipboard.buffer.length + (encodeUtf8 unicode (front ++ back)).length ≤
      clipboardMaxLength)
    (ran : receiveBlobs unicode 10 clipboard (blob :: blobs) = some after)
    (contents : after.buffer =
      clipboard.buffer ++ encodeUtf8 unicode (settled 10 (front ++ back))) :
    front.getLast? ≠ some 13 := by
  intro last
  obtain ⟨front, rfl⟩ := List.getLast?_eq_some_iff.mp last
  obtain ⟨middle, start, line⟩ := Unicode.Reads.append_iff.mp before
  cases line with
  | cons first more =>
    cases more
    obtain ⟨part, rfl⟩ := Unicode.firstChar_suffix first
    have size : blobs.flatten.length + part.length - (part ++ blobs.flatten).length = 0 := by
      rw [List.length_append]
      omega
    have alone := lawful.firstChar_take first
      (Nat.le_of_eq (List.length_append.trans (Nat.add_comm _ _)))
    rw [size, List.take_left, List.take_zero] at alone
    have pending : part ≠ [] := by
      rintro rfl
      rw [Unicode.firstChar_nil] at alone
      cases alone
    have read := readUtf8As_last alone Unicode.utf8Read_nil
    have takes : Takes (readUtf8As unicode 10 true) blob front part := by
      apply Reads.takes lawful start (Or.inr (Or.inl _))
      exact (Unicode.Reads.cons alone (.nil _)).utf8Read_ne_none (List.cons_ne_nil _ _)
    rw [settled_append 10 _ nonempty, List.append_assoc, List.singleton_append] at contents
    have different : ¬[UInt8.ofNat 10] <+: unicode.utf8Write (13 : Nat) 4 := by
      rw [lawful.write_ascii 13 (by decide)]
      decide
    apply absurd contents
    apply received_other lawful takes _ pending (by rw [read]; rfl) (by decide) different _ ran
    · exact fun member => nonnull (List.mem_append_left _ member)
    · have size := encodeUtf8_settled lawful 10 back
      rw [encodeUtf8_append, encodeUtf8_append, List.length_append, List.length_append] at fits
      rw [encodeUtf8_append, encodeUtf8_cons, List.length_append, List.length_append, size]
      have single : encodeUtf8 unicode [13] = unicode.utf8Write (13 : Nat) 4 :=
        List.append_nil _
      rw [single] at fits
      omega

/-- Behind a cut between characters, the clipboard receives the rest of the text. -/
theorem received_rest (lawful : unicode.Lawful) {blob : List UInt8} {blobs : List (List UInt8)}
    {front back : List Nat}
    (before : unicode.Reads true (blob ++ blobs.flatten) front blobs.flatten)
    (seen : front.getLast? ≠ some 13) (nonempty : back ≠ []) (nonnull : 0 ∉ front)
    {clipboard after : Clipboard} {unset : Int}
    (room : (clipboard.append (encodeUtf8 unicode front)).buffer =
      clipboard.buffer ++ encodeUtf8 unicode front)
    (fits : (encodeUtf8 unicode front).length ≤ clipboardMaxLength)
    (ran : receiveBlobs unicode unset clipboard (blob :: blobs) = some after)
    (contents : after.buffer =
      clipboard.buffer ++ encodeUtf8 unicode (settled unset (front ++ back))) :
    receiveBlobs unicode unset (clipboard.append (encodeUtf8 unicode front)) blobs = some after ∧
      after.buffer = (clipboard.append (encodeUtf8 unicode front)).buffer ++
        encodeUtf8 unicode (settled unset back) := by
  have takes : Takes (readUtf8As unicode unset true) blob (front ++ []) [] := by
    rw [List.append_nil]
    exact Reads.takes lawful before (Or.inl seen)
  obtain ⟨extra, appended, whole⟩ := clipboardAppend_takes lawful takes
    (fun member => nonnull (List.dropLast_subset _ member)) fits clipboard
  rw [whole rfl, List.append_nil] at appended
  unfold receiveBlobs at ran
  rw [appended] at ran
  refine ⟨ran, ?_⟩
  rw [contents, settled_append unset front nonempty, encodeUtf8_append, room, List.append_assoc]

/-- If the clipboard ends up with the encoding of the text, whatever the variable holds, the cuts
lie between characters. -/
theorem cutsBetween_of_received (lawful : unicode.Lawful) {blobs : List (List UInt8)}
    {text : List Nat} (reads : unicode.Reads true blobs.flatten text [])
    (nonnull : 0 ∉ text.dropLast) {clipboard : Clipboard}
    (fits : clipboard.buffer.length + (encodeUtf8 unicode text).length ≤ clipboardMaxLength)
    (received : ∀ unset : Int, ∃ after, receiveBlobs unicode unset clipboard blobs = some after ∧
      after.buffer = clipboard.buffer ++ encodeUtf8 unicode (settled unset text)) :
    CutsBetween unicode blobs := by
  induction blobs generalizing text clipboard with
  | nil => trivial
  | cons blob blobs ih =>
    by_cases empty : blobs.flatten = []
    · rw [List.flatten_cons, empty] at reads
      refine ⟨⟨text, ?_, Or.inl empty⟩, cutsBetween_of_empty empty⟩
      rw [empty]
      exact reads
    rw [List.flatten_cons] at reads
    rcases Reads.position reads with ⟨front, before⟩ |
      ⟨front, char, part, left, pending, before, first, within⟩
    · obtain ⟨back, rfl, after⟩ := before.continue reads
      have nonempty : back ≠ [] := by
        rintro rfl
        exact empty after.eq_of_nil.symm
      rw [List.dropLast_append_of_ne_nil nonempty] at nonnull
      have frontNonnull : 0 ∉ front := fun member => nonnull (List.mem_append_left _ member)
      obtain ⟨final, ran, contents⟩ := received 10
      have seen := not_return_of_received lawful before nonempty frontNonnull fits ran contents
      rw [encodeUtf8_append, List.length_append] at fits
      have room : (clipboard.append (encodeUtf8 unicode front)).buffer =
          clipboard.buffer ++ encodeUtf8 unicode front := Clipboard.append_fits (by omega)
      have length := congrArg List.length room
      rw [List.length_append] at length
      have inner : 0 ∉ back.dropLast := fun member => nonnull (List.mem_append_right _ member)
      have left : (clipboard.append (encodeUtf8 unicode front)).buffer.length +
          (encodeUtf8 unicode back).length ≤ clipboardMaxLength := by omega
      refine ⟨⟨front, before, Or.inr seen⟩, ih after inner left fun unset => ?_⟩
      obtain ⟨final, ran, contents⟩ := received unset
      exact ⟨final, received_rest lawful before seen nonempty frontNonnull room (by omega) ran
        contents⟩
    · -- the cut lies within a character
      obtain ⟨back, rfl, after⟩ := before.continue reads
      obtain ⟨unset, value, other, ascii, read, different⟩ := cut_read lawful first within
      have takes : Takes (readUtf8As unicode unset true) blob front part :=
        Reads.takes lawful before (Or.inr (Or.inr other))
      obtain ⟨final, ran, contents⟩ := received unset
      have same : settled unset (front ++ back) = front ++ back :=
        if_neg fun both => other both.1
      rw [same] at contents
      cases back with
      | nil =>
        have none := after.eq_of_nil
        exact absurd (List.append_eq_nil_iff.mp none.symm).1 pending
      | cons next tail =>
        cases after with
        | cons again more =>
          cases first.symm.trans again
          rw [List.dropLast_append_of_ne_nil (List.cons_ne_nil _ _)] at nonnull
          exact absurd contents (received_other lawful takes
            (fun member => nonnull (List.mem_append_left _ member)) pending read ascii different
            fits ran)

/-- Cuts that lead to the contents of the uncut data lie between characters. -/
theorem CutsBetween.of_sameContents (lawful : unicode.Lawful) {clipboard : Clipboard}
    {mimetype : List UInt8} {blobs : List (List UInt8)}
    (whole : FitsClipboard unicode blobs.flatten)
    (same : SameContents unicode clipboard mimetype blobs [blobs.flatten]) :
    CutsBetween unicode blobs := by
  obtain ⟨text, reads, nonnull, fits⟩ := whole
  have start : (clipboardReset clipboard mimetype).buffer.length +
      (encodeUtf8 unicode text).length = (encodeUtf8 unicode text).length := Nat.zero_add _
  have received : ∀ unset : Int, ∃ after,
      receiveBlobs unicode unset (clipboardReset clipboard mimetype) blobs = some after ∧
        after.buffer = (clipboardReset clipboard mimetype).buffer ++
          encodeUtf8 unicode (settled unset text) := by
    intro unset
    obtain ⟨left, right, received, uncut, contents⟩ := same unset
    have taken : List.Forall₂ (fun blob part => Takes (readUtf8As unicode unset true) blob part [])
        [blobs.flatten] [settled unset text] :=
      .cons (Reads.takes_settled lawful unset reads) .nil
    have inner : 0 ∉ (settled unset text).dropLast := by rwa [dropLast_settled]
    have size := encodeUtf8_settled lawful unset text
    have joined : [settled unset text].flatten = settled unset text ++ [] := List.flatten_cons
    obtain ⟨after, whole, buffer⟩ := receiveBlobs_kept lawful taken joined inner
      (clipboardReset clipboard mimetype) (by rw [size, start]; exact fits) (Or.inl rfl)
    cases uncut.symm.trans whole
    exact ⟨left, received, contents.trans buffer⟩
  exact cutsBetween_of_received lawful reads nonnull (by rw [start]; exact fits) received

end GuacNebula.Terminal
