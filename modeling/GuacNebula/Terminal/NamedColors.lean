import GuacNebula.Terminal.ColorSpecs
import Mathlib.Data.List.Lex
import Mathlib.Data.List.Infix

/-! # Named colours

A colour is looked up by a binary search among the names of the table. The comparison does not look
behind the end of a name, so that a key is taken for every name that it begins with. The search then
stops at the first such name on its way, which need not be the one that the key stands for.
-/

namespace GuacNebula.Terminal

/-! ## Searching with two comparisons -/

section Searching

variable {Element : Type*}

/-- The elements that a binary search with the comparison looks at, in this order. -/
def searchPath (order : Element → Int) (elements : List Element) (lower upper : Nat) :
    List Element :=
  if lower < upper then
    match elements[(lower + upper) / 2]? with
    | none => []
    | some element =>
        element ::
          if order element < 0 then searchPath order elements lower ((lower + upper) / 2)
          else if order element > 0 then searchPath order elements ((lower + upper) / 2 + 1) upper
          else []
  else []
termination_by upper - lower
decreasing_by all_goals omega

variable {coarse fine : Element → Int} {elements : List Element}

/-- A search with a coarser comparison stops at the first element on the way of the finer one that it
takes for what it looks for. -/
theorem bsearch_coarse
    (agrees : ∀ element ∈ elements, coarse element ≠ 0 →
      (coarse element < 0 ↔ fine element < 0) ∧ (coarse element > 0 ↔ fine element > 0))
    (lower upper : Nat) :
    bsearch coarse elements lower upper =
      (searchPath fine elements lower upper).find? fun element => coarse element = 0 := by
  fun_induction searchPath fine elements lower upper
  case case1 lower upper more absent => rw [bsearch, if_pos more, absent, List.find?_nil]
  case case2 lower upper more element present left right =>
    rw [bsearch, if_pos more, present]
    dsimp only
    by_cases taken : coarse element = 0
    · rw [if_neg (by omega), if_neg (by omega), List.find?_cons_of_pos (by simpa using taken)]
    obtain ⟨less, greater⟩ := agrees element (List.mem_of_getElem? present) taken
    rw [List.find?_cons_of_neg (by simpa using taken)]
    by_cases before : fine element < 0
    · rw [if_pos (less.mpr before), if_pos before, left]
    · have behind : fine element > 0 := by omega
      rw [if_neg (mt less.mp before), if_pos (greater.mpr behind), if_neg before, if_pos behind,
        right]
  case case3 lower upper ended => rw [bsearch, if_neg ended, List.find?_nil]

/-- The way of a search passes the element that it looks for, where the comparison tells on which
side of every other element it is. -/
theorem mem_searchPath {element : Element} {index lower upper : Nat}
    (present : elements[index]? = some element)
    (front : ∀ i other, i < index → elements[i]? = some other → fine other > 0)
    (back : ∀ i other, index < i → elements[i]? = some other → fine other < 0)
    (above : lower ≤ index) (below : index < upper) (within : upper ≤ elements.length) :
    element ∈ searchPath fine elements lower upper := by
  fun_induction searchPath fine elements lower upper
  case case1 lower upper more absent =>
    have past := List.getElem?_eq_none_iff.mp absent
    omega
  case case2 lower upper more middle compared left right =>
    rcases Nat.lt_trichotomy index ((lower + upper) / 2) with before | here | behind
    · have order := back _ _ before compared
      rw [if_pos order]
      exact .tail _ (left above before (by omega))
    · rw [← here, present] at compared
      cases compared
      exact .head _
    · have order := front _ _ behind compared
      rw [if_neg (by omega), if_pos order]
      exact .tail _ (right (by omega) below within)
  case case3 lower upper ended => omega

theorem searchPath_subset (lower upper : Nat) :
    searchPath fine elements lower upper ⊆ elements := by
  fun_induction searchPath fine elements lower upper
  case case1 => exact List.nil_subset _
  case case2 lower upper more middle compared left right =>
    refine List.cons_subset.mpr ⟨List.mem_of_getElem? compared, ?_⟩
    split_ifs
    · exact left
    · exact right
    · exact List.nil_subset _
  case case3 => exact List.nil_subset _

/-- The way ends where the finer comparison finds what it looks for. -/
theorem find?_searchPath {taken : Element → Prop} [DecidablePred taken] {element : Element}
    {lower upper : Nat}
    (first : (searchPath fine elements lower upper).find?
      (fun element => taken element ∧ fine element ≠ 0) = some element) :
    (searchPath fine elements lower upper).find? (fun element => taken element) = some element := by
  fun_induction searchPath fine elements lower upper
  case case1 => exact first
  case case2 lower upper more middle compared left right =>
    by_cases takes : taken middle
    · by_cases exact : fine middle = 0
      · rw [if_neg (by omega), if_neg (by omega),
          List.find?_cons_of_neg (by simpa using fun _ => exact)] at first
        cases first
      · rw [List.find?_cons_of_pos (by simpa using ⟨takes, exact⟩)] at first
        rw [List.find?_cons_of_pos (by simpa using takes), first]
    · rw [List.find?_cons_of_neg (by simpa using fun absurd => (takes absurd).elim)] at first
      rw [List.find?_cons_of_neg (by simpa using takes)]
      split_ifs at first ⊢
      · exact left first
      · exact right first
      · exact first
  case case3 => exact first

end Searching

/-! ## The name that a key stands for -/

/-- `tolower` of a byte. -/
def lowerByte (byte : UInt8) : UInt8 := if 0x41 ≤ byte ∧ byte ≤ 0x5A then byte + 0x20 else byte

/-- The name that a key stands for: what comes before its end or a semicolon, without spaces and in
lowercase. -/
def keyName (key : List UInt8) : List UInt8 :=
  ((key.takeWhile fun byte => byte ≠ 0 ∧ byte ≠ 0x3B).filter fun byte => !isSpace byte).map lowerByte

/-- The characters of a name as `char`. -/
def characters (name : List UInt8) : List Int := name.map signedChar

/-- The comparison of a name with another one in the order of their characters. -/
def alphabetical (name other : List UInt8) : Int :=
  if characters name < characters other then -1
  else if characters other < characters name then 1
  else 0

theorem signedChar_lowerByte (byte : UInt8) :
    signedChar (lowerByte byte) = toLower (signedChar byte) := by
  unfold lowerByte
  split_ifs with upper
  · have low := UInt8.le_iff_toNat_le.mp upper.1
    have high := UInt8.le_iff_toNat_le.mp upper.2
    have plain : byte < 0x80 := UInt8.lt_of_le_of_lt upper.2 (by decide)
    have value : (byte + 0x20).toNat = byte.toNat + 0x20 := by
      rw [UInt8.toNat_add]
      exact Nat.mod_eq_of_lt (by change byte.toNat ≤ 90 at high; change byte.toNat + 32 < 256; omega)
    have lowered : byte + 0x20 < 0x80 := by
      rw [UInt8.lt_iff_toNat_lt, value]
      change byte.toNat ≤ 90 at high
      change byte.toNat + 32 < 128
      omega
    unfold signedChar toLower
    rw [if_pos lowered, if_pos plain, value, if_pos ⟨by exact_mod_cast low, by exact_mod_cast high⟩]
    rfl
  · have outside : ¬(0x41 ≤ signedChar byte ∧ signedChar byte ≤ 0x5A) := by
      intro both
      apply upper
      unfold signedChar at both
      rw [UInt8.le_iff_toNat_le, UInt8.le_iff_toNat_le]
      change 65 ≤ byte.toNat ∧ byte.toNat ≤ 90
      have bound := byte.toNat_lt
      split_ifs at both <;> omega
    exact (if_neg outside).symm

theorem signedChar_injective : Function.Injective signedChar := by
  intro first second same
  unfold signedChar at same
  have bound := first.toNat_lt
  have other := second.toNat_lt
  apply UInt8.toNat_inj.mp
  split_ifs at same with plain plainOther plainOther
  · exact_mod_cast same
  · omega
  · omega
  · omega

/-- Whether a byte is a lowercase letter or a digit. -/
def isNameByte (byte : UInt8) : Bool := isDigit byte || (0x61 ≤ byte && byte ≤ 0x7A)

section Comparing

variable {first second : UInt8} (key name : List UInt8)

theorem alphabetical_nil (first : UInt8) : alphabetical [] (first :: name) = -1 :=
  if_pos (List.nil_lt_cons _ _)

theorem alphabetical_cons_self (first : UInt8) :
    alphabetical (first :: key) (first :: name) = alphabetical key name := by
  unfold alphabetical characters
  simp only [List.map_cons, List.cons_lt_cons_self]

theorem alphabetical_cons (differs : first ≠ second) :
    alphabetical (first :: key) (second :: name) = (signedChar first - signedChar second).sign := by
  have characters : signedChar first ≠ signedChar second := fun same =>
    differs (signedChar_injective same)
  unfold alphabetical Terminal.characters
  simp only [List.map_cons, List.cons_lt_cons_iff]
  rcases Int.lt_or_gt_of_ne characters with less | greater
  · rw [if_pos (.inl less), Int.sign_eq_neg_one_of_neg (by omega)]
  · rw [if_neg (by omega), if_pos (.inl greater), Int.sign_eq_one_of_pos (by omega)]

theorem keyName_space {byte : UInt8} (space : isSpace byte = true) :
    keyName (byte :: key) = keyName key := by
  have inside : byte ≠ 0 ∧ byte ≠ 0x3B := by
    constructor <;> rintro rfl <;> revert space <;> decide
  unfold keyName
  rw [List.takeWhile_cons_of_pos (by simpa using inside),
    List.filter_cons_of_neg (by rw [space]; decide)]

theorem keyName_dropSpaces : keyName (key.dropWhile isSpace) = keyName key := by
  induction key with
  | nil => rfl
  | cons byte key ih =>
      rw [List.dropWhile_cons]
      split_ifs with space
      · rw [ih, keyName_space key space]
      · rfl

theorem keyName_end {byte : UInt8} (ends : byte = 0 ∨ byte = 0x3B) :
    keyName (byte :: key) = [] := by
  unfold keyName
  rw [List.takeWhile_cons_of_neg]
  · rfl
  · rcases ends with rfl | rfl <;> decide

theorem keyName_cons {byte : UInt8} (inside : ¬(byte = 0 ∨ byte = 0x3B))
    (visible : isSpace byte = false) :
    keyName (byte :: key) = lowerByte byte :: keyName key := by
  unfold keyName
  rw [List.takeWhile_cons_of_pos (by simpa using inside),
    List.filter_cons_of_pos (by rw [visible]; rfl), List.map_cons]

theorem isNameByte_positive {byte : UInt8} (plain : isNameByte byte = true) :
    0 < signedChar byte := by
  unfold isNameByte isDigit at plain
  simp only [Bool.or_eq_true, Bool.and_eq_true, decide_eq_true_eq, UInt8.le_iff_toNat_le] at plain
  change 48 ≤ byte.toNat ∧ byte.toNat ≤ 57 ∨ 97 ≤ byte.toNat ∧ byte.toNat ≤ 122 at plain
  unfold signedChar
  rw [if_pos (UInt8.lt_iff_toNat_lt.mpr (by change byte.toNat < 128; omega))]
  omega

variable {name}

/-- A key that stands for nothing more sorts before a name that has not ended. -/
theorem compareCharacter_end {rest : List UInt8} {character : UInt8}
    (plain : isNameByte character = true)
    (ends : rest = [] ∨ ∃ byte tail, rest = byte :: tail ∧ (byte = 0 ∨ byte = 0x3B)) :
    (compareCharacter rest character name).sign = -1 := by
  have positive := isNameByte_positive plain
  have negative : (0 : Int) - signedChar character ≠ 0 := by omega
  rw [Int.sign_eq_neg_one_iff_neg]
  unfold compareCharacter
  rcases ends with rfl | ⟨byte, tail, rfl, rfl | rfl⟩
  · dsimp only
    rw [if_pos negative]
    omega
  · have zero : toLower (signedChar 0) = 0 := by decide
    have plain : (0 : UInt8) ≠ 0x3B := by decide
    dsimp only
    rw [if_neg plain, zero, if_pos negative]
    omega
  · dsimp only
    rw [if_pos rfl, if_pos negative]
    omega

/-- The comparison takes a key for every name that the key's own begins with, and tells for every
other name on which side of it the key's own is. -/
theorem namedColorSearch_sign (plain : ∀ byte ∈ name, isNameByte byte = true) :
    (namedColorSearch key name).sign =
      if name <+: keyName key then 0 else alphabetical (keyName key) name := by
  induction name generalizing key with
  | nil =>
      have ended : namedColorSearch key [] = 0 := by cases key <;> rfl
      rw [ended, if_pos List.nil_prefix, Int.sign_zero]
  | cons character name ih =>
      obtain ⟨visible, later⟩ := List.forall_mem_cons.mp plain
      have ended (empty : keyName key = []) :
          (if character :: name <+: keyName key then 0
            else alphabetical (keyName key) (character :: name)) = -1 := by
        have longer : ¬character :: name <+: [] := fun short =>
          List.cons_ne_nil _ _ (List.prefix_nil.mp short)
        rw [empty, if_neg longer, alphabetical_nil]
      by_cases empty : key = []
      · subst empty
        exact (ended rfl).symm
      rw [namedColorSearch_cons key empty]
      rw [← keyName_dropSpaces] at ended ⊢
      cases rest : key.dropWhile isSpace with
      | nil => rw [compareCharacter_end visible (.inl rfl), ← rest, ended (by rw [rest]; rfl)]
      | cons byte tail =>
          have letter : isSpace byte = false := by
            have head := List.head?_dropWhile_not isSpace key
            rw [rest] at head
            simpa using head
          by_cases ends : byte = 0 ∨ byte = 0x3B
          · rw [compareCharacter_end visible (.inr ⟨byte, tail, rfl, ends⟩), ← rest,
              ended (by rw [rest, keyName_end tail ends])]
          have semicolon : byte ≠ 0x3B := fun same => ends (.inr same)
          rw [keyName_cons tail ends letter]
          unfold compareCharacter
          dsimp only
          rw [if_neg semicolon, ← signedChar_lowerByte, List.tail_cons]
          by_cases same : character = lowerByte byte
          · subst same
            rw [if_neg (by omega), ih tail later, alphabetical_cons_self]
            simp only [List.cons_prefix_cons, true_and]
          · rw [if_pos (fun zero => same (signedChar_injective (by omega))),
              if_neg (fun both => same (List.cons_prefix_cons.mp both).1),
              alphabetical_cons _ _ (Ne.symm same)]

end Comparing

/-! ## The table -/

/-- `GUAC_TERMINAL_NAMED_COLORS`: the components and the name of every colour. -/
def namedColorTable : List (Nat × String) :=
  [(0xF0F8FF, "aliceblue"), (0xFAEBD7, "antiquewhite"), (0xFFEFDB, "antiquewhite1"),
    (0xEEDFCC, "antiquewhite2"), (0xCDC0B0, "antiquewhite3"), (0x8B8378, "antiquewhite4"),
    (0x00FFFF, "aqua"), (0x7FFFD4, "aquamarine"), (0x7FFFD4, "aquamarine1"),
    (0x76EEC6, "aquamarine2"), (0x66CDAA, "aquamarine3"), (0x458B74, "aquamarine4"),
    (0xF0FFFF, "azure"), (0xF0FFFF, "azure1"), (0xE0EEEE, "azure2"), (0xC1CDCD, "azure3"),
    (0x838B8B, "azure4"), (0xF5F5DC, "beige"), (0xFFE4C4, "bisque"), (0xFFE4C4, "bisque1"),
    (0xEED5B7, "bisque2"), (0xCDB79E, "bisque3"), (0x8B7D6B, "bisque4"), (0x000000, "black"),
    (0xFFEBCD, "blanchedalmond"), (0x0000FF, "blue"), (0x0000FF, "blue1"), (0x0000EE, "blue2"),
    (0x0000CD, "blue3"), (0x00008B, "blue4"), (0x8A2BE2, "blueviolet"), (0xA52A2A, "brown"),
    (0xFF4040, "brown1"), (0xEE3B3B, "brown2"), (0xCD3333, "brown3"), (0x8B2323, "brown4"),
    (0xDEB887, "burlywood"), (0xFFD39B, "burlywood1"), (0xEEC591, "burlywood2"),
    (0xCDAA7D, "burlywood3"), (0x8B7355, "burlywood4"), (0x5F9EA0, "cadetblue"),
    (0x98F5FF, "cadetblue1"), (0x8EE5EE, "cadetblue2"), (0x7AC5CD, "cadetblue3"),
    (0x53868B, "cadetblue4"), (0x7FFF00, "chartreuse"), (0x7FFF00, "chartreuse1"),
    (0x76EE00, "chartreuse2"), (0x66CD00, "chartreuse3"), (0x458B00, "chartreuse4"),
    (0xD2691E, "chocolate"), (0xFF7F24, "chocolate1"), (0xEE7621, "chocolate2"),
    (0xCD661D, "chocolate3"), (0x8B4513, "chocolate4"), (0xFF7F50, "coral"), (0xFF7256, "coral1"),
    (0xEE6A50, "coral2"), (0xCD5B45, "coral3"), (0x8B3E2F, "coral4"), (0x6495ED, "cornflowerblue"),
    (0xFFF8DC, "cornsilk"), (0xFFF8DC, "cornsilk1"), (0xEEE8CD, "cornsilk2"),
    (0xCDC8B1, "cornsilk3"), (0x8B8878, "cornsilk4"), (0xDC143C, "crimson"), (0x00FFFF, "cyan"),
    (0x00FFFF, "cyan1"), (0x00EEEE, "cyan2"), (0x00CDCD, "cyan3"), (0x008B8B, "cyan4"),
    (0x00008B, "darkblue"), (0x008B8B, "darkcyan"), (0xB8860B, "darkgoldenrod"),
    (0xFFB90F, "darkgoldenrod1"), (0xEEAD0E, "darkgoldenrod2"), (0xCD950C, "darkgoldenrod3"),
    (0x8B6508, "darkgoldenrod4"), (0xA9A9A9, "darkgray"), (0x006400, "darkgreen"),
    (0xA9A9A9, "darkgrey"), (0xBDB76B, "darkkhaki"), (0x8B008B, "darkmagenta"),
    (0x556B2F, "darkolivegreen"), (0xCAFF70, "darkolivegreen1"), (0xBCEE68, "darkolivegreen2"),
    (0xA2CD5A, "darkolivegreen3"), (0x6E8B3D, "darkolivegreen4"), (0xFF8C00, "darkorange"),
    (0xFF7F00, "darkorange1"), (0xEE7600, "darkorange2"), (0xCD6600, "darkorange3"),
    (0x8B4500, "darkorange4"), (0x9932CC, "darkorchid"), (0xBF3EFF, "darkorchid1"),
    (0xB23AEE, "darkorchid2"), (0x9A32CD, "darkorchid3"), (0x68228B, "darkorchid4"),
    (0x8B0000, "darkred"), (0xE9967A, "darksalmon"), (0x8FBC8F, "darkseagreen"),
    (0xC1FFC1, "darkseagreen1"), (0xB4EEB4, "darkseagreen2"), (0x9BCD9B, "darkseagreen3"),
    (0x698B69, "darkseagreen4"), (0x483D8B, "darkslateblue"), (0x2F4F4F, "darkslategray"),
    (0x97FFFF, "darkslategray1"), (0x8DEEEE, "darkslategray2"), (0x79CDCD, "darkslategray3"),
    (0x528B8B, "darkslategray4"), (0x2F4F4F, "darkslategrey"), (0x00CED1, "darkturquoise"),
    (0x9400D3, "darkviolet"), (0xFF1493, "deeppink"), (0xFF1493, "deeppink1"),
    (0xEE1289, "deeppink2"), (0xCD1076, "deeppink3"), (0x8B0A50, "deeppink4"),
    (0x00BFFF, "deepskyblue"), (0x00BFFF, "deepskyblue1"), (0x00B2EE, "deepskyblue2"),
    (0x009ACD, "deepskyblue3"), (0x00688B, "deepskyblue4"), (0x696969, "dimgray"),
    (0x696969, "dimgrey"), (0x1E90FF, "dodgerblue"), (0x1E90FF, "dodgerblue1"),
    (0x1C86EE, "dodgerblue2"), (0x1874CD, "dodgerblue3"), (0x104E8B, "dodgerblue4"),
    (0xB22222, "firebrick"), (0xFF3030, "firebrick1"), (0xEE2C2C, "firebrick2"),
    (0xCD2626, "firebrick3"), (0x8B1A1A, "firebrick4"), (0xFFFAF0, "floralwhite"),
    (0x228B22, "forestgreen"), (0xFF00FF, "fuchsia"), (0xDCDCDC, "gainsboro"),
    (0xF8F8FF, "ghostwhite"), (0xFFD700, "gold"), (0xFFD700, "gold1"), (0xEEC900, "gold2"),
    (0xCDAD00, "gold3"), (0x8B7500, "gold4"), (0xDAA520, "goldenrod"), (0xFFC125, "goldenrod1"),
    (0xEEB422, "goldenrod2"), (0xCD9B1D, "goldenrod3"), (0x8B6914, "goldenrod4"),
    (0xBEBEBE, "gray"), (0x000000, "gray0"), (0x030303, "gray1"), (0x1A1A1A, "gray10"),
    (0xFFFFFF, "gray100"), (0x1C1C1C, "gray11"), (0x1F1F1F, "gray12"), (0x212121, "gray13"),
    (0x242424, "gray14"), (0x262626, "gray15"), (0x292929, "gray16"), (0x2B2B2B, "gray17"),
    (0x2E2E2E, "gray18"), (0x303030, "gray19"), (0x050505, "gray2"), (0x333333, "gray20"),
    (0x363636, "gray21"), (0x383838, "gray22"), (0x3B3B3B, "gray23"), (0x3D3D3D, "gray24"),
    (0x404040, "gray25"), (0x424242, "gray26"), (0x454545, "gray27"), (0x474747, "gray28"),
    (0x4A4A4A, "gray29"), (0x080808, "gray3"), (0x4D4D4D, "gray30"), (0x4F4F4F, "gray31"),
    (0x525252, "gray32"), (0x545454, "gray33"), (0x575757, "gray34"), (0x595959, "gray35"),
    (0x5C5C5C, "gray36"), (0x5E5E5E, "gray37"), (0x616161, "gray38"), (0x636363, "gray39"),
    (0x0A0A0A, "gray4"), (0x666666, "gray40"), (0x696969, "gray41"), (0x6B6B6B, "gray42"),
    (0x6E6E6E, "gray43"), (0x707070, "gray44"), (0x737373, "gray45"), (0x757575, "gray46"),
    (0x787878, "gray47"), (0x7A7A7A, "gray48"), (0x7D7D7D, "gray49"), (0x0D0D0D, "gray5"),
    (0x7F7F7F, "gray50"), (0x828282, "gray51"), (0x858585, "gray52"), (0x878787, "gray53"),
    (0x8A8A8A, "gray54"), (0x8C8C8C, "gray55"), (0x8F8F8F, "gray56"), (0x919191, "gray57"),
    (0x949494, "gray58"), (0x969696, "gray59"), (0x0F0F0F, "gray6"), (0x999999, "gray60"),
    (0x9C9C9C, "gray61"), (0x9E9E9E, "gray62"), (0xA1A1A1, "gray63"), (0xA3A3A3, "gray64"),
    (0xA6A6A6, "gray65"), (0xA8A8A8, "gray66"), (0xABABAB, "gray67"), (0xADADAD, "gray68"),
    (0xB0B0B0, "gray69"), (0x121212, "gray7"), (0xB3B3B3, "gray70"), (0xB5B5B5, "gray71"),
    (0xB8B8B8, "gray72"), (0xBABABA, "gray73"), (0xBDBDBD, "gray74"), (0xBFBFBF, "gray75"),
    (0xC2C2C2, "gray76"), (0xC4C4C4, "gray77"), (0xC7C7C7, "gray78"), (0xC9C9C9, "gray79"),
    (0x141414, "gray8"), (0xCCCCCC, "gray80"), (0xCFCFCF, "gray81"), (0xD1D1D1, "gray82"),
    (0xD4D4D4, "gray83"), (0xD6D6D6, "gray84"), (0xD9D9D9, "gray85"), (0xDBDBDB, "gray86"),
    (0xDEDEDE, "gray87"), (0xE0E0E0, "gray88"), (0xE3E3E3, "gray89"), (0x171717, "gray9"),
    (0xE5E5E5, "gray90"), (0xE8E8E8, "gray91"), (0xEBEBEB, "gray92"), (0xEDEDED, "gray93"),
    (0xF0F0F0, "gray94"), (0xF2F2F2, "gray95"), (0xF5F5F5, "gray96"), (0xF7F7F7, "gray97"),
    (0xFAFAFA, "gray98"), (0xFCFCFC, "gray99"), (0x00FF00, "green"), (0x00FF00, "green1"),
    (0x00EE00, "green2"), (0x00CD00, "green3"), (0x008B00, "green4"), (0xADFF2F, "greenyellow"),
    (0xBEBEBE, "grey"), (0x000000, "grey0"), (0x030303, "grey1"), (0x1A1A1A, "grey10"),
    (0xFFFFFF, "grey100"), (0x1C1C1C, "grey11"), (0x1F1F1F, "grey12"), (0x212121, "grey13"),
    (0x242424, "grey14"), (0x262626, "grey15"), (0x292929, "grey16"), (0x2B2B2B, "grey17"),
    (0x2E2E2E, "grey18"), (0x303030, "grey19"), (0x050505, "grey2"), (0x333333, "grey20"),
    (0x363636, "grey21"), (0x383838, "grey22"), (0x3B3B3B, "grey23"), (0x3D3D3D, "grey24"),
    (0x404040, "grey25"), (0x424242, "grey26"), (0x454545, "grey27"), (0x474747, "grey28"),
    (0x4A4A4A, "grey29"), (0x080808, "grey3"), (0x4D4D4D, "grey30"), (0x4F4F4F, "grey31"),
    (0x525252, "grey32"), (0x545454, "grey33"), (0x575757, "grey34"), (0x595959, "grey35"),
    (0x5C5C5C, "grey36"), (0x5E5E5E, "grey37"), (0x616161, "grey38"), (0x636363, "grey39"),
    (0x0A0A0A, "grey4"), (0x666666, "grey40"), (0x696969, "grey41"), (0x6B6B6B, "grey42"),
    (0x6E6E6E, "grey43"), (0x707070, "grey44"), (0x737373, "grey45"), (0x757575, "grey46"),
    (0x787878, "grey47"), (0x7A7A7A, "grey48"), (0x7D7D7D, "grey49"), (0x0D0D0D, "grey5"),
    (0x7F7F7F, "grey50"), (0x828282, "grey51"), (0x858585, "grey52"), (0x878787, "grey53"),
    (0x8A8A8A, "grey54"), (0x8C8C8C, "grey55"), (0x8F8F8F, "grey56"), (0x919191, "grey57"),
    (0x949494, "grey58"), (0x969696, "grey59"), (0x0F0F0F, "grey6"), (0x999999, "grey60"),
    (0x9C9C9C, "grey61"), (0x9E9E9E, "grey62"), (0xA1A1A1, "grey63"), (0xA3A3A3, "grey64"),
    (0xA6A6A6, "grey65"), (0xA8A8A8, "grey66"), (0xABABAB, "grey67"), (0xADADAD, "grey68"),
    (0xB0B0B0, "grey69"), (0x121212, "grey7"), (0xB3B3B3, "grey70"), (0xB5B5B5, "grey71"),
    (0xB8B8B8, "grey72"), (0xBABABA, "grey73"), (0xBDBDBD, "grey74"), (0xBFBFBF, "grey75"),
    (0xC2C2C2, "grey76"), (0xC4C4C4, "grey77"), (0xC7C7C7, "grey78"), (0xC9C9C9, "grey79"),
    (0x141414, "grey8"), (0xCCCCCC, "grey80"), (0xCFCFCF, "grey81"), (0xD1D1D1, "grey82"),
    (0xD4D4D4, "grey83"), (0xD6D6D6, "grey84"), (0xD9D9D9, "grey85"), (0xDBDBDB, "grey86"),
    (0xDEDEDE, "grey87"), (0xE0E0E0, "grey88"), (0xE3E3E3, "grey89"), (0x171717, "grey9"),
    (0xE5E5E5, "grey90"), (0xE8E8E8, "grey91"), (0xEBEBEB, "grey92"), (0xEDEDED, "grey93"),
    (0xF0F0F0, "grey94"), (0xF2F2F2, "grey95"), (0xF5F5F5, "grey96"), (0xF7F7F7, "grey97"),
    (0xFAFAFA, "grey98"), (0xFCFCFC, "grey99"), (0xF0FFF0, "honeydew"), (0xF0FFF0, "honeydew1"),
    (0xE0EEE0, "honeydew2"), (0xC1CDC1, "honeydew3"), (0x838B83, "honeydew4"),
    (0xFF69B4, "hotpink"), (0xFF6EB4, "hotpink1"), (0xEE6AA7, "hotpink2"), (0xCD6090, "hotpink3"),
    (0x8B3A62, "hotpink4"), (0xCD5C5C, "indianred"), (0xFF6A6A, "indianred1"),
    (0xEE6363, "indianred2"), (0xCD5555, "indianred3"), (0x8B3A3A, "indianred4"),
    (0x4B0082, "indigo"), (0xFFFFF0, "ivory"), (0xFFFFF0, "ivory1"), (0xEEEEE0, "ivory2"),
    (0xCDCDC1, "ivory3"), (0x8B8B83, "ivory4"), (0xF0E68C, "khaki"), (0xFFF68F, "khaki1"),
    (0xEEE685, "khaki2"), (0xCDC673, "khaki3"), (0x8B864E, "khaki4"), (0xE6E6FA, "lavender"),
    (0xFFF0F5, "lavenderblush"), (0xFFF0F5, "lavenderblush1"), (0xEEE0E5, "lavenderblush2"),
    (0xCDC1C5, "lavenderblush3"), (0x8B8386, "lavenderblush4"), (0x7CFC00, "lawngreen"),
    (0xFFFACD, "lemonchiffon"), (0xFFFACD, "lemonchiffon1"), (0xEEE9BF, "lemonchiffon2"),
    (0xCDC9A5, "lemonchiffon3"), (0x8B8970, "lemonchiffon4"), (0xADD8E6, "lightblue"),
    (0xBFEFFF, "lightblue1"), (0xB2DFEE, "lightblue2"), (0x9AC0CD, "lightblue3"),
    (0x68838B, "lightblue4"), (0xF08080, "lightcoral"), (0xE0FFFF, "lightcyan"),
    (0xE0FFFF, "lightcyan1"), (0xD1EEEE, "lightcyan2"), (0xB4CDCD, "lightcyan3"),
    (0x7A8B8B, "lightcyan4"), (0xEEDD82, "lightgoldenrod"), (0xFFEC8B, "lightgoldenrod1"),
    (0xEEDC82, "lightgoldenrod2"), (0xCDBE70, "lightgoldenrod3"), (0x8B814C, "lightgoldenrod4"),
    (0xFAFAD2, "lightgoldenrodyellow"), (0xD3D3D3, "lightgray"), (0x90EE90, "lightgreen"),
    (0xD3D3D3, "lightgrey"), (0xFFB6C1, "lightpink"), (0xFFAEB9, "lightpink1"),
    (0xEEA2AD, "lightpink2"), (0xCD8C95, "lightpink3"), (0x8B5F65, "lightpink4"),
    (0xFFA07A, "lightsalmon"), (0xFFA07A, "lightsalmon1"), (0xEE9572, "lightsalmon2"),
    (0xCD8162, "lightsalmon3"), (0x8B5742, "lightsalmon4"), (0x20B2AA, "lightseagreen"),
    (0x87CEFA, "lightskyblue"), (0xB0E2FF, "lightskyblue1"), (0xA4D3EE, "lightskyblue2"),
    (0x8DB6CD, "lightskyblue3"), (0x607B8B, "lightskyblue4"), (0x8470FF, "lightslateblue"),
    (0x778899, "lightslategray"), (0x778899, "lightslategrey"), (0xB0C4DE, "lightsteelblue"),
    (0xCAE1FF, "lightsteelblue1"), (0xBCD2EE, "lightsteelblue2"), (0xA2B5CD, "lightsteelblue3"),
    (0x6E7B8B, "lightsteelblue4"), (0xFFFFE0, "lightyellow"), (0xFFFFE0, "lightyellow1"),
    (0xEEEED1, "lightyellow2"), (0xCDCDB4, "lightyellow3"), (0x8B8B7A, "lightyellow4"),
    (0x00FF00, "lime"), (0x32CD32, "limegreen"), (0xFAF0E6, "linen"), (0xFF00FF, "magenta"),
    (0xFF00FF, "magenta1"), (0xEE00EE, "magenta2"), (0xCD00CD, "magenta3"), (0x8B008B, "magenta4"),
    (0xB03060, "maroon"), (0xFF34B3, "maroon1"), (0xEE30A7, "maroon2"), (0xCD2990, "maroon3"),
    (0x8B1C62, "maroon4"), (0x66CDAA, "mediumaquamarine"), (0x0000CD, "mediumblue"),
    (0xBA55D3, "mediumorchid"), (0xE066FF, "mediumorchid1"), (0xD15FEE, "mediumorchid2"),
    (0xB452CD, "mediumorchid3"), (0x7A378B, "mediumorchid4"), (0x9370DB, "mediumpurple"),
    (0xAB82FF, "mediumpurple1"), (0x9F79EE, "mediumpurple2"), (0x8968CD, "mediumpurple3"),
    (0x5D478B, "mediumpurple4"), (0x3CB371, "mediumseagreen"), (0x7B68EE, "mediumslateblue"),
    (0x00FA9A, "mediumspringgreen"), (0x48D1CC, "mediumturquoise"), (0xC71585, "mediumvioletred"),
    (0x191970, "midnightblue"), (0xF5FFFA, "mintcream"), (0xFFE4E1, "mistyrose"),
    (0xFFE4E1, "mistyrose1"), (0xEED5D2, "mistyrose2"), (0xCDB7B5, "mistyrose3"),
    (0x8B7D7B, "mistyrose4"), (0xFFE4B5, "moccasin"), (0xFFDEAD, "navajowhite"),
    (0xFFDEAD, "navajowhite1"), (0xEECFA1, "navajowhite2"), (0xCDB38B, "navajowhite3"),
    (0x8B795E, "navajowhite4"), (0x000080, "navy"), (0x000080, "navyblue"), (0xFDF5E6, "oldlace"),
    (0x808000, "olive"), (0x6B8E23, "olivedrab"), (0xC0FF3E, "olivedrab1"),
    (0xB3EE3A, "olivedrab2"), (0x9ACD32, "olivedrab3"), (0x698B22, "olivedrab4"),
    (0xFFA500, "orange"), (0xFFA500, "orange1"), (0xEE9A00, "orange2"), (0xCD8500, "orange3"),
    (0x8B5A00, "orange4"), (0xFF4500, "orangered"), (0xFF4500, "orangered1"),
    (0xEE4000, "orangered2"), (0xCD3700, "orangered3"), (0x8B2500, "orangered4"),
    (0xDA70D6, "orchid"), (0xFF83FA, "orchid1"), (0xEE7AE9, "orchid2"), (0xCD69C9, "orchid3"),
    (0x8B4789, "orchid4"), (0xEEE8AA, "palegoldenrod"), (0x98FB98, "palegreen"),
    (0x9AFF9A, "palegreen1"), (0x90EE90, "palegreen2"), (0x7CCD7C, "palegreen3"),
    (0x548B54, "palegreen4"), (0xAFEEEE, "paleturquoise"), (0xBBFFFF, "paleturquoise1"),
    (0xAEEEEE, "paleturquoise2"), (0x96CDCD, "paleturquoise3"), (0x668B8B, "paleturquoise4"),
    (0xDB7093, "palevioletred"), (0xFF82AB, "palevioletred1"), (0xEE799F, "palevioletred2"),
    (0xCD6889, "palevioletred3"), (0x8B475D, "palevioletred4"), (0xFFEFD5, "papayawhip"),
    (0xFFDAB9, "peachpuff"), (0xFFDAB9, "peachpuff1"), (0xEECBAD, "peachpuff2"),
    (0xCDAF95, "peachpuff3"), (0x8B7765, "peachpuff4"), (0xCD853F, "peru"), (0xFFC0CB, "pink"),
    (0xFFB5C5, "pink1"), (0xEEA9B8, "pink2"), (0xCD919E, "pink3"), (0x8B636C, "pink4"),
    (0xDDA0DD, "plum"), (0xFFBBFF, "plum1"), (0xEEAEEE, "plum2"), (0xCD96CD, "plum3"),
    (0x8B668B, "plum4"), (0xB0E0E6, "powderblue"), (0xA020F0, "purple"), (0x9B30FF, "purple1"),
    (0x912CEE, "purple2"), (0x7D26CD, "purple3"), (0x551A8B, "purple4"),
    (0x663399, "rebeccapurple"), (0xFF0000, "red"), (0xFF0000, "red1"), (0xEE0000, "red2"),
    (0xCD0000, "red3"), (0x8B0000, "red4"), (0xBC8F8F, "rosybrown"), (0xFFC1C1, "rosybrown1"),
    (0xEEB4B4, "rosybrown2"), (0xCD9B9B, "rosybrown3"), (0x8B6969, "rosybrown4"),
    (0x4169E1, "royalblue"), (0x4876FF, "royalblue1"), (0x436EEE, "royalblue2"),
    (0x3A5FCD, "royalblue3"), (0x27408B, "royalblue4"), (0x8B4513, "saddlebrown"),
    (0xFA8072, "salmon"), (0xFF8C69, "salmon1"), (0xEE8262, "salmon2"), (0xCD7054, "salmon3"),
    (0x8B4C39, "salmon4"), (0xF4A460, "sandybrown"), (0x2E8B57, "seagreen"),
    (0x54FF9F, "seagreen1"), (0x4EEE94, "seagreen2"), (0x43CD80, "seagreen3"),
    (0x2E8B57, "seagreen4"), (0xFFF5EE, "seashell"), (0xFFF5EE, "seashell1"),
    (0xEEE5DE, "seashell2"), (0xCDC5BF, "seashell3"), (0x8B8682, "seashell4"),
    (0xA0522D, "sienna"), (0xFF8247, "sienna1"), (0xEE7942, "sienna2"), (0xCD6839, "sienna3"),
    (0x8B4726, "sienna4"), (0xC0C0C0, "silver"), (0x87CEEB, "skyblue"), (0x87CEFF, "skyblue1"),
    (0x7EC0EE, "skyblue2"), (0x6CA6CD, "skyblue3"), (0x4A708B, "skyblue4"),
    (0x6A5ACD, "slateblue"), (0x836FFF, "slateblue1"), (0x7A67EE, "slateblue2"),
    (0x6959CD, "slateblue3"), (0x473C8B, "slateblue4"), (0x708090, "slategray"),
    (0xC6E2FF, "slategray1"), (0xB9D3EE, "slategray2"), (0x9FB6CD, "slategray3"),
    (0x6C7B8B, "slategray4"), (0x708090, "slategrey"), (0xFFFAFA, "snow"), (0xFFFAFA, "snow1"),
    (0xEEE9E9, "snow2"), (0xCDC9C9, "snow3"), (0x8B8989, "snow4"), (0x00FF7F, "springgreen"),
    (0x00FF7F, "springgreen1"), (0x00EE76, "springgreen2"), (0x00CD66, "springgreen3"),
    (0x008B45, "springgreen4"), (0x4682B4, "steelblue"), (0x63B8FF, "steelblue1"),
    (0x5CACEE, "steelblue2"), (0x4F94CD, "steelblue3"), (0x36648B, "steelblue4"),
    (0xD2B48C, "tan"), (0xFFA54F, "tan1"), (0xEE9A49, "tan2"), (0xCD853F, "tan3"),
    (0x8B5A2B, "tan4"), (0x008080, "teal"), (0xD8BFD8, "thistle"), (0xFFE1FF, "thistle1"),
    (0xEED2EE, "thistle2"), (0xCDB5CD, "thistle3"), (0x8B7B8B, "thistle4"), (0xFF6347, "tomato"),
    (0xFF6347, "tomato1"), (0xEE5C42, "tomato2"), (0xCD4F39, "tomato3"), (0x8B3626, "tomato4"),
    (0x40E0D0, "turquoise"), (0x00F5FF, "turquoise1"), (0x00E5EE, "turquoise2"),
    (0x00C5CD, "turquoise3"), (0x00868B, "turquoise4"), (0xEE82EE, "violet"),
    (0xD02090, "violetred"), (0xFF3E96, "violetred1"), (0xEE3A8C, "violetred2"),
    (0xCD3278, "violetred3"), (0x8B2252, "violetred4"), (0x808080, "webgray"),
    (0x008000, "webgreen"), (0x808080, "webgrey"), (0x800000, "webmaroon"),
    (0x800080, "webpurple"), (0xF5DEB3, "wheat"), (0xFFE7BA, "wheat1"), (0xEED8AE, "wheat2"),
    (0xCDBA96, "wheat3"), (0x8B7E66, "wheat4"), (0xFFFFFF, "white"), (0xF5F5F5, "whitesmoke"),
    (0xBEBEBE, "x11gray"), (0x00FF00, "x11green"), (0xBEBEBE, "x11grey"), (0xB03060, "x11maroon"),
    (0xA020F0, "x11purple"), (0xFFFF00, "yellow"), (0xFFFF00, "yellow1"), (0xEEEE00, "yellow2"),
    (0xCDCD00, "yellow3"), (0x8B8B00, "yellow4"), (0x9ACD32, "yellowgreen")]

/-- The colour with the components, which is not from the palette. -/
def rgbColor (components : Nat) : Color where
  paletteIndex := -1
  red := UInt8.ofNat (components / 0x10000)
  green := UInt8.ofNat (components / 0x100)
  blue := UInt8.ofNat components

/-- The entries of the table, by the bytes of their names. -/
def colorEntries : List (List UInt8 × Color) :=
  namedColorTable.map fun entry => (entry.2.toUTF8.data.toList, rgbColor entry.1)

/-- The names are lowercase, and in the order of their characters. -/
theorem colorEntries_checked :
    (colorEntries.all fun entry => entry.1.all isNameByte) = true ∧
      List.IsChain (· < ·) (colorEntries.map fun entry => characters entry.1) := by
  decide +kernel

theorem colorEntries_plain {entry : List UInt8 × Color} (member : entry ∈ colorEntries) :
    ∀ byte ∈ entry.1, isNameByte byte = true :=
  List.all_eq_true.mp (List.all_eq_true.mp colorEntries_checked.1 entry member)

theorem colorEntries_sorted {i j : Nat} (before : i < j) {first second : List UInt8 × Color}
    (here : colorEntries[i]? = some first) (there : colorEntries[j]? = some second) :
    characters first.1 < characters second.1 := by
  have sorted := List.isChain_iff_pairwise.mp colorEntries_checked.2
  obtain ⟨inside, rfl⟩ := List.getElem?_eq_some_iff.mp here
  obtain ⟨insideToo, rfl⟩ := List.getElem?_eq_some_iff.mp there
  exact List.pairwise_iff_getElem.mp (List.pairwise_map.mp sorted) i j inside insideToo before

/-- The table that the search is made in. -/
def namedColors : NamedColors where
  colors := colorEntries
  names := by
    intro entry member byte inside
    have plain := colorEntries_plain member byte inside
    unfold isNameByte isDigit at plain
    simp only [Bool.or_eq_true, Bool.and_eq_true, decide_eq_true_eq] at plain
    rcases plain with digit | letter
    · exact ⟨digit.1, UInt8.lt_of_le_of_lt digit.2 (by decide)⟩
    · exact ⟨UInt8.le_trans (by decide) letter.1, UInt8.lt_of_le_of_lt letter.2 (by decide)⟩

/-! ## Looking up a colour -/

section Lookup

variable {key name : List UInt8} {color : Color}

theorem characters_injective : Function.Injective characters :=
  List.map_injective_iff.mpr signedChar_injective

theorem alphabetical_eq_zero {other : List UInt8} : alphabetical name other = 0 ↔ name = other := by
  unfold alphabetical
  split_ifs with before behind
  · exact iff_of_false (by decide) fun same => lt_irrefl _ (same ▸ before)
  · exact iff_of_false (by decide) fun same => lt_irrefl _ (same ▸ behind)
  · exact iff_of_true rfl
      (characters_injective (le_antisymm (not_lt.mp behind) (not_lt.mp before)))

/-- No name is in the table twice. -/
theorem colorEntries_unique {first second : Color} (here : (name, first) ∈ colorEntries)
    (there : (name, second) ∈ colorEntries) : first = second := by
  obtain ⟨i, atI⟩ := List.mem_iff_getElem?.mp here
  obtain ⟨j, atJ⟩ := List.mem_iff_getElem?.mp there
  rcases Nat.lt_trichotomy i j with before | same | behind
  · exact absurd (colorEntries_sorted before atI atJ) (lt_irrefl _)
  · rw [same, atJ] at atI
    cases atI
    rfl
  · exact absurd (colorEntries_sorted behind atJ atI) (lt_irrefl _)

/-- The entries that a search in alphabetical order looks at, on its way to the place of a name. -/
def nameWay (name : List UInt8) : List (List UInt8 × Color) :=
  searchPath (fun entry => alphabetical name entry.1) namedColors.colors 0 namedColors.colors.length

/-- The first entry on the way to the place of a name that has only a beginning of it for a name. -/
def firstShadow (name : List UInt8) : Option (List UInt8 × Color) :=
  (nameWay name).find? fun entry => entry.1 <+: name ∧ entry.1 ≠ name

theorem mem_nameWay (member : (name, color) ∈ namedColors.colors) :
    (name, color) ∈ nameWay name := by
  obtain ⟨index, present⟩ := List.mem_iff_getElem?.mp member
  have inside := (List.getElem?_eq_some_iff.mp present).1
  refine mem_searchPath present ?_ ?_ (Nat.zero_le _) inside (Nat.le_refl _)
  · intro i other before compared
    have less := colorEntries_sorted before compared present
    unfold alphabetical
    rw [if_neg less.not_gt, if_pos less]
    decide
  · intro i other behind compared
    have less := colorEntries_sorted behind present compared
    unfold alphabetical
    rw [if_pos less]
    decide

/-- The comparison that takes a name for every name that it begins with. -/
def prefixOrder (name : List UInt8) (entry : List UInt8 × Color) : Int :=
  if entry.1 <+: name then 0 else alphabetical name entry.1

theorem prefixOrder_eq_zero {entry : List UInt8 × Color} :
    prefixOrder name entry = 0 ↔ entry.1 <+: name := by
  unfold prefixOrder
  split_ifs with begins
  · exact iff_of_true rfl begins
  · refine iff_of_false (fun zero => begins ?_) begins
    exact alphabetical_eq_zero.mp zero ▸ List.prefix_rfl

/-- The first entry on the way to the place of its name that the key begins with is found. -/
theorem findColor_eq (key : List UInt8) :
    findColor namedColors key =
      ((nameWay (keyName key)).find? fun entry => entry.1 <+: keyName key).map Prod.snd := by
  have signs : ∀ entry ∈ namedColors.colors,
      (namedColorSearch key entry.1 < 0 ↔ prefixOrder (keyName key) entry < 0) ∧
        (namedColorSearch key entry.1 > 0 ↔ prefixOrder (keyName key) entry > 0) := by
    intro entry member
    have sign : _ = prefixOrder (keyName key) entry :=
      namedColorSearch_sign key (colorEntries_plain member)
    rw [← sign]
    exact ⟨Int.sign_neg_iff.symm, Int.sign_pos_iff.symm⟩
  have agrees : ∀ entry ∈ namedColors.colors, prefixOrder (keyName key) entry ≠ 0 →
      (prefixOrder (keyName key) entry < 0 ↔ alphabetical (keyName key) entry.1 < 0) ∧
        (prefixOrder (keyName key) entry > 0 ↔ alphabetical (keyName key) entry.1 > 0) := by
    intro entry _ other
    rw [prefixOrder, if_neg (mt prefixOrder_eq_zero.mpr other)]
    exact ⟨Iff.rfl, Iff.rfl⟩
  unfold findColor
  rw [bsearch_congr signs, bsearch_coarse agrees]
  simp only [prefixOrder_eq_zero]
  rfl

/-- An entry that is found has the name that the key stands for, or is the first that shadows it. -/
theorem firstShadow_of_find? {entry : List UInt8 × Color}
    (found : (nameWay name).find? (fun entry => entry.1 <+: name) = some entry)
    (shadows : entry.1 ≠ name) : firstShadow name = some entry := by
  obtain ⟨taken, front, back, way, passed⟩ := List.find?_eq_some_iff_append.mp found
  refine List.find?_eq_some_iff_append.mpr ⟨?_, front, back, way, fun other member => ?_⟩
  · exact decide_eq_true ⟨of_decide_eq_true taken, shadows⟩
  · have absent := passed other member
    simp only [Bool.not_eq_true', decide_eq_false_iff_not] at absent ⊢
    exact fun both => absent both.1

theorem find?_of_firstShadow {shadow : List UInt8 × Color}
    (first : firstShadow name = some shadow) :
    (nameWay name).find? (fun entry => entry.1 <+: name) = some shadow := by
  refine find?_searchPath (Eq.trans (congrArg (List.find? · _) ?_) first)
  funext entry
  exact decide_eq_decide.mpr (and_congr_right' (not_congr (alphabetical_eq_zero.trans eq_comm)))

/-- **Looking up a colour by its name.** The colour of the name that the key stands for is found, and
none if there is no such name, exactly if the search passes no name that the key's own goes on
from, or the first of these has the same colour. -/
theorem findColor_correct_iff (key : List UInt8) :
    (∀ color, findColor namedColors key = some color ↔
        (keyName key, color) ∈ namedColors.colors) ↔
      ∀ shadow, firstShadow (keyName key) = some shadow →
        (keyName key, shadow.2) ∈ namedColors.colors := by
  rw [findColor_eq]
  constructor
  · intro correct shadow first
    apply (correct shadow.2).mp
    rw [find?_of_firstShadow first]
    rfl
  intro harmless color
  -- What is found has the colour of the name that the key stands for.
  have sound {entry : List UInt8 × Color}
      (found : (nameWay (keyName key)).find? (fun entry => entry.1 <+: keyName key) = some entry) :
      (keyName key, entry.2) ∈ namedColors.colors := by
    by_cases exact : entry.1 = keyName key
    · exact exact ▸ searchPath_subset _ _ (List.mem_of_find?_eq_some found)
    · exact harmless entry (firstShadow_of_find? found exact)
  constructor
  · intro returned
    obtain ⟨entry, found, rfl⟩ := Option.map_eq_some_iff.mp returned
    exact sound found
  · intro member
    cases found : (nameWay (keyName key)).find? fun entry => entry.1 <+: keyName key with
    | none =>
        have passed := List.find?_eq_none.mp found _ (mem_nameWay member)
        exact absurd (decide_eq_true List.prefix_rfl) passed
    | some entry =>
        rw [colorEntries_unique member (sound found)]
        rfl

/-- The second shade of orange red is taken for the colour without a shade. -/
theorem shade_not_found :
    ¬∀ color, findColor namedColors (bytesOf "orangered2") = some color ↔
      (keyName (bytesOf "orangered2"), color) ∈ namedColors.colors := by
  intro correct
  have entries : namedColors.colors.length = 676 := by decide +kernel
  have first : namedColors.colors[338]? = some (bytesOf "grey77", rgbColor 0xC4C4C4) := by
    decide +kernel
  have second : namedColors.colors[507]? = some (bytesOf "orangered", rgbColor 0xFF4500) := by
    decide +kernel
  have shade : namedColors.colors[509]? = some (bytesOf "orangered2", rgbColor 0xEE4000) := by
    decide +kernel
  have behind : namedColorSearch (bytesOf "orangered2") (bytesOf "grey77") > 0 := by decide +kernel
  have taken : namedColorSearch (bytesOf "orangered2") (bytesOf "orangered") = 0 := by
    decide +kernel
  have own : keyName (bytesOf "orangered2") = bytesOf "orangered2" := by decide +kernel
  have found : findColor namedColors (bytesOf "orangered2") = some (rgbColor 0xFF4500) := by
    unfold findColor
    rw [entries, bsearch, if_pos (by decide), first]
    dsimp only
    rw [if_neg (by omega), if_pos behind, bsearch, if_pos (by decide), second]
    dsimp only
    rw [if_neg (by omega), if_neg (by omega)]
    rfl
  have member := (correct _).mp found
  rw [own] at member
  have same := colorEntries_unique member (List.mem_of_getElem? shade)
  exact absurd same (by decide)

end Lookup

end GuacNebula.Terminal
