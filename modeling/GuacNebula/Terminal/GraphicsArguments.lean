import GuacNebula.Terminal.Handlers

/-! # The arguments of the graphics rendition

The loop of `m` over the arguments of a control sequence, with every access to them: an extended
colour is parsed from the arguments behind its first one, and the loop continues behind the
arguments that were parsed. What it does is a fold over groups of arguments.
-/

namespace GuacNebula.Terminal

/-! ## The loop over the array -/

/-- What a parser of colours leaves: the colour, the number of arguments it has parsed, and the
indices of those it has read. -/
structure ParsedColor where
  color : Color
  length : Nat
  reads : List Nat
  deriving DecidableEq, Repr

/-- `guac_terminal_parse_xterm256_rgb`, on the `argc` arguments from `place` on. -/
def parseXterm256RgbAt (argc : Nat) (argv : Nat → Int) (place : Nat) (color : Color) :
    ParsedColor :=
  if argc < 3 then { color := color, length := 0, reads := [] }
  else
    let red := argv place
    let green := argv (place + 1)
    let blue := argv (place + 2)
    let reads := [place, place + 1, place + 2]
    if red < 0 ∨ red > 255 ∨ green < 0 ∨ green > 255 ∨ blue < 0 ∨ blue > 255 then
      { color := color, length := 3, reads := reads }
    else
      { color :=
          { paletteIndex := -1
            red := UInt8.ofNat red.toNat
            green := UInt8.ofNat green.toNat
            blue := UInt8.ofNat blue.toNat }
        length := 3
        reads := reads }

/-- `guac_terminal_parse_xterm256_index`, on the `argc` arguments from `place` on. -/
def parseXterm256IndexAt (colors : Colors) (argc : Nat) (argv : Nat → Int) (place : Nat)
    (color : Color) : ParsedColor :=
  if argc < 1 then { color := color, length := 0, reads := [] }
  else
    { color := (displayLookupColor colors (argv place)).getD color
      length := 1
      reads := [place] }

/-- `guac_terminal_parse_xterm256`, on the `argc` arguments from `place` on. The type counts as
parsed even if the arguments behind it do not suffice. -/
def parseXterm256At (colors : Colors) (argc : Nat) (argv : Nat → Int) (place : Nat)
    (color : Color) : ParsedColor :=
  if argc < 1 then { color := color, length := 0, reads := [] }
  else
    let behindType (parsed : ParsedColor) : ParsedColor :=
      { parsed with length := parsed.length + 1, reads := place :: parsed.reads }
    if argv place = 2 then behindType (parseXterm256RgbAt (argc - 1) argv (place + 1) color)
    else if argv place = 5 then
      behindType (parseXterm256IndexAt colors (argc - 1) argv (place + 1) color)
    else { color := color, length := 0, reads := [place] }

/-- One round of the loop of `m`: the attributes, the number of arguments parsed behind the current
one, and the indices read. -/
def graphicsRound (colors : Colors) (defaults : Attributes) (argc : Nat) (argv : Nat → Int)
    (i : Nat) (attributes : Attributes) : Attributes × Nat × List Nat :=
  if argv i = 38 then
    let parsed := parseXterm256At colors (argc - i - 1) argv (i + 1) attributes.foreground
    if parsed.length > 0 then
      ({ attributes with foreground := parsed.color }, parsed.length, i :: parsed.reads)
    else
      ({ attributes with underscore := true, foreground := defaults.foreground }, 0,
        i :: parsed.reads)
  else if argv i = 48 then
    let parsed := parseXterm256At colors (argc - i - 1) argv (i + 1) attributes.background
    ({ attributes with background := parsed.color }, parsed.length, i :: parsed.reads)
  else ((graphicsArgument colors defaults attributes (argv i) []).1, 0, [i])

/-- The loop of `m` from an index on, with the attributes and the indices read before, if it ends
within so many rounds. -/
def graphicsScan (colors : Colors) (defaults : Attributes) (argc : Nat) (argv : Nat → Int) :
    Nat → Nat → Attributes → List Nat → Option (Attributes × List Nat)
  | 0, _, _, _ => none
  | fuel + 1, i, attributes, reads =>
      if i < argc then
        let (attributes, parsed, read) := graphicsRound colors defaults argc argv i attributes
        graphicsScan colors defaults argc argv fuel (i + parsed + 1) attributes (reads ++ read)
      else some (attributes, reads)

/-! ## Groups of arguments -/

/-- The colour of a character that an argument concerns. -/
inductive Ground where
  | foreground
  | background
  deriving DecidableEq, Repr

/-- The colour that the first argument of an extended colour concerns. -/
def extendedGround (value : Int) : Option Ground :=
  if value = 38 then some .foreground else if value = 48 then some .background else none

/-- Arguments that have a meaning together. -/
inductive SgrGroup where
  | value (number : Int)
  | indexed (ground : Ground) (index : Int)
  | direct (ground : Ground) (red green blue : Int)
  | truncated
  deriving DecidableEq, Repr

/-- The groups of a list of arguments. The components behind a direct colour that lacks some of them
belong to it, or have a meaning on their own. -/
def sgrGroups (componentsBelong : Bool) : List Int → List SgrGroup
  | [] => []
  | value :: rest =>
      match extendedGround value, rest with
      | some ground, 5 :: index :: rest => .indexed ground index :: sgrGroups componentsBelong rest
      | some _, [5] => [.truncated]
      | some ground, 2 :: red :: green :: blue :: rest =>
          .direct ground red green blue :: sgrGroups componentsBelong rest
      | some _, 2 :: rest =>
          .truncated :: if componentsBelong then [] else sgrGroups componentsBelong rest
      | _, rest => .value value :: sgrGroups componentsBelong rest

/-- The colour of a character. -/
def Ground.color (attributes : Attributes) : Ground → Color
  | .foreground => attributes.foreground
  | .background => attributes.background

/-- The attributes with a colour changed. -/
def Ground.set (attributes : Attributes) (color : Color) : Ground → Attributes
  | .foreground => { attributes with foreground := color }
  | .background => { attributes with background := color }

/-- The attributes after a group of arguments. -/
def SgrGroup.apply (colors : Colors) (defaults attributes : Attributes) : SgrGroup → Attributes
  | .value number => (graphicsArgument colors defaults attributes number []).1
  | .indexed ground index =>
      ground.set attributes ((displayLookupColor colors index).getD (ground.color attributes))
  | .direct ground red green blue =>
      if 0 ≤ red ∧ red ≤ 255 ∧ 0 ≤ green ∧ green ≤ 255 ∧ 0 ≤ blue ∧ blue ≤ 255 then
        ground.set attributes
          { paletteIndex := -1
            red := UInt8.ofNat red.toNat
            green := UInt8.ofNat green.toNat
            blue := UInt8.ofNat blue.toNat }
      else attributes
  | .truncated => attributes

/-- The attributes after arguments, group by group. -/
def sgrFold (componentsBelong : Bool) (colors : Colors) (defaults attributes : Attributes)
    (arguments : List Int) : Attributes :=
  (sgrGroups componentsBelong arguments).foldl (SgrGroup.apply colors defaults) attributes

/-! ## The loop is the fold -/

section Fold

variable (colors : Colors) (defaults attributes : Attributes)

theorem graphicsLoop_skip (skip : Nat) (arguments : List Int) :
    graphicsLoop colors defaults skip arguments attributes =
      graphicsLoop colors defaults 0 (arguments.drop skip) attributes := by
  induction arguments generalizing skip with
  | nil => cases skip <;> rfl
  | cons value rest ih =>
      cases skip with
      | zero => rfl
      | succ skip => exact ih skip

theorem graphicsLoop_cons (value : Int) (rest : List Int) :
    graphicsLoop colors defaults 0 (value :: rest) attributes =
      graphicsLoop colors defaults 0
        (rest.drop (graphicsArgument colors defaults attributes value rest).2)
        (graphicsArgument colors defaults attributes value rest).1 :=
  graphicsLoop_skip colors defaults (graphicsArgument colors defaults attributes value rest).1
    (graphicsArgument colors defaults attributes value rest).2 rest

/-- Other arguments than those of extended colours have their meaning on their own. -/
theorem graphicsArgument_single {value : Int} (single : extendedGround value = none)
    (rest : List Int) :
    graphicsArgument colors defaults attributes value rest =
      ((graphicsArgument colors defaults attributes value []).1, 0) := by
  have others : value ≠ 38 ∧ value ≠ 48 := by
    constructor <;> rintro rfl <;> exact absurd single (by decide)
  -- A branch that does not look behind its argument is the same for any other arguments there.
  have branch {condition : Prop} [Decidable condition] {after : Attributes}
      {left right : Attributes × Nat} (same : left = (right.1, 0)) :
      (if condition then (after, 0) else left) =
        ((if condition then (after, 0) else right).1, 0) := by
    split
    · rfl
    · exact same
  have skipped {condition : Prop} [Decidable condition] (never : ¬ condition)
      {first second left right : Attributes × Nat} (same : left = (right.1, 0)) :
      (if condition then first else left) =
        ((if condition then second else right).1, 0) := by
    rw [if_neg never, if_neg never]
    exact same
  unfold graphicsArgument
  iterate 9 refine branch ?_
  refine skipped others.1 ?_
  iterate 2 refine branch ?_
  refine skipped others.2 ?_
  iterate 3 refine branch ?_
  rfl

variable {value : Int} {ground : Ground}

theorem extendedGround_some (extended : extendedGround value = some ground) :
    (value = 38 ∧ ground = .foreground) ∨ (value = 48 ∧ ground = .background) := by
  unfold extendedGround at extended
  split_ifs at extended with foreground background
  · exact .inl ⟨foreground, (Option.some.inj extended).symm⟩
  · exact .inr ⟨background, (Option.some.inj extended).symm⟩

theorem graphicsArgument_foreground (rest : List Int) :
    graphicsArgument colors defaults attributes 38 rest =
      let parsed := parseXterm256 colors rest attributes.foreground
      if parsed.2 > 0 then ({ attributes with foreground := parsed.1 }, parsed.2)
      else ({ attributes with underscore := true, foreground := defaults.foreground }, 0) := rfl

theorem graphicsArgument_background (rest : List Int) :
    graphicsArgument colors defaults attributes 48 rest =
      let parsed := parseXterm256 colors rest attributes.background
      ({ attributes with background := parsed.1 }, parsed.2) := rfl

/-- An extended colour that has been parsed is set, and the arguments it was parsed from are
skipped. -/
theorem graphicsArgument_parsed (extended : extendedGround value = some ground) {rest : List Int}
    {color : Color} {read : Nat}
    (parsed : parseXterm256 colors rest (ground.color attributes) = (color, read + 1)) :
    graphicsArgument colors defaults attributes value rest =
      (ground.set attributes color, read + 1) := by
  obtain ⟨rfl, rfl⟩ | ⟨rfl, rfl⟩ := extendedGround_some extended
  · rw [graphicsArgument_foreground,
      show attributes.foreground = Ground.color attributes .foreground from rfl, parsed]
    exact if_pos (Nat.succ_pos read)
  · rw [graphicsArgument_background,
      show attributes.background = Ground.color attributes .background from rfl, parsed]
    rfl

/-- What cannot be parsed as an extended colour leaves its first argument on its own. -/
theorem graphicsArgument_unparsed (extended : extendedGround value = some ground) {rest : List Int}
    (unparsed : ∀ color, parseXterm256 colors rest color = (color, 0)) :
    graphicsArgument colors defaults attributes value rest =
      ((graphicsArgument colors defaults attributes value []).1, 0) := by
  have empty : ∀ color, parseXterm256 colors [] color = (color, 0) := fun _ => rfl
  have same (color : Color) : parseXterm256 colors rest color = parseXterm256 colors [] color :=
    (unparsed color).trans (empty color).symm
  have alike : graphicsArgument colors defaults attributes value rest =
      graphicsArgument colors defaults attributes value [] := by
    unfold graphicsArgument
    simp only [same]
  rw [alike]
  obtain ⟨rfl, rfl⟩ | ⟨rfl, rfl⟩ := extendedGround_some extended <;> rfl

theorem parseXterm256_unparsed {rest : List Int} (index : ∀ later, rest ≠ 5 :: later)
    (direct : ∀ later, rest ≠ 2 :: later) (color : Color) :
    parseXterm256 colors rest color = (color, 0) := by
  unfold parseXterm256
  split
  case h_1 later => exact absurd rfl (direct later)
  case h_2 later => exact absurd rfl (index later)
  case h_3 => rfl

theorem parseXterm256Rgb_short {arguments : List Int}
    (short : ∀ red green blue later, arguments ≠ red :: green :: blue :: later) (color : Color) :
    parseXterm256Rgb arguments color = (color, 0) := by
  unfold parseXterm256Rgb
  split
  case h_1 red green blue later => exact absurd rfl (short red green blue later)
  case h_2 => rfl

theorem parseXterm256_direct (red green blue : Int) (later : List Int) (color : Color) :
    parseXterm256 colors (2 :: red :: green :: blue :: later) color =
      (if 0 ≤ red ∧ red ≤ 255 ∧ 0 ≤ green ∧ green ≤ 255 ∧ 0 ≤ blue ∧ blue ≤ 255 then
        { paletteIndex := -1
          red := UInt8.ofNat red.toNat
          green := UInt8.ofNat green.toNat
          blue := UInt8.ofNat blue.toNat }
      else color, 4) := by
  simp only [parseXterm256, parseXterm256Rgb]
  by_cases inside : 0 ≤ red ∧ red ≤ 255 ∧ 0 ≤ green ∧ green ≤ 255 ∧ 0 ≤ blue ∧ blue ≤ 255
  · rw [if_pos inside, if_neg (by omega)]
  · rw [if_neg inside, if_pos (by omega)]

theorem Ground.set_color :
    ground.set attributes (ground.color attributes) = attributes := by
  cases ground <;> rfl

/-- **The loop of the graphics rendition is the fold over the groups of its arguments**, where the
components of a truncated direct colour have a meaning on their own. -/
theorem graphicsLoop_eq_sgrFold (arguments : List Int) :
    graphicsLoop colors defaults 0 arguments attributes =
      sgrFold false colors defaults attributes arguments := by
  unfold sgrFold
  fun_induction sgrGroups false arguments generalizing attributes
  case case1 => rfl
  case case2 value ground index rest extended ih =>
    rw [graphicsLoop_cons, graphicsArgument_parsed colors defaults attributes extended rfl]
    exact ih _
  case case3 value ground extended =>
    rw [graphicsLoop_cons, graphicsArgument_parsed colors defaults attributes extended rfl,
      Ground.set_color]
    rfl
  case case4 value ground red green blue rest extended ih =>
    rw [graphicsLoop_cons, graphicsArgument_parsed colors defaults attributes extended
      (parseXterm256_direct colors red green blue rest _)]
    refine (ih _).trans ?_
    rw [List.foldl_cons, SgrGroup.apply]
    split_ifs
    · rfl
    · rw [Ground.set_color]
  case case5 value ground rest short extended ih =>
    have typed (color : Color) : parseXterm256 colors (2 :: rest) color = (color, 1) := by
      have parsed := parseXterm256Rgb_short (fun red green blue later same =>
        short red green blue later same) color
      simp only [parseXterm256, parsed]
    rw [graphicsLoop_cons, graphicsArgument_parsed colors defaults attributes extended (typed _),
      Ground.set_color]
    exact ih _
  case case6 value rest indexed index direct truncated ih =>
    have alone : graphicsArgument colors defaults attributes value rest =
        ((graphicsArgument colors defaults attributes value []).1, 0) := by
      cases extended : extendedGround value with
      | none => exact graphicsArgument_single colors defaults attributes extended rest
      | some ground =>
          refine graphicsArgument_unparsed colors defaults attributes extended
            (parseXterm256_unparsed colors ?_ fun later => truncated ground later extended)
          rintro (_ | ⟨number, later⟩)
          · exact index ground extended
          · exact indexed ground number later extended
    rw [graphicsLoop_cons, alone]
    exact ih _

end Fold

/-! ## The accesses of the loop -/

section Accesses

variable (colors : Colors) (defaults : Attributes) (argv : Nat → Int)

/-- The `argc` arguments from `place` on. -/
def argumentsFrom (place argc : Nat) : List Int := (List.range' place argc).map argv

theorem argumentsFrom_succ (place argc : Nat) :
    argumentsFrom argv place (argc + 1) = argv place :: argumentsFrom argv (place + 1) argc := rfl

theorem argumentsFrom_drop (place argc skip : Nat) :
    (argumentsFrom argv place argc).drop skip = argumentsFrom argv (place + skip) (argc - skip) := by
  unfold argumentsFrom
  rw [← List.map_drop, List.drop_range', Nat.mul_one]

/-- A parser has the result that it has on a list, and reads none but the arguments it is given. -/
structure ParsedColor.Within (parsed : ParsedColor) (place argc : Nat) (result : Color × Nat) :
    Prop where
  result : (parsed.color, parsed.length) = result
  length : parsed.length ≤ argc
  reads : ∀ index ∈ parsed.reads, index < place + argc

theorem parseXterm256RgbAt_within (argc place : Nat) (color : Color) :
    (parseXterm256RgbAt argc argv place color).Within place argc
      (parseXterm256Rgb (argumentsFrom argv place argc) color) := by
  match argc with
  | 0 => exact ⟨rfl, Nat.le_refl 0, List.forall_mem_nil _⟩
  | 1 => exact ⟨rfl, Nat.zero_le 1, List.forall_mem_nil _⟩
  | 2 => exact ⟨rfl, Nat.zero_le 2, List.forall_mem_nil _⟩
  | argc + 3 =>
      have enough : ¬ argc + 3 < 3 := by omega
      unfold parseXterm256RgbAt
      rw [if_neg enough]
      simp only [argumentsFrom_succ, parseXterm256Rgb]
      split_ifs
      all_goals
        refine ⟨rfl, Nat.le_add_left 3 argc, ?_⟩
        simp only [List.mem_cons, List.not_mem_nil, or_false, forall_eq_or_imp, forall_eq]
        omega

theorem parseXterm256IndexAt_within (argc place : Nat) (color : Color) :
    (parseXterm256IndexAt colors argc argv place color).Within place argc
      (parseXterm256Index colors (argumentsFrom argv place argc) color) := by
  cases argc with
  | zero => exact ⟨rfl, Nat.le_refl 0, List.forall_mem_nil _⟩
  | succ argc => exact ⟨rfl, Nat.le_add_left 1 argc, List.forall_mem_singleton.mpr (by omega)⟩

theorem parseXterm256At_within (argc place : Nat) (color : Color) :
    (parseXterm256At colors argc argv place color).Within place argc
      (parseXterm256 colors (argumentsFrom argv place argc) color) := by
  cases argc with
  | zero => exact ⟨rfl, Nat.le_refl 0, List.forall_mem_nil _⟩
  | succ argc =>
      have behind {parsed : ParsedColor} {result : Color × Nat}
          (within : parsed.Within (place + 1) argc result) :
          ({ parsed with length := parsed.length + 1, reads := place :: parsed.reads } :
            ParsedColor).Within place (argc + 1) (result.1, result.2 + 1) := by
        refine ⟨?_, Nat.succ_le_succ within.length, List.forall_mem_cons.mpr ⟨by omega, ?_⟩⟩
        · rw [← within.result]
        · intro index member
          have inside := within.reads index member
          omega
      unfold parseXterm256At
      rw [if_neg (by omega), argumentsFrom_succ, Nat.add_sub_cancel]
      by_cases direct : argv place = 2
      · rw [direct]
        exact behind (parseXterm256RgbAt_within argv argc (place + 1) color)
      by_cases index : argv place = 5
      · rw [index]
        exact behind (parseXterm256IndexAt_within colors argv argc (place + 1) color)
      · rw [if_neg direct, if_neg index, parseXterm256_unparsed colors
          (fun later same => index (List.cons.inj same).1)
          fun later same => direct (List.cons.inj same).1]
        exact ⟨rfl, Nat.zero_le _, List.forall_mem_singleton.mpr (by omega)⟩

/-- A round of the loop does to the attributes what it does on the list of arguments. -/
theorem graphicsRound_spec {argc i : Nat} (more : i < argc) (attributes : Attributes) :
    let round := graphicsRound colors defaults argc argv i attributes
    (round.1, round.2.1) = graphicsArgument colors defaults attributes (argv i)
        (argumentsFrom argv (i + 1) (argc - i - 1))
      ∧ round.2.1 ≤ argc - i - 1 ∧ ∀ index ∈ round.2.2, index < argc := by
  have inside {place count : Nat} {reads : List Nat} (within : place + count = argc)
      (all : ∀ index ∈ reads, index < place + count) : ∀ index ∈ i :: reads, index < argc :=
    List.forall_mem_cons.mpr ⟨more, within ▸ all⟩
  have rest : i + 1 + (argc - i - 1) = argc := by omega
  dsimp only
  unfold graphicsRound
  by_cases foreground : argv i = 38
  · have within := parseXterm256At_within colors argv (argc - i - 1) (i + 1) attributes.foreground
    rw [if_pos foreground, foreground, graphicsArgument_foreground, ← within.result]
    dsimp only
    split
    · exact ⟨rfl, within.length, inside rest within.reads⟩
    · exact ⟨rfl, Nat.zero_le _, inside rest within.reads⟩
  by_cases background : argv i = 48
  · have within := parseXterm256At_within colors argv (argc - i - 1) (i + 1) attributes.background
    rw [if_neg foreground, if_pos background, background, graphicsArgument_background,
      ← within.result]
    exact ⟨rfl, within.length, inside rest within.reads⟩
  · have single : extendedGround (argv i) = none :=
      (if_neg foreground).trans (if_neg background)
    rw [if_neg foreground, if_neg background]
    exact ⟨(graphicsArgument_single colors defaults attributes single _).symm, Nat.zero_le _,
      List.forall_mem_singleton.mpr more⟩

/-- From any index on, the loop ends, with what the loop over the remaining list leaves, and reads
none but the arguments. -/
theorem graphicsScan_spec (argc i : Nat) (attributes : Attributes) :
    ∃ later, (∀ index ∈ later, index < argc) ∧
      ∀ fuel reads, argc - i < fuel →
        graphicsScan colors defaults argc argv fuel i attributes reads =
          some (graphicsLoop colors defaults 0 (argumentsFrom argv i (argc - i)) attributes,
            reads ++ later) := by
  induction left : argc - i using Nat.strongRecOn generalizing i attributes with
  | ind remaining ih =>
      subst left
      by_cases more : i < argc
      · obtain ⟨argument, short, inside⟩ := graphicsRound_spec colors defaults argv more attributes
        generalize round : graphicsRound colors defaults argc argv i attributes = after
          at argument short inside
        obtain ⟨after, parsed, read⟩ := after
        obtain ⟨later, within, ran⟩ := ih (argc - (i + parsed + 1)) (by omega) (i + parsed + 1)
          after rfl
        have suffix : argumentsFrom argv i (argc - i) =
            argv i :: argumentsFrom argv (i + 1) (argc - i - 1) := by
          rw [← argumentsFrom_succ, Nat.sub_add_cancel (Nat.sub_pos_of_lt more)]
        refine ⟨read ++ later, fun index member => ?_, fun fuel reads enough => ?_⟩
        · rcases List.mem_append.mp member with now | afterwards
          · exact inside index now
          · exact within index afterwards
        · obtain ⟨fuel, rfl⟩ := Nat.exists_eq_succ_of_ne_zero (Nat.ne_zero_of_lt enough)
          have behind : argc - i - 1 - parsed = argc - (i + parsed + 1) := by omega
          have place : i + 1 + parsed = i + parsed + 1 := by omega
          simp only [graphicsScan, if_pos more, round]
          rw [ran fuel (reads ++ read) (by omega), List.append_assoc, suffix, graphicsLoop_cons,
            ← argument, argumentsFrom_drop, behind, place]
      · have ended : argc - i = 0 := by omega
        refine ⟨[], List.forall_mem_nil _, fun fuel reads enough => ?_⟩
        obtain ⟨fuel, rfl⟩ := Nat.exists_eq_succ_of_ne_zero (Nat.ne_zero_of_lt enough)
        rw [graphicsScan, if_neg more, ended, List.append_nil]
        rfl

end Accesses

/-- **The graphics rendition is parsed as groups.** The loop of `m` ends, reads none but the
arguments, and leaves the attributes that the groups of the arguments lead to, where the components
of a truncated direct colour have a meaning on their own. -/
theorem csiGraphics_parses (console : Console) (argc : Nat) (argv : Nat → Int) :
    let colors := console.grid.display.toColors
    let defaults := console.grid.defaultChar.attributes
    let attributes := console.grid.currentAttributes
    let arguments := (List.range argc).map argv
    ∃ reads, (∀ index ∈ reads, index < argc)
      ∧ (∀ fuel > argc, graphicsScan colors defaults argc argv fuel 0 attributes [] =
          some (sgrFold false colors defaults attributes arguments, reads))
      ∧ (csiGraphics console arguments).grid.currentAttributes =
          sgrFold false colors defaults attributes arguments := by
  intro colors defaults attributes arguments
  obtain ⟨reads, within, ran⟩ := graphicsScan_spec colors defaults argv argc 0 attributes
  have folded := graphicsLoop_eq_sgrFold colors defaults attributes arguments
  have whole : argumentsFrom argv 0 (argc - 0) = arguments := by
    rw [argumentsFrom, Nat.sub_zero, ← List.range_eq_range']
  refine ⟨reads, within, fun fuel enough => ?_, folded⟩
  rw [ran fuel [] enough, whole, folded, List.nil_append]

/-- Colours that are all black. -/
def sampleColors : Colors where
  palette _ := default
  defaultForeground := default
  defaultBackground := default

/-- Behind a direct colour that lacks two components, the one it has makes characters bold. -/
theorem truncated_component_is_applied :
    (graphicsScan sampleColors default 3 (fun index => [38, 2, 1].getD index 0) 4 0 default
        []).map Prod.fst ≠
      some (sgrFold true sampleColors default default [38, 2, 1]) := by
  decide

end GuacNebula.Terminal
