import DiceLanguage.Dice.Script
import DiceLanguage.Proofs.Text
import Mathlib.Data.List.Forall2

namespace DiceLanguage

open Text

structure Die.IsPossible (die : Die) : Prop where
  least : 1 ≤ die.value
  greatest : die.value ≤ die.sides
  fits : die.sides ≤ maxInt

theorem Die.IsPossible.sides_positive {die : Die} (possible : die.IsPossible) : 1 ≤ die.sides :=
  Int.le_trans possible.least possible.greatest

namespace Script

section Items

variable {left right field : List Char} {die : Die}

/-- Two numerals with a slash between them, each of which may have blanks around it. -/
def StandsIn (die : Die) (field : List Char) : Prop :=
  ∃ left right, field = left ++ '/' :: right ∧ '/' ∉ left ∧
    IsNumeral (trim left) die.value ∧ IsNumeral (trim right) die.sides

theorem ne_slash (none : '/' ∉ field) : ∀ c ∈ field, decide (c ≠ '/') = true := by
  intro c member
  apply decide_eq_true
  rintro rfl
  exact none member

theorem readDie_slash (first : '/' ∉ left) (right : List Char) :
    readDie (left ++ '/' :: right) = (do
      let value ← (readInteger (trim left)).mapError .invalidValue
      let sides ← (readInteger (trim right)).mapError .invalidSides
      if 1 ≤ sides ∧ 1 ≤ value ∧ value ≤ sides then .ok ⟨value, sides⟩
      else .error (.outOfRange value sides)) := by
  rw [readDie, List.takeWhile_append_of_pos (ne_slash first),
    List.dropWhile_append_of_pos (ne_slash first)]
  simp

theorem readDie_no_slash (none : '/' ∉ field) :
    readDie field = .error (.noDelimiter (String.ofList field)) := by
  rw [readDie, List.dropWhile_eq_nil_iff.mpr (ne_slash none)]

theorem bind_mapError_ok {ε ε' α β : Type} {result : Except ε α} {f : ε → ε'}
    {next : α → Except ε' β} {y : β} :
    result.mapError f >>= next = .ok y ↔ ∃ x, result = .ok x ∧ next x = .ok y := by
  cases result with
  | error error => exact iff_of_false nofun nofun
  | ok x =>
    constructor
    · exact fun same => ⟨x, rfl, same⟩
    · rintro ⟨x, same, later⟩
      cases same
      exact later

theorem readDie_slash_ok (first : '/' ∉ left) :
    readDie (left ++ '/' :: right) = .ok die ↔
      die.IsPossible ∧ IsNumeral (trim left) die.value ∧ IsNumeral (trim right) die.sides := by
  rw [readDie_slash first, bind_mapError_ok]
  simp only [bind_mapError_ok]
  constructor
  · rintro ⟨value, readValue, sides, readSides, same⟩
    split at same
    · rename_i range
      cases same
      obtain ⟨valueWritten, -⟩ := (readInteger_ok range.2.1).mp readValue
      obtain ⟨sidesWritten, fits⟩ := (readInteger_ok range.1).mp readSides
      exact ⟨⟨range.2.1, range.2.2, fits⟩, valueWritten, sidesWritten⟩
    · cases same
  · rintro ⟨⟨least, greatest, fits⟩, value, sides⟩
    have some := Int.le_trans least greatest
    refine ⟨die.value, (readInteger_ok least).mpr ⟨value, Int.le_trans greatest fits⟩,
      die.sides, (readInteger_ok some).mpr ⟨sides, fits⟩, ?_⟩
    rw [if_pos ⟨some, least, greatest⟩]

theorem readDie_trim (slash : '/' ∈ field) : readDie (trim field) = readDie field := by
  obtain ⟨before, behind, first, last, whole⟩ := exists_trim field
  have inside : '/' ∈ trim field := by
    rw [whole] at slash
    rcases List.mem_append.mp slash with outside | slash
    · exact absurd outside (first.not_mem rfl)
    · exact (List.mem_append.mp slash).resolve_right (last.not_mem rfl)
  obtain ⟨left, right, same, firstSlash⟩ := List.eq_append_cons_of_mem inside
  have noSlash : '/' ∉ before ++ left := by
    rw [List.mem_append, not_or]
    exact ⟨first.not_mem rfl, firstSlash⟩
  have moved : field = (before ++ left) ++ '/' :: (right ++ behind) := by
    rw [whole, same]
    simp
  rw [same, moved, readDie_slash firstSlash, readDie_slash noSlash, trim_blank_append first,
    trim_append_blank right last]

theorem readDie_ok : readDie (trim field) = .ok die ↔ die.IsPossible ∧ StandsIn die field := by
  constructor
  · intro read
    by_cases slash : '/' ∈ field
    · rw [readDie_trim slash] at read
      obtain ⟨left, right, rfl, first⟩ := List.eq_append_cons_of_mem slash
      obtain ⟨possible, numerals⟩ := (readDie_slash_ok first).mp read
      exact ⟨possible, left, right, rfl, first, numerals⟩
    · have none : '/' ∉ trim field := fun inside => slash (mem_of_mem_trim inside)
      rw [readDie_no_slash none] at read
      cases read
  · rintro ⟨possible, left, right, rfl, first, numerals⟩
    rw [readDie_trim (List.mem_append_right left List.mem_cons_self)]
    exact (readDie_slash_ok first).mpr ⟨possible, numerals⟩

end Items

def fields (text : String) : List (List Char) :=
  (text.toList.splitOn ',').filter fun field => ¬ Blank field

theorem items_eq (text : String) : items text.toList = (fields text).map trim := by
  rw [items, fields, List.filter_map]
  congr 1
  apply List.filter_congr
  intro field _
  simp [trim_eq_nil_iff]

theorem mapM_ok {ε α β : Type} {f : α → Except ε β} {inputs : List α} {outputs : List β} :
    inputs.mapM f = .ok outputs ↔ List.Forall₂ (fun x y => f x = .ok y) inputs outputs := by
  induction inputs generalizing outputs with
  | nil =>
    rw [List.mapM_nil, List.forall₂_nil_left_iff]
    constructor
    · intro same
      cases same
      rfl
    · rintro rfl
      rfl
  | cons x inputs ih =>
    rw [List.mapM_cons, List.forall₂_cons_left_iff]
    constructor
    · intro same
      rcases first : f x with error | y
      · rw [first] at same
        cases same
      · rcases others : inputs.mapM f with error | ys
        · rw [first, others] at same
          cases same
        · rw [first, others] at same
          cases same
          exact ⟨y, ys, rfl, ih.mp others, rfl⟩
    · rintro ⟨y, ys, first, others, rfl⟩
      rw [first, ih.mpr others]
      rfl

theorem parse_ok {text : String} {script : Script} :
    parse text = .ok script ↔
      (∀ die ∈ script.dice, die.IsPossible) ∧
        List.Forall₂ StandsIn script.dice (fields text) := by
  have read : parse text = .ok script ↔ (items text.toList).mapM readDie = .ok script.dice := by
    rw [parse]
    rcases (items text.toList).mapM readDie with error | dice
    · exact iff_of_false nofun nofun
    · constructor
      all_goals
        intro same
        cases same
        rfl
  rw [read, items_eq, mapM_ok, List.forall₂_map_left_iff, ← List.forall₂_and_left]
  simp only [readDie_ok]
  exact ⟨List.Forall₂.flip, List.Forall₂.flip⟩

def Padded (x : Int) (text : List Char) : Prop :=
  ∃ before behind, Blank before ∧ Blank behind ∧ text = before ++ (decimal x).toList ++ behind

def Spaced (die : Die) (field : List Char) : Prop :=
  ∃ left right, Padded die.value left ∧ Padded die.sides right ∧ field = left ++ '/' :: right

/-- The items of a script in which these dice are written, among any number of blank items. -/
inductive Lists : List (List Char) → List Die → Prop where
  | nil : Lists [] []
  | blank {field : List Char} {fields : List (List Char)} {dice : List Die} (blank : Blank field)
    (rest : Lists fields dice) : Lists (field :: fields) dice
  | die {field : List Char} {fields : List (List Char)} {die : Die} {dice : List Die}
    (spaced : Spaced die field) (rest : Lists fields dice) : Lists (field :: fields) (die :: dice)

def Writes (text : String) (dice : List Die) : Prop :=
  ∃ fields, text = String.ofList ([','].intercalate fields) ∧ Lists fields dice

section Writing

variable {field : List Char} {fields : List (List Char)} {die : Die} {dice : List Die}

namespace Padded

variable {x : Int} {text : List Char} (padded : Padded x text) (positive : 1 ≤ x)
include padded positive

theorem isNumeral : IsNumeral (trim text) x := by
  obtain ⟨before, behind, first, last, rfl⟩ := padded
  have decimal := isDecimal_decimal positive
  rw [trim_append_blank _ last, trim_blank_append first,
    trim_visible fun c member => isBlank_of_isDigit (decimal.digit c member)]
  exact .inl decimal

theorem not_mem {c : Char} (visible : isBlank c = false) (noDigit : c.isDigit = false) :
    c ∉ text := by
  obtain ⟨before, behind, first, last, rfl⟩ := padded
  have outside : c ∉ (decimal x).toList := by
    intro member
    rw [(isDecimal_decimal positive).digit c member] at noDigit
    cases noDigit
  simp [first.not_mem visible, outside, last.not_mem visible]

end Padded

namespace Spaced

variable (spaced : Spaced die field)
include spaced

theorem not_blank : ¬ Blank field := by
  obtain ⟨left, right, -, -, rfl⟩ := spaced
  intro blank
  have visible : isBlank '/' = false := rfl
  exact blank.not_mem visible (List.mem_append_right left List.mem_cons_self)

theorem no_comma (possible : die.IsPossible) : ',' ∉ field := by
  obtain ⟨left, right, value, sides, rfl⟩ := spaced
  rw [List.mem_append, List.mem_cons, not_or, not_or]
  exact ⟨value.not_mem possible.least rfl rfl, by decide,
    sides.not_mem possible.sides_positive rfl rfl⟩

theorem standsIn (possible : die.IsPossible) : StandsIn die field := by
  obtain ⟨left, right, value, sides, rfl⟩ := spaced
  exact ⟨left, right, rfl, value.not_mem possible.least rfl rfl,
    value.isNumeral possible.least, sides.isNumeral possible.sides_positive⟩

end Spaced

theorem Lists.no_comma (lists : Lists fields dice) (possible : ∀ die ∈ dice, die.IsPossible) :
    ∀ field ∈ fields, ',' ∉ field := by
  induction lists with
  | nil => nofun
  | blank blank rest ih => exact List.forall_mem_cons.mpr ⟨blank.not_mem rfl, ih possible⟩
  | die spaced rest ih =>
    obtain ⟨first, others⟩ := List.forall_mem_cons.mp possible
    exact List.forall_mem_cons.mpr ⟨spaced.no_comma first, ih others⟩

theorem Lists.forall₂ (lists : Lists fields dice) (possible : ∀ die ∈ dice, die.IsPossible) :
    List.Forall₂ StandsIn dice (fields.filter fun field => ¬ Blank field) := by
  induction lists with
  | nil => exact .nil
  | blank blank rest ih =>
    rw [List.filter_cons_of_neg (by simpa using blank)]
    exact ih possible
  | die spaced rest ih =>
    obtain ⟨first, others⟩ := List.forall_mem_cons.mp possible
    rw [List.filter_cons_of_pos (by simpa using spaced.not_blank)]
    exact .cons (spaced.standsIn first) (ih others)

theorem fields_intercalate (noComma : ∀ field ∈ fields, ',' ∉ field) :
    Script.fields (String.ofList ([','].intercalate fields)) =
      fields.filter fun field => ¬ Blank field := by
  rw [Script.fields, String.toList_ofList]
  cases fields with
  | nil => rfl
  | cons field fields => rw [List.splitOn_intercalate ',' noComma (List.cons_ne_nil _ _)]

theorem parse_of_writes {text : String} (writes : Writes text dice)
    (possible : ∀ die ∈ dice, die.IsPossible) : parse text = .ok ⟨dice⟩ := by
  obtain ⟨fields, rfl, lists⟩ := writes
  rw [parse_ok, fields_intercalate (lists.no_comma possible)]
  exact ⟨possible, lists.forall₂ possible⟩

theorem padded_decimal (x : Int) : Padded x (decimal x).toList :=
  ⟨[], [], blank_nil, blank_nil, (List.append_nil _).symm⟩

theorem spaced_text (die : Die) : Spaced die die.text.toList := by
  refine ⟨_, _, padded_decimal die.value, padded_decimal die.sides, ?_⟩
  simp [Die.text]

theorem writes_script (dice : List Die) : Writes (Die.script dice) dice := by
  refine ⟨dice.map fun die => die.text.toList, ?_, ?_⟩
  · apply String.toList_inj.mp
    rw [Die.script, String.toList_intercalate, List.map_map]
    exact String.toList_ofList.symm
  · induction dice with
    | nil => exact .nil
    | cons die dice ih => exact .die (spaced_text die) ih

end Writing

/-- A script of possible dice is read as these dice, however it is spaced out and whatever blank items
are put in. Where any text is read, its items that are not blank are possible dice, one for each. -/
theorem parse_reads_back :
    (∀ dice : List Die, (∀ die ∈ dice, die.IsPossible) →
      Writes (Die.script dice) dice ∧ ∀ text, Writes text dice → parse text = .ok ⟨dice⟩) ∧
    ∀ text script, parse text = .ok script →
      (∀ die ∈ script.dice, 1 ≤ die.value ∧ die.value ≤ die.sides) ∧
        List.Forall₂ StandsIn script.dice (fields text) := by
  constructor
  · exact fun dice possible =>
      ⟨writes_script dice, fun text writes => parse_of_writes writes possible⟩
  · intro text script read
    obtain ⟨possible, each⟩ := parse_ok.mp read
    exact ⟨fun die member => ⟨(possible die member).least, (possible die member).greatest⟩, each⟩

theorem parse_reads_back_spaced :
    let dice : List Die := [⟨5, 6⟩, ⟨maxInt, maxInt⟩]
    let text := " 5/\t6 , ,9223372036854775807\u3000/9223372036854775807,"
    Die.script dice = "5/6,9223372036854775807/9223372036854775807" ∧
      parse text = .ok ⟨dice⟩ ∧
      List.Forall₂ StandsIn [⟨1, 20⟩] (fields ",+1 / 0020 ,") := by
  intro dice text
  obtain ⟨written, read⟩ := parse_reads_back
  have possible : ∀ die ∈ dice, die.IsPossible := by
    refine List.forall_mem_cons.mpr ⟨⟨by decide, by decide, by decide⟩, ?_⟩
    exact List.forall_mem_singleton.mpr ⟨by decide, by decide, by decide⟩
  have first : Spaced ⟨5, 6⟩ " 5/\t6 ".toList :=
    ⟨[' ', '5'], ['\t', '6', ' '], ⟨[' '], [], by decide⟩, ⟨['\t'], [' '], by decide⟩, by decide⟩
  have second : Spaced ⟨maxInt, maxInt⟩ "9223372036854775807\u3000/9223372036854775807".toList :=
    ⟨"9223372036854775807\u3000".toList, "9223372036854775807".toList,
      ⟨[], ['\u3000'], by decide⟩, padded_decimal maxInt, by decide⟩
  have space : Blank [' '] := by decide
  have lists := Lists.die first (.blank space (.die second (.blank blank_nil .nil)))
  exact ⟨by decide, (written dice possible).2 text ⟨_, by decide, lists⟩,
    (read ",+1 / 0020 ," ⟨[⟨1, 20⟩]⟩ (by decide)).2⟩

end Script

end DiceLanguage
