import DiceLanguage.Proofs.Print.Expression

namespace DiceLanguage

open Grammar

variable {kind : RollKind}

def Roll.bare (roll : Roll) : Roll := { roll with threshold := none }

structure Roll.IsPlain (kind : RollKind) (roll : Roll) : Prop where
  family : roll.kind = kind
  count : roll.count.IsPlain
  sides : roll.sides.IsPlain
  unlimited : roll.threshold = none

def PlainThreshold (kind : RollKind) (threshold : Option Node) : Prop :=
  ∀ limit ∈ threshold, kind.takesThreshold = true ∧ limit.IsPlain

/-- Rolls of which the last may carry a threshold. -/
structure PlainRolls (kind : RollKind) (init : List Roll) (last : Roll) : Prop where
  earlier : ∀ roll ∈ init, roll.IsPlain kind
  final : last.bare.IsPlain kind
  limited : PlainThreshold kind last.threshold

def NonEmptyList.toNode (rolls : NonEmptyList Roll) : Node :=
  rolls.tail.foldl (fun sum roll => .binary .add sum roll.toNode) rolls.head.toNode

theorem NonEmptyList.toList_ofInitLast {α : Type} (init : List α) (last : α) :
    (ofInitLast init last).toList = init ++ [last] := by
  cases init <;> rfl

theorem NonEmptyList.exists_ofInitLast {α : Type} (list : NonEmptyList α) :
    ∃ init last, list = ofInitLast init last := by
  obtain ⟨head, tail⟩ := list
  cases tail with
  | nil => exact ⟨[], head, rfl⟩
  | cons next tail =>
    have nonempty : next :: tail ≠ [] := List.cons_ne_nil next tail
    refine ⟨head :: (next :: tail).dropLast, (next :: tail).getLast nonempty, ?_⟩
    rw [ofInitLast, List.dropLast_concat_getLast]

namespace Roll

theorem writes_print {roll : Roll} (plain : roll.bare.IsPlain kind)
    (limited : PlainThreshold kind roll.threshold) :
    Writes .rolls (roll.bare.print ++ Command.thresholdText roll.threshold).toList roll.toNode := by
  obtain ⟨family, countNode, sidesNode, threshold⟩ := roll
  obtain ⟨rfl, countPlain, sidesPlain, -⟩ := plain
  have count := Node.writes_count (Node.writes_plain countPlain true)
  have sides := Node.writes_sides (Node.writes_plain sidesPlain true)
  cases threshold with
  | none =>
    simpa [Command.thresholdText, print, toNode, bare, Node.print, Node.printAt] using
      Writes.roll family count sides
  | some limit =>
    obtain ⟨allowed, limitPlain⟩ := limited limit rfl
    have inner : Writes .sum limit.print.toList limit :=
      (Node.writes_plain limitPlain true).widen (Nat.zero_le _)
    simpa [Command.thresholdText, print, toNode, bare, Node.print, Node.printAt] using
      Writes.thresholdRoll allowed count sides inner

theorem bare_eq_self {roll : Roll} (unlimited : roll.threshold = none) : roll.bare = roll := by
  obtain ⟨family, count, sides, threshold⟩ := roll
  cases unlimited
  rfl

theorem IsPlain.bare_eq {roll : Roll} (plain : roll.IsPlain kind) : roll.bare = roll :=
  bare_eq_self plain.unlimited

theorem IsPlain.bare {roll : Roll} (plain : roll.IsPlain kind) : roll.bare.IsPlain kind := by
  rwa [plain.bare_eq]

theorem IsPlain.limited {roll : Roll} (plain : roll.IsPlain kind) :
    PlainThreshold kind roll.threshold := by
  intro limit same
  rw [plain.unlimited] at same
  cases same

theorem IsPlain.writes {roll : Roll} (plain : roll.IsPlain kind) :
    Writes .rolls roll.print.toList roll.toNode := by
  have written := writes_print plain.bare plain.limited
  rwa [plain.bare_eq, plain.unlimited, Command.thresholdText, String.append_empty] at written

end Roll

theorem rollsText_toList (head : Roll) (tail : List Roll) :
    (Command.rollsText ⟨head, tail⟩).toList =
      head.print.toList ++ tail.flatMap (fun roll => '+' :: roll.print.toList) := by
  induction tail generalizing head with
  | nil => simp [Command.rollsText, NonEmptyList.toList]
  | cons next tail ih =>
    have rest := ih next
    simp only [Command.rollsText, NonEmptyList.toList, List.map_cons, List.flatMap_cons] at rest ⊢
    rw [String.intercalate_cons_cons]
    simp [rest]

theorem writes_rolls {text : List Char} {sum : Node} (written : Writes .sum text sum)
    (rolls : List Roll) (plain : ∀ roll ∈ rolls, roll.IsPlain kind) :
    Writes .sum (text ++ rolls.flatMap (fun roll => '+' :: roll.print.toList))
      (rolls.foldl (fun sum roll => .binary .add sum roll.toNode) sum) := by
  induction rolls generalizing text sum with
  | nil => simpa using written
  | cons roll rolls ih =>
    have term : Writes .product roll.print.toList roll.toNode :=
      (plain roll List.mem_cons_self).writes.widen (by decide)
    have rest := ih (written.add term) fun roll member => plain roll (List.mem_cons_of_mem _ member)
    simpa using rest

theorem writes_list {init : List Roll} {last : Roll} (plain : PlainRolls kind init last) :
    Writes .sum (Command.rollsText (.ofInitLast init last.bare) ++
      Command.thresholdText last.threshold).toList (NonEmptyList.ofInitLast init last).toNode := by
  have written := Roll.writes_print plain.final plain.limited
  cases init with
  | nil =>
    have whole : Writes .sum _ _ := written.widen (Nat.zero_le _)
    simpa [NonEmptyList.ofInitLast, Command.rollsText, NonEmptyList.toList,
      NonEmptyList.toNode] using whole
  | cons head more =>
    have first : Writes .sum head.print.toList head.toNode :=
      (plain.earlier head List.mem_cons_self).writes.widen (Nat.zero_le _)
    have term : Writes .product _ last.toNode := written.widen (by decide)
    have whole := (writes_rolls first more fun roll member =>
      plain.earlier roll (List.mem_cons_of_mem _ member)).add term
    rw [NonEmptyList.ofInitLast, String.toList_append, rollsText_toList]
    simpa [NonEmptyList.ofInitLast, NonEmptyList.toNode] using whole

theorem Roll.rollOf?_toNode {roll : Roll} (family : roll.kind = kind) :
    roll.toNode.rollOf? kind = some roll := by
  rw [Node.rollOf?, toRoll?_toNode]
  simp [family]

theorem Roll.rollTerms?_toNode {roll : Roll} (family : roll.kind = kind) :
    roll.toNode.rollTerms? kind = some ([], roll) := by
  have single := rollOf?_toNode family
  obtain ⟨family', count, sides, _ | limit⟩ := roll
  · change (Node.rollOf? kind _ >>= _) = _
    rw [single]
    rfl
  · change (Node.rollOf? kind _ >>= _) = _
    rw [single]
    rfl

theorem rollTerms?_foldl {sum : Node} {init : List Roll} {last : Roll}
    (terms : sum.rollTerms? kind = some (init, last)) (rolls : List Roll)
    (family : ∀ roll ∈ rolls, roll.kind = kind) :
    ∃ init' last', (rolls.foldl (fun sum roll => .binary .add sum roll.toNode) sum).rollTerms? kind =
        some (init', last') ∧ init' ++ [last'] = init ++ last :: rolls := by
  induction rolls generalizing sum init last with
  | nil => exact ⟨init, last, terms, rfl⟩
  | cons roll rolls ih =>
    have longer : (Node.binary .add sum roll.toNode).rollTerms? kind =
        some (init ++ [last], roll) := by
      rw [Node.rollTerms?, Roll.rollOf?_toNode (family roll List.mem_cons_self), terms]
      rfl
    obtain ⟨init', last', taken, same⟩ :=
      ih longer fun roll member => family roll (List.mem_cons_of_mem _ member)
    exact ⟨init', last', taken, by rw [same, List.append_assoc, List.singleton_append]⟩

theorem rollTerms?_list {init : List Roll} {last : Roll}
    (family : ∀ roll ∈ init ++ [last], roll.kind = kind) :
    (NonEmptyList.ofInitLast init last).toNode.rollTerms? kind = some (init, last) := by
  have all := NonEmptyList.toList_ofInitLast init last
  cases same : NonEmptyList.ofInitLast init last with
  | mk head tail =>
    rw [same] at all
    change head :: tail = _ at all
    rw [← all] at family
    obtain ⟨init', last', taken, same'⟩ := rollTerms?_foldl
      (Roll.rollTerms?_toNode (family head List.mem_cons_self)) tail
      fun roll member => family roll (List.mem_cons_of_mem _ member)
    rw [List.nil_append, all] at same'
    obtain ⟨rfl, single⟩ := List.append_inj' same' rfl
    cases single
    exact taken

theorem contains_foldl (sum : Node) (rolls : List Roll) (kinds : List RollKind) :
    (rolls.foldl (fun sum roll => .binary .add sum roll.toNode) sum).contains kinds =
      (sum.contains kinds || rolls.any (·.toNode.contains kinds)) := by
  induction rolls generalizing sum with
  | nil => simp
  | cons roll rolls ih =>
    rw [List.foldl_cons, ih, Node.contains, List.any_cons, Bool.or_assoc]

theorem NonEmptyList.contains_toNode (rolls : NonEmptyList Roll) (kinds : List RollKind) :
    rolls.toNode.contains kinds = rolls.toList.any (·.toNode.contains kinds) :=
  contains_foldl _ _ kinds

theorem Roll.contains_toNode {roll : Roll} (plain : roll.bare.IsPlain kind)
    (limited : PlainThreshold kind roll.threshold) {kinds : List RollKind}
    (noSum : kinds.contains .sum = false) :
    roll.toNode.contains kinds = kinds.contains kind := by
  obtain ⟨family, count, sides, threshold⟩ := roll
  obtain ⟨rfl, countPlain, sidesPlain, -⟩ := plain
  have noCount : count.contains kinds = false := Node.contains_of_arithmetic countPlain noSum
  have noSides : sides.contains kinds = false := Node.contains_of_arithmetic sidesPlain noSum
  cases threshold with
  | none => simp [toNode, Node.contains, noCount, noSides, bare]
  | some limit =>
    have noLimit := Node.contains_of_arithmetic (limited limit rfl).2 noSum
    simp [toNode, Node.contains, noCount, noSides, noLimit, bare]

namespace PlainRolls

variable {init : List Roll} {last : Roll}

theorem contains (plain : PlainRolls kind init last) {kinds : List RollKind}
    (noSum : kinds.contains .sum = false) :
    (NonEmptyList.ofInitLast init last).toNode.contains kinds = kinds.contains kind := by
  have front : ∀ roll ∈ init, roll.toNode.contains kinds = kinds.contains kind := by
    intro roll member
    have single := plain.earlier roll member
    exact Roll.contains_toNode single.bare single.limited noSum
  have back := Roll.contains_toNode plain.final plain.limited noSum
  rw [NonEmptyList.contains_toNode, NonEmptyList.toList_ofInitLast, List.any_append]
  cases family : kinds.contains kind with
  | true =>
    rw [family] at back
    simp [back]
  | false =>
    rw [family] at back front
    simpa [back] using front

theorem family (plain : PlainRolls kind init last) : ∀ roll ∈ init ++ [last], roll.kind = kind := by
  intro roll member
  rcases List.mem_append.mp member with member | member
  · exact (plain.earlier roll member).family
  · cases List.mem_singleton.mp member
    exact plain.final.family

theorem list (plain : PlainRolls kind init last) :
    ∀ roll ∈ (NonEmptyList.ofInitLast init last.bare).toList, roll.IsPlain kind := by
  intro roll member
  rw [NonEmptyList.toList_ofInitLast] at member
  rcases List.mem_append.mp member with member | member
  · exact plain.earlier roll member
  · cases List.mem_singleton.mp member
    exact plain.final

theorem listable (plain : PlainRolls kind init last) :
    (NonEmptyList.ofInitLast init last.bare).toList.all Roll.isListable = true := by
  rw [List.all_eq_true]
  intro roll member
  have single := plain.list roll member
  have noCount : roll.count.contains RollKind.listed = false :=
    Node.contains_of_arithmetic single.count rfl
  have noSides : roll.sides.contains RollKind.listed = false :=
    Node.contains_of_arithmetic single.sides rfl
  simp [Roll.isListable, noCount, noSides]

theorem thresholdListable (plain : PlainRolls kind init last) :
    thresholdIsListable last.threshold = true := by
  cases same : last.threshold with
  | none => rfl
  | some limit =>
    have unlisted : limit.contains RollKind.listed = false :=
      Node.contains_of_arithmetic (plain.limited limit same).2 rfl
    simp [thresholdIsListable, unlisted]

theorem rollList_toNode (plain : PlainRolls kind init last) :
    Command.rollList kind (NonEmptyList.ofInitLast init last).toNode =
      .ok (.ofInitLast init last.bare, last.threshold) := by
  have single : ¬ init.any (·.threshold.isSome) = true := by
    simp only [List.any_eq_true, not_exists, not_and]
    intro roll member
    rw [(plain.earlier roll member).unlimited]
    exact Bool.false_ne_true
  rw [Command.rollList, rollTerms?_list plain.family]
  simp only
  rw [if_neg single, if_pos]
  · rfl
  · rw [plain.thresholdListable, Bool.and_true]
    exact plain.listable

end PlainRolls

def PlainCheck (check : Option Comparison) : Prop := ∀ c ∈ check, c.target.IsPlain

theorem PlainCheck.normal {check : Option Comparison} (plain : PlainCheck check) :
    check.map Comparison.normal = check := by
  cases check with
  | none => rfl
  | some comparison =>
    obtain ⟨relation, target⟩ := comparison
    have same := Node.normal_of_plain (plain ⟨relation, target⟩ rfl)
    simp [Comparison.normal, same]

theorem PlainCheck.free {check : Option Comparison} (plain : PlainCheck check) :
    check.any (·.target.contains RollKind.listed) = false := by
  cases check with
  | none => rfl
  | some comparison => exact Node.contains_of_arithmetic (plain comparison rfl) rfl

namespace PlainRolls

variable {init : List Roll} {last : Roll} {check : Option Comparison}

theorem exists_of_list {rolls : NonEmptyList Roll} {threshold : Option Node}
    (plain : ∀ roll ∈ rolls.toList, roll.IsPlain kind) (limited : PlainThreshold kind threshold) :
    ∃ init last, rolls = .ofInitLast init last.bare ∧ threshold = last.threshold ∧
      PlainRolls kind init last := by
  obtain ⟨init, last, rfl⟩ := rolls.exists_ofInitLast
  rw [NonEmptyList.toList_ofInitLast] at plain
  have plainLast : last.IsPlain kind := plain last (List.mem_append_right init List.mem_cons_self)
  have same : Roll.bare { last with threshold := threshold } = last := plainLast.bare_eq
  refine ⟨init, { last with threshold := threshold }, by rw [same], rfl, ?_, ?_, limited⟩
  · exact fun roll member => plain roll (List.mem_append_left _ member)
  · rwa [same]

theorem ofExpression_scatter (plain : PlainRolls .scatter init last) (checked : PlainCheck check) :
    Command.ofExpression (NonEmptyList.ofInitLast init last).toNode check =
      .ok (.scatter (.ofInitLast init last.bare) check) := by
  have found : Node.contains [.scatter] _ = true := plain.contains rfl
  have unlimited : last.threshold = none := by
    cases same : last.threshold with
    | none => rfl
    | some limit => cases (plain.limited limit same).1
  rw [Command.ofExpression, if_neg (by simp [checked.free]), if_pos (by simp [found])]
  rw [Command.ofScatter, plain.rollList_toNode, unlimited]
  rfl

theorem ofExpression_reroll (plain : PlainRolls .reroll init last) (checked : PlainCheck check) :
    Command.ofExpression (NonEmptyList.ofInitLast init last).toNode check =
      .ok (.reroll (.ofInitLast init last.bare) last.threshold check) := by
  have noScatter : Node.contains [.scatter] _ = false := plain.contains rfl
  have found : Node.contains [.reroll] _ = true := plain.contains rfl
  rw [Command.ofExpression, if_neg (by simp [checked.free]), if_neg (by simp [noScatter]),
    if_pos (by simp [found])]
  rw [Command.ofReroll, plain.rollList_toNode]
  rfl

theorem parse_text (plain : PlainRolls kind init last) (checked : PlainCheck check)
    {command : Command}
    (accepted : Command.ofExpression (NonEmptyList.ofInitLast init last).toNode check = .ok command)
    (secret : Bool) :
    Statement.parse (secretText secret ++ (Command.rollsText (.ofInitLast init last.bare) ++
      Command.thresholdText last.threshold ++ Command.checkText check)) = .ok ⟨command, secret⟩ := by
  have spells := spells_statement (writes_list plain) secret check
    fun c member => Node.isArithmetic_of_plain (checked c member)
  rw [checked.normal] at spells
  exact parse_rolls spells accepted

end PlainRolls

namespace Statement

variable {rolls : NonEmptyList Roll} {threshold : Option Node} {check : Option Comparison}

theorem parse_print_scatter (plain : ∀ roll ∈ rolls.toList, roll.IsPlain .scatter)
    (checked : PlainCheck check) (secret : Bool) :
    parse (Statement.mk (.scatter rolls check) secret).print =
      .ok ⟨.scatter rolls check, secret⟩ := by
  have unlimited : PlainThreshold .scatter none := nofun
  obtain ⟨init, last, rfl, same, plain⟩ := PlainRolls.exists_of_list plain unlimited
  have read := plain.parse_text checked (plain.ofExpression_scatter checked) secret
  rwa [← same, Command.thresholdText, String.append_empty] at read

theorem parse_print_reroll (plain : ∀ roll ∈ rolls.toList, roll.IsPlain .reroll)
    (limited : ∀ limit ∈ threshold, limit.IsPlain) (checked : PlainCheck check) (secret : Bool) :
    parse (Statement.mk (.reroll rolls threshold check) secret).print =
      .ok ⟨.reroll rolls threshold check, secret⟩ := by
  have allowed : PlainThreshold .reroll threshold := fun limit member => ⟨rfl, limited limit member⟩
  obtain ⟨init, last, rfl, rfl, plain⟩ := PlainRolls.exists_of_list plain allowed
  exact plain.parse_text checked (plain.ofExpression_reroll checked) secret

end Statement

end DiceLanguage
