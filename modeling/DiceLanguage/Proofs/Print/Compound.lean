import DiceLanguage.Proofs.Node.Modifier
import DiceLanguage.Proofs.Print.RollList

namespace DiceLanguage

open Grammar

namespace Node

variable {node : Node} {kind : RollKind} {roll last : Roll} {init : List Roll}

theorem eq_of_rollOf? (found : node.rollOf? kind = some roll) :
    node = roll.toNode ∧ roll.kind = kind := by
  obtain ⟨single, family⟩ := Option.filter_eq_some_iff.mp found
  constructor
  · cases node with
    | roll | thresholdRoll => cases single; rfl
    | _ => cases single
  · simpa using family

theorem rollTerms?_readable (readable : node.IsReadable)
    (terms : node.rollTerms? kind = some (init, last)) :
    ∀ roll ∈ init ++ [last], roll.kind = kind ∧ roll.toNode.IsReadable := by
  fun_induction rollTerms? generalizing init last with
  | case1 left right ih =>
    obtain ⟨roll, single, more⟩ := Option.bind_eq_some_iff.mp terms
    obtain ⟨⟨init', before⟩, earlier, whole⟩ := Option.bind_eq_some_iff.mp more
    obtain ⟨rfl, family⟩ := eq_of_rollOf? single
    cases whole
    intro roll member
    rcases List.mem_append.mp member with member | member
    · exact ih readable.2.1 earlier roll member
    · cases List.mem_singleton.mp member
      exact ⟨family, readable.2.2⟩
  | case2 node noSum =>
    obtain ⟨roll, single, whole⟩ := Option.bind_eq_some_iff.mp terms
    obtain ⟨rfl, family⟩ := eq_of_rollOf? single
    cases whole
    intro roll member
    cases List.mem_singleton.mp member
    exact ⟨family, readable⟩

theorem detachModifier_readable (readable : node.IsReadable) :
    node.detachModifier.1.IsReadable ∧ ∀ m ∈ node.detachModifier.2, m.IsReadable := by
  fun_induction detachModifier with
  | case1 | case4 | case7 => exact ⟨readable, nofun⟩
  -- The left operand has been cut, into rolls alone or into rolls and a first part of the modifier.
  | case2 left right single rolls cut ih | case5 left right single rolls cut ih =>
    have parts := ih readable.2.1
    rw [cut] at parts
    refine ⟨parts.1, ?_⟩
    intro m same
    cases same
    exact readable.2.2
  | case3 left right single rolls modifier cut ih | case6 left right single rolls modifier cut ih =>
    have parts := ih readable.2.1
    rw [cut] at parts
    refine ⟨parts.1, ?_⟩
    intro m same
    cases same
    exact ⟨by decide, parts.2 modifier rfl, readable.2.2⟩

end Node

theorem Roll.isPlain_bare {kind : RollKind} {roll : Roll} (family : roll.kind = kind)
    (readable : roll.toNode.IsReadable) (listable : roll.bare.isListable = true) :
    roll.bare.IsPlain kind := by
  obtain ⟨family', count, sides, threshold⟩ := roll
  have unlisted : count.contains RollKind.listed = false ∧
      sides.contains RollKind.listed = false := by
    simpa [isListable, bare] using listable
  cases threshold with
  | none => exact ⟨family, readable.1.plain unlisted.1, readable.2.plain unlisted.2, rfl⟩
  | some => exact ⟨family, readable.2.1.plain unlisted.1, readable.2.2.1.plain unlisted.2, rfl⟩

theorem Roll.plainThreshold {kind : RollKind} {roll : Roll} (family : roll.kind = kind)
    (readable : roll.toNode.IsReadable) (listable : thresholdIsListable roll.threshold = true) :
    PlainThreshold kind roll.threshold := by
  obtain ⟨family', count, sides, threshold⟩ := roll
  intro limit same
  cases same
  have unlisted : limit.contains RollKind.listed = false := by
    simpa [thresholdIsListable] using listable
  cases family
  exact ⟨readable.1, readable.2.2.2.plain unlisted⟩

theorem Command.rollList_ok {kind : RollKind} {node : Node} {rolls : NonEmptyList Roll}
    {threshold : Option Node} (list : Command.rollList kind node = .ok (rolls, threshold)) :
    ∃ init last, node.rollTerms? kind = some (init, last) ∧ rolls = .ofInitLast init last.bare ∧
      threshold = last.threshold ∧ (∀ roll ∈ init, roll.threshold = none) ∧
      (∀ roll ∈ init ++ [last.bare], roll.isListable = true) ∧
      thresholdIsListable last.threshold = true := by
  unfold Command.rollList at list
  cases terms : node.rollTerms? kind with
  | none => rw [terms] at list; cases list
  | some parts =>
    obtain ⟨init, last⟩ := parts
    rw [terms] at list
    simp only at list
    split at list
    · cases list
    rename_i single
    split at list
    · rename_i listable
      cases list
      rw [Bool.and_eq_true, NonEmptyList.toList_ofInitLast, List.all_eq_true] at listable
      refine ⟨init, last, rfl, rfl, rfl, ?_, listable.1, listable.2⟩
      intro roll member
      apply Option.not_isSome_iff_eq_none.mp
      intro limited
      exact single (List.any_eq_true.mpr ⟨roll, member, limited⟩)
    · cases list

theorem plainRolls_of_rollList {kind : RollKind} {node : Node} {rolls : NonEmptyList Roll}
    {threshold : Option Node} (readable : node.IsReadable)
    (list : Command.rollList kind node = .ok (rolls, threshold)) :
    ∃ init last, rolls = .ofInitLast init last.bare ∧ threshold = last.threshold ∧
      PlainRolls kind init last := by
  obtain ⟨init, last, terms, rfl, rfl, unlimited, listable, limit⟩ := Command.rollList_ok list
  have parts := Node.rollTerms?_readable readable terms
  have final := parts last (List.mem_append_right init List.mem_cons_self)
  refine ⟨init, last, rfl, rfl, ?_, ?_, Roll.plainThreshold final.1 final.2 limit⟩
  · intro roll member
    have same := Roll.bare_eq_self (unlimited roll member)
    obtain ⟨family, readable⟩ := parts roll (List.mem_append_left _ member)
    have allowed := listable roll (List.mem_append_left _ member)
    rw [← same] at allowed ⊢
    exact Roll.isPlain_bare family readable allowed
  · have allowed := listable last.bare (List.mem_append_right init List.mem_cons_self)
    exact Roll.isPlain_bare final.1 final.2 allowed

def PlainModifier (modifier : Option Node) : Prop :=
  ∀ m ∈ modifier, m.IsPlain ∧ m.isVariable = false

theorem PlainModifier.absent : PlainModifier none := by
  intro modifier present
  cases present

theorem Command.compound_plain {expr listed : Node} {rolls : NonEmptyList Roll}
    {threshold modifier : Option Node} (readable : expr.IsReadable)
    (detached : expr.detachModifier = (listed, modifier))
    (constant : modifier.any Node.isVariable = false)
    (list : Command.rollList .compound listed = .ok (rolls, threshold)) :
    (∃ init last, rolls = .ofInitLast init last.bare ∧ threshold = last.threshold ∧
      PlainRolls .compound init last) ∧ PlainModifier modifier := by
  have parts := Node.detachModifier_readable readable
  rw [detached] at parts
  refine ⟨plainRolls_of_rollList parts.1 list, ?_⟩
  intro m same
  cases same
  have fixed : m.isVariable = false := constant
  exact ⟨(parts.2 m rfl).plain (Node.contains_of_constant fixed _), fixed⟩

theorem Grammar.Checks.plain {check : Option Comparison} {behind : List Token}
    (checks : Checks check behind) (free : check.any (·.target.contains RollKind.listed) = false) :
    PlainCheck check := by
  cases checks with
  | none => nofun
  | some compares target =>
    intro c same
    cases same
    exact target.readable.plain free

def withModifier (rolls : Node) (modifier : Option Node) : Node :=
  modifier.elim rolls rolls.attach

section Compound

variable {init : List Roll} {last : Roll} {check : Option Comparison} {modifier : Option Node}

theorem detachModifier_list (plain : PlainRolls .compound init last) :
    (NonEmptyList.ofInitLast init last).toNode.detachModifier =
      ((NonEmptyList.ofInitLast init last).toNode, none) := by
  have single := Roll.rollOf?_toNode (plain.family last (List.mem_append_right init List.mem_cons_self))
  cases init with
  | nil =>
    obtain ⟨family, count, sides, _ | limit⟩ := last <;> rfl
  | cons head more =>
    have shape : (NonEmptyList.ofInitLast (head :: more) last).toNode =
        .binary .add (NonEmptyList.toNode ⟨head, more⟩) last.toNode := by
      simp [NonEmptyList.toNode, NonEmptyList.ofInitLast]
    rw [shape, Node.detachModifier, single]
    rfl

theorem detachModifier_withModifier (plain : PlainRolls .compound init last)
    (constant : ∀ m ∈ modifier, m.isVariable = false) :
    (withModifier (NonEmptyList.ofInitLast init last).toNode modifier).detachModifier =
      ((NonEmptyList.ofInitLast init last).toNode, modifier) := by
  cases modifier with
  | none => exact detachModifier_list plain
  | some m => exact Node.detachModifier_attach (detachModifier_list plain) (constant m rfl)

theorem contains_withModifier (plain : PlainRolls .compound init last)
    (constant : ∀ m ∈ modifier, m.isVariable = false) {kinds : List RollKind}
    (noSum : kinds.contains .sum = false) :
    (withModifier (NonEmptyList.ofInitLast init last).toNode modifier).contains kinds =
      kinds.contains .compound := by
  cases modifier with
  | none => exact plain.contains noSum
  | some m =>
    change (Node.attach _ m).contains kinds = _
    rw [Node.contains_attach, plain.contains noSum, Node.contains_of_constant (constant m rfl),
      Bool.or_false]

theorem ofExpression_compound (plain : PlainRolls .compound init last) (checked : PlainCheck check)
    (constant : ∀ m ∈ modifier, m.isVariable = false) :
    Command.ofExpression (withModifier (NonEmptyList.ofInitLast init last).toNode modifier) check =
      .ok (.compound (.ofInitLast init last.bare) last.threshold modifier check) := by
  have noScatter : Node.contains [.scatter] _ = false := contains_withModifier plain constant rfl
  have noReroll : Node.contains [.reroll] _ = false := contains_withModifier plain constant rfl
  have found : Node.contains [.compound] _ = true := contains_withModifier plain constant rfl
  have fixed : ¬ modifier.any Node.isVariable = true := by
    cases modifier with
    | none => exact Bool.false_ne_true
    | some m => simp [constant m rfl]
  rw [Command.ofExpression, if_neg (by simp [checked.free]), if_neg (by simp [noScatter]),
    if_neg (by simp [noReroll]), if_pos found, Command.ofCompound,
    detachModifier_withModifier plain constant]
  simp only
  rw [if_neg fixed, plain.rollList_toNode]
  rfl

theorem writes_compound (plain : PlainRolls .compound init last) (constant : PlainModifier modifier) :
    Writes .sum (Command.rollsText (.ofInitLast init last.bare) ++
        Command.thresholdText last.threshold ++ Command.modifierText modifier).toList
      (withModifier (NonEmptyList.ofInitLast init last).toNode (modifier.map Node.hoist)) := by
  have written := writes_list plain
  cases modifier with
  | none => simpa [Command.modifierText, withModifier] using written
  | some m =>
    obtain ⟨plainModifier, fixed⟩ := constant m rfl
    rw [String.toList_append, Node.modifierText_toList]
    exact Node.writes_modifier written plainModifier fixed

end Compound

namespace Statement

variable {init : List Roll} {last : Roll} {check : Option Comparison} {modifier : Option Node}

theorem parse_print_compound (plain : PlainRolls .compound init last)
    (constant : PlainModifier modifier) (checked : PlainCheck check) (secret : Bool) :
    parse (Statement.mk (.compound (.ofInitLast init last.bare) last.threshold modifier check)
        secret).print =
      .ok ⟨.compound (.ofInitLast init last.bare) last.threshold (modifier.map Node.hoist) check,
        secret⟩ := by
  have fixed : ∀ m ∈ modifier.map Node.hoist, m.isVariable = false := by
    intro m member
    obtain ⟨m', member', rfl⟩ := Option.map_eq_some_iff.mp member
    rw [Node.isVariable_hoist]
    exact (constant m' member').2
  have spells := spells_statement (writes_compound plain constant) secret check
    fun c member => Node.isArithmetic_of_plain (checked c member)
  rw [checked.normal] at spells
  exact parse_rolls spells (ofExpression_compound plain checked fixed)

theorem compound_parts {text : String} {rolls : NonEmptyList Roll}
    {threshold modifier : Option Node} {check : Option Comparison} {secret : Bool}
    (parsed : parse text = .ok ⟨.compound rolls threshold modifier check, secret⟩) :
    (∃ init last, rolls = .ofInitLast init last.bare ∧ threshold = last.threshold ∧
      PlainRolls .compound init last) ∧ PlainModifier modifier ∧ PlainCheck check := by
  cases parse_origin parsed with
  | rolls derives checks accepted =>
    obtain ⟨free, made⟩ := Command.ofExpression_made accepted
    cases made with
    | compound detached constant list =>
      obtain ⟨plain, fixed⟩ := Command.compound_plain derives.readable detached constant list
      exact ⟨plain, fixed, checks.plain free⟩

/-- The text of a `U` command that was read is read as the command with the first sign of its
modifier moved; so it is the same command unless that sign belongs to a product. -/
theorem reparse_compound {text : String} {rolls : NonEmptyList Roll}
    {threshold modifier : Option Node} {check : Option Comparison} {secret : Bool}
    (parsed : parse text = .ok ⟨.compound rolls threshold modifier check, secret⟩) :
    parse (Statement.mk (.compound rolls threshold modifier check) secret).print =
        .ok ⟨.compound rolls threshold (modifier.map Node.hoist) check, secret⟩ ∧
      (parse (Statement.mk (.compound rolls threshold modifier check) secret).print =
          .ok ⟨.compound rolls threshold modifier check, secret⟩ ↔
        ∀ m ∈ modifier, ¬ m.SignsProduct) := by
  obtain ⟨⟨init, last, rfl, rfl, plain⟩, constant, checked⟩ := compound_parts parsed
  have read := parse_print_compound plain constant checked secret
  constructor
  · exact read
  · rw [read]
    cases modifier with
    | none => simp
    | some m => simp [Node.hoist_eq_self_iff]

theorem reparse_compound_difference :
    let modifier : Node := .binary .subtract (.int 1) (.binary .multiply (.neg (.int 2)) (.int 3))
    let statement : Statement := ⟨.compound ⟨⟨.compound, .int 2, .int 6, none⟩, []⟩ (some (.int 6))
      (some modifier) (some ⟨.atLeast, .int 8⟩), true⟩
    statement.print = "S2U6[6]+1-(-2)*3>=8" ∧ parse statement.print = .ok statement ∧
      ¬ modifier.SignsProduct := by
  intro modifier statement
  have plain : PlainRolls .compound [] ⟨.compound, .int 2, .int 6, some (.int 6)⟩ := by
    refine ⟨nofun, ⟨rfl, by decide, by decide, rfl⟩, ?_⟩
    intro limit same
    cases same
    exact ⟨rfl, by decide⟩
  have constant : PlainModifier (some modifier) := by
    intro m same
    cases same
    exact ⟨by decide, rfl⟩
  have checked : PlainCheck (some ⟨.atLeast, .int 8⟩) := by
    intro comparison same
    cases same
    decide
  have parsed : parse statement.print = .ok statement :=
    parse_print_compound plain constant checked true
  exact ⟨by decide +kernel, parsed, (reparse_compound parsed).2.mp parsed modifier rfl⟩

theorem reparse_compound_quotient :
    let modifier : Node := .binary (.divide .up) (.neg (.int 1)) (.int 2)
    let statement : Statement :=
      ⟨.compound ⟨⟨.compound, .int 3, .int 6, none⟩, []⟩ none (some modifier) none, false⟩
    parse "3U6+(-1)/2U" = .ok statement ∧ statement.print = "3U6-1/2U" ∧
      parse statement.print = .ok ⟨.compound ⟨⟨.compound, .int 3, .int 6, none⟩, []⟩ none
        (some (.neg (.binary (.divide .up) (.int 1) (.int 2)))) none, false⟩ ∧
      parse statement.print ≠ .ok statement := by
  intro modifier statement
  have plain : PlainRolls .compound [] ⟨.compound, .int 3, .int 6, none⟩ :=
    ⟨nofun, ⟨rfl, by decide, by decide, rfl⟩, nofun⟩
  have constant : PlainModifier (some modifier) := by
    intro m same
    cases same
    exact ⟨by decide, rfl⟩
  have checked : PlainCheck none := nofun
  have again : parse statement.print = .ok ⟨.compound ⟨⟨.compound, .int 3, .int 6, none⟩, []⟩ none
      (some (.neg (.binary (.divide .up) (.int 1) (.int 2)))) none, false⟩ :=
    parse_print_compound plain constant checked false
  have different : parse statement.print ≠ .ok statement := by
    rw [again]
    simp [statement, modifier]
  have one : Writes .signed (Nat.repr 1).toList (.int 1) := (Writes.number (by decide)).widen (by decide)
  have minusOne : Writes .sum _ _ := one.neg.widen (by decide)
  have two : Writes .signed (Nat.repr 2).toList (.int 2) := (Writes.number (by decide)).widen (by decide)
  have quotient := Writes.divide (minusOne.enclosed.widen (by decide)) two .up
  have three : Writes .rolls (Nat.repr 3).toList (.int 3) := (Writes.number (by decide)).widen (by decide)
  have six : Writes .operand (Nat.repr 6).toList (.int 6) := Writes.number (by decide)
  have rolls : Writes .sum _ _ := (Writes.roll .compound three six).widen (by decide)
  have text : "3U6+(-1)/2U".toList =
      (Nat.repr 3).toList ++ (RollKind.compound.letter.symbol.toList ++ (Nat.repr 6).toList) ++
        '+' :: (('(' :: ('-' :: (Nat.repr 1).toList ++ [')'])) ++
          '/' :: ((Nat.repr 2).toList ++ Rounding.up.suffix.toList)) := by
    decide +kernel
  have written := rolls.add quotient
  rw [← text] at written
  have spells := spells_statement written false none nofun
  rw [secretText_false, Command.checkText, String.append_empty] at spells
  have fixed : ∀ m ∈ some modifier, m.isVariable = false := fun m member => (constant m member).2
  exact ⟨parse_rolls spells (ofExpression_compound plain checked fixed), by decide +kernel, again,
    different⟩

end Statement

end DiceLanguage
