import DiceLanguage.Command.Print
import DiceLanguage.Grammar.Command
import DiceLanguage.Proofs.Node.Written

namespace DiceLanguage.Node

open Grammar

def firstTerm : Node → Node
  | binary op x y => if op.precedence = .additive then x.firstTerm else binary op x y
  | x => x

def firstFactor : Node → Node
  | binary op x y => if op.precedence = .multiplicative then x.firstFactor else binary op x y
  | x => x

/-- The first term is a product of which the first factor has a minus sign. -/
def SignsProduct (node : Node) : Prop :=
  node.firstTerm.precedence = .multiplicative ∧ ∃ x, node.firstTerm.firstFactor = neg x

def unsigned? : Node → Option Node
  | neg x => some x
  | binary op x y =>
    if op.precedence = .multiplicative then x.unsigned?.map (binary op · y) else none
  | _ => none

/-- The tree with a minus sign in front of its first product moved out of the product. -/
def hoist : Node → Node
  | binary op x y =>
    if op.precedence = .additive then binary op x.hoist y
    else match (binary op x y).unsigned? with
      | some product => neg product
      | none => binary op x y
  | x => x

def attach (rolls : Node) : Node → Node
  | binary op x y =>
    if op.precedence = .additive then binary op (attach rolls x) y
    else binary .add rolls (binary op x y)
  | neg x => binary .subtract rolls x
  | x => binary .add rolls x

variable {node rolls modifier : Node}

theorem unsigned?_isSome_iff : node.unsigned?.isSome = true ↔ ∃ x, node.firstFactor = neg x := by
  induction node with
  | binary op x y ihx =>
    unfold unsigned? firstFactor
    split
    · rw [Option.isSome_map]
      exact ihx
    · simp
  | neg x => simp [unsigned?, firstFactor]
  | _ => simp [unsigned?, firstFactor]

theorem hoist_eq_self_iff : node.hoist = node ↔ ¬ node.SignsProduct := by
  induction node with
  | binary op x y ihx =>
    unfold hoist
    split
    · rename_i additive
      have same : (binary op x y).SignsProduct ↔ x.SignsProduct := by
        rw [SignsProduct, firstTerm, if_pos additive]
        rfl
      rw [same, ← ihx]
      simp
    · rename_i other
      have term : (binary op x y).firstTerm = binary op x y := by rw [firstTerm, if_neg other]
      rw [SignsProduct, term, ← unsigned?_isSome_iff]
      cases stripped : (binary op x y).unsigned? with
      | none => simp
      | some product =>
        have multiplicative : op.precedence = .multiplicative := by
          unfold unsigned? at stripped
          split at stripped
          · assumption
          · cases stripped
        simp [precedence, multiplicative]
  | _ => simp [hoist, SignsProduct, firstTerm, precedence]

theorem isVariable_unsigned {x : Node} (stripped : node.unsigned? = some x) :
    x.isVariable = node.isVariable := by
  induction node generalizing x with
  | binary op y z ihy =>
    unfold unsigned? at stripped
    split at stripped
    · obtain ⟨first, same, rfl⟩ := Option.map_eq_some_iff.mp stripped
      rw [isVariable, isVariable, ihy same]
    · cases stripped
  | neg y => cases stripped; rfl
  | _ => cases stripped

theorem isVariable_hoist (node : Node) : node.hoist.isVariable = node.isVariable := by
  induction node with
  | binary op x y ihx =>
    unfold hoist
    split
    · rw [isVariable, isVariable, ihx]
    · split
      · rename_i product stripped
        change product.isVariable = _
        exact isVariable_unsigned stripped
      · rfl
  | _ => rfl

theorem contains_attach (rolls modifier : Node) (kinds : List RollKind) :
    (rolls.attach modifier).contains kinds = (rolls.contains kinds || modifier.contains kinds) := by
  induction modifier with
  | binary op x y ihx =>
    unfold attach
    split
    · rw [contains, contains, ihx, Bool.or_assoc]
    · rfl
  | _ => rfl

theorem rollOf?_constant (constant : node.isVariable = false) (kind : RollKind) :
    node.rollOf? kind = none := by
  cases node with
  | roll | thresholdRoll => cases constant
  | _ => rfl

theorem detachModifier_attach (bare : rolls.detachModifier = (rolls, none))
    (constant : modifier.isVariable = false) :
    (rolls.attach modifier).detachModifier = (rolls, some modifier) := by
  have behind {x : Node} (constant : x.isVariable = false) :
      (binary .add rolls x).detachModifier = (rolls, some x) := by
    rw [detachModifier, rollOf?_constant constant, bare]
    rfl
  induction modifier with
  | binary op x y ihx =>
    have parts := constant_parts constant
    unfold attach
    split
    · have first := ihx parts.1
      cases op with
      | add => rw [detachModifier, rollOf?_constant parts.2, first]; rfl
      | subtract => rw [detachModifier, rollOf?_constant parts.2, first]; rfl
      | multiply | divide | compare => contradiction
    · exact behind constant
  | neg x =>
    have single : x.isVariable = false := constant
    rw [attach, detachModifier, rollOf?_constant single, bare]
    rfl
  | _ => exact behind constant

section Written

variable {op : BinaryOp} {x y product : Node}

theorem print_binary (op : BinaryOp) (x y : Node) :
    (binary op x y).print.toList = (enclosed (op.encloses .left true x) x.print).toList ++
      (op.symbol.toList ++ ((enclosed (op.encloses .right false y)
        (y.printAt (op.encloses .right false y))).toList ++ op.suffix.toList)) := by
  simp [print, printAt]

theorem writes_right (op : BinaryOp) (plain : y.IsPlain) :
    Writes (op.sideRule .right) (enclosed (op.encloses .right false y)
      (y.printAt (op.encloses .right false y))).toList y :=
  writes_enclosed _ (writes_plain plain _) (sideRule_rank_le op .right false)

theorem encloses_left (arithmetic : op.precedence ≠ .compare)
    (tight : x.isNegative = true ∨ op.precedence.rank ≤ x.precedence.rank) :
    op.encloses .left true x = false := by
  have folds : op.associates .left = true := by
    cases op <;> first | rfl | exact absurd rfl arithmetic
  unfold BinaryOp.encloses
  split
  · simp [folds]
  · have bound := tight.resolve_left ‹_›
    simp only [folds, Bool.not_true, Bool.and_false, Bool.or_false, decide_eq_false_iff_not]
    omega

theorem tight_of_unsigned (stripped : x.unsigned? = some product) :
    x.isNegative = true ∨ Precedence.multiplicative.rank ≤ x.precedence.rank := by
  cases x with
  | neg x => exact .inl rfl
  | binary op x y =>
    unfold unsigned? at stripped
    split at stripped
    · rename_i multiplicative
      exact .inr (Nat.le_of_eq (by rw [precedence, multiplicative]))
    · cases stripped
  | _ => cases stripped

theorem tight_of_plain (plain : x.IsPlain) : Precedence.additive.rank ≤ x.precedence.rank := by
  cases x with
  | binary op x y =>
    have arithmetic := plain.1
    cases op <;> first | exact Nat.le_of_ble_eq_true rfl | exact absurd rfl arithmetic
  | _ => exact Nat.le_of_ble_eq_true rfl

theorem print_unsigned (plain : node.IsPlain) (stripped : node.unsigned? = some product) :
    ∃ text, node.print.toList = '-' :: text ∧ Writes .product text product := by
  induction node generalizing product with
  | neg x =>
    cases stripped
    have inner : x.IsPlain := plain
    have written : Writes .product _ _ :=
      (writes_negated (writes_plain inner true)).widen (by decide)
    exact ⟨_, by simp [print, printAt], written⟩
  | binary op x y ihx =>
    unfold unsigned? at stripped
    split at stripped
    · rename_i multiplicative
      obtain ⟨first, same, rfl⟩ := Option.map_eq_some_iff.mp stripped
      obtain ⟨text, starts, written⟩ := ihx plain.2.1 same
      have bare : op.encloses .left true x = false :=
        encloses_left plain.1 (by rw [multiplicative]; exact tight_of_unsigned same)
      have sides : op.rule = .product ∧ op.sideRule .left = .product := by
        simp [BinaryOp.rule, BinaryOp.sideRule, multiplicative]
      have first : Writes (op.sideRule .left) text first := by rwa [sides.2]
      have whole := writes_binary plain.1 first (writes_right op plain.2.2)
      rw [sides.1] at whole
      refine ⟨_, ?_, whole⟩
      rw [print_binary, bare, enclosed, if_neg Bool.false_ne_true, starts]
      rfl
    · cases stripped
  | _ => cases stripped

theorem head?_print (plain : node.IsPlain) (constant : node.isVariable = false)
    (term : node.precedence ≠ .additive) (unsigned : node.unsigned? = none) :
    node.print.toList.head? ≠ some '-' := by
  induction node with
  | int x =>
    rw [print, printAt, Text.decimal, if_neg (Int.not_lt.mpr plain.1)]
    intro sign
    have digit := isDigit_of_mem_repr (List.mem_of_head? sign)
    cases digit
  | neg x => cases unsigned
  | binary op x y ihx =>
    have parts := constant_parts constant
    have multiplicative : op.precedence = .multiplicative := by
      have arithmetic := plain.1
      cases op <;> first | rfl | exact absurd rfl term | exact absurd rfl arithmetic
    rw [print_binary, List.head?_append]
    cases wrap : op.encloses .left true x with
    | true => simp [enclosed]
    | false =>
      -- The left factor stands without parentheses, so it is a term itself and not a sum.
      have termLeft : x.precedence ≠ .additive := by
        intro additive
        have tight := sideRule_rank_le op .left true wrap
        have side : op.sideRule .left = .product := by simp [BinaryOp.sideRule, multiplicative]
        cases x with
        | binary op' a b =>
          have inner : op'.precedence = .additive := additive
          have wide : (binary op' a b).rule = .sum := by simp [rule, BinaryOp.rule, inner]
          rw [side, wide] at tight
          cases Nat.not_succ_le_zero _ tight
        | _ => cases additive
      have unsignedLeft : x.unsigned? = none := by
        rw [unsigned?, if_pos multiplicative] at unsigned
        exact Option.map_eq_none_iff.mp unsigned
      have written := writes_plain plain.2.1 true
      obtain ⟨c, rest, same⟩ := List.exists_cons_of_ne_nil written.nonempty
      have first := ihx plain.2.1 parts.1 termLeft unsignedLeft
      rw [enclosed, if_neg Bool.false_ne_true]
      change (x.printAt true).toList.head? ≠ _ at first
      change (x.printAt true).toList.head?.or _ ≠ _
      rw [same] at first ⊢
      exact first
  | rolled => exact plain.elim
  | _ => cases constant

def signedText (modifier : Node) : List Char :=
  if modifier.print.toList.head? = some '-' then modifier.print.toList
  else '+' :: modifier.print.toList

theorem modifierText_toList (modifier : Node) :
    (Command.modifierText (some modifier)).toList = modifier.signedText := by
  unfold Command.modifierText signedText
  simp only
  split <;> simp

theorem signedText_append {rest : List Char} (nonempty : x.print.toList ≠ [])
    (same : node.print.toList = x.print.toList ++ rest) :
    node.signedText = x.signedText ++ rest := by
  obtain ⟨c, tail, starts⟩ := List.exists_cons_of_ne_nil nonempty
  rw [starts] at same
  rw [signedText, signedText, same, starts, List.cons_append, List.head?_cons, List.head?_cons]
  split <;> rfl

theorem attach_hoist_of_unsigned (term : node.precedence ≠ .additive)
    (stripped : node.unsigned? = some product) :
    rolls.attach node.hoist = binary .subtract rolls product := by
  cases node with
  | neg x => cases stripped; rfl
  | binary op x y =>
    have other : ¬ op.precedence = .additive := term
    rw [hoist, if_neg other, stripped]
    rfl
  | _ => cases stripped

theorem attach_hoist_of_bare (term : node.precedence ≠ .additive)
    (bare : node.unsigned? = none) : rolls.attach node.hoist = binary .add rolls node := by
  cases node with
  | neg x => cases bare
  | binary op x y =>
    have other : ¬ op.precedence = .additive := term
    rw [hoist, if_neg other, bare]
    simp only [attach, if_neg other]
  | _ => rfl

theorem product_rank_le (plain : node.IsPlain) (term : node.precedence ≠ .additive) :
    Rule.product.rank ≤ node.rule.rank := by
  rcases node.rule_rank with narrow | ⟨op, x, y, rfl⟩
  · exact Nat.le_trans (by decide) narrow
  · have arithmetic := plain.1
    cases op <;> first | exact Nat.le_refl _ | exact absurd rfl term | exact absurd rfl arithmetic

theorem writes_term {text : List Char} (written : Writes .sum text rolls) (plain : node.IsPlain)
    (constant : node.isVariable = false) (term : node.precedence ≠ .additive) :
    Writes .sum (text ++ node.signedText) (rolls.attach node.hoist) := by
  cases sign : node.unsigned? with
  | some product =>
    obtain ⟨inner, starts, behind⟩ := print_unsigned plain sign
    rw [attach_hoist_of_unsigned term sign, signedText, starts, List.head?_cons, if_pos rfl]
    exact written.subtract behind
  | none =>
    have behind : Writes .product node.print.toList node :=
      (writes_plain plain true).widen (product_rank_le plain term)
    rw [attach_hoist_of_bare term sign, signedText, if_neg (head?_print plain constant term sign)]
    exact written.add behind

theorem writes_modifier {text : List Char} (written : Writes .sum text rolls)
    (plain : node.IsPlain) (constant : node.isVariable = false) :
    Writes .sum (text ++ node.signedText) (rolls.attach node.hoist) := by
  -- Only the first term meets the rolls; the terms behind it are joined as in any other sum.
  induction node with
  | binary op x y ihx =>
    by_cases additive : op.precedence = .additive
    · have parts : x.isVariable = false ∧ y.isVariable = false := by
        simpa [isVariable] using constant
      have bare : op.encloses .left true x = false :=
        encloses_left plain.1 (by rw [additive]; exact .inr (tight_of_plain plain.2.1))
      have sides : op.rule = .sum ∧ op.sideRule .left = .sum := by
        simp [BinaryOp.rule, BinaryOp.sideRule, additive]
      have first := ihx plain.2.1 parts.1
      rw [← sides.2] at first
      have whole := writes_binary plain.1 first (writes_right op plain.2.2)
      rw [sides.1] at whole
      have nonempty : x.print.toList ≠ [] := (writes_plain plain.2.1 true).nonempty
      have same := print_binary op x y
      rw [bare, enclosed, if_neg Bool.false_ne_true] at same
      rw [signedText_append nonempty same, ← List.append_assoc, hoist, if_pos additive, attach,
        if_pos additive]
      exact whole
    · exact writes_term written plain constant additive
  | int x => exact writes_term written plain constant (by simp [precedence])
  | neg x => exact writes_term written plain constant (by simp [precedence])
  | rolled => exact plain.elim
  | _ => cases constant

end Written

end DiceLanguage.Node
