import DiceLanguage.Grammar.Command
import DiceLanguage.Proofs.Grammar.Outcome
import DiceLanguage.Proofs.Node.Arithmetic

namespace DiceLanguage.Command

open Grammar (bind_ok)

inductive Made (expr : Node) (check : Option Comparison) : Command → Prop where
  | scatter {rolls : NonEmptyList Roll} (list : rollList .scatter expr = .ok (rolls, none)) :
    Made expr check (.scatter rolls check)
  | reroll {rolls : NonEmptyList Roll} {threshold : Option Node}
    (list : rollList .reroll expr = .ok (rolls, threshold)) :
    Made expr check (.reroll rolls threshold check)
  | compound {rolls : NonEmptyList Roll} {rest : Node} {threshold modifier : Option Node}
    (detached : expr.detachModifier = (rest, modifier))
    (constant : modifier.any Node.isVariable = false)
    (list : rollList .compound rest = .ok (rolls, threshold)) :
    Made expr check (.compound rolls threshold modifier check)
  | sum (unlisted : expr.contains RollKind.listed = false) (absent : check = none)
    (dice : expr.isVariable = true) : Made expr check (.sum expr)
  | sumCheck {relation : Relation} {target : Node}
    (unlisted : expr.contains RollKind.listed = false) (present : check = some ⟨relation, target⟩)
    (dice : (expr.isVariable || target.isVariable) = true) :
    Made expr check (.sumCheck (.binary (.compare relation) expr target))

variable {expr : Node} {check : Option Comparison} {command : Command}

theorem ofScatter_made (accepted : ofScatter expr check = .ok command) : Made expr check command := by
  obtain ⟨⟨rolls, threshold⟩, list, tail⟩ := bind_ok accepted
  cases threshold with
  | none => cases tail; exact .scatter list
  | some => cases tail

theorem ofReroll_made (accepted : ofReroll expr check = .ok command) : Made expr check command := by
  obtain ⟨⟨rolls, threshold⟩, list, tail⟩ := bind_ok accepted
  cases tail
  exact .reroll list

theorem ofCompound_made (accepted : ofCompound expr check = .ok command) :
    Made expr check command := by
  unfold ofCompound at accepted
  cases detached : expr.detachModifier with
  | mk rest modifier =>
    rw [detached] at accepted
    simp only at accepted
    split at accepted
    · cases accepted
    · obtain ⟨⟨rolls, threshold⟩, list, tail⟩ := bind_ok accepted
      cases tail
      exact .compound detached (Bool.eq_false_iff.mpr ‹_›) list

theorem ofSum_made (unlisted : expr.contains RollKind.listed = false)
    (accepted : ofSum expr check = .ok command) : Made expr check command := by
  unfold ofSum at accepted
  split at accepted
  · split at accepted <;> cases accepted
    exact .sum unlisted rfl ‹_›
  · split at accepted <;> cases accepted
    exact .sumCheck unlisted rfl ‹_›

theorem ofExpression_made (accepted : ofExpression expr check = .ok command) :
    check.any (·.target.contains RollKind.listed) = false ∧ Made expr check command := by
  unfold ofExpression at accepted
  split at accepted
  · cases accepted
  constructor
  · exact Bool.eq_false_iff.mpr ‹_›
  split at accepted
  · exact ofScatter_made accepted
  split at accepted
  · exact ofReroll_made accepted
  split at accepted
  · exact ofCompound_made accepted
  · have unlisted : expr.contains RollKind.listed = false := by
      rw [Node.contains_listed]
      simp [*]
    exact ofSum_made unlisted accepted

theorem ofExpression_unlisted (unlisted : expr.contains RollKind.listed = false)
    (free : check.any (·.target.contains RollKind.listed) = false) :
    ofExpression expr check = ofSum expr check := by
  rw [Node.contains_listed] at unlisted
  simp only [Bool.or_eq_false_iff] at unlisted
  obtain ⟨⟨noScatter, noReroll⟩, noCompound⟩ := unlisted
  simp [ofExpression, free, noScatter, noReroll, noCompound]

end DiceLanguage.Command
