import DiceLanguage.Command
import DiceLanguage.Grammar.Error

namespace DiceLanguage

def NonEmptyList.ofInitLast {α : Type} : List α → α → NonEmptyList α
  | [], last => ⟨last, []⟩
  | a :: init, last => ⟨a, init ++ [last]⟩

namespace Node

def rollOf? (kind : RollKind) (node : Node) : Option Roll :=
  node.toRoll?.filter (·.kind == kind)

/-- The terms of a sum in which every term is a roll of the family: the earlier ones and the
last. -/
def rollTerms? (kind : RollKind) : Node → Option (List Roll × Roll)
  | binary .add left right => do
    let last ← right.rollOf? kind
    let (init, before) ← left.rollTerms? kind
    return (init ++ [before], last)
  | node => do
    let roll ← node.rollOf? kind
    return ([], roll)

/-- Takes the terms behind the last `U` roll off an expression. They make up the modifier, in
which a term that was subtracted first is negated. -/
def detachModifier : Node → Node × Option Node
  | binary .add left right =>
    if (right.rollOf? .compound).isSome then (binary .add left right, none)
    else match left.detachModifier with
      | (rolls, none) => (rolls, some right)
      | (rolls, some modifier) => (rolls, some (binary .add modifier right))
  | binary .subtract left right =>
    if (right.rollOf? .compound).isSome then (binary .subtract left right, none)
    else match left.detachModifier with
      | (rolls, none) => (rolls, some (neg right))
      | (rolls, some modifier) => (rolls, some (binary .subtract modifier right))
  | node => (node, none)

end Node

def Roll.isListable (roll : Roll) : Bool :=
  !(roll.count.contains RollKind.listed || roll.sides.contains RollKind.listed)

def thresholdIsListable (threshold : Option Node) : Bool :=
  !threshold.any (·.contains RollKind.listed)

namespace Command

def rollList (kind : RollKind) (expr : Node) :
    Except ParseErrorKind (NonEmptyList Roll × Option Node) :=
  match expr.rollTerms? kind with
  | none => .error .mixedRollFamilies
  | some (init, last) =>
    let rolls := NonEmptyList.ofInitLast init { last with threshold := none }
    if init.any (·.threshold.isSome) then .error .misplacedThreshold
    else if rolls.toList.all Roll.isListable && thresholdIsListable last.threshold then
      .ok (rolls, last.threshold)
    else .error .mixedRollFamilies

def ofScatter (expr : Node) (check : Option Comparison) : Except ParseErrorKind Command := do
  let (rolls, threshold) ← rollList .scatter expr
  if threshold.isSome then throw .misplacedThreshold
  return scatter rolls check

def ofReroll (expr : Node) (check : Option Comparison) : Except ParseErrorKind Command := do
  let (rolls, threshold) ← rollList .reroll expr
  return reroll rolls threshold check

def ofCompound (expr : Node) (check : Option Comparison) : Except ParseErrorKind Command := do
  let (expr, modifier) := expr.detachModifier
  if modifier.any Node.isVariable then throw .invalidModifier
  let (rolls, threshold) ← rollList .compound expr
  return compound rolls threshold modifier check

def ofSum (expr : Node) (check : Option Comparison) : Except ParseErrorKind Command :=
  match check with
  | none => if expr.isVariable then .ok (sum expr) else .error .noDiceRoll
  | some ⟨relation, target⟩ =>
    if expr.isVariable || target.isVariable then
      .ok (sumCheck (.binary (.compare relation) expr target))
    else .error .noDiceRoll

def ofExpression (expr : Node) (check : Option Comparison) : Except ParseErrorKind Command :=
  if check.any (·.target.contains RollKind.listed) then .error .mixedRollFamilies
  else if expr.contains [.scatter] then ofScatter expr check
  else if expr.contains [.reroll] then ofReroll expr check
  else if expr.contains [.compound] then ofCompound expr check
  else ofSum expr check

end Command

end DiceLanguage
