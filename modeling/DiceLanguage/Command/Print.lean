import DiceLanguage.Command
import DiceLanguage.Node.Print

namespace DiceLanguage

def Roll.print (roll : Roll) : String := roll.toNode.print

def Comparison.print (comparison : Comparison) : String :=
  let wrap := (BinaryOp.compare comparison.relation).encloses .right false comparison.target
  comparison.relation.symbol ++ enclosed wrap (comparison.target.printAt wrap)

namespace Command

def rollsText (rolls : NonEmptyList Roll) : String :=
  "+".intercalate (rolls.toList.map Roll.print)

def thresholdText : Option Node → String
  | none => ""
  | some threshold => "[" ++ threshold.print ++ "]"

/-- A modifier behind the rolls; a minus sign of its own takes the place of the plus sign. -/
def modifierText : Option Node → String
  | none => ""
  | some modifier =>
    let text := modifier.print
    if text.toList.head? = some '-' then text else "+" ++ text

def checkText : Option Comparison → String
  | none => ""
  | some comparison => comparison.print

def print : Command → String
  | calculation expr => "C(" ++ expr.print ++ ")"
  | sum expr => expr.print
  | sumCheck comparison => comparison.print
  | scatter rolls check => rollsText rolls ++ checkText check
  | reroll rolls threshold check => rollsText rolls ++ thresholdText threshold ++ checkText check
  | compound rolls threshold modifier check =>
    rollsText rolls ++ thresholdText threshold ++ modifierText modifier ++ checkText check
  | choice items => "CHOICE[" ++ ",".intercalate items.toList ++ "]"

end Command

def Statement.print (statement : Statement) : String :=
  (if statement.secret then "S" else "") ++ statement.command.print

end DiceLanguage
