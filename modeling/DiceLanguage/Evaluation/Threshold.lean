import DiceLanguage.Evaluation.Expression

namespace DiceLanguage

def minThreshold : Int := 2

def checkThreshold : Option Int → Except ThresholdError Int
  | none => .error .missing
  | some threshold =>
    if threshold < minThreshold then .error (.tooSmall threshold) else .ok threshold

/-- The threshold written in the command, or else the one inferred from its comparison. -/
def findThreshold (written : Option Node) (inferred : Option Int) :
    Evaluation (Except ThresholdError Int) :=
  match written with
  | none => return checkThreshold inferred
  | some node => do
    let threshold ← node.evaluate
    return checkThreshold (some threshold)

def requireThreshold (written : Option Node) (inferred : Option Int) : Evaluation Int := do
  match ← findThreshold written inferred with
  | .ok threshold => return threshold
  | .error error => .fail (.threshold error)

end DiceLanguage
