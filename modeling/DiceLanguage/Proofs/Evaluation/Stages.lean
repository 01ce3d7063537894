import DiceLanguage.Proofs.Evaluation.Ensures

namespace DiceLanguage

open Evaluation (ofExcept)

/-- The expressions of a list that come before its own dice. -/
structure ListParts where
  rolls : List Roll
  modifier : Option Node
  threshold : Option Node
  check : Option Comparison

/-- What the expressions of a list have come to. -/
structure Prepared where
  rolls : List Roll
  modifier : Int
  target : Option (Relation × Int)
  written : Option Int

def Prepared.threshold (prepared : Prepared) : Option Int :=
  prepared.written.or (prepared.target.map (·.2))

def evaluateWritten : Option Node → Evaluation (Option Int)
  | none => return none
  | some node => do
    let threshold ← node.evaluate
    return some threshold

def ListParts.prepare (parts : ListParts) : Evaluation Prepared := do
  let rolls ← Roll.settleAll parts.rolls
  let modifier ← Command.evaluateModifier parts.modifier
  let target ← Command.evaluateTarget parts.check
  let written ← evaluateWritten parts.threshold
  return ⟨rolls, modifier, target, written⟩

theorem findThreshold_eq (written : Option Node) (inferred : Option Int) :
    findThreshold written inferred =
      evaluateWritten written >>= fun value => return checkThreshold (value.or inferred) := by
  cases written with
  | none => rfl
  | some node =>
    simp only [findThreshold, evaluateWritten, bind_assoc, pure_bind]
    rfl

namespace Command

variable (heading : String) (maxRerolls : Nat) (prepared : Prepared)

def throwScatter : Evaluation Outcome := do
  let dice ← Roll.rollScatter prepared.rolls
  match prepared.target with
  | none => return { fragments := [heading, Die.faces dice, Text.decimal (Die.sum dice)] }
  | some (relation, target) =>
    return countedOutcome heading (Die.faces dice) (Die.successes dice relation target)

def throwWaves (threshold : Int) : Evaluation Outcome := do
  let waves ← Roll.rollWaves prepared.rolls threshold maxRerolls
  match prepared.target with
  | none => return { fragments := [heading, Value.wavesText waves] }
  | some (relation, target) =>
    return countedOutcome heading (Value.wavesText waves)
      (Die.successes waves.flatten relation target)

def throwChains (threshold : Int) : Evaluation Outcome := do
  let chains ← Roll.rollChains prepared.rolls threshold prepared.modifier maxRerolls
  match prepared.target with
  | none =>
    let highest ← ofExcept chains.highest
    let total ← ofExcept chains.total
    let summary := Text.decimal highest ++ "/" ++ Text.decimal total ++ " (max/total)"
    return { fragments := [heading, chains.text, summary] }
  | some (relation, target) =>
    let successes ← ofExcept (chains.successes relation target)
    return countedOutcome heading chains.text successes

def throwAbove (throw : Int → Evaluation Outcome) : Evaluation Outcome :=
  match checkThreshold prepared.threshold with
  | .error error => return { fragments := [heading, error.message] }
  | .ok threshold => throw threshold

theorem throwAbove_cases (throw : Int → Evaluation Outcome) :
    (∃ limit, prepared.threshold = some limit ∧ minThreshold ≤ limit ∧
      throwAbove heading prepared throw = throw limit) ∨
    ∃ error : ThresholdError,
      (prepared.threshold = none ∧ error = .missing ∨
        ∃ limit, prepared.threshold = some limit ∧ limit < minThreshold ∧ error = .tooSmall limit) ∧
      throwAbove heading prepared throw = pure { fragments := [heading, error.message] } := by
  unfold throwAbove
  cases known : prepared.threshold with
  | none => exact .inr ⟨.missing, .inl ⟨rfl, rfl⟩, rfl⟩
  | some limit =>
    by_cases small : limit < minThreshold
    · have refuses : checkThreshold (some limit) = .error (.tooSmall limit) := if_pos small
      rw [refuses]
      exact .inr ⟨.tooSmall limit, .inr ⟨limit, rfl, small, rfl⟩, rfl⟩
    · have accepts : checkThreshold (some limit) = .ok limit := if_neg small
      rw [accepts]
      exact .inl ⟨limit, rfl, Int.not_lt.mp small, rfl⟩

theorem playScatter_eq (rolls : List Roll) (check : Option Comparison) :
    playScatter heading rolls check =
      ListParts.prepare ⟨rolls, none, none, check⟩ >>= throwScatter heading := by
  simp only [playScatter, ListParts.prepare, evaluateModifier, evaluateWritten, bind_assoc,
    pure_bind]
  rfl

theorem playReroll_eq (rolls : List Roll) (threshold : Option Node) (check : Option Comparison) :
    playReroll heading maxRerolls rolls threshold check =
      ListParts.prepare ⟨rolls, none, threshold, check⟩ >>= fun prepared =>
        throwAbove heading prepared (throwWaves heading maxRerolls prepared) := by
  simp only [playReroll, ListParts.prepare, evaluateModifier, findThreshold_eq, bind_assoc,
    pure_bind]
  rfl

theorem playCompound_eq (rolls : List Roll) (threshold modifier : Option Node)
    (check : Option Comparison) :
    playCompound heading maxRerolls rolls threshold modifier check =
      ListParts.prepare ⟨rolls, modifier, threshold, check⟩ >>= fun prepared =>
        throwAbove heading prepared (throwChains heading maxRerolls prepared) := by
  simp only [playCompound, ListParts.prepare, findThreshold_eq, bind_assoc, pure_bind]
  rfl

end Command

end DiceLanguage
