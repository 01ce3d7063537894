import DiceLanguage.Proofs.Evaluation.Stages

namespace DiceLanguage

variable {good : Int → Die → Prop} {allowed : EvalError → Prop}

/-- Evaluated or settled, the expression fails with none but the allowed errors. -/
structure Node.Evaluates (good : Int → Die → Prop) (allowed : EvalError → Prop) (node : Node) :
    Prop where
  evaluate : node.evaluate.Ensures good allowed fun _ => True
  settled : node.settled.Ensures good allowed fun argument =>
    Ends allowed (fun _ => True) argument.intValue

structure Roll.Evaluates (good : Int → Die → Prop) (allowed : EvalError → Prop) (roll : Roll) :
    Prop where
  count : roll.count.Evaluates good allowed
  sides : roll.sides.Evaluates good allowed
  threshold : ∀ limit ∈ roll.threshold, limit.Evaluates good allowed

structure ListParts.Evaluate (good : Int → Die → Prop) (allowed : EvalError → Prop)
    (parts : ListParts) : Prop where
  rolls : ∀ roll ∈ parts.rolls, roll.Evaluates good allowed
  modifier : ∀ node ∈ parts.modifier, node.Evaluates good allowed
  threshold : ∀ node ∈ parts.threshold, node.Evaluates good allowed
  check : ∀ comparison ∈ parts.check, comparison.target.Evaluates good allowed

theorem Roll.Evaluates.settle {roll : Roll} (evaluates : roll.Evaluates good allowed) :
    roll.settle.Ensures good allowed fun settled => Ends allowed (fun _ => True) settled.group := by
  obtain ⟨kind, count, sides, threshold⟩ := roll
  refine evaluates.count.settled.bind fun countNode endsCount => ?_
  refine evaluates.sides.settled.bind fun sidesNode endsSides => ?_
  have asks : Ends allowed (fun _ => True) (Roll.group ⟨kind, countNode, sidesNode, none⟩) :=
    endsCount.bind fun n _ => endsSides.bind fun m _ => trivial
  cases threshold with
  | none => exact .pure asks
  | some limit => exact (evaluates.threshold limit rfl).settled.bind fun _ _ => .pure asks

def Prepared.Asks (allowed : EvalError → Prop) (prepared : Prepared) : Prop :=
  ∀ roll ∈ prepared.rolls, Ends allowed (fun _ => True) roll.group

theorem ListParts.Evaluate.prepare {parts : ListParts} (evaluate : parts.Evaluate good allowed) :
    parts.prepare.Ensures good allowed (Prepared.Asks allowed) := by
  obtain ⟨rolls, modifier, threshold, check⟩ := parts
  have settles : (Roll.settleAll rolls).Ensures good allowed fun settled =>
      ∀ roll ∈ settled, Ends allowed (fun _ => True) roll.group :=
    .mapM fun roll member => (evaluate.rolls roll member).settle
  have adds : (Command.evaluateModifier modifier).Ensures good allowed fun _ => True := by
    cases modifier with
    | none => exact .pure trivial
    | some node => exact (evaluate.modifier node rfl).evaluate
  have aims : (Command.evaluateTarget check).Ensures good allowed fun _ => True := by
    cases check with
    | none => exact .pure trivial
    | some comparison => exact (evaluate.check comparison rfl).evaluate.bind fun _ _ => .pure trivial
  have limits : (evaluateWritten threshold).Ensures good allowed fun _ => True := by
    cases threshold with
    | none => exact .pure trivial
    | some node => exact (evaluate.threshold node rfl).evaluate.bind fun _ _ => .pure trivial
  refine settles.bind fun settled asks => adds.bind fun added _ => ?_
  exact aims.bind fun target _ => limits.bind fun written _ => .pure asks

namespace Chains

variable (overflow : allowed .overflow) (result : Chains)
include overflow

theorem ends_highest : Ends allowed (fun _ => True) result.highest :=
  (Ends.exactly overflow _).imp fun _ _ => trivial

theorem ends_total : Ends allowed (fun _ => True) result.total :=
  .foldlM (fun _ _ _ _ => (Ends.exactly overflow _).imp fun _ _ => trivial) trivial

theorem ends_successes (relation : Relation) (target : Int) :
    Ends allowed (fun _ => True) (result.successes relation target) := by
  have values : Ends allowed (fun values => ∀ value ∈ values, Fits value)
      (result.sums.mapM fun sum => exactly (sum + result.modifier)) :=
    .mapM fun sum _ => .exactly overflow _
  exact values.bind fun _ _ => trivial

end Chains

namespace Command

variable {heading : String} {maxRerolls : Nat} {prepared : Prepared}
  (asks : prepared.Asks allowed)
include asks

theorem ensures_groups : (Evaluation.ofExcept (prepared.rolls.mapM Roll.group)).Ensures good allowed
    fun groups => ∀ group ∈ groups, True := .ofExcept (Ends.mapM asks)

theorem ensures_throwScatter :
    (throwScatter heading prepared).Ensures good allowed fun _ => True := by
  have throws : (Roll.rollScatter prepared.rolls).Ensures good allowed fun _ => True := by
    refine (ensures_groups asks).bind fun groups _ => ?_
    exact .bind (.ofThrow fun _ _ _ => trivial) fun dice (_ : True) => .pure trivial
  refine throws.bind fun dice _ => ?_
  cases prepared.target <;> exact .pure trivial

theorem ensures_throwWaves (threshold : Int) :
    (throwWaves heading maxRerolls prepared threshold).Ensures good allowed fun _ => True := by
  have throws : (Roll.rollWaves prepared.rolls threshold maxRerolls).Ensures good allowed
      fun _ => True :=
    (ensures_groups asks).bind fun _ _ => .ofThrow fun _ _ _ => trivial
  refine throws.bind fun waves _ => ?_
  cases prepared.target <;> exact .pure trivial

theorem ensures_throwChains (overflow : allowed .overflow) (threshold : Int) :
    (throwChains heading maxRerolls prepared threshold).Ensures good allowed fun _ => True := by
  have throws : (Roll.rollChains prepared.rolls threshold prepared.modifier maxRerolls).Ensures good
      allowed fun _ => True := by
    refine (ensures_groups asks).bind fun groups _ => ?_
    exact .bind (.ofThrow fun _ _ _ => trivial) fun chains (_ : True) => .pure trivial
  refine throws.bind fun chains _ => ?_
  cases prepared.target with
  | none =>
    refine .bind (.ofExcept (chains.ends_highest overflow)) fun highest _ => ?_
    exact .bind (.ofExcept (chains.ends_total overflow)) fun total _ => .pure trivial
  | some aim =>
    exact .bind (.ofExcept (chains.ends_successes overflow aim.1 aim.2)) fun n _ => .pure trivial

omit asks in
theorem ensures_throwAbove {throw : Int → Evaluation Outcome}
    (throws : ∀ threshold, (throw threshold).Ensures good allowed fun _ => True) :
    (throwAbove heading prepared throw).Ensures good allowed fun _ => True := by
  unfold throwAbove
  cases checkThreshold prepared.threshold with
  | error => exact .pure trivial
  | ok threshold => exact throws threshold

end Command

namespace ListParts.Evaluate

variable {heading : String} {maxRerolls : Nat} {rolls : List Roll} {modifier threshold : Option Node}
  {check : Option Comparison}

theorem playScatter (evaluate : ListParts.Evaluate good allowed ⟨rolls, none, none, check⟩) :
    (Command.playScatter heading rolls check).Ensures good allowed fun _ => True := by
  rw [Command.playScatter_eq]
  exact evaluate.prepare.bind fun prepared asks => Command.ensures_throwScatter asks

theorem playReroll (evaluate : ListParts.Evaluate good allowed ⟨rolls, none, threshold, check⟩) :
    (Command.playReroll heading maxRerolls rolls threshold check).Ensures good allowed
      fun _ => True := by
  rw [Command.playReroll_eq]
  refine evaluate.prepare.bind fun prepared asks => Command.ensures_throwAbove fun limit => ?_
  exact Command.ensures_throwWaves asks limit

theorem playCompound (evaluate : ListParts.Evaluate good allowed ⟨rolls, modifier, threshold, check⟩)
    (overflow : allowed .overflow) :
    (Command.playCompound heading maxRerolls rolls threshold modifier check).Ensures good allowed
      fun _ => True := by
  rw [Command.playCompound_eq]
  refine evaluate.prepare.bind fun prepared asks => Command.ensures_throwAbove fun limit => ?_
  exact Command.ensures_throwChains asks overflow limit

end ListParts.Evaluate

end DiceLanguage
