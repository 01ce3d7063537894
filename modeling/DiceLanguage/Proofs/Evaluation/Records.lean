import DiceLanguage.Proofs.Evaluation.Lists

namespace DiceLanguage

open DiceSource (Supplies supplies_any)

variable {σ α β : Type}

/-- Whatever dice fall, each throw writes down just these, in the order in which they fell. -/
def Evaluation.Records : Evaluation α → Prop
  | done _ | fail _ => True
  | throwing throw record next =>
    ∀ dice result, throw.On dice result → record result = dice ∧ (next result).Records

namespace Evaluation

variable {evaluation : Evaluation α}

namespace Records

theorem pure (value : α) : (Pure.pure value : Evaluation α).Records := trivial

theorem ofExcept (result : Except EvalError α) : (Evaluation.ofExcept result).Records := by
  cases result <;> exact trivial

theorem ofThrow {throw : Throw α} {record : α → List Die}
    (tells : ∀ dice result, throw.On dice result → record result = dice) :
    (Evaluation.ofThrow throw record).Records :=
  fun dice result falls => ⟨tells dice result falls, trivial⟩

theorem bind {next : α → Evaluation β} (first : evaluation.Records)
    (rest : ∀ value, (next value).Records) : (evaluation >>= next).Records := by
  change (evaluation.bind next).Records
  induction evaluation with
  | done value => exact rest value
  | fail => exact trivial
  | throwing throw record following ih =>
    intro dice result falls
    obtain ⟨told, later⟩ := first dice result falls
    exact ⟨told, ih result later⟩

theorem mapM {f : α → Evaluation β} (each : ∀ a, (f a).Records) (as : List α) :
    (as.mapM f).Records := by
  induction as with
  | nil => exact trivial
  | cons a as ih =>
    rw [List.mapM_cons]
    exact (each a).bind fun b => ih.bind fun bs => .pure (b :: bs)

theorem of_thrown [DiceSource σ] {throw : Throw β} {record : β → List Die}
    {next : β → Evaluation α} {roller final : Roller σ} {result : β} {dice : List Die}
    (records : (throwing throw record next).Records)
    (thrown : throw.run roller = (.ok (result, dice), final)) :
    record result = dice ∧ (next result).Records :=
  records dice result (Throw.run_yields (supplies_any roller.source) thrown).1

end Records

theorem records_die (sides : Int) : (ofThrow (Throw.die sides) fun die => [die]).Records :=
  .ofThrow fun _ _ falls => (Throw.yields_die.mp falls).1.symm

end Evaluation

open Evaluation (Records)

theorem records_randomNumber (least greatest : Int) : (randomNumber least greatest).Records := by
  unfold randomNumber
  split
  · exact trivial
  · exact .bind (.ofExcept _) fun size => (Evaluation.records_die size).bind fun _ => .ofExcept _

namespace Node

theorem records_rollSum (count sides : Node) : (rollSum count sides).Records := by
  refine .bind (.ofExcept _) fun count => .bind (.ofExcept _) fun sides => ?_
  refine .bind (.ofThrow fun dice fallen falls => ?_) fun dice => .pure (rolled dice)
  exact (Throw.yields_group.mp falls).1.symm

theorem records_rollDice (node : Node) : node.rollDice.Records := by
  induction node with
  | int | rolled => exact trivial
  | neg x ih => exact ih.bind fun x => .pure (neg x)
  | binary op x y ihx ihy => exact ihx.bind fun x => ihy.bind fun y => .pure (binary op x y)
  | random x y =>
    refine .bind (.ofExcept _) fun least => .bind (.ofExcept _) fun greatest => ?_
    exact (records_randomNumber least greatest).bind fun x => .pure (int x)
  | roll kind x y | thresholdRoll kind x y =>
    cases kind with
    | sum => exact records_rollSum x y
    | scatter | reroll | compound => exact trivial

theorem records_conclude (node : Node) : node.conclude.Records :=
  node.records_rollDice.bind fun fallen => .ofExcept fallen.intValue

theorem records_settle (argument : Node) {resolved : Evaluation Node} (records : resolved.Records) :
    (argument.settle resolved).Records := by
  unfold settle
  split
  · exact records.bind fun node => node.records_conclude.bind fun x => .pure (int x)
  · exact trivial

theorem records_settleArguments (node : Node) : node.settleArguments.Records := by
  induction node with
  | int | rolled => exact trivial
  | neg x ih => exact ih.bind fun x => .pure (neg x)
  | binary op x y ihx ihy => exact ihx.bind fun x => ihy.bind fun y => .pure (binary op x y)
  | random x y ihx ihy =>
    exact (x.records_settle ihx).bind fun x => (y.records_settle ihy).bind fun y => .pure (random x y)
  | roll kind x y ihx ihy =>
    refine (x.records_settle ihx).bind fun x => (y.records_settle ihy).bind fun y => ?_
    exact .pure (roll kind x y)
  | thresholdRoll kind x y z ihx ihy ihz =>
    refine (x.records_settle ihx).bind fun x => (y.records_settle ihy).bind fun y => ?_
    exact (z.records_settle ihz).bind fun z => .pure (thresholdRoll kind x y z)

theorem records_resolve (node : Node) : node.resolve.Records :=
  node.records_settleArguments.bind fun settled => settled.records_rollDice

theorem records_evaluate (node : Node) : node.evaluate.Records :=
  node.records_settleArguments.bind fun settled => settled.records_conclude

theorem records_settled (node : Node) : node.settled.Records :=
  node.records_settle node.records_settleArguments

end Node

namespace Roll

theorem records_settle (roll : Roll) : roll.settle.Records := by
  unfold settle
  refine roll.count.records_settled.bind fun count => ?_
  refine roll.sides.records_settled.bind fun sides => ?_
  cases roll.threshold with
  | none => exact trivial
  | some threshold => exact threshold.records_settled.bind fun threshold => .pure _

theorem records_settleAll (rolls : List Roll) : (settleAll rolls).Records :=
  .mapM records_settle rolls

theorem records_rollScatter (rolls : List Roll) : (rollScatter rolls).Records := by
  refine .bind (.ofExcept _) fun groups => ?_
  exact .bind (.ofThrow fun _ _ => Throw.flatten_groups) fun parts => .pure parts.flatten

theorem records_rollWaves (rolls : List Roll) (threshold : Int) (maxRerolls : Nat) :
    (rollWaves rolls threshold maxRerolls).Records :=
  .bind (.ofExcept _) fun _ => .ofThrow fun _ _ => Throw.flatten_waves

theorem records_rollChains (rolls : List Roll) (threshold modifier : Int) (maxRerolls : Nat) :
    (rollChains rolls threshold modifier maxRerolls).Records := by
  refine .bind (.ofExcept _) fun groups => ?_
  exact .bind (.ofThrow fun _ _ => Throw.flatten_chains) fun chains => .pure (Chains.mk chains modifier)

end Roll

theorem records_findThreshold (written : Option Node) (inferred : Option Int) :
    (findThreshold written inferred).Records := by
  cases written with
  | none => exact trivial
  | some node => exact node.records_evaluate.bind fun threshold => .pure _

namespace Command

variable (heading : String) (maxRerolls : Nat) (rolls : List Roll)
  (threshold modifier : Option Node) (check : Option Comparison)

theorem records_playSum (expr : Node) : (playSum heading expr).Records :=
  expr.records_resolve.bind fun _ => .bind (.ofExcept _) fun _ => .pure _

theorem records_playSumCheck (comparison : Node) : (playSumCheck heading comparison).Records := by
  refine comparison.records_resolve.bind fun resolved => ?_
  split
  · refine .bind (.ofExcept _) fun x => .bind (.ofExcept _) fun y => ?_
    exact .bind (.ofExcept _) fun holds => .pure _
  · exact trivial

theorem records_evaluateTarget : (evaluateTarget check).Records := by
  cases check with
  | none => exact trivial
  | some comparison => exact comparison.target.records_evaluate.bind fun target => .pure _

theorem records_evaluateModifier : (evaluateModifier modifier).Records := by
  cases modifier with
  | none => exact trivial
  | some node => exact node.records_evaluate

theorem records_playScatter : (playScatter heading rolls check).Records := by
  refine (Roll.records_settleAll rolls).bind fun settled => ?_
  refine (records_evaluateTarget check).bind fun target => ?_
  refine (Roll.records_rollScatter settled).bind fun dice => ?_
  cases target <;> exact trivial

theorem records_playReroll : (playReroll heading maxRerolls rolls threshold check).Records := by
  refine (Roll.records_settleAll rolls).bind fun settled => ?_
  refine (records_evaluateTarget check).bind fun target => ?_
  refine (records_findThreshold threshold _).bind fun found => ?_
  cases found with
  | error => exact trivial
  | ok limit =>
    refine (Roll.records_rollWaves settled limit maxRerolls).bind fun waves => ?_
    cases target <;> exact trivial

theorem records_playCompound :
    (playCompound heading maxRerolls rolls threshold modifier check).Records := by
  refine (Roll.records_settleAll rolls).bind fun settled => ?_
  refine (records_evaluateModifier modifier).bind fun added => ?_
  refine (records_evaluateTarget check).bind fun target => ?_
  refine (records_findThreshold threshold _).bind fun found => ?_
  cases found with
  | error => exact trivial
  | ok limit =>
    refine (Roll.records_rollChains settled limit added maxRerolls).bind fun chains => ?_
    cases target with
    | none => exact .bind (.ofExcept _) fun highest => .bind (.ofExcept _) fun total => .pure _
    | some => exact .bind (.ofExcept _) fun successes => .pure _

theorem records_pickItem (items : List String) : (pickItem items).Records := by
  refine (Evaluation.records_die items.length).bind fun die => ?_
  cases pick? items die.value <;> exact trivial

theorem records_play (command : Command) : (command.play maxRerolls).Records := by
  cases command with
  | calculation expr => exact expr.records_evaluate.bind fun value => .pure _
  | sum expr => exact records_playSum _ expr
  | sumCheck comparison => exact records_playSumCheck _ comparison
  | scatter rolls check => exact records_playScatter _ rolls.toList check
  | reroll rolls threshold check =>
    exact records_playReroll _ maxRerolls rolls.toList threshold check
  | compound rolls threshold modifier check =>
    exact records_playCompound _ maxRerolls rolls.toList threshold modifier check
  | choice items => exact (records_pickItem items.toList).bind fun item => .pure _

end Command

section Run

variable [DiceSource σ] {good : Int → Die → Prop} {evaluation : Evaluation α}

/-- Unless the dice are refused, a run takes the course of the dice that it records. -/
theorem Evaluation.run_course {table final : Table σ} {result : Except EvalError α}
    (records : evaluation.Records) (promise : Supplies good table.roller.source)
    (ran : evaluation.run table = (result, final)) :
    (∃ refused, result = .error (.roll refused)) ∨
      ∃ dice, final.recorded = table.recorded ++ dice ∧ evaluation.Course good dice result := by
  induction evaluation generalizing table with
  | done | fail =>
    cases ran
    exact .inr ⟨[], (List.append_nil _).symm, by constructor⟩
  | throwing throw record next ih =>
    rw [run] at ran
    rcases thrown : throw.run table.roller with ⟨refused | ⟨reached, fallen⟩, roller⟩
    · rw [thrown] at ran
      cases ran
      exact .inl ⟨refused, rfl⟩
    · rw [thrown] at ran
      obtain ⟨told, later⟩ := records.of_thrown thrown
      obtain ⟨yields, kept⟩ := Throw.run_yields promise thrown
      apply (ih reached later kept ran).imp_right
      intro runs
      obtain ⟨dice, recorded, course⟩ := runs
      exact ⟨fallen ++ dice, by simp [recorded, told], .throwing yields course⟩

namespace Observed

theorem run_answers {table final : Table (Observed σ)} {result : Except EvalError α}
    (records : evaluation.Records) (ran : evaluation.run table = (result, final)) :
    (∃ refused, result = .error (.roll refused)) ∨
      ∃ dice, final.recorded = table.recorded ++ dice ∧
        final.roller.source.answers = table.roller.source.answers ++ dice.map .ok := by
  induction evaluation generalizing table with
  | done | fail => cases ran; exact .inr ⟨[], by simp⟩
  | throwing throw record next ih =>
    rw [Evaluation.run] at ran
    rcases thrown : throw.run table.roller with ⟨refused | ⟨reached, fallen⟩, roller⟩
    · rw [thrown] at ran
      cases ran
      exact .inl ⟨refused, rfl⟩
    · rw [thrown] at ran
      obtain ⟨told, later⟩ := records.of_thrown thrown
      have answered := runThrow_answers thrown
      apply (ih reached later ran).imp_right
      intro runs
      obtain ⟨dice, recorded, answers⟩ := runs
      exact ⟨fallen ++ dice, by simp [recorded, told], by simp [answers, answered]⟩

theorem run_ok {table final : Table σ} {value : α} (records : evaluation.Records)
    (ran : evaluation.run table = (.ok value, final)) :
    ∃ dice, final.recorded = table.recorded ++ dice ∧ ∃ last : Table (Observed σ),
      evaluation.run ⟨table.roller.observed, table.recorded⟩ = (.ok value, last) ∧
        last.recorded = final.recorded ∧ last.roller.source.answers = dice.map .ok := by
  have mirrored := mirrors.run evaluation ⟨table.roller.observed, table.recorded⟩
  change evaluation.run table = _ at mirrored
  rw [ran] at mirrored
  rcases observed : evaluation.run ⟨table.roller.observed, table.recorded⟩ with ⟨result, last⟩
  rw [observed] at mirrored
  cases mirrored
  obtain ⟨_, refused⟩ | ⟨dice, recorded, answers⟩ := run_answers records observed
  · cases refused
  · exact ⟨dice, recorded, last, rfl, rfl, answers⟩

end Observed

theorem Statement.execute_course {statement : Statement} {settings : Settings} {roller : Roller σ}
    {final : Roller (Observed σ)} {result : Except EvalError Report}
    (promise : Supplies good roller.source)
    (executed : statement.execute settings roller.observed = (result, final)) :
    (∃ refused, result = .error (.roll refused)) ∨
      ∃ dice reached, final.source.answers = dice.map .ok ∧
        (statement.command.play settings.maxRerolls).Course good dice reached ∧
        result = reached.map (·.report settings statement.secret dice) := by
  have records := statement.command.records_play settings.maxRerolls
  rcases ran : (statement.command.play settings.maxRerolls).run
    { roller := roller.observed.limitTo settings.maxDice } with ⟨reached, table⟩
  have promised : Supplies good (roller.observed.limitTo settings.maxDice).source :=
    Observed.supplies promise
  simp only [Statement.execute, ran] at executed
  obtain ⟨refused, rfl⟩ | ⟨dice, recorded, course⟩ := Evaluation.run_course records promised ran
  · cases executed
    exact .inl ⟨refused, rfl⟩
  obtain ⟨refused, rfl⟩ | ⟨answered, recorded', answers⟩ := Observed.run_answers records ran
  · cases executed
    exact .inl ⟨refused, rfl⟩
  -- The dice of the course and those of the answers are both what the table has recorded.
  change table.recorded = dice at recorded
  change table.recorded = answered at recorded'
  change table.roller.source.answers = answered.map .ok at answers
  subst recorded recorded'
  refine .inr ⟨table.recorded, reached, ?_⟩
  cases reached with
  | error | ok =>
    cases executed
    exact ⟨answers, course, rfl⟩

end Run

end DiceLanguage
