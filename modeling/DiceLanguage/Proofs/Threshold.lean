import DiceLanguage.Proofs.Evaluation.Failures
import DiceLanguage.Proofs.Evaluation.Passes
import DiceLanguage.Proofs.Rerolling

namespace DiceLanguage

variable {σ : Type} [DiceSource σ] {good : Int → Die → Prop}

def EvalError.IsUnlimited : EvalError → Prop
  | threshold _ => False
  | divisionByZero | roll _ | typeMismatch .. | invalidRange .. | overflow => True

open EvalError (IsUnlimited)

theorem Value.ends_asInt (value : Value) : Ends IsUnlimited (fun _ => True) value.asInt := by
  cases value <;> exact trivial

namespace Node

theorem ends_value (node : Node) : Ends IsUnlimited (fun _ => True) node.value := by
  induction node with
  | int | rolled | random | roll | thresholdRoll => exact trivial
  | neg x ih =>
    refine Ends.bind (ih.bind fun v _ => v.ends_asInt) fun x _ => ?_
    exact (Ends.exactly trivial (-x)).map fun _ _ => trivial
  | binary op x y ihx ihy =>
    refine Ends.bind (ihx.bind fun v _ => v.ends_asInt) fun x _ => ?_
    refine Ends.bind (ihy.bind fun v _ => v.ends_asInt) fun y _ => ?_
    exact (op.ends_apply trivial trivial x y).imp fun _ _ => trivial

theorem ends_intValue (node : Node) : Ends IsUnlimited (fun _ => True) node.intValue :=
  node.ends_value.bind fun value _ => value.ends_asInt

theorem unlimited_rollSum (count sides : Node) :
    (rollSum count sides).Ensures good IsUnlimited fun _ => True :=
  (ensures_rollSum .sum count sides count.ends_intValue sides.ends_intValue).imp fun _ _ => trivial

theorem unlimited_rollDice (node : Node) :
    node.rollDice.Ensures good IsUnlimited fun _ => True := by
  induction node with
  | int | rolled => exact .pure trivial
  | neg x ih => exact ih.bind fun _ _ => .pure trivial
  | binary op x y ihx ihy => exact ihx.bind fun _ _ => ihy.bind fun _ _ => .pure trivial
  | random x y =>
    refine .bind (.ofExcept x.ends_intValue) fun least _ => ?_
    refine .bind (.ofExcept y.ends_intValue) fun greatest _ => ?_
    exact (ensures_randomNumber trivial least greatest trivial).bind fun _ _ => .pure trivial
  | roll kind x y =>
    cases kind with
    | sum => exact unlimited_rollSum x y
    | scatter | reroll | compound => exact .pure trivial
  | thresholdRoll kind x y z =>
    cases kind with
    | sum => exact unlimited_rollSum x y
    | scatter | reroll | compound => exact .pure trivial

theorem unlimited_conclude (node : Node) :
    node.conclude.Ensures good IsUnlimited fun _ => True :=
  node.unlimited_rollDice.bind fun fallen _ => .ofExcept fallen.ends_intValue

theorem unlimited_settle (argument : Node) {resolved : Evaluation Node}
    (resolves : resolved.Ensures good IsUnlimited fun _ => True) :
    (argument.settle resolved).Ensures good IsUnlimited fun _ => True := by
  unfold settle
  split
  · exact resolves.bind fun node _ => node.unlimited_conclude.bind fun _ _ => .pure trivial
  · exact .pure trivial

theorem unlimited_settleArguments (node : Node) :
    node.settleArguments.Ensures good IsUnlimited fun _ => True := by
  induction node with
  | int | rolled => exact .pure trivial
  | neg x ih => exact ih.bind fun _ _ => .pure trivial
  | binary op x y ihx ihy => exact ihx.bind fun _ _ => ihy.bind fun _ _ => .pure trivial
  | random x y ihx ihy | roll kind x y ihx ihy =>
    refine (x.unlimited_settle ihx).bind fun _ _ => ?_
    exact (y.unlimited_settle ihy).bind fun _ _ => .pure trivial
  | thresholdRoll kind x y z ihx ihy ihz =>
    refine (x.unlimited_settle ihx).bind fun _ _ => (y.unlimited_settle ihy).bind fun _ _ => ?_
    exact (z.unlimited_settle ihz).bind fun _ _ => .pure trivial

theorem evaluates_unlimited (node : Node) : node.Evaluates good IsUnlimited where
  evaluate := node.unlimited_settleArguments.bind fun settled _ => settled.unlimited_conclude
  settled := (node.unlimited_settle node.unlimited_settleArguments).imp
    fun argument _ => argument.ends_intValue

end Node

/-- To find a threshold is to require one and to catch what is wrong with it. No other error is
caught, for the evaluation of a threshold does not fail for a threshold. -/
theorem run_findThreshold (written : Option Node) (inferred : Option Int) (table : Table σ) :
    (findThreshold written inferred).run table =
      match (requireThreshold written inferred).run table with
      | (.ok limit, final) => (.ok (.ok limit), final)
      | (.error (.threshold error), final) => (.ok (.error error), final)
      | (.error error, final) => (.error error, final) := by
  have requires : (requireThreshold written inferred).run table = _ :=
    Evaluation.run_bind (findThreshold written inferred) _ table
  rw [requires]
  rcases found : (findThreshold written inferred).run table with ⟨error | checked, final⟩
  · have finds : (findThreshold written inferred).Ensures (fun _ _ => True) IsUnlimited
        fun _ => True := by
      cases written with
      | none => exact .pure trivial
      | some node => exact node.evaluates_unlimited.evaluate.bind fun _ _ => .pure trivial
    have unlimited : IsUnlimited error := by
      obtain ⟨refused, same⟩ | unlimited := finds.run (DiceSource.supplies_any _) found
      · cases same
        exact trivial
      · exact unlimited
    cases error with
    | threshold => exact unlimited.elim
    | divisionByZero | roll | typeMismatch | invalidRange | overflow => rfl
  · cases checked <;> rfl

theorem ListParts.evaluate_unlimited (parts : ListParts) : parts.Evaluate good IsUnlimited where
  rolls roll _ := ⟨roll.count.evaluates_unlimited, roll.sides.evaluates_unlimited,
    fun limit _ => limit.evaluates_unlimited⟩
  modifier node _ := node.evaluates_unlimited
  threshold node _ := node.evaluates_unlimited
  check comparison _ := comparison.target.evaluates_unlimited

/-- The commands with a threshold, with the expressions that they evaluate first. -/
inductive Command.Rerolls : Command → ListParts → Rerolling → Prop where
  | waves (rolls : NonEmptyList Roll) (threshold : Option Node) (check : Option Comparison) :
    Rerolls (.reroll rolls threshold check) ⟨rolls.toList, none, threshold, check⟩ .waves
  | chains (rolls : NonEmptyList Roll) (threshold modifier : Option Node)
    (check : Option Comparison) :
    Rerolls (.compound rolls threshold modifier check) ⟨rolls.toList, modifier, threshold, check⟩
      .chains

theorem Command.Rerolls.unlimited_play {command : Command} {parts : ListParts}
    {rerolling : Rerolling} {maxRerolls : Nat} (rerolls : command.Rerolls parts rerolling) :
    (command.play maxRerolls).Ensures good IsUnlimited fun _ => True := by
  cases rerolls with
  | waves => exact (ListParts.evaluate_unlimited _).playReroll
  | chains => exact (ListParts.evaluate_unlimited _).playCompound trivial

namespace Statement

variable {statement : Statement} {parts : ListParts} {rerolling : Rerolling} {settings : Settings}

theorem execute_eq_answer (statement : Statement) (settings : Settings) (roller : Roller σ) :
    statement.execute settings roller = (statement.command.play settings.maxRerolls).answer settings
      statement.secret { roller := roller.limitTo settings.maxDice } := rfl

theorem execute_prepared (rerolls : statement.command.Rerolls parts rerolling) {roller : Roller σ}
    {prepared : Prepared} {table : Table σ}
    (ran : parts.prepare.run { roller := roller.limitTo settings.maxDice } = (.ok prepared, table)) :
    ∃ throw : Int → Evaluation Outcome,
      statement.execute settings roller =
        (Command.throwAbove ("(" ++ statement.command.print ++ ")") prepared throw).answer settings
          statement.secret table ∧
      ∀ limit, rerolling.Rolls statement settings prepared limit table
        ((throw limit).answer settings statement.secret table) := by
  obtain ⟨command, secret⟩ := statement
  cases rerolls with
  | waves rolls threshold check =>
    refine ⟨_, ?_, fun limit => Rerolling.rolls_throwWaves⟩
    rw [execute_eq_answer, Command.play, Command.playReroll_eq, Evaluation.answer_bind ran]
  | chains rolls threshold modifier check =>
    refine ⟨_, ?_, fun limit => Rerolling.rolls_throwChains⟩
    rw [execute_eq_answer, Command.play, Command.playCompound_eq, Evaluation.answer_bind ran]

/-- A command that rerolls dice never fails for its threshold. Once its expressions are evaluated, it
rolls its dice with the threshold that was written in it, or else with its target, where this is two
or more. Otherwise it answers what is wrong with the threshold, and no further dice are drawn. -/
theorem execute_threshold (rerolls : statement.command.Rerolls parts rerolling)
    (settings : Settings) (roller : Roller σ) :
    (∀ error, (statement.execute settings roller).1 ≠ .error (.threshold error)) ∧
    ∀ prepared table,
      parts.prepare.run { roller := roller.limitTo settings.maxDice } = (.ok prepared, table) →
        (∃ limit, prepared.threshold = some limit ∧ 2 ≤ limit ∧
          rerolling.Rolls statement settings prepared limit table
            (statement.execute settings roller)) ∨
        ∃ error : ThresholdError,
          (prepared.threshold = none ∧ error = .missing ∨
            ∃ limit, prepared.threshold = some limit ∧ limit < 2 ∧ error = .tooSmall limit) ∧
          statement.execute settings roller =
            (.ok { gameId := settings.gameId
                   fragments := ["(" ++ statement.command.print ++ ")", error.message]
                   separator := settings.separator
                   rolledDice := table.recorded
                   verdict := .unspecified
                   secret := statement.secret }, table.roller) := by
  refine ⟨fun error failed => ?_, fun prepared table ran => ?_⟩
  · obtain ⟨refused, same⟩ | unlimited :=
      error_of_ensures rerolls.unlimited_play (DiceSource.supplies_any _) failed
    · cases same
    · exact unlimited
  · obtain ⟨throw, goesOn, rolls⟩ := execute_prepared rerolls ran
    rw [goesOn]
    obtain ⟨limit, known, enough, throws⟩ | ⟨error, wrong, answers⟩ :=
      Command.throwAbove_cases ("(" ++ statement.command.print ++ ")") prepared throw
    · rw [throws]
      exact .inl ⟨limit, known, enough, rolls limit⟩
    · rw [answers]
      exact .inr ⟨error, wrong, rfl⟩

theorem execute_threshold_written :
    let rolls : NonEmptyList Roll := ⟨⟨.reroll, .roll .sum (.int 1) (.int 2), .int 6, none⟩, []⟩
    let limit : Node := .roll .sum (.int 1) (.int 6)
    let check : Comparison := ⟨.atLeast, .int 5⟩
    let statement : Statement := ⟨.reroll rolls (some limit) (some check), false⟩
    let heading := "(" ++ statement.command.print ++ ")"
    let roller (written : Int) : Roller Cycle := { source := { faces := [2, written] } }
    let table (written : Int) : Table Cycle :=
      ⟨⟨⟨[2, written], false, 2⟩, some 1000, 2⟩, [⟨2, 2⟩, ⟨written, 6⟩]⟩
    let waves : List (List Die) := [[⟨2, 6⟩, ⟨4, 6⟩], [⟨2, 6⟩]]
    statement.command.Rerolls ⟨rolls.toList, none, some limit, some check⟩ .waves ∧
      statement.execute {} (roller 1) =
        (.ok { gameId := "DiceBot"
               fragments := [heading, "threshold must be 2 or more"]
               separator := " ＞ "
               rolledDice := [⟨2, 2⟩, ⟨1, 6⟩]
               verdict := .unspecified
               secret := false }, (table 1).roller) ∧
      IsWaves [⟨2, 6⟩] 4 10000 waves ∧
      ∃ report last, statement.execute {} (roller 4) = (.ok report, last) ∧
        report.rolledDice = [⟨2, 2⟩, ⟨4, 6⟩] ++ waves.flatten ∧
        report.fragments.getLast? = some "Successes: 0" := by
  intro rolls limit check statement heading roller table waves
  have rerolls : statement.command.Rerolls ⟨rolls.toList, none, some limit, some check⟩ .waves :=
    .waves rolls (some limit) (some check)
  let prepared (written : Int) : Prepared :=
    ⟨[⟨.reroll, .int 2, .int 6, none⟩], 0, some (.atLeast, 5), some written⟩
  refine ⟨rerolls, ?_, ?_⟩
  · obtain ⟨low, known, enough, -⟩ | ⟨error, ⟨none, -⟩ | ⟨low, known, small, rfl⟩, answers⟩ :=
      (execute_threshold rerolls {} (roller 1)).2 (prepared 1) (table 1) rfl
    · cases known
      exact absurd enough (by decide)
    · cases none
    · exact answers
  · obtain ⟨high, known, -, rolled⟩ | ⟨error, ⟨none, -⟩ | ⟨high, known, small, -⟩, -⟩ :=
      (execute_threshold rerolls {} (roller 4)).2 (prepared 4) (table 4) rfl
    · cases known
      have thrown : ((Throw.waves [⟨2, 6⟩] 4 10000).run (table 4).roller).1 =
          .ok (waves, waves.flatten) := by decide +kernel
      generalize statement.execute {} (roller 4) = result at rolled
      cases rolled with
      | unasked asked => cases asked
      | refused asked refused =>
        cases asked
        have same := congrArg Prod.fst refused
        cases thrown.symm.trans same
      | overflow falls added => exact added.elim
      | told falls tells =>
        have asked := falls.asked
        cases asked
        have same := congrArg Prod.fst falls.thrown
        cases thrown.symm.trans same
        have told := (tells.compared .atLeast 5 rfl).last
        have none : "Successes: " ++ (Relation.atLeast.successes 5
            (Rerolling.waves.values 0 waves)).repr = "Successes: 0" := by decide +kernel
        exact ⟨falls.shape (Cycle.honest _), _, _, rfl, rfl, told.trans (congrArg some none)⟩
    · cases none
    · cases known
      exact absurd small (by decide)

end Statement

end DiceLanguage
