import DiceLanguage.Dice.Cycle
import DiceLanguage.Proofs.Evaluation.Lists
import DiceLanguage.Proofs.Evaluation.Stages
import DiceLanguage.Proofs.Grammar.WellFormed

namespace DiceLanguage

open Grammar (bind_ok)

variable {σ α : Type} {dice : List Die}

/-- The count and the sides of a roll come to those of the group, each on dice of its own. -/
def Roll.AsksOn (roll : Roll) (dice : List Die) (asked : DiceGroup) : Prop :=
  ∃ before later, dice = before ++ later ∧ roll.count.evaluate.On before asked.count ∧
    roll.sides.evaluate.On later asked.sides

/-- The threshold is the value of the one that is written, or else the target. -/
def LimitsOn (written : Option Node) (target : Int) (dice : List Die) (threshold : Int) : Prop :=
  ∃ value, (evaluateWritten written).On dice value ∧ threshold = value.getD target

def Die.SumsFit (dice : List Die) : Prop := ∀ front, front <+: dice → Fits (total front)

/-- The command counts the successes on the dice. The sums of chains are taken with `sumOf`, of
chains that are `fitting` for it. -/
inductive Command.Counts (sumOf : List Die → Int) (fitting : List Die → Prop) (maxRerolls : Nat) :
    Command → List Die → Nat → Prop where
  | scatter {rolls : NonEmptyList Roll} {relation : Relation} {target : Node}
    {groups : List DiceGroup} {arguments aiming : List Die} {aim : Int} {parts : List (List Die)}
    (asked : Each Roll.AsksOn rolls.toList arguments groups)
    (aimed : target.evaluate.On aiming aim)
    (thrown : (Throw.groups groups).On parts.flatten parts) :
    Counts sumOf fitting maxRerolls (.scatter rolls (some ⟨relation, target⟩))
      (arguments ++ (aiming ++ parts.flatten))
      (relation.successes aim (parts.flatten.map (·.value)))
  | reroll {rolls : NonEmptyList Roll} {threshold : Option Node} {relation : Relation}
    {target : Node} {groups : List DiceGroup} {arguments aiming limiting : List Die}
    {aim limit : Int} {waves : List (List Die)}
    (asked : Each Roll.AsksOn rolls.toList arguments groups)
    (aimed : target.evaluate.On aiming aim)
    (limited : LimitsOn threshold aim limiting limit) (enough : minThreshold ≤ limit)
    (thrown : (Throw.waves groups limit maxRerolls).On waves.flatten waves) :
    Counts sumOf fitting maxRerolls (.reroll rolls threshold (some ⟨relation, target⟩))
      (arguments ++ (aiming ++ (limiting ++ waves.flatten)))
      (relation.successes aim (waves.flatten.map (·.value)))
  | compound {rolls : NonEmptyList Roll} {threshold modifier : Option Node} {relation : Relation}
    {target : Node} {groups : List DiceGroup} {arguments aiming limiting : List Die}
    {added aim limit : Int} {chains : List (List Die)}
    (asked : Each Roll.AsksOn rolls.toList arguments groups)
    (modified : (evaluateModifier modifier).On [] added)
    (aimed : target.evaluate.On aiming aim)
    (limited : LimitsOn threshold aim limiting limit) (enough : minThreshold ≤ limit)
    (thrown : (Throw.chains groups limit maxRerolls).On chains.flatten chains)
    (fit : ∀ chain ∈ chains, fitting chain) :
    Counts sumOf fitting maxRerolls (.compound rolls threshold modifier (some ⟨relation, target⟩))
      (arguments ++ (aiming ++ (limiting ++ chains.flatten)))
      (relation.successes aim (chains.map fun chain => sumOf chain + added))

def Command.HasSuccesses : Command → Prop
  | scatter _ (some _) | reroll _ _ (some _) | compound _ _ _ (some _) => True
  | calculation _ | sum _ | sumCheck _ | scatter _ none | reroll _ _ none | compound _ _ _ none
  | choice _ => False

theorem Die.sum_of_sumsFit (fit : Die.SumsFit dice) : Die.sum dice = Die.total dice := by
  have folds : ∀ start, (∀ front, front <+: dice → Fits (start + total front)) →
      dice.foldl (fun sum die => saturate (sum + die.value)) start = start + total dice := by
    clear fit
    induction dice with
    | nil => exact fun start _ => (Int.add_zero start).symm
    | cons die dice ih =>
      intro start fits
      have one : Fits (start + die.value) := by
        have first := fits [die] ⟨dice, rfl⟩
        rwa [total, List.map_singleton, List.sum_singleton] at first
      rw [List.foldl_cons, saturate_of_fits one, ih, total, total, List.map_cons, List.sum_cons,
        Int.add_assoc]
      intro front initial
      have more := fits (die :: front) (List.cons_prefix_cons.mpr ⟨rfl, initial⟩)
      rwa [total, List.map_cons, List.sum_cons, ← Int.add_assoc] at more
  have whole := folds 0 fun front initial => by
    rw [Int.zero_add]
    exact fit front initial
  rwa [Int.zero_add] at whole

theorem Roll.AsksOn.unique {roll : Roll} {before later before' later' : List Die}
    {asked asked' : DiceGroup} (first : roll.AsksOn before asked) (second : roll.AsksOn before' asked')
    (cut : before ++ later = before' ++ later') : before = before' ∧ asked = asked' := by
  obtain ⟨counting, siding, rfl, count, sides⟩ := first
  obtain ⟨counting', siding', rfl, count', sides'⟩ := second
  rw [List.append_assoc, List.append_assoc] at cut
  obtain ⟨rfl, sameCount⟩ := count.unique count' cut
  obtain ⟨rfl, sameSides⟩ := sides.unique sides' (List.append_cancel_left cut)
  cases asked
  cases asked'
  cases sameCount
  cases sameSides
  exact ⟨rfl, rfl⟩

theorem LimitsOn.unique {written : Option Node} {target : Int}
    {before later before' later' : List Die} {limit limit' : Int}
    (first : LimitsOn written target before limit) (second : LimitsOn written target before' limit')
    (cut : before ++ later = before' ++ later') : before = before' ∧ limit = limit' := by
  obtain ⟨value, evaluated, rfl⟩ := first
  obtain ⟨value', evaluated', rfl⟩ := second
  obtain ⟨rfl, rfl⟩ := evaluated.unique evaluated' cut
  exact ⟨rfl, rfl⟩

namespace Command.Counts

variable {command : Command} {sumOf sumOf' : List Die → Int} {fitting fitting' : List Die → Prop}
  {maxRerolls n n' : Nat}

theorem unique (counts : command.Counts sumOf fitting maxRerolls dice n)
    (counts' : command.Counts sumOf' fitting' maxRerolls dice n')
    (same : ∀ chain, fitting chain → fitting' chain → sumOf chain = sumOf' chain) : n = n' := by
  generalize whole : dice = dice' at counts'
  -- Stage by stage the dice are cut off at the front, and what is left starts with the next stage.
  cases counts with
  | scatter asked aimed thrown =>
    cases counts' with
    | scatter asked' aimed' thrown' =>
      obtain ⟨rfl, rfl⟩ := asked.unique asked' whole fun _ _ _ _ _ _ _ => Roll.AsksOn.unique
      have whole := List.append_cancel_left whole
      obtain ⟨rfl, rfl⟩ := aimed.unique aimed' whole
      rw [List.append_cancel_left whole]
  | reroll asked aimed limited enough thrown =>
    cases counts' with
    | reroll asked' aimed' limited' enough' thrown' =>
      obtain ⟨rfl, rfl⟩ := asked.unique asked' whole fun _ _ _ _ _ _ _ => Roll.AsksOn.unique
      have whole := List.append_cancel_left whole
      obtain ⟨rfl, rfl⟩ := aimed.unique aimed' whole
      have whole := List.append_cancel_left whole
      obtain ⟨rfl, rfl⟩ := limited.unique limited' whole
      rw [List.append_cancel_left whole]
  | compound asked modified aimed limited enough thrown fit =>
    cases counts' with
    | compound asked' modified' aimed' limited' enough' thrown' fit' =>
      obtain ⟨rfl, rfl⟩ := asked.unique asked' whole fun _ _ _ _ _ _ _ => Roll.AsksOn.unique
      have whole := List.append_cancel_left whole
      obtain ⟨rfl, rfl⟩ := aimed.unique aimed' whole
      have whole := List.append_cancel_left whole
      obtain ⟨rfl, rfl⟩ := limited.unique limited' whole
      cases modified.same modified'
      have own := congrArg (· ++ []) (List.append_cancel_left whole)
      obtain ⟨-, rfl⟩ := thrown.unique thrown' own
      congr 1
      refine List.map_congr_left fun chain member => ?_
      rw [same chain (fit chain member) (fit' chain member)]

end Command.Counts

theorem Node.on_of_settled {node argument : Node} {value : Int} (settles : node.settled.On dice argument)
    (computed : argument.intValue = .ok value) : node.evaluate.On dice value := by
  obtain ⟨-, reached, evaluated, rfl⟩ | ⟨constant, rfl, rfl⟩ := course_settled settles
  · cases computed
    exact evaluated
  · unfold Evaluation.On
    rw [evaluate_constant constant]
    exact Evaluation.course_ofExcept.mpr ⟨rfl, computed.symm⟩

theorem Roll.asksOn_of_settleAll {kind : RollKind} {rolls settled : List Roll}
    {groups : List DiceGroup} (plain : ∀ roll ∈ rolls, roll.IsPlain kind)
    (settles : (settleAll rolls).On dice settled) (asked : settled.mapM group = .ok groups) :
    Each AsksOn rolls dice groups := by
  refine each_of_settleAll (fun roll member d settled asked course group => ?_) settles asked
  obtain ⟨before, later, countNode, sidesNode, rfl, settlingCount, computedCount, settlingSides,
    computedSides⟩ := course_settle (plain roll member).unlimited course group
  exact ⟨before, later, rfl, Node.on_of_settled settlingCount computedCount,
    Node.on_of_settled settlingSides computedSides⟩

namespace Command

theorem evaluateModifier_on {modifier : Option Node} {added : Int} (plain : PlainModifier modifier)
    (evaluates : (evaluateModifier modifier).On dice added) : dice = [] := by
  cases modifier with
  | none => exact (Evaluation.course_pure.mp evaluates).1
  | some node =>
    change node.evaluate.Course _ _ _ at evaluates
    rw [Node.evaluate_constant (plain node rfl).2] at evaluates
    exact (Evaluation.course_ofExcept.mp evaluates).1

variable {heading : String} {maxRerolls : Nat} {prepared : Prepared} {outcome : Outcome}
  {relation : Relation} {aim : Int}

structure Tells (outcome : Outcome) (n : Nat) : Prop where
  last : outcome.fragments.getLast? = some ("Successes: " ++ n.repr)
  verdict : outcome.verdict = .ofBool (0 < n)

theorem throwAbove_on {throw : Int → Evaluation Outcome}
    (throws : (throwAbove heading prepared throw).On dice outcome) :
    (∃ error : ThresholdError, outcome.fragments = [heading, error.message]) ∨
      ∃ limit, prepared.threshold = some limit ∧ minThreshold ≤ limit ∧
        (throw limit).On dice outcome := by
  obtain ⟨limit, known, enough, same⟩ | ⟨error, -, same⟩ := throwAbove_cases heading prepared throw
  · rw [same] at throws
    exact .inr ⟨limit, known, enough, throws⟩
  · rw [same] at throws
    obtain ⟨-, answers⟩ := Evaluation.course_pure.mp throws
    cases answers
    exact .inl ⟨error, rfl⟩

variable (aimed : prepared.target = some (relation, aim))
include aimed

theorem throwScatter_on (throws : (throwScatter heading prepared).On dice outcome) :
    ∃ groups parts, prepared.rolls.mapM Roll.group = .ok groups ∧
      dice = parts.flatten ∧ (Throw.groups groups).On parts.flatten parts ∧
      Tells outcome (relation.successes aim (parts.flatten.map (·.value))) := by
  unfold throwScatter at throws
  rw [aimed] at throws
  obtain ⟨fallen, throwing, rfl⟩ := Evaluation.course_bind_pure.mp throws
  obtain ⟨groups, asked, throwing⟩ := Evaluation.course_ofExcept_bind.mp throwing
  obtain ⟨parts, thrown, rfl⟩ := Evaluation.course_bind_pure.mp throwing
  have thrown := Evaluation.course_ofThrow.mp thrown
  cases Throw.flatten_groups thrown
  exact ⟨groups, parts, asked, rfl, thrown, rfl, rfl⟩

theorem throwWaves_on {limit : Int}
    (throws : (throwWaves heading maxRerolls prepared limit).On dice outcome) :
    ∃ groups waves, prepared.rolls.mapM Roll.group = .ok groups ∧
      dice = waves.flatten ∧ (Throw.waves groups limit maxRerolls).On waves.flatten waves ∧
      outcome = countedOutcome heading (Value.wavesText waves)
        (relation.successes aim (waves.flatten.map (·.value))) := by
  unfold throwWaves at throws
  rw [aimed] at throws
  obtain ⟨waves, throwing, rfl⟩ := Evaluation.course_bind_pure.mp throws
  obtain ⟨groups, asked, throwing⟩ := Evaluation.course_ofExcept_bind.mp throwing
  have thrown := Evaluation.course_ofThrow.mp throwing
  cases Throw.flatten_waves thrown
  exact ⟨groups, waves, asked, rfl, thrown, rfl⟩

omit aimed in
theorem successes_ok {result : Chains} {n : Nat} (counted : result.successes relation aim = .ok n) :
    n = relation.successes aim
      (result.chains.map fun chain => Die.sum chain + result.modifier) := by
  have exact_sums : ∀ (sums values : List Int),
      (sums.mapM fun sum => exactly (sum + result.modifier)) = .ok values →
        values = sums.map (· + result.modifier) := by
    intro sums
    induction sums with
    | nil =>
      intro values added
      cases added
      rfl
    | cons sum sums ih =>
      intro values added
      rw [List.mapM_cons] at added
      obtain ⟨first, head, added⟩ := bind_ok added
      obtain ⟨others, tail, last⟩ := bind_ok added
      obtain ⟨-, rfl⟩ := exactly_ok.mp head
      cases last
      rw [ih others tail, List.map_cons]
  obtain ⟨values, added, last⟩ := bind_ok counted
  cases last
  rw [exact_sums _ _ added, Chains.sums, List.map_map]
  rfl

theorem throwChains_on {limit : Int}
    (throws : (throwChains heading maxRerolls prepared limit).On dice outcome) :
    ∃ groups chains, prepared.rolls.mapM Roll.group = .ok groups ∧
      dice = chains.flatten ∧ (Throw.chains groups limit maxRerolls).On chains.flatten chains ∧
      Tells outcome
        (relation.successes aim (chains.map fun chain => Die.sum chain + prepared.modifier)) := by
  unfold throwChains at throws
  rw [aimed] at throws
  obtain ⟨_, result, _, rfl, throwing, counting⟩ := Evaluation.course_bind.mp throws
  obtain ⟨n, counted, last⟩ := Evaluation.course_ofExcept_bind.mp counting
  obtain ⟨rfl, same⟩ := Evaluation.course_pure.mp last
  cases same
  obtain ⟨groups, asked, throwing⟩ := Evaluation.course_ofExcept_bind.mp throwing
  obtain ⟨chains, thrown, rfl⟩ := Evaluation.course_bind_pure.mp throwing
  have thrown := Evaluation.course_ofThrow.mp thrown
  cases Throw.flatten_chains thrown
  rw [successes_ok counted, List.append_nil]
  exact ⟨groups, chains, asked, rfl, thrown, rfl, rfl⟩

end Command

theorem ListParts.prepare_on {parts : ListParts} {prepared : Prepared} {comparison : Comparison}
    (plain : PlainModifier parts.modifier) (compared : parts.check = some comparison)
    (prepares : parts.prepare.On dice prepared) :
    ∃ arguments aiming limiting aim, dice = arguments ++ (aiming ++ limiting) ∧
      (Roll.settleAll parts.rolls).On arguments prepared.rolls ∧
      (Command.evaluateModifier parts.modifier).On [] prepared.modifier ∧
      comparison.target.evaluate.On aiming aim ∧
      prepared.target = some (comparison.relation, aim) ∧
      (evaluateWritten parts.threshold).On limiting prepared.written := by
  obtain ⟨rolls, modifier, threshold, check⟩ := parts
  cases compared
  obtain ⟨arguments, settled, _, rfl, settling, rest⟩ := Evaluation.course_bind.mp prepares
  obtain ⟨adding, added, _, rfl, modified, rest⟩ := Evaluation.course_bind.mp rest
  obtain ⟨aiming, target, limiting, rfl, aimed, rest⟩ := Evaluation.course_bind.mp rest
  obtain ⟨written, limited, rfl⟩ := Evaluation.course_bind_pure.mp rest
  obtain ⟨aim, evaluated, rfl⟩ := Evaluation.course_bind_pure.mp aimed
  cases Command.evaluateModifier_on plain modified
  exact ⟨arguments, aiming, limiting, aim, rfl, settling, modified, evaluated, rfl, limited⟩

theorem Prepared.limitsOn {prepared : Prepared} {written : Option Node} {relation : Relation}
    {aim limit : Int} (aimed : prepared.target = some (relation, aim))
    (evaluated : (evaluateWritten written).On dice prepared.written)
    (known : prepared.threshold = some limit) : LimitsOn written aim dice limit := by
  refine ⟨prepared.written, evaluated, ?_⟩
  unfold threshold at known
  rw [aimed, Option.map_some, Option.or_some] at known
  exact (Option.some.inj known).symm

namespace Command

variable {heading : String} {maxRerolls : Nat} {outcome : Outcome} {rolls : NonEmptyList Roll}
  {threshold modifier : Option Node} {comparison : Comparison}

theorem counts_of_scatter (plain : ∀ roll ∈ rolls.toList, roll.IsPlain .scatter)
    (plays : (playScatter heading rolls.toList (some comparison)).On dice outcome) :
    ∃ n, (scatter rolls (some comparison)).Counts Die.sum (fun _ => True) maxRerolls dice n ∧
      Tells outcome n := by
  rw [playScatter_eq] at plays
  obtain ⟨_, prepared, own, rfl, preparing, throwing⟩ := Evaluation.course_bind.mp plays
  obtain ⟨arguments, aiming, limiting, aim, rfl, settling, -, aimed, known, limited⟩ :=
    ListParts.prepare_on .absent rfl preparing
  obtain ⟨rfl, -⟩ := Evaluation.course_pure.mp limited
  obtain ⟨groups, parts, asked, rfl, thrown, tells⟩ := throwScatter_on known throwing
  have asks := Roll.asksOn_of_settleAll plain settling asked
  rw [List.append_nil, List.append_assoc]
  exact ⟨_, .scatter asks aimed thrown, tells⟩

theorem stages_of_reroll (plain : ∀ roll ∈ rolls.toList, roll.IsPlain .reroll)
    (plays : (playReroll heading maxRerolls rolls.toList threshold (some comparison)).On dice outcome) :
    (∃ error : ThresholdError, outcome.fragments = [heading, error.message]) ∨
    ∃ groups arguments aiming limiting aim limit waves,
      dice = arguments ++ (aiming ++ (limiting ++ waves.flatten)) ∧
      Each Roll.AsksOn rolls.toList arguments groups ∧ comparison.target.evaluate.On aiming aim ∧
      LimitsOn threshold aim limiting limit ∧ minThreshold ≤ limit ∧
      (Throw.waves groups limit maxRerolls).On waves.flatten waves ∧
      outcome = countedOutcome heading (Value.wavesText waves)
        (comparison.relation.successes aim (waves.flatten.map (·.value))) := by
  rw [playReroll_eq] at plays
  obtain ⟨_, prepared, own, rfl, preparing, throwing⟩ := Evaluation.course_bind.mp plays
  obtain ⟨arguments, aiming, limiting, aim, rfl, settling, -, aimed, known, limited⟩ :=
    ListParts.prepare_on .absent rfl preparing
  refine (throwAbove_on throwing).imp_right fun throws => ?_
  obtain ⟨limit, found, enough, throwing⟩ := throws
  obtain ⟨groups, waves, asked, rfl, thrown, rfl⟩ := throwWaves_on known throwing
  have asks := Roll.asksOn_of_settleAll plain settling asked
  have limits := prepared.limitsOn known limited found
  rw [List.append_assoc, List.append_assoc]
  exact ⟨groups, arguments, aiming, limiting, aim, limit, waves, rfl, asks, aimed, limits, enough,
    thrown, rfl⟩

theorem counts_of_reroll (plain : ∀ roll ∈ rolls.toList, roll.IsPlain .reroll)
    (plays : (playReroll heading maxRerolls rolls.toList threshold (some comparison)).On dice outcome) :
    (∃ error : ThresholdError, outcome.fragments = [heading, error.message]) ∨
    ∃ n, (reroll rolls threshold (some comparison)).Counts Die.sum (fun _ => True) maxRerolls dice n ∧
      Tells outcome n := by
  refine (stages_of_reroll plain plays).imp_right fun stages => ?_
  obtain ⟨_, _, _, _, _, _, _, rfl, asks, aimed, limits, enough, thrown, rfl⟩ := stages
  exact ⟨_, .reroll asks aimed limits enough thrown, rfl, rfl⟩

theorem counts_of_compound (plain : ∀ roll ∈ rolls.toList, roll.IsPlain .compound)
    (fixed : PlainModifier modifier)
    (plays : (playCompound heading maxRerolls rolls.toList threshold modifier (some comparison)).On
      dice outcome) :
    (∃ error : ThresholdError, outcome.fragments = [heading, error.message]) ∨
    ∃ n, (compound rolls threshold modifier (some comparison)).Counts Die.sum (fun _ => True)
      maxRerolls dice n ∧ Tells outcome n := by
  rw [playCompound_eq] at plays
  obtain ⟨_, prepared, own, rfl, preparing, throwing⟩ := Evaluation.course_bind.mp plays
  obtain ⟨arguments, aiming, limiting, aim, rfl, settling, modified, aimed, known, limited⟩ :=
    ListParts.prepare_on fixed rfl preparing
  refine (throwAbove_on throwing).imp_right fun throws => ?_
  obtain ⟨limit, found, enough, throwing⟩ := throws
  obtain ⟨groups, chains, asked, rfl, thrown, tells⟩ := throwChains_on known throwing
  have asks := Roll.asksOn_of_settleAll plain settling asked
  have limits := prepared.limitsOn known limited found
  rw [List.append_assoc, List.append_assoc]
  exact ⟨_, .compound asks modified aimed limits enough thrown fun _ _ => trivial, tells⟩

theorem counts_of_play {command : Command} (plain : command.WellFormed) (compared : command.HasSuccesses)
    (plays : (command.play maxRerolls).On dice outcome) :
    (∃ error : ThresholdError,
      outcome.fragments = ["(" ++ command.print ++ ")", error.message]) ∨
    ∃ n, command.Counts Die.sum (fun _ => True) maxRerolls dice n ∧ Tells outcome n := by
  cases command with
  | scatter rolls check =>
    cases check with
    | none => exact compared.elim
    | some => exact .inr (counts_of_scatter plain.1 plays)
  | reroll rolls threshold check =>
    cases check with
    | none => exact compared.elim
    | some => exact counts_of_reroll plain.1 plays
  | compound rolls threshold modifier check =>
    cases check with
    | none => exact compared.elim
    | some => exact counts_of_compound plain.1 plain.2.2.1 plays
  | calculation | sum | sumCheck | choice => exact compared.elim

end Command

namespace Statement

variable [DiceSource σ] {text : String} {statement : Statement} {settings : Settings}
  {roller final : Roller σ} {report : Report}

/-- A list that was read, is compared with a target and is executed tells how many successes there
are among its own dice, unless its threshold is refused. The number is exact where the sums of the
chains are in range; beyond it they are saturated. -/
theorem execute_successes (parsed : parse text = .ok statement)
    (compared : statement.command.HasSuccesses)
    (executed : statement.execute settings roller = (.ok report, final))
    (limited : ∀ error : ThresholdError,
      report.fragments ≠ ["(" ++ statement.command.print ++ ")", error.message]) :
    ∃ n, statement.command.Counts Die.sum (fun _ => True) settings.maxRerolls report.rolledDice n ∧
      report.fragments.getLast? = some ("Successes: " ++ n.repr) ∧
      report.verdict = .ofBool (0 < n) ∧
      ∀ exact, statement.command.Counts Die.total Die.SumsFit settings.maxRerolls
        report.rolledDice exact → exact = n := by
  obtain ⟨outcome, recorded, ran, rfl⟩ := execute_ok.mp executed
  have records := statement.command.records_play settings.maxRerolls
  obtain ⟨refused, same⟩ | ⟨dice, whole, course⟩ :=
    Evaluation.run_course records (DiceSource.supplies_any _) ran
  · cases same
  change recorded = dice at whole
  subst whole
  have plain := (Grammar.parse_origin parsed).wellFormed (choice_items parsed)
  obtain ⟨error, refuses⟩ | ⟨n, counts, tells⟩ := Command.counts_of_play plain compared course
  · exact absurd refuses (limited error)
  · refine ⟨n, counts, tells.last, tells.verdict, fun exact counts' => ?_⟩
    exact counts'.unique counts fun chain fit _ => (Die.sum_of_sumsFit fit).symm

theorem execute_successes_staged :
    let statement : Statement :=
      ⟨.compound ⟨⟨.compound, .roll .sum (.int 1) (.int 2), .int 6, none⟩, []⟩
        (some (.roll .sum (.int 1) (.int 4))) (some (.int 1))
        (some ⟨.atLeast, .roll .sum (.int 1) (.int 6)⟩), false⟩
    let roller : Roller Cycle := { source := { faces := [2, 4, 3, 5, 1, 2] } }
    let dice : List Die := [⟨2, 2⟩, ⟨4, 6⟩, ⟨3, 4⟩, ⟨5, 6⟩, ⟨1, 6⟩, ⟨2, 6⟩]
    parse "(1D2)U6[1D4]+1>=1D6" = .ok statement ∧ statement.command.HasSuccesses ∧
      ∃ report final n, statement.execute {} roller = (.ok report, final) ∧
        report.rolledDice = dice ∧
        statement.command.Counts Die.sum (fun _ => True) 10000 dice n ∧
        report.fragments.getLast? = some ("Successes: " ++ n.repr) ∧
        "Successes: " ++ n.repr = "Successes: 1" ∧ report.verdict = .ofBool (0 < n) := by
  intro statement roller dice
  have parsed : parse "(1D2)U6[1D4]+1>=1D6" = .ok statement :=
    Grammar.ok_of_toOption (by decide +kernel)
  have answered : (statement.execute {} roller).1.toOption.map
      (fun report => (report.rolledDice, report.fragments.length, report.fragments.getLast?)) =
        some (dice, 3, some "Successes: 1") := by decide +kernel
  obtain ⟨report, final, executed, same⟩ := exists_report answered
  obtain ⟨rolled, rest⟩ := Prod.mk.inj same
  obtain ⟨length, last⟩ := Prod.mk.inj rest
  obtain ⟨n, counts, told, verdict, -⟩ := execute_successes parsed trivial executed
    fun error same => absurd (congrArg List.length same) (by rw [length]; simp)
  change statement.command.Counts Die.sum (fun _ => True) 10000 report.rolledDice n at counts
  rw [rolled] at counts
  have same : "Successes: " ++ n.repr = "Successes: 1" := Option.some.inj (told.symm.trans last)
  exact ⟨parsed, trivial, report, final, n, executed, rolled, counts, told, same, verdict⟩

theorem execute_saturated_chain :
    let statement : Statement := ⟨.compound ⟨⟨.compound, .int 1, .int maxInt, none⟩, []⟩
      (some (.int 2)) none (some ⟨.equal, .int maxInt⟩), false⟩
    let dice : List Die := [⟨maxInt, maxInt⟩, ⟨1, maxInt⟩]
    let roller : Roller Cycle := { source := { faces := [maxInt, 1] } }
    parse "1U9223372036854775807[2]=9223372036854775807" = .ok statement ∧
      (∃ report final, statement.execute {} roller = (.ok report, final) ∧
        report.rolledDice = dice ∧ report.fragments.getLast? = some "Successes: 1" ∧
        report.verdict = .success) ∧
      ∀ n, statement.command.Counts Die.total (fun _ => True) 10000 dice n ↔ n = 0 := by
  intro statement dice roller
  have parsed : parse "1U9223372036854775807[2]=9223372036854775807" = .ok statement :=
    Grammar.ok_of_toOption (by decide +kernel)
  have answered : (statement.execute {} roller).1.toOption.map
      (fun report => (report.rolledDice, report.fragments.getLast?, report.verdict)) =
        some (dice, some "Successes: 1", .success) := by decide +kernel
  refine ⟨parsed, ?_, ?_⟩
  · obtain ⟨report, final, executed, same⟩ := exists_report answered
    obtain ⟨rolled, rest⟩ := Prod.mk.inj same
    obtain ⟨last, verdict⟩ := Prod.mk.inj rest
    exact ⟨report, final, executed, rolled, last, verdict⟩
  · have one : Roll.AsksOn ⟨.compound, .int 1, .int maxInt, none⟩ [] ⟨1, maxInt⟩ :=
      ⟨[], [], rfl, .done 1, .done maxInt⟩
    have chain : (Throw.chains [⟨1, maxInt⟩] 2 10000).On [dice].flatten [dice] :=
      .one (by decide) trivial (.one (by decide) trivial (.done [dice]))
    have unmodified : (Command.evaluateModifier none).On [] 0 := .done 0
    have aimed : (Node.int maxInt).evaluate.On [] maxInt := .done maxInt
    have limited : LimitsOn (some (.int 2)) maxInt [] 2 := ⟨some 2, .done (some 2), rfl⟩
    have misses : Command.Counts Die.total (fun _ => True) 10000 statement.command
        ([] ++ ([] ++ ([] ++ [dice].flatten)))
        (Relation.equal.successes maxInt ([dice].map fun chain => Die.total chain + 0)) :=
      .compound (.cons one .nil) unmodified aimed limited (by decide) chain fun _ _ => trivial
    intro n
    constructor
    · exact fun counts => counts.unique misses fun _ _ _ => rfl
    · intro none
      rw [none]
      exact misses

end Statement

end DiceLanguage
