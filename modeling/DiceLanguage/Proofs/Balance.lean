import DiceLanguage.Proofs.Successes
import DiceLanguage.Proofs.Waves

namespace DiceLanguage

variable {threshold : Int}

theorem Die.length_reached_append (threshold : Int) (left right : List Die) :
    (reached threshold (left ++ right)).length =
      (reached threshold left).length + (reached threshold right).length := by
  rw [reached, List.filter_append, List.length_append]
  rfl

theorem Relation.successes_atLeast (target : Int) (dice : List Die) :
    atLeast.successes target (dice.map (·.value)) = (Die.reached target dice).length := by
  rw [successes, List.countP_map, List.countP_eq_length_filter]
  rfl

namespace Throw

variable {good : Int → Die → Prop} {groups : List DiceGroup}

theorem length_fallen {wave next : List Die}
    (fell : Fallen good (pending threshold wave) next) :
    next.length = (Die.reached threshold wave).length := by
  obtain ⟨parts, yields⟩ := fell
  have counted := length_groups yields
  rw [count_pending] at counted
  exact Int.ofNat.inj counted

/-- Every die that reached the threshold has bought one more, but for those of the last wave. -/
theorem balance_of_chain {first last : List Die} {later : List (List Die)}
    (goes : (first :: later).IsChain fun wave next =>
      pending threshold wave ≠ [] ∧ Fallen good (pending threshold wave) next)
    (ends : (first :: later).getLast? = some last) :
    (first :: later).flatten.length + (Die.reached threshold last).length =
      first.length + (Die.reached threshold (first :: later).flatten).length := by
  induction later generalizing first with
  | nil =>
    have same : first = last := Option.some.inj ends
    rw [same, List.flatten_singleton]
  | cons next later ih =>
    obtain ⟨⟨-, fell⟩, goes⟩ := List.isChain_cons_cons.mp goes
    rw [List.getLast?_cons_cons] at ends
    have others := ih goes ends
    have bought := length_fallen fell
    rw [List.flatten_cons, List.length_append, Die.length_reached_append]
    omega

end Throw

theorem LimitsOn.of_unwritten {target limit : Int} {dice : List Die}
    (limits : LimitsOn none target dice limit) : dice = [] ∧ limit = target := by
  obtain ⟨value, evaluated, rfl⟩ := limits
  obtain ⟨rfl, same⟩ := Evaluation.course_pure.mp evaluated
  cases same
  exact ⟨rfl, rfl⟩

namespace Statement

variable {σ : Type} [DiceSource σ] {text : String} {statement : Statement} {settings : Settings}
  {roller final : Roller σ} {report : Report} {rolls : NonEmptyList Roll} {target : Node}

/-- A list of `R` rolls that have to reach a target throws as many dice as its rolls ask for and one
more for each success, except that the successes of the last wave buy no dice. There are such only
where the limit has cut the reroll off. -/
theorem execute_balance (parsed : parse text = .ok statement)
    (unwritten : statement.command = .reroll rolls none (some ⟨.atLeast, target⟩))
    (executed : statement.execute settings roller = (.ok report, final))
    (limited : ∀ error : ThresholdError,
      report.fragments ≠ ["(" ++ statement.command.print ++ ")", error.message]) :
    ∃ groups arguments aiming aim waves last, ∃ n : Nat,
      report.rolledDice = arguments ++ (aiming ++ waves.flatten) ∧
      Each Roll.AsksOn rolls.toList arguments groups ∧ target.evaluate.On aiming aim ∧
      (Throw.waves groups aim settings.maxRerolls).On waves.flatten waves ∧
      report.fragments = ["(" ++ statement.command.print ++ ")", Value.wavesText waves,
        "Successes: " ++ n.repr] ∧
      waves.getLast? = some last ∧
      (waves.flatten.length : Int) =
        (groups.map (·.count)).sum + n - (Die.reached aim last).length ∧
      (Die.reached aim last ≠ [] → waves.length = max 1 settings.maxRerolls) ∧
      (waves.length ≠ max 1 settings.maxRerolls →
        (waves.flatten.length : Int) = (groups.map (·.count)).sum + n) := by
  obtain ⟨outcome, recorded, ran, rfl⟩ := execute_ok.mp executed
  have records := statement.command.records_play settings.maxRerolls
  obtain ⟨refused, same⟩ | ⟨dice, whole, course⟩ :=
    Evaluation.run_course records (DiceSource.supplies_any _) ran
  · cases same
  change recorded = dice at whole
  subst whole
  have plain := (Grammar.parse_origin parsed).wellFormed (choice_items parsed)
  rw [unwritten] at plain course limited ⊢
  obtain ⟨error, refuses⟩ | ⟨groups, arguments, aiming, limiting, aim, limit, waves, cut, asks, aimed,
    limits, -, thrown, rfl⟩ := Command.stages_of_reroll plain.1 course
  · exact absurd refuses (limited error)
  obtain ⟨rfl, rfl⟩ := limits.of_unwritten
  obtain ⟨first, later, rfl, ⟨parts, fell⟩, continues⟩ := Throw.continues_of_waves thrown
  obtain ⟨last, ends⟩ : ∃ last, (first :: later).getLast? = some last :=
    ⟨_, List.getLast?_eq_some_getLast (List.cons_ne_nil first later)⟩
  have balance := Throw.balance_of_chain continues.goesOn ends
  have asked := Throw.length_groups fell
  have stops : Die.reached limit last ≠ [] → (first :: later).length = max 1 settings.maxRerolls :=
    fun reached => continues.stops last ends (mt Throw.pending_eq_nil_iff.mp reached)
  refine ⟨groups, arguments, aiming, limit, first :: later, last, _, cut, asks, aimed, thrown, rfl,
    ends, ?_, stops, fun uncut => ?_⟩
  · rw [Relation.successes_atLeast]
    omega
  · have nothing : Die.reached limit last = [] := Decidable.byContradiction fun left =>
      uncut (stops left)
    rw [nothing, List.length_nil] at balance
    rw [Relation.successes_atLeast]
    omega

theorem execute_balance_cut :
    let rolls : NonEmptyList Roll := ⟨⟨.reroll, .roll .sum (.int 1) (.int 2), .int 6, none⟩, []⟩
    let statement : Statement := ⟨.reroll rolls none (some ⟨.atLeast, .int 5⟩), false⟩
    let roller : Roller Cycle := { source := { faces := [2, 6, 1, 5] } }
    parse "(1D2)R6>=5" = .ok statement ∧
      ∃ report final, statement.execute { maxRerolls := 2 } roller = (.ok report, final) ∧
        (∀ error : ThresholdError,
          report.fragments ≠ ["(" ++ statement.command.print ++ ")", error.message]) ∧
        report.rolledDice = [⟨2, 2⟩, ⟨6, 6⟩, ⟨1, 6⟩, ⟨5, 6⟩] ∧
        ∃ groups arguments aiming aim waves last, ∃ n : Nat,
          report.rolledDice = arguments ++ (aiming ++ waves.flatten) ∧
          Each Roll.AsksOn rolls.toList arguments groups ∧ (Node.int 5).evaluate.On aiming aim ∧
          (Throw.waves groups aim 2).On waves.flatten waves ∧
          report.fragments = ["(" ++ statement.command.print ++ ")", Value.wavesText waves,
            "Successes: " ++ n.repr] ∧
          waves.getLast? = some last ∧
          (waves.flatten.length : Int) =
            (groups.map (·.count)).sum + n - (Die.reached aim last).length ∧
          (Die.reached aim last ≠ [] → waves.length = max 1 2) ∧
          (waves.length ≠ max 1 2 →
            (waves.flatten.length : Int) = (groups.map (·.count)).sum + n) := by
  intro rolls statement roller
  have parsed : parse "(1D2)R6>=5" = .ok statement := Grammar.ok_of_toOption (by decide +kernel)
  have answered : (statement.execute { maxRerolls := 2 } roller).1.toOption.map
      (fun report => (report.rolledDice, report.fragments.length)) =
        some ([⟨2, 2⟩, ⟨6, 6⟩, ⟨1, 6⟩, ⟨5, 6⟩], 3) := by decide +kernel
  obtain ⟨report, final, executed, same⟩ := exists_report answered
  obtain ⟨rolled, length⟩ := Prod.mk.inj same
  have limited : ∀ error : ThresholdError,
      report.fragments ≠ ["(" ++ statement.command.print ++ ")", error.message] := by
    intro error refused
    have two := congrArg List.length refused
    rw [length] at two
    cases two
  exact ⟨parsed, report, final, executed, limited, rolled,
    execute_balance parsed rfl executed limited⟩

end Statement

end DiceLanguage
