import DiceLanguage.Proofs.Evaluation.Records
import DiceLanguage.Proofs.Grammar.WellFormed

namespace DiceLanguage

open Text (decimal)
open Grammar (bind_ok)

inductive Numbers where
  | single (value : Int)
  | extremes (highest total : Int)
deriving DecidableEq, Repr

def Numbers.text : Numbers → String
  | single value => decimal value
  | extremes highest total => decimal highest ++ "/" ++ decimal total ++ " (max/total)"

/-- The highest of some sums with the modifier added to it, and the sums added to the modifier one
by one. -/
structure Tallies (within : Int → Prop) (sums : List Int) (modifier highest total : Int) : Prop where
  each : ∀ sum ∈ sums, within sum
  top : ∃ sum ∈ sums, (∀ other ∈ sums, other ≤ sum) ∧ highest = sum + modifier
  highestFits : within highest
  whole : total = modifier + sums.sum
  partsFit : ∀ front, front <+: sums → front ≠ [] → within (modifier + front.sum)

def ModifierTotals (cap : Int → Int) (within : Int → Prop) : Option Node → Int → Prop
  | none, added => added = 0
  | some node, added => node.Totals cap within [] added

theorem ModifierTotals.attains {within : Int → Prop} {modifier : Option Node} {added : Int}
    (totals : ModifierTotals saturate within modifier added) :
    Attains within (Command.evaluateModifier modifier) [] (· = added) := by
  cases modifier with
  | none => exact .done totals.symm
  | some node => exact Node.Totals.attains_evaluate totals

theorem ModifierTotals.weaken {cap cap' : Int → Int} {within within' : Int → Prop}
    {modifier : Option Node} {added : Int} (totals : ModifierTotals cap within modifier added)
    (weaker : ∀ x, within x → within' x) (same : ∀ x, within (cap x) → cap' x = cap x) :
    ModifierTotals cap' within' modifier added := by
  cases modifier with
  | none => exact totals
  | some node => exact Node.Totals.weaken totals weaker same

theorem ModifierTotals.of_course {modifier : Option Node} {dice : List Die} {added : Int}
    (plain : PlainModifier modifier)
    (course : (Command.evaluateModifier modifier).Course Fair dice (.ok added)) :
    dice = [] ∧ ModifierTotals saturate Fits modifier added := by
  cases modifier with
  | none =>
    obtain ⟨empty, same⟩ := Evaluation.course_pure.mp course
    exact ⟨empty, Except.ok.inj same⟩
  | some node =>
    obtain ⟨arithmetic, constant⟩ := plain node rfl
    obtain ⟨inner, own, rfl, comes⟩ := Node.Totals.of_evaluate arithmetic course
    obtain ⟨rfl, rfl⟩ := comes.constant constant
    exact ⟨rfl, [], [], rfl, comes⟩

theorem limit_of_findThreshold {written : Option Node} {dice : List Die} {threshold : Int}
    (plain : ∀ limit ∈ written, limit.IsPlain)
    (course : (findThreshold written none).Course Fair dice (.ok (.ok threshold))) :
    ∃ limit, written = some limit ∧ limit.Totals saturate Fits dice threshold ∧
      minThreshold ≤ threshold := by
  cases written with
  | none =>
    obtain ⟨-, same⟩ := Evaluation.course_pure.mp course
    cases same
  | some limit =>
    obtain ⟨found, evaluated, same⟩ := Evaluation.course_bind_pure.mp course
    simp only [checkThreshold] at same
    split at same
    · cases same
    · rename_i enough
      cases same
      exact ⟨limit, rfl, .of_evaluate (plain limit rfl) evaluated, Int.not_lt.mp enough⟩

theorem attains_findThreshold {within : Int → Prop} {limit : Node} {dice : List Die}
    {threshold : Int} (totals : limit.Totals saturate within dice threshold)
    (enough : minThreshold ≤ threshold) :
    Attains within (findThreshold (some limit) none) dice (· = .ok threshold) := by
  refine totals.attains_evaluate.bind_value_nil ?_
  exact .done (by rw [checkThreshold, if_neg (Int.not_lt.mpr enough)])

inductive Command.ComesTo (cap : Int → Int) (within : Int → Prop) (maxRerolls : Nat) :
    Command → List Die → Numbers → Prop where
  | sum {expr : Node} {dice : List Die} {value : Int} (totals : expr.Totals cap within dice value) :
    ComesTo cap within maxRerolls (.sum expr) dice (.single value)
  | scatter {rolls : NonEmptyList Roll} {groups : List DiceGroup} {arguments dice : List Die}
    {parts : List (List Die)} (asks : Each (Roll.Asks cap within) rolls.toList arguments groups)
    (falls : Each DiceGroup.Falls groups dice parts) (fits : within (cap (Die.total dice))) :
    ComesTo cap within maxRerolls (.scatter rolls none) (arguments ++ dice)
      (.single (cap (Die.total dice)))
  | compound {rolls : NonEmptyList Roll} {limit : Node} {modifier : Option Node}
    {groups : List DiceGroup} {arguments limiting dice : List Die} {parts : List (List (List Die))}
    {threshold added highest total : Int}
    (asks : Each (Roll.Asks cap within) rolls.toList arguments groups)
    (modified : ModifierTotals cap within modifier added)
    (limited : limit.Totals cap within limiting threshold) (enough : minThreshold ≤ threshold)
    (grows : Each (DiceGroup.Grows threshold maxRerolls) groups dice parts)
    (tallies : Tallies within (parts.flatten.map fun chain => cap (Die.total chain)) added highest
      total) :
    ComesTo cap within maxRerolls (.compound rolls (some limit) modifier none)
      (arguments ++ (limiting ++ dice)) (.extremes highest total)

variable {α β : Type} {cap : Int → Int} {within : Int → Prop} {dice : List Die}

namespace Tallies

variable {sums : List Int} {modifier highest total : Int}

theorem weaken {within' : Int → Prop} (tallies : Tallies within sums modifier highest total)
    (weaker : ∀ x, within x → within' x) : Tallies within' sums modifier highest total :=
  ⟨fun sum member => weaker sum (tallies.each sum member), tallies.top,
    weaker _ tallies.highestFits, tallies.whole,
    fun front initial nonempty => weaker _ (tallies.partsFit front initial nonempty)⟩

theorem gets_highest {result : Chains} (tallies : Tallies within result.sums result.modifier highest total) :
    Gets within result.highest highest := by
  obtain ⟨sum, member, most, rfl⟩ := tallies.top
  have top : result.sums.max? = some sum := List.max?_eq_some_iff.mpr ⟨member, most⟩
  unfold Chains.highest
  rw [top]
  exact .exactly tallies.highestFits

theorem gets_foldlM (parts : ∀ front, front <+: sums → front ≠ [] → within (modifier + front.sum)) :
    Gets within (sums.foldlM (fun total sum => exactly (total + sum)) modifier)
      (modifier + sums.sum) := by
  induction sums generalizing modifier with
  | nil => rw [List.sum_nil, Int.add_zero]; exact .ok modifier
  | cons sum sums ih =>
    rw [List.foldlM_cons, List.sum_cons, ← Int.add_assoc]
    have first := parts [sum] ⟨sums, rfl⟩ (List.cons_ne_nil _ _)
    rw [List.sum_singleton] at first
    refine Gets.bind (.exactly first) (ih fun front within' _ => ?_)
    have more := parts (sum :: front) (List.cons_prefix_cons.mpr ⟨rfl, within'⟩) (List.cons_ne_nil _ _)
    rwa [List.sum_cons, ← Int.add_assoc] at more

theorem gets_total {result : Chains}
    (tallies : Tallies within result.sums result.modifier highest total) :
    Gets within result.total total := by
  rw [tallies.whole]
  exact gets_foldlM tallies.partsFit

theorem of_foldlM (folded : sums.foldlM (fun total sum => exactly (total + sum)) modifier = .ok total) :
    total = modifier + sums.sum ∧
      ∀ front, front <+: sums → front ≠ [] → Fits (modifier + front.sum) := by
  induction sums generalizing modifier with
  | nil =>
    cases folded
    refine ⟨(Int.add_zero _).symm, fun front initial nonempty => ?_⟩
    exact absurd (List.prefix_nil.mp initial) nonempty
  | cons sum sums ih =>
    rw [List.foldlM_cons] at folded
    obtain ⟨next, added, rest⟩ := bind_ok folded
    obtain ⟨fits, rfl⟩ := exactly_ok.mp added
    obtain ⟨rfl, others⟩ := ih rest
    refine ⟨by rw [List.sum_cons, Int.add_assoc], fun front initial nonempty => ?_⟩
    cases front with
    | nil => exact absurd rfl nonempty
    | cons first front =>
      obtain ⟨rfl, behind⟩ := List.cons_prefix_cons.mp initial
      rw [List.sum_cons, ← Int.add_assoc]
      cases front with
      | nil => rwa [List.sum_nil, Int.add_zero]
      | cons second front => exact others _ behind (List.cons_ne_nil _ _)

theorem of_chains {result : Chains} (nonempty : result.sums ≠ [])
    (fits : ∀ sum ∈ result.sums, Fits sum) (best : result.highest = .ok highest)
    (whole : result.total = .ok total) : Tallies Fits result.sums result.modifier highest total := by
  obtain ⟨same, parts⟩ := of_foldlM whole
  unfold Chains.highest at best
  obtain ⟨inside, rfl⟩ := exactly_ok.mp best
  cases top : result.sums.max? with
  | none => exact absurd (List.max?_eq_none_iff.mp top) nonempty
  | some sum =>
    rw [top] at inside
    obtain ⟨member, most⟩ := List.max?_eq_some_iff.mp top
    exact ⟨fits, ⟨sum, member, most, rfl⟩, inside, same, parts⟩

end Tallies

namespace Command

variable {rolls : NonEmptyList Roll} {maxRerolls : Nat} {heading : String} {numbers : Numbers}
  {outcome : Outcome}

/-- The answer of a list that cannot be rolled for its threshold. -/
def RefusesThreshold : Command → List String → Prop
  | compound rolls threshold modifier check, fragments => ∃ error : ThresholdError,
    fragments = ["(" ++ (compound rolls threshold modifier check).print ++ ")", error.message]
  | _, _ => False

theorem getLast?_trace (heading resolved value : String) :
    (trace heading resolved value).getLast? = some value :=
  List.getLast?_concat

theorem ComesTo.attains {command : Command} (plain : command.WellFormed)
    (comes : command.ComesTo saturate within maxRerolls dice numbers) :
    Attains within (command.play maxRerolls) dice fun outcome =>
      outcome.fragments.getLast? = some numbers.text ∧
        ¬ command.RefusesThreshold outcome.fragments := by
  cases comes with
  | sum totals =>
    refine totals.attains_resolve.bind_nil fun fallen gets => ?_
    refine .bind_value_nil (.ofExcept gets rfl) ?_
    exact .done ⟨getLast?_trace .., nofun⟩
  | scatter asks falls fits =>
    refine (Roll.attains_settleAll asks fun roll member => (plain.1 roll member).unlimited).bind
      fun settled gets => ?_
    refine .nil_bind_value (.done rfl) ?_
    refine (Roll.attains_rollScatter gets falls).bind_value_nil ?_
    refine .done ?_
    rw [falls.sum_falls]
    exact ⟨rfl, nofun⟩
  | @compound _ limit _ _ _ _ _ _ threshold _ _ _ asks modified limited enough grows tallies =>
    refine (Roll.attains_settleAll asks fun roll member => (plain.1 roll member).unlimited).bind
      fun settled gets => ?_
    refine .nil_bind_value modified.attains ?_
    refine .nil_bind_value (.done rfl) ?_
    refine .bind_value (attains_findThreshold limited enough) ?_
    refine (Roll.attains_rollChains gets grows).bind_value_nil ?_
    rw [← grows.sums_grows] at tallies
    refine .nil_bind_value (.ofExcept tallies.gets_highest rfl) ?_
    refine .nil_bind_value (.ofExcept tallies.gets_total rfl) ?_
    refine .done ⟨rfl, ?_⟩
    intro refuses
    obtain ⟨error, same⟩ := refuses
    -- A refusal has two fragments.
    have length : 3 = 2 := congrArg List.length same
    cases length

theorem ComesTo.of_sum {expr : Node} (plain : expr.IsPlain)
    (course : (playSum heading expr).Course Fair dice (.ok outcome)) :
    ∃ numbers, (Command.sum expr).ComesTo saturate Fits maxRerolls dice numbers ∧
      outcome.fragments.getLast? = some numbers.text := by
  obtain ⟨before, fallen, later, rfl, resolving, concluding⟩ := Evaluation.course_bind.mp course
  obtain ⟨value, computed, last⟩ := Evaluation.course_ofExcept_bind.mp concluding
  obtain ⟨rfl, same⟩ := Evaluation.course_pure.mp last
  cases same
  rw [List.append_nil]
  exact ⟨.single value, .sum (.of_resolve plain resolving computed), getLast?_trace ..⟩

theorem ComesTo.of_scatter (plain : ∀ roll ∈ rolls.toList, roll.IsPlain .scatter)
    (course : (playScatter heading rolls.toList none).Course Fair dice (.ok outcome)) :
    ∃ numbers, (Command.scatter rolls none).ComesTo saturate Fits maxRerolls dice numbers ∧
      outcome.fragments.getLast? = some numbers.text := by
  obtain ⟨arguments, settled, later, rfl, settling, aiming⟩ := Evaluation.course_bind.mp course
  obtain ⟨_, target, own, rfl, nothing, rolling⟩ := Evaluation.course_bind.mp aiming
  obtain ⟨rfl, same⟩ := Evaluation.course_pure.mp nothing
  cases same
  obtain ⟨fallen, thrown, rfl⟩ := Evaluation.course_bind_pure.mp rolling
  obtain ⟨groups, parts, asked, falls, rfl⟩ := Roll.falls_of_rollScatter thrown
  have asks := Roll.asks_of_settleAll plain settling asked
  refine ⟨_, .scatter asks falls (fits_saturate _), ?_⟩
  rw [falls.sum_falls]
  simp [Numbers.text]

theorem ComesTo.of_compound {threshold modifier : Option Node}
    (plain : (Command.compound rolls threshold modifier none).WellFormed)
    (course : (playCompound heading maxRerolls rolls.toList threshold modifier none).Course Fair dice
      (.ok outcome)) :
    (∃ error : ThresholdError, outcome.fragments = [heading, error.message]) ∨
      ∃ numbers, (Command.compound rolls threshold modifier none).ComesTo saturate Fits maxRerolls dice
          numbers ∧ outcome.fragments.getLast? = some numbers.text := by
  obtain ⟨plainRolls, plainLimit, plainModifier, -⟩ := plain
  obtain ⟨arguments, settled, _, rfl, settling, adding⟩ := Evaluation.course_bind.mp course
  obtain ⟨_, added, _, rfl, modifying, aiming⟩ := Evaluation.course_bind.mp adding
  obtain ⟨_, target, _, rfl, nothing, limiting⟩ := Evaluation.course_bind.mp aiming
  obtain ⟨rfl, same⟩ := Evaluation.course_pure.mp nothing
  cases same
  obtain ⟨_, found, _, rfl, finding, rolling⟩ := Evaluation.course_bind.mp limiting
  cases found with
  | error error =>
    obtain ⟨-, same⟩ := Evaluation.course_pure.mp rolling
    cases same
    exact .inl ⟨error, rfl⟩
  | ok limit =>
    obtain ⟨_, chains, _, rfl, growing, tallying⟩ := Evaluation.course_bind.mp rolling
    obtain ⟨highest, best, tallying⟩ := Evaluation.course_ofExcept_bind.mp tallying
    obtain ⟨total, whole, last⟩ := Evaluation.course_ofExcept_bind.mp tallying
    obtain ⟨rfl, same⟩ := Evaluation.course_pure.mp last
    cases same
    obtain ⟨groups, parts, asked, grows, rfl⟩ := Roll.grows_of_rollChains growing
    have asks := Roll.asks_of_settleAll plainRolls settling asked
    obtain ⟨rfl, modified⟩ := ModifierTotals.of_course plainModifier modifying
    obtain ⟨limitNode, rfl, limited, enough⟩ := limit_of_findThreshold plainLimit finding
    have nonempty : (Chains.mk parts.flatten added).sums ≠ [] :=
      mt List.map_eq_nil_iff.mp (grows.flatten_grows_ne_nil (asks.ne_nil (List.cons_ne_nil _ _)))
    have fits : ∀ sum ∈ (Chains.mk parts.flatten added).sums, Fits sum := by
      rw [grows.sums_grows]
      intro sum member
      obtain ⟨chain, -, rfl⟩ := List.mem_map.mp member
      exact fits_saturate _
    have tallies := Tallies.of_chains nonempty fits best whole
    rw [grows.sums_grows] at tallies
    rw [List.nil_append, List.nil_append, List.append_nil]
    exact .inr ⟨_, .compound asks modified limited enough grows tallies, by simp [Numbers.text]⟩

theorem ComesTo.weaken {within' : Int → Prop} {cap' : Int → Int} {command : Command}
    (comes : command.ComesTo cap within maxRerolls dice numbers)
    (weaker : ∀ x, within x → within' x) (same : ∀ x, within (cap x) → cap' x = cap x) :
    command.ComesTo cap' within' maxRerolls dice numbers := by
  have asked : ∀ {rolls arguments groups}, Each (Roll.Asks cap within) rolls arguments groups →
      Each (Roll.Asks cap' within') rolls arguments groups := by
    intro rolls arguments groups asks
    refine asks.imp fun roll _ dice group ⟨before, later, cut, count, sides⟩ => ?_
    exact ⟨before, later, cut, count.weaken weaker same, sides.weaken weaker same⟩
  cases comes with
  | sum totals => exact .sum (totals.weaken weaker same)
  | scatter asks falls fits =>
    have kept := same _ fits
    have inside := weaker _ fits
    rw [← kept] at inside ⊢
    exact .scatter (asked asks) falls inside
  | compound asks modified limited enough grows tallies =>
    rw [List.map_congr_left fun chain member =>
      (same _ (tallies.each _ (List.mem_map_of_mem member))).symm] at tallies
    exact .compound (asked asks) (modified.weaken weaker same) (limited.weaken weaker same) enough
      grows (tallies.weaken weaker)

def HasNumbers : Command → Prop
  | sum _ | scatter _ none | compound _ _ _ none => True
  | calculation _ | sumCheck _ | scatter _ (some _) | reroll .. | compound _ _ _ (some _)
  | choice _ => False

theorem ComesTo.of_play {command : Command} (plain : command.WellFormed) (ends : command.HasNumbers)
    (course : (command.play maxRerolls).Course Fair dice (.ok outcome)) :
    command.RefusesThreshold outcome.fragments ∨
      ∃ numbers, command.ComesTo saturate Fits maxRerolls dice numbers ∧
        outcome.fragments.getLast? = some numbers.text := by
  cases command with
  | sum expr => exact .inr (ComesTo.of_sum plain.1 course)
  | scatter rolls check =>
    cases check with
    | none => exact .inr (ComesTo.of_scatter plain.1 course)
    | some => exact ends.elim
  | compound rolls threshold modifier check =>
    cases check with
    | none => exact ComesTo.of_compound plain course
    | some => exact ends.elim
  | calculation | sumCheck | reroll | choice => exact ends.elim

end Command

namespace Statement

open DiceSource (Supplies)

variable {σ : Type} [DiceSource σ] {text : String} {statement : Statement} {settings : Settings}
  {roller : Roller σ} {final : Roller (Observed σ)} {result : Except EvalError Report}
  {maxRerolls : Nat}

theorem cut_of_answers {used : List Die}
    (initial : (used.map .ok : List (Except RollError Die)) <+: dice.map .ok) :
    ∃ rest, dice = used ++ rest := by
  obtain ⟨later, same⟩ := initial
  obtain ⟨before, rest, cut, equal, -⟩ := List.map_eq_append_iff.mp same.symm
  exact ⟨rest, by rw [cut, (List.map_inj_right fun _ _ => Except.ok.inj).mp equal]⟩

theorem execute_numbers_of_comesTo {numbers : Numbers} (plain : statement.command.WellFormed)
    (ends : statement.command.HasNumbers) (fair : Supplies Fair roller.source)
    (executed : statement.execute settings roller.observed = (result, final))
    (answered : final.source.answers <+: dice.map .ok)
    (comes : statement.command.ComesTo saturate within settings.maxRerolls dice numbers) :
    (∃ report, result = .ok report ∧ report.rolledDice = dice ∧
        report.fragments.getLast? = some numbers.text ∧
        ∃ fitting, statement.command.ComesTo saturate Fits settings.maxRerolls dice fitting) ∨
      (∃ refused, result = .error (.roll refused)) ∨
        (∃ x, within x ∧ ¬ Fits x) ∧ result = .error .overflow := by
  obtain refused | ⟨used, reached, answers, course, rfl⟩ := execute_course fair executed
  · exact .inr (.inl refused)
  rw [answers] at answered
  obtain ⟨rest, cut⟩ := cut_of_answers answered
  obtain ⟨outcome, rfl, rfl, last, rolled⟩ | ⟨beyond, rfl⟩ :=
    (comes.attains plain).of_course course cut
  · obtain refuses | ⟨fitting, comes, -⟩ := Command.ComesTo.of_play plain ends course
    · exact absurd refuses rolled
    · exact .inl ⟨_, rfl, rfl, last, fitting, comes⟩
  · exact .inr (.inr ⟨beyond, rfl⟩)

theorem execute_numbers_of_report {report : Report} (plain : statement.command.WellFormed)
    (ends : statement.command.HasNumbers) (fair : Supplies Fair roller.source)
    (executed : statement.execute settings roller.observed = (.ok report, final)) :
    final.source.answers = report.rolledDice.map .ok ∧
      (statement.command.RefusesThreshold report.fragments ∨
        ∃ numbers, statement.command.ComesTo saturate Fits settings.maxRerolls report.rolledDice
          numbers ∧ report.fragments.getLast? = some numbers.text) := by
  obtain ⟨_, refused⟩ | ⟨dice, reached, answers, course, same⟩ := execute_course fair executed
  · cases refused
  · cases reached with
    | error => cases same
    | ok outcome =>
      cases same
      exact ⟨answers, Command.ComesTo.of_play plain ends course⟩

theorem comesTo_saturate {command : Command} {exact : Numbers}
    (comes : command.ComesTo id Fits maxRerolls dice exact) :
    command.ComesTo saturate Fits maxRerolls dice exact :=
  comes.weaken (fun _ fits => fits) fun _ => saturate_of_fits

/-- The numbers at the end of a report. A command that was read and is executed on fair dice answers
with the numbers that it comes to in the range of the language, where sums of dice are saturated. It
does answer where even these sums are in range, and with the exact numbers; and where it comes to
numbers on the way to which some integer is out of range, it fails with an overflow unless the dice
are refused before. -/
theorem execute_numbers (parsed : parse text = .ok statement)
    (ends : statement.command.HasNumbers) (fair : Supplies Fair roller.source)
    (executed : statement.execute settings roller.observed = (result, final)) :
    (∀ report, result = .ok report →
      statement.command.RefusesThreshold report.fragments ∨
        (∃ numbers, statement.command.ComesTo saturate Fits settings.maxRerolls report.rolledDice
            numbers ∧ report.fragments.getLast? = some numbers.text) ∧
          ∀ exact, statement.command.ComesTo id Fits settings.maxRerolls report.rolledDice exact →
            report.fragments.getLast? = some exact.text) ∧
    (∀ dice exact, final.source.answers <+: dice.map .ok →
      statement.command.ComesTo id Fits settings.maxRerolls dice exact →
        (∃ report, result = .ok report ∧ report.rolledDice = dice ∧
          report.fragments.getLast? = some exact.text) ∨ ∃ refused, result = .error (.roll refused)) ∧
    ∀ dice numbers, final.source.answers <+: dice.map .ok →
      statement.command.ComesTo saturate (fun _ => True) settings.maxRerolls dice numbers →
        (∀ fitting, ¬ statement.command.ComesTo saturate Fits settings.maxRerolls dice fitting) →
          result = .error .overflow ∨ ∃ refused, result = .error (.roll refused) := by
  have plain := (Grammar.parse_origin parsed).wellFormed (choice_items parsed)
  have settled : ∀ dice exact, final.source.answers <+: dice.map .ok →
      statement.command.ComesTo id Fits settings.maxRerolls dice exact →
        (∃ report, result = .ok report ∧ report.rolledDice = dice ∧
          report.fragments.getLast? = some exact.text) ∨
            ∃ refused, result = .error (.roll refused) := by
    intro dice exact answered comes
    obtain ⟨report, answers, rolled, last, -⟩ | refused | ⟨⟨x, inside, outside⟩, -⟩ :=
      execute_numbers_of_comesTo plain ends fair executed answered (comesTo_saturate comes)
    · exact .inl ⟨report, answers, rolled, last⟩
    · exact .inr refused
    · exact absurd inside outside
  refine ⟨?_, settled, ?_⟩
  · intro report reported
    subst reported
    obtain ⟨answers, refuses | numbers⟩ := execute_numbers_of_report plain ends fair executed
    · exact .inl refuses
    · refine .inr ⟨numbers, fun exact comes => ?_⟩
      have answered : final.source.answers <+: report.rolledDice.map .ok :=
        answers ▸ List.prefix_refl _
      obtain ⟨_, same, -, last⟩ | ⟨_, refused⟩ := settled _ exact answered comes
      · cases same
        exact last
      · cases refused
  · intro dice numbers answered comes unfit
    obtain ⟨_, -, -, -, fitting, fits⟩ | refused | ⟨-, overflow⟩ :=
      execute_numbers_of_comesTo plain ends fair executed answered comes
    · exact absurd fits (unfit fitting)
    · exact .inr refused
    · exact .inl overflow

theorem execute_numbers_nested :
    let statement : Statement :=
      ⟨.sum (.binary .multiply (.roll .sum (.roll .sum (.int 1) (.int 2)) (.int 6)) (.int 3)), false⟩
    let roller : Roller Script := { source := ⟨[⟨2, 2⟩, ⟨2, 6⟩, ⟨5, 6⟩]⟩ }
    let beyond : Statement :=
      ⟨.sum (.binary .add (.binary .add (.int maxInt) (.int 1)) (.roll .sum (.int 1) (.int 1))), false⟩
    let certain : Roller Script := { source := ⟨[⟨1, 1⟩]⟩ }
    (parse "(1D2)D6*3" = .ok statement ∧ statement.command.HasNumbers ∧
      Supplies Fair roller.source ∧
        ∃ report final, statement.execute {} roller.observed = (.ok report, final) ∧
          statement.command.ComesTo id Fits 10000 report.rolledDice (.single 21) ∧
          report.fragments.getLast? = some "21") ∧
    parse "9223372036854775807+1+1D1" = .ok beyond ∧ Supplies Fair certain.source ∧
      beyond.command.ComesTo saturate (fun _ => True) 10000 [⟨1, 1⟩] (.single (maxInt + 1 + 1)) ∧
      (∀ fitting, ¬ beyond.command.ComesTo saturate Fits 10000 [⟨1, 1⟩] fitting) ∧
      (beyond.execute {} certain.observed).1 = .error .overflow := by
  intro statement roller beyond certain
  refine ⟨?_, ?_⟩
  · have parsed : parse "(1D2)D6*3" = .ok statement := Grammar.ok_of_toOption (by decide +kernel)
    have fair : Supplies Fair roller.source := Script.supplies (by decide)
    have counting : ∀ die ∈ [(⟨2, 2⟩ : Die)], Fair 2 die := by decide
    have count : Node.Comes id Fits (.roll .sum (.int 1) (.int 2)) [] [⟨2, 2⟩] 2 :=
      .roll (.int 1) (.int 2) (List.cons_ne_nil _ _) counting (by decide)
    have summing : ∀ die ∈ [(⟨2, 6⟩ : Die), ⟨5, 6⟩], Fair 6 die := by decide
    have rolled : Node.Comes id Fits (.roll .sum (.roll .sum (.int 1) (.int 2)) (.int 6)) [⟨2, 2⟩]
        [⟨2, 6⟩, ⟨5, 6⟩] 7 :=
      .roll count (.int 6) (List.cons_ne_nil _ _) summing (by decide)
    have comes : statement.command.ComesTo id Fits 10000 [⟨2, 2⟩, ⟨2, 6⟩, ⟨5, 6⟩] (.single 21) :=
      .sum ⟨[⟨2, 2⟩], [⟨2, 6⟩, ⟨5, 6⟩], rfl, .binary rolled (.int 3) rfl (by decide)⟩
    have answered : (statement.execute {} roller.observed).1.toOption.map (·.rolledDice) =
        some [⟨2, 2⟩, ⟨2, 6⟩, ⟨5, 6⟩] := by decide +kernel
    rcases executed : statement.execute {} roller.observed with ⟨error | report, final⟩
    · rw [executed] at answered
      cases answered
    · rw [executed] at answered
      rw [← Option.some.inj answered] at comes
      obtain refuses | ⟨-, exactly⟩ :=
        (execute_numbers parsed trivial fair executed).1 report rfl
      · exact refuses.elim
      · exact ⟨parsed, trivial, fair, report, final, rfl, comes, exactly _ comes⟩
  · have parsed : parse "9223372036854775807+1+1D1" = .ok beyond :=
      Grammar.ok_of_toOption (by decide +kernel)
    have fair : Supplies Fair certain.source := Script.supplies (by decide)
    have certainly : ∀ die ∈ [(⟨1, 1⟩ : Die)], Fair 1 die := by decide
    have comes : beyond.command.ComesTo saturate (fun _ => True) 10000 [⟨1, 1⟩]
        (.single (maxInt + 1 + 1)) :=
      .sum ⟨[], [⟨1, 1⟩], rfl, .binary (.binary (.int maxInt) (.int 1) rfl trivial)
        (.roll (.int 1) (.int 1) (List.cons_ne_nil _ _) certainly trivial) rfl trivial⟩
    have unfit : ∀ fitting, ¬ beyond.command.ComesTo saturate Fits 10000 [⟨1, 1⟩] fitting := by
      intro fitting comes
      obtain ⟨inner, own, -, comes⟩ := comes
      cases comes with
      | binary left right applied fits =>
        cases left with
        | binary greatest one applied fits =>
          cases greatest
          cases one
          cases applied
          exact absurd fits (by decide)
    have answers : (beyond.execute {} certain.observed).2.source.answers <+:
        ([⟨1, 1⟩] : List Die).map .ok := by decide +kernel
    have given : ((beyond.execute {} certain.observed).1 matches .error (.roll _)) = false := by
      decide +kernel
    have executed : beyond.execute {} certain.observed =
      ((beyond.execute {} certain.observed).1, (beyond.execute {} certain.observed).2) := rfl
    obtain overflow | ⟨refused, same⟩ :=
      (execute_numbers parsed trivial fair executed).2.2 _ _ answers comes unfit
    · exact ⟨parsed, fair, comes, unfit, overflow⟩
    · rw [same] at given
      cases given

theorem execute_saturated_sum :
    let statement : Statement := ⟨.sum (.roll .sum (.int 2) (.int maxInt)), false⟩
    let dice : List Die := [⟨maxInt, maxInt⟩, ⟨maxInt, maxInt⟩]
    let roller : Roller Script := { source := ⟨dice⟩ }
    parse "2D9223372036854775807" = .ok statement ∧ Supplies Fair roller.source ∧
      (∃ report final, statement.execute {} roller.observed = (.ok report, final) ∧
        report.rolledDice = dice ∧ report.fragments.getLast? = some "9223372036854775807") ∧
      statement.command.ComesTo id (fun _ => True) 10000 dice (.single 18446744073709551614) ∧
      ¬ Fits 18446744073709551614 := by
  intro statement dice roller
  have parsed : parse "2D9223372036854775807" = .ok statement :=
    Grammar.ok_of_toOption (by decide +kernel)
  have fair : Supplies Fair roller.source := Script.supplies (by decide)
  have summing : ∀ die ∈ dice, Fair maxInt die := by decide
  have comes : Node.Comes id (fun _ => True) (.roll .sum (.int 2) (.int maxInt)) [] dice
      18446744073709551614 :=
    .roll (.int 2) (.int maxInt) (List.cons_ne_nil _ _) summing trivial
  have answered : (statement.execute {} roller.observed).1.toOption.map
      (fun report => (report.rolledDice, report.fragments.getLast?)) =
        some (dice, some "9223372036854775807") := by decide +kernel
  refine ⟨parsed, fair, ?_, .sum ⟨[], dice, rfl, comes⟩, by decide⟩
  rcases executed : statement.execute {} roller.observed with ⟨error | report, final⟩
  · rw [executed] at answered
    cases answered
  · rw [executed] at answered
    obtain ⟨rolled, last⟩ := Prod.mk.inj (Option.some.inj answered)
    exact ⟨report, final, rfl, rolled, last⟩

end Statement

end DiceLanguage
