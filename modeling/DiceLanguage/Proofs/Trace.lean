import DiceLanguage.Proofs.Grammar.WellFormed
import DiceLanguage.Proofs.Print.Resolved

namespace DiceLanguage

open DiceSource (Supplies)
open Text (decimal unbracketed)

variable {σ : Type} {node fallen left right : Node} {relation : Relation} {v x y : Int}
  {maxRerolls : Nat} {dice : List Die} {outcome : Outcome}

def Computes (text : String) (value : Int) : Prop :=
  ∀ (σ : Type) [DiceSource σ] (settings : Settings) (roller : Roller σ), ∃ report,
    execute ("C(" ++ text ++ ")") settings roller = (.ok report, roller.limitTo settings.maxDice) ∧
      report.fragments.getLast? = some (decimal value)

/-- The fragments are a heading, a text and a value. A text that is the value is left out. -/
def Shows (fragments : List String) (heading text value : String) : Prop :=
  fragments = [heading, text, value] ∨ text = value ∧ fragments = [heading, value]

theorem shows_trace (heading text value : String) :
    Shows (Command.trace heading text value) heading text value := by
  unfold Command.trace
  by_cases same : text = value
  · exact .inr ⟨same, by rw [if_pos same]; rfl⟩
  · exact .inl (by rw [if_neg same]; rfl)

theorem computes_of_writes {text : String} (written : Grammar.Writes .sum text.toList node)
    (constant : node.isVariable = false) (value : node.intValue = .ok v) : Computes text v := by
  intro σ _ settings roller
  have parsed := Grammar.parse_calculation (spells_calculation written false) constant
  rw [secretText_false] at parsed
  let statement : Statement := ⟨.calculation node, false⟩
  have ran : (statement.command.play settings.maxRerolls).run
      { roller := roller.limitTo settings.maxDice } =
        (.ok { fragments := [statement.command.print, decimal v] },
          ⟨roller.limitTo settings.maxDice, []⟩) := by
    change (Command.playCalculation statement.command.print node).run _ = _
    rw [Command.playCalculation, Node.evaluate_constant constant, value]
    rfl
  have executed := Statement.execute_ok.mpr ⟨_, _, ran, rfl⟩
  unfold execute
  simp only [parsed]
  exact ⟨_, by rw [executed]; rfl, rfl⟩

namespace Node.Resolves

variable (resolves : node.Resolves Positive fallen) (plain : node.IsPlain)
include resolves plain

theorem computes (picked : minInt ∉ node.picks fallen) (value : fallen.intValue = .ok v)
    (wrap edge : Bool) : Computes (enclosed wrap (fallen.summed.printAt edge)) v := by
  have arithmetic := isArithmetic_summed resolves plain picked
  have written : Grammar.Writes .sum (enclosed wrap (fallen.summed.printAt edge)).toList
      fallen.summed.normal :=
    writes_enclosed wrap (writes_printAt arithmetic edge) fun _ => Nat.zero_le _
  apply computes_of_writes written
  · rw [isVariable_normal, isVariable_summed resolves]
  · rw [intValue_normal arithmetic (by decide), intValue_summed, value]

theorem computes_print (picked : minInt ∉ node.picks fallen) (value : fallen.intValue = .ok v) :
    Computes (unbracketed fallen.print) v := by
  have bares : Text.Bares fallen.print.toList fallen.summed.print.toList := resolves.bares_printAt true
  rw [bares.unbracketed_eq]
  exact resolves.computes plain picked value false true

end Node.Resolves

theorem Node.Resolves.eq_of_constant {good : Int → Die → Prop} (resolves : node.Resolves good fallen)
    (constant : node.isVariable = false) : fallen = node := by
  induction resolves with
  | int => rfl
  | neg operand ih => rw [ih constant]
  | binary op left right ihLeft ihRight =>
    have parts := Node.constant_parts constant
    rw [ihLeft parts.1, ihRight parts.2]
  | random | roll => cases constant

namespace Command

/-- The trace of a command tells what became of its expression on the dice. Unless a random number was
the least integer, what it shows comes to the values that it gives, and a comparison succeeds just
when the values of its sides stand in its relation. -/
inductive Traces : Command → List Die → List String → Verdict → Prop where
  | sum {expr resolved : Node} {v : Int} {dice : List Die} {fragments : List String}
    (resolving : expr.resolve.Course Positive dice (.ok resolved)) (value : resolved.intValue = .ok v)
    (shows : Shows fragments ("(" ++ (Command.sum expr).print ++ ")") resolved.print (decimal v))
    (computes : minInt ∉ expr.picks resolved → Computes (unbracketed resolved.print) v) :
    Traces (.sum expr) dice fragments .unspecified
  | left {relation : Relation} {left right resolved : Node} {x y : Int} {dice : List Die}
    {fragments : List String} (constant : right.isVariable = false)
    (resolving : (Node.binary (.compare relation) left right).resolve.Course Positive dice
      (.ok (.binary (.compare relation) resolved right)))
    (valueLeft : resolved.intValue = .ok x) (valueRight : right.intValue = .ok y)
    (shows : Shows fragments
      ("(" ++ (Command.sumCheck (.binary (.compare relation) left right)).print ++ ")")
      resolved.print (decimal x))
    (computes : minInt ∉ left.picks resolved → Computes (unbracketed resolved.print) x)
    (computesRight : Computes right.print y) :
    Traces (.sumCheck (.binary (.compare relation) left right)) dice
      (fragments ++ (Verdict.ofBool (relation.holds x y)).word.toList) (.ofBool (relation.holds x y))
  | both {relation : Relation} {left right resolvedLeft resolvedRight : Node} {x y : Int}
    {dice : List Die} {fragments : List String} (varies : right.isVariable = true)
    (resolving : (Node.binary (.compare relation) left right).resolve.Course Positive dice
      (.ok (.binary (.compare relation) resolvedLeft resolvedRight)))
    (valueLeft : resolvedLeft.intValue = .ok x) (valueRight : resolvedRight.intValue = .ok y)
    (shows : Shows fragments
      ("(" ++ (Command.sumCheck (.binary (.compare relation) left right)).print ++ ")")
      (Node.binary (.compare relation) resolvedLeft resolvedRight).print
      (decimal x ++ relation.symbol ++ decimal y))
    (computes : minInt ∉ left.picks resolvedLeft → minInt ∉ right.picks resolvedRight →
      ∃ textLeft textRight,
        unbracketed (Node.binary (.compare relation) resolvedLeft resolvedRight).print =
          textLeft ++ relation.symbol ++ textRight ∧
        Computes textLeft x ∧ Computes textRight y) :
    Traces (.sumCheck (.binary (.compare relation) left right)) dice
      (fragments ++ (Verdict.ofBool (relation.holds x y)).word.toList) (.ofBool (relation.holds x y))

theorem traces_sum (plain : node.IsPlain)
    (plays : ((Command.sum node).play maxRerolls).Course Positive dice (.ok outcome)) :
    (Command.sum node).Traces dice outcome.fragments outcome.verdict := by
  obtain ⟨_, resolved, _, rfl, resolving, rest⟩ := Evaluation.course_bind.mp plays
  obtain ⟨v, value, last⟩ := Evaluation.course_ofExcept_bind.mp rest
  obtain ⟨rfl, same⟩ := Evaluation.course_pure.mp last
  cases same
  rw [List.append_nil]
  have resolves := (Node.falls_of_arithmetic plain).resolve.course resolving
  exact .sum resolving value (shows_trace ..) fun picked => resolves.computes_print plain picked value

theorem computes_sides {fallenLeft fallenRight : Node}
    (resolvesLeft : left.Resolves Positive fallenLeft)
    (resolvesRight : right.Resolves Positive fallenRight) (plainLeft : left.IsPlain)
    (plainRight : right.IsPlain) (pickedLeft : minInt ∉ left.picks fallenLeft)
    (pickedRight : minInt ∉ right.picks fallenRight) (valueLeft : fallenLeft.intValue = .ok x)
    (valueRight : fallenRight.intValue = .ok y) :
    ∃ textLeft textRight,
      unbracketed (Node.binary (.compare relation) fallenLeft fallenRight).print =
        textLeft ++ relation.symbol ++ textRight ∧
      Computes textLeft x ∧ Computes textRight y := by
  have bares := (resolvesLeft.binary (.compare relation) resolvesRight).bares_printAt true
  let wrap := (BinaryOp.compare relation).encloses .left true fallenLeft.summed
  let wrap' := (BinaryOp.compare relation).encloses .right false fallenRight.summed
  -- A side that the printer encloses is computed with its parentheses.
  refine ⟨_, _, ?_, resolvesLeft.computes plainLeft pickedLeft valueLeft wrap (wrap || true),
    resolvesRight.computes plainRight pickedRight valueRight wrap' wrap'⟩
  rw [Node.print, bares.unbracketed_eq]
  simp only [Node.summed, Node.printAt, BinaryOp.symbol, BinaryOp.suffix, String.append_empty]
  rfl

theorem traces_sumCheck (plainLeft : left.IsPlain) (plainRight : right.IsPlain)
    (plays : ((Command.sumCheck (.binary (.compare relation) left right)).play maxRerolls).Course
      Positive dice (.ok outcome)) :
    (Command.sumCheck (.binary (.compare relation) left right)).Traces dice outcome.fragments
      outcome.verdict := by
  have falls : (Node.binary (.compare relation) left right).Falls Positive :=
    .binary _ (Node.falls_of_arithmetic plainLeft) (Node.falls_of_arithmetic plainRight)
  obtain ⟨_, resolved, _, rfl, resolving, rest⟩ := Evaluation.course_bind.mp plays
  have resolves := falls.resolve.course resolving
  cases resolves with
  | @binary _ _ _ fallenLeft fallenRight resolvesLeft resolvesRight =>
    obtain ⟨x, valueLeft, rest⟩ := Evaluation.course_ofExcept_bind.mp rest
    obtain ⟨y, valueRight, rest⟩ := Evaluation.course_ofExcept_bind.mp rest
    obtain ⟨holds, truth, last⟩ := Evaluation.course_ofExcept_bind.mp rest
    obtain ⟨rfl, same⟩ := Evaluation.course_pure.mp last
    cases same
    rw [Node.asBool_compare, valueLeft, valueRight] at truth
    cases truth
    rw [List.append_nil]
    cases varies : right.isVariable with
    | true =>
      rw [targetVaries, if_pos varies]
      exact .both varies resolving valueLeft valueRight (shows_trace ..) fun pickedLeft pickedRight =>
        computes_sides resolvesLeft resolvesRight plainLeft plainRight pickedLeft pickedRight
          valueLeft valueRight
    | false =>
      rw [targetVaries, if_neg (by rw [varies]; decide)]
      -- A right side without dice is still the expression that was read, so it reads as itself.
      cases resolvesRight.eq_of_constant varies
      have written : Grammar.Writes .sum right.print.toList right :=
        (Node.writes_plain plainRight true).widen (Nat.zero_le _)
      exact .left varies resolving valueLeft valueRight (shows_trace ..)
        (fun picked => resolvesLeft.computes_print plainLeft picked valueLeft)
        (computes_of_writes written varies valueRight)

def HasTrace : Command → Prop
  | sum _ | sumCheck _ => True
  | calculation _ | scatter .. | reroll .. | compound .. | choice _ => False

theorem traces_play {command : Command} (plain : command.WellFormed) (rolls : command.HasTrace)
    (plays : (command.play maxRerolls).Course Positive dice (.ok outcome)) :
    command.Traces dice outcome.fragments outcome.verdict := by
  cases command with
  | sum expr => exact traces_sum plain.1 plays
  | sumCheck comparison =>
    obtain ⟨relation, left, right, rfl, plainLeft, plainRight, -⟩ := plain
    exact traces_sumCheck plainLeft plainRight plays
  | calculation | scatter | reroll | compound | choice => exact rolls.elim

end Command

namespace Statement

variable [DiceSource σ] {text : String} {statement : Statement} {settings : Settings}
  {roller final : Roller σ} {report : Report}

/-- The trace of an expression, or of a comparison of two of them, tells the truth about the dice that
were rolled, where each of these shows one or more. -/
theorem execute_traces (parsed : parse text = .ok statement) (rolls : statement.command.HasTrace)
    (positive : Supplies Positive roller.source)
    (executed : statement.execute settings roller = (.ok report, final)) :
    statement.command.Traces report.rolledDice report.fragments report.verdict := by
  obtain ⟨outcome, recorded, ran, rfl⟩ := execute_ok.mp executed
  have promised : Supplies Positive (roller.limitTo settings.maxDice).source := positive
  have records := statement.command.records_play settings.maxRerolls
  obtain ⟨refused, same⟩ | ⟨dice, whole, course⟩ := Evaluation.run_course records promised ran
  · cases same
  change recorded = dice at whole
  subst whole
  exact Command.traces_play ((Grammar.parse_origin parsed).wellFormed (choice_items parsed)) rolls course

theorem execute_traces_negative :
    let expr : Node := .binary .multiply (.random (.neg (.int 3)) (.int 3))
      (.binary .subtract (.roll .sum (.int 2) (.int 6)) (.int 8))
    let dice : List Die := [⟨1, 7⟩, ⟨3, 6⟩, ⟨4, 6⟩]
    let roller : Roller Script := { source := ⟨dice⟩ }
    parse "[-3...3]*(2D6-8)" = .ok ⟨.sum expr, false⟩ ∧ Supplies Positive roller.source ∧
      (∃ report final, execute ⟨.sum expr, false⟩ {} roller = (.ok report, final) ∧
        report.rolledDice = dice ∧
        report.fragments = ["([-3...3]*(2D6-8))", "-3*(7[3,4]-8)", "3"]) ∧
      unbracketed "-3*(7[3,4]-8)" = "-3*(7-8)" ∧ Computes "-3*(7-8)" 3 := by
  intro expr dice roller
  have parsed : parse "[-3...3]*(2D6-8)" = .ok ⟨.sum expr, false⟩ :=
    Grammar.ok_of_toOption (by decide +kernel)
  have positive : Supplies Positive roller.source := Script.supplies (by unfold Positive; decide)
  let resolved : Node := .binary .multiply (.int (-3))
    (.binary .subtract (.rolled [⟨3, 6⟩, ⟨4, 6⟩]) (.int 8))
  have known : expr.resolve.Course Positive dice (.ok resolved) := by
    have ran : expr.resolve.run { roller := roller.limitTo 1000 } =
        (.ok resolved, ⟨⟨⟨[]⟩, some 1000, 3⟩, dice⟩) := rfl
    have promised : Supplies Positive (roller.limitTo 1000).source := positive
    obtain ⟨_, refused⟩ | ⟨_, rfl, course⟩ := Evaluation.run_course expr.records_resolve promised ran
    · cases refused
    · exact course
  have answered : (execute ⟨.sum expr, false⟩ {} roller).1.toOption.map
      (fun report => (report.rolledDice, report.fragments)) =
        some (dice, ["([-3...3]*(2D6-8))", "-3*(7[3,4]-8)", "3"]) := by decide +kernel
  have bare : unbracketed resolved.print = "-3*(7-8)" := by decide +kernel
  obtain ⟨report, final, executed, same⟩ := exists_report answered
  obtain ⟨rolled, fragments⟩ := Prod.mk.inj same
  refine ⟨parsed, positive, ⟨report, final, executed, rolled, fragments⟩, bare, ?_⟩
  have traces := execute_traces parsed trivial positive executed
  rw [rolled] at traces
  generalize report.verdict = verdict at traces
  cases traces with
  | sum resolving value shows computes =>
    obtain ⟨-, same⟩ := resolving.unique known (rfl : dice ++ [] = dice ++ [])
    cases same
    cases value
    rw [← bare]
    exact computes (by decide)

end Statement

end DiceLanguage
