import DiceLanguage.Proofs.Evaluation.Failures
import DiceLanguage.Proofs.Evaluation.Passes
import DiceLanguage.Proofs.Grammar.WellFormed

namespace DiceLanguage

open EvalError (IsTyped)

variable {good : Int → Die → Prop} {kind : RollKind} {check : Option Comparison} {maxRerolls : Nat}
  {heading : String}

theorem Node.IsPlain.evaluates {node : Node} (plain : node.IsPlain) : node.Evaluates good IsTyped :=
  ⟨ensures_evaluate plain, ensures_settled plain⟩

theorem Roll.IsPlain.evaluates {roll : Roll} (plain : roll.IsPlain kind) :
    roll.Evaluates good IsTyped := by
  refine ⟨plain.count.evaluates, plain.sides.evaluates, ?_⟩
  rw [plain.unlimited]
  nofun

theorem ListParts.evaluate_of_plain {rolls : List Roll} {modifier threshold : Option Node}
    (plain : ∀ roll ∈ rolls, roll.IsPlain kind) (modified : PlainModifier modifier)
    (limited : ∀ limit ∈ threshold, limit.IsPlain) (checked : PlainCheck check) :
    ListParts.Evaluate good IsTyped ⟨rolls, modifier, threshold, check⟩ where
  rolls roll member := (plain roll member).evaluates
  modifier node member := (modified node member).1.evaluates
  threshold node member := (limited node member).evaluates
  check comparison member := (checked comparison member).evaluates

namespace Command

theorem ensures_playSumCheck {relation : Relation} {left right : Node} (plainLeft : left.IsPlain)
    (plainRight : right.IsPlain) :
    (playSumCheck heading (.binary (.compare relation) left right)).Ensures good IsTyped
      fun _ => True := by
  have falls : (Node.binary (.compare relation) left right).Falls good :=
    .binary _ (Node.falls_of_arithmetic plainLeft) (Node.falls_of_arithmetic plainRight)
  refine falls.resolve.bind fun resolved resolves => ?_
  cases resolves with
  | binary op fallenLeft fallenRight =>
    have endsLeft := fallenLeft.ends_intValue plainLeft
    have endsRight := fallenRight.ends_intValue plainRight
    refine .bind (.ofExcept endsLeft) fun x _ => .bind (.ofExcept endsRight) fun y _ => ?_
    rw [Node.asBool_compare]
    refine .bind (.ofExcept ?_) fun holds (_ : True) => .pure trivial
    exact endsLeft.bind fun v _ => endsRight.bind fun w _ => trivial

theorem ensures_playChoice (items : List String) :
    (playChoice heading items).Ensures good IsTyped fun _ => True := by
  have picks : (pickItem items).Ensures good IsTyped fun _ => True := by
    refine .bind (.ofThrow fun _ _ _ => trivial) fun die (_ : True) => ?_
    split
    · exact .pure trivial
    · exact trivial
  exact picks.bind fun _ _ => .pure trivial

theorem WellFormed.ensures_play {command : Command} (plain : command.WellFormed) :
    (command.play maxRerolls).Ensures good IsTyped fun _ => True := by
  cases command with
  | calculation expr => exact (Node.ensures_evaluate plain.1).bind fun _ _ => .pure trivial
  | sum expr =>
    refine (Node.falls_of_arithmetic plain.1).resolve.bind fun fallen resolves => ?_
    exact .bind (.ofExcept (resolves.ends_intValue plain.1)) fun _ _ => .pure trivial
  | sumCheck comparison =>
    obtain ⟨relation, left, right, rfl, plainLeft, plainRight, -⟩ := plain
    exact ensures_playSumCheck plainLeft plainRight
  | scatter rolls check =>
    exact (ListParts.evaluate_of_plain plain.1 .absent (by simp) plain.2).playScatter
  | reroll rolls threshold check =>
    exact (ListParts.evaluate_of_plain plain.1 .absent plain.2.1 plain.2.2).playReroll
  | compound rolls threshold modifier check =>
    obtain ⟨plainRolls, limited, modified, checked⟩ := plain
    exact (ListParts.evaluate_of_plain plainRolls modified limited checked).playCompound trivial
  | choice items => exact ensures_playChoice items.toList

end Command

variable {σ : Type} [DiceSource σ]

theorem Statement.execute_isTyped {statement : Statement} (plain : statement.command.WellFormed)
    {settings : Settings} {roller : Roller σ} {error : EvalError}
    (failed : (statement.execute settings roller).1 = .error error) : error.IsTyped := by
  obtain ⟨refused, rfl⟩ | typed :=
    error_of_ensures (Command.WellFormed.ensures_play plain) (DiceSource.supplies_any _) failed
  · exact trivial
  · exact typed

/-- No line of text that is executed fails for a value of the wrong kind. -/
theorem execute_ne_typeMismatch (text : String) (settings : Settings) (roller : Roller σ)
    (expected found : ValueKind) :
    (execute text settings roller).1 ≠ .error (.eval (.typeMismatch expected found)) := by
  intro failed
  unfold execute at failed
  cases parsed : Statement.parse text with
  | error =>
    rw [parsed] at failed
    cases failed
  | ok statement =>
    simp only [parsed] at failed
    rcases executed : (statement.execute settings roller).1 with error | report
    · rw [executed] at failed
      cases failed
      have plain := (Grammar.parse_origin parsed).wellFormed (Statement.choice_items parsed)
      exact statement.execute_isTyped plain executed
    · rw [executed] at failed
      cases failed

end DiceLanguage
