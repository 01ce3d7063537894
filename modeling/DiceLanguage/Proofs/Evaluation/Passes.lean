import DiceLanguage.Proofs.Evaluation.Ensures
import DiceLanguage.Proofs.Evaluation.Exact

namespace DiceLanguage

def EvalError.IsTyped : EvalError → Prop
  | typeMismatch .. => False
  | divisionByZero | roll _ | invalidRange .. | overflow | threshold _ => True

/-- The second expression is what may be left of the first one once its dice have fallen. -/
inductive Node.Resolves (good : Int → Die → Prop) : Node → Node → Prop where
  | int (x : Int) : Resolves good (.int x) (.int x)
  | neg {x x' : Node} (operand : Resolves good x x') : Resolves good (.neg x) (.neg x')
  | binary (op : BinaryOp) {x y x' y' : Node} (left : Resolves good x x')
    (right : Resolves good y y') : Resolves good (.binary op x y) (.binary op x' y')
  | random (least greatest : Node) {x : Int} (fits : Fits x) :
    Resolves good (.random least greatest) (.int x)
  | roll (kind : RollKind) (count sides : Node) {dice : List Die}
    (given : ∀ die ∈ dice, ∃ sides, good sides die) :
    Resolves good (.roll kind count sides) (.rolled dice)

open EvalError (IsTyped)

variable {good : Int → Die → Prop} {allowed : EvalError → Prop} {least : Int}

theorem BinaryOp.ends_apply (overflow : allowed .overflow) (undivided : allowed .divisionByZero)
    (op : BinaryOp) (x y : Int) : Ends allowed
      (fun value => op.precedence ≠ .compare → ∃ v, value = .integer v) (op.apply x y) := by
  have checks : ∀ z, Ends allowed (fun value => op.precedence ≠ .compare → ∃ v, value = .integer v)
      (Value.integer <$> exactly z) :=
    fun z => (Ends.exactly overflow z).map fun v _ _ => ⟨v, rfl⟩
  cases op with
  | add | subtract | multiply => exact checks _
  | divide rounding =>
    by_cases zero : y = 0
    · simp only [apply, zero]
      exact undivided
    · simp only [apply, zero]
      cases rounding.divide x y with
      | none => exact overflow
      | some v => exact fun _ => ⟨v, rfl⟩
  | compare => exact fun arithmetic => absurd rfl arithmetic

namespace Node

variable {node fallen : Node}

theorem Resolves.ends_intValue (resolves : node.Resolves good fallen)
    (arithmetic : node.IsArithmetic least) : Ends IsTyped (fun _ => True) fallen.intValue := by
  induction resolves with
  | int | random | roll => exact trivial
  | neg operand ih =>
    rw [intValue_neg]
    exact (ih arithmetic).bind fun v _ => (Ends.exactly trivial (-v)).imp fun _ _ => trivial
  | binary op left right ihLeft ihRight =>
    rw [intValue_binary]
    refine (ihLeft arithmetic.2.1).bind fun v _ => ?_
    refine (ihRight arithmetic.2.2).bind fun w _ => ?_
    refine (BinaryOp.ends_apply trivial trivial op v w).bind fun value whole => ?_
    obtain ⟨z, rfl⟩ := whole arithmetic.1
    exact trivial

theorem Resolves.of_constant (arithmetic : node.IsArithmetic least)
    (constant : node.isVariable = false) : node.Resolves good node := by
  induction node with
  | int x => exact .int x
  | neg x ih => exact .neg (ih arithmetic constant)
  | binary op x y ihx ihy =>
    have parts := constant_parts constant
    exact .binary op (ihx arithmetic.2.1 parts.1) (ihy arithmetic.2.2 parts.2)
  | random | roll | thresholdRoll => cases constant
  | rolled => exact arithmetic.elim

theorem asBool_compare (relation : Relation) (x y : Node) :
    (binary (.compare relation) x y).value >>= Value.asBool =
      x.intValue >>= fun v => y.intValue >>= fun w => .ok (relation.holds v w) := by
  unfold intValue
  rw [value]
  simp only [bind_assoc]
  rfl

theorem ensures_randomNumber (overflow : allowed .overflow) (least greatest : Int)
    (empty : allowed (.invalidRange least greatest)) :
    (randomNumber least greatest).Ensures good allowed Fits := by
  unfold randomNumber
  split
  · exact empty
  · refine .bind (.ofExcept (Ends.exactly overflow _)) fun size _ => ?_
    refine .bind (.ofThrow fun _ _ _ => trivial) fun die (_ : True) => ?_
    exact .ofExcept (Ends.exactly overflow _)

theorem ensures_rollSum (kind : RollKind) (x y : Node) {count sides : Node}
    (counted : Ends allowed (fun _ => True) count.intValue)
    (sided : Ends allowed (fun _ => True) sides.intValue) :
    (rollSum count sides).Ensures good allowed ((roll kind x y).Resolves good) := by
  refine .bind (.ofExcept counted) fun n _ => .bind (.ofExcept sided) fun m _ => ?_
  have given : (Evaluation.ofThrow (Throw.group ⟨n, m⟩) id).Ensures good allowed
      fun dice => ∀ die ∈ dice, ∃ sides, good sides die := by
    refine .ofThrow fun dice fallen yields => ?_
    obtain ⟨-, -, -, -, given⟩ := Throw.yields_group.mp yields
    exact fun die member => ⟨m, given die member⟩
  exact given.bind fun dice given => .pure (.roll kind x y given)

def Falls (good : Int → Die → Prop) (node : Node) : Prop :=
  node.settleArguments.Ensures good IsTyped fun settled =>
    settled.rollDice.Ensures good IsTyped (node.Resolves good)

theorem Falls.settled (falls : node.Falls good) (arithmetic : node.IsArithmetic least) :
    node.settled.Ensures good IsTyped fun argument =>
      Ends IsTyped (fun _ => True) argument.intValue := by
  unfold Node.settled settle
  split
  · refine falls.bind fun settled rolls => ?_
    have concludes : settled.conclude.Ensures good IsTyped fun _ => True :=
      rolls.bind fun fallen resolves => .ofExcept (resolves.ends_intValue arithmetic)
    exact concludes.bind fun x _ => .pure trivial
  · -- What has no dice is not settled at all, but it has a value already.
    rename_i fixed
    have resolves : node.Resolves good node :=
      .of_constant arithmetic (Bool.eq_false_iff.mpr fixed)
    exact .pure (resolves.ends_intValue arithmetic)

theorem Falls.binary {x y : Node} (op : BinaryOp) (left : x.Falls good) (right : y.Falls good) :
    (binary op x y).Falls good := by
  refine left.bind fun settledLeft rollsLeft => ?_
  refine right.bind fun settledRight rollsRight => .pure ?_
  refine rollsLeft.bind fun fallenLeft resolvesLeft => ?_
  exact rollsRight.bind fun fallenRight resolvesRight => .pure (.binary op resolvesLeft resolvesRight)

theorem falls_of_arithmetic (arithmetic : node.IsArithmetic least) : node.Falls good := by
  induction node with
  | int x => exact .pure (.pure (.int x))
  | neg x ih =>
    refine (ih arithmetic).bind fun settled rolls => .pure ?_
    exact rolls.bind fun fallen resolves => .pure (.neg resolves)
  | binary op x y ihx ihy => exact (ihx arithmetic.2.1).binary op (ihy arithmetic.2.2)
  | random x y ihx ihy =>
    refine ((ihx arithmetic.1).settled arithmetic.1).bind fun lower endsLower => ?_
    refine ((ihy arithmetic.2).settled arithmetic.2).bind fun upper endsUpper => .pure ?_
    refine .bind (.ofExcept endsLower) fun l _ => .bind (.ofExcept endsUpper) fun u _ => ?_
    exact (ensures_randomNumber trivial l u trivial).bind fun picked fits => .pure (.random x y fits)
  | roll kind x y ihx ihy =>
    obtain ⟨rfl, count, sides⟩ := arithmetic
    refine ((ihx count).settled count).bind fun countNode endsCount => ?_
    refine ((ihy sides).settled sides).bind fun sidesNode endsSides => .pure ?_
    exact ensures_rollSum .sum x y endsCount endsSides
  | thresholdRoll | rolled => exact arithmetic.elim

theorem ensures_settled (arithmetic : node.IsArithmetic least) :
    node.settled.Ensures good IsTyped fun argument =>
      Ends IsTyped (fun _ => True) argument.intValue :=
  (falls_of_arithmetic arithmetic).settled arithmetic

theorem Falls.resolve (falls : node.Falls good) :
    node.resolve.Ensures good IsTyped (node.Resolves good) := falls.bind fun _ rolls => rolls

theorem ensures_evaluate (arithmetic : node.IsArithmetic least) :
    node.evaluate.Ensures good IsTyped fun _ => True := by
  refine (falls_of_arithmetic arithmetic).bind fun settled rolls => ?_
  exact rolls.bind fun fallen resolves => .ofExcept (resolves.ends_intValue arithmetic)

end Node

end DiceLanguage
