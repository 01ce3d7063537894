import DiceLanguage.Proofs.Evaluation.Passes

namespace DiceLanguage.Node

open Grammar (ok_of_toOption)

def arguments : Node → List Node
  | int _ | rolled _ => []
  | neg x => x.arguments
  | binary _ x y => x.arguments ++ y.arguments
  | random x y | roll _ x y => [x, y]
  | thresholdRoll _ x y z => [x, y, z]

/-- An argument that depends on dice is replaced by its value on these dice, and any other one is
kept. -/
inductive GivesWay : Node → List Die → Node → Prop where
  | value {argument : Node} {dice : List Die} {v : Int} (depends : argument.isVariable = true)
    (evaluated : argument.evaluate.On dice v) : GivesWay argument dice (int v)
  | kept {argument : Node} (constant : argument.isVariable = false) : GivesWay argument [] argument

/-- The second expression is the first one with its outermost arguments replaced. The dice are those
of these arguments, from left to right. -/
inductive Settles : Node → List Die → Node → Prop where
  | int (x : Int) : Settles (.int x) [] (.int x)
  | neg {x x' : Node} {dice : List Die} (operand : Settles x dice x') :
    Settles (.neg x) dice (.neg x')
  | binary (op : BinaryOp) {x y x' y' : Node} {dice later : List Die} (left : Settles x dice x')
    (right : Settles y later y') : Settles (.binary op x y) (dice ++ later) (.binary op x' y')
  | random {x y x' y' : Node} {dice later : List Die} (least : GivesWay x dice x')
    (greatest : GivesWay y later y') :
    Settles (.random x y) (dice ++ later) (.random x' y')
  | roll (kind : RollKind) {x y x' y' : Node} {dice later : List Die} (count : GivesWay x dice x')
    (sides : GivesWay y later y') :
    Settles (.roll kind x y) (dice ++ later) (.roll kind x' y')
  | thresholdRoll (kind : RollKind) {x y z x' y' z' : Node} {dice later last : List Die}
    (count : GivesWay x dice x') (sides : GivesWay y later y') (threshold : GivesWay z last z') :
    Settles (.thresholdRoll kind x y z) (dice ++ (later ++ last)) (.thresholdRoll kind x' y' z')
  | rolled (fallen : List Die) : Settles (.rolled fallen) [] (.rolled fallen)

structure IsSettled (node : Node) : Prop where
  constant : ∀ argument ∈ node.arguments, argument.isVariable = false
  again : node.settleArguments = pure node

/-- The first two passes have nothing to do, and the last one finds a value of the right kind
wherever it asks for one. -/
structure IsFallen (node : Node) : Prop where
  diceFree : node.IsDiceFree
  constant : node.isVariable = false
  settleArguments : node.settleArguments = pure node
  rollDice : node.rollDice = pure node
  typed : ∀ expected found, node.value ≠ .error (.typeMismatch expected found)

variable {node argument settled fallen : Node} {dice : List Die} {least : Int}

theorem givesWay_of_settled (settling : node.settled.On dice argument) :
    node.GivesWay dice argument := by
  obtain ⟨varies, v, evaluated, rfl⟩ | ⟨constant, rfl, rfl⟩ := course_settled settling
  · exact .value varies evaluated
  · exact .kept constant

theorem GivesWay.constant (gives : node.GivesWay dice argument) : argument.isVariable = false := by
  cases gives with
  | value => rfl
  | kept constant => exact constant

theorem settles_of_settleArguments (settling : node.settleArguments.On dice settled) :
    node.Settles dice settled := by
  induction node generalizing dice settled with
  | int x =>
    obtain ⟨rfl, same⟩ := Evaluation.course_pure.mp settling
    cases same
    exact .int x
  | neg x ih =>
    obtain ⟨operand, settlingOperand, rfl⟩ := Evaluation.course_bind_pure.mp settling
    exact .neg (ih settlingOperand)
  | binary op x y ihx ihy =>
    obtain ⟨_, left, _, rfl, settlingLeft, settling⟩ := Evaluation.course_bind.mp settling
    obtain ⟨right, settlingRight, rfl⟩ := Evaluation.course_bind_pure.mp settling
    exact .binary op (ihx settlingLeft) (ihy settlingRight)
  | random x y =>
    obtain ⟨_, lower, _, rfl, settlingLower, settling⟩ := Evaluation.course_bind.mp settling
    obtain ⟨upper, settlingUpper, rfl⟩ := Evaluation.course_bind_pure.mp settling
    exact .random (givesWay_of_settled settlingLower) (givesWay_of_settled settlingUpper)
  | roll kind x y =>
    obtain ⟨_, count, _, rfl, settlingCount, settling⟩ := Evaluation.course_bind.mp settling
    obtain ⟨sides, settlingSides, rfl⟩ := Evaluation.course_bind_pure.mp settling
    exact .roll kind (givesWay_of_settled settlingCount) (givesWay_of_settled settlingSides)
  | thresholdRoll kind x y z =>
    obtain ⟨_, count, _, rfl, settlingCount, settling⟩ := Evaluation.course_bind.mp settling
    obtain ⟨_, sides, _, rfl, settlingSides, settling⟩ := Evaluation.course_bind.mp settling
    obtain ⟨threshold, settlingThreshold, rfl⟩ := Evaluation.course_bind_pure.mp settling
    exact .thresholdRoll kind (givesWay_of_settled settlingCount)
      (givesWay_of_settled settlingSides) (givesWay_of_settled settlingThreshold)
  | rolled fallen =>
    obtain ⟨rfl, same⟩ := Evaluation.course_pure.mp settling
    cases same
    exact .rolled fallen

theorem Settles.isSettled (settles : node.Settles dice settled) : settled.IsSettled := by
  induction settles with
  | int | rolled => exact ⟨nofun, rfl⟩
  | neg operand ih =>
    refine ⟨ih.constant, ?_⟩
    rw [settleArguments, ih.again]
    rfl
  | binary op left right ihLeft ihRight =>
    refine ⟨List.forall_mem_append.mpr ⟨ihLeft.constant, ihRight.constant⟩, ?_⟩
    rw [settleArguments, ihLeft.again, ihRight.again]
    rfl
  | random least greatest =>
    refine ⟨by simp [arguments, least.constant, greatest.constant], ?_⟩
    rw [settleArguments, settle_of_constant least.constant, settle_of_constant greatest.constant]
    rfl
  | roll kind count sides =>
    refine ⟨by simp [arguments, count.constant, sides.constant], ?_⟩
    rw [settleArguments, settle_of_constant count.constant, settle_of_constant sides.constant]
    rfl
  | thresholdRoll kind count sides threshold =>
    refine ⟨by simp [arguments, count.constant, sides.constant, threshold.constant], ?_⟩
    rw [settleArguments, settle_of_constant count.constant, settle_of_constant sides.constant,
      settle_of_constant threshold.constant]
    rfl

theorem Resolves.isDiceFree {good : Int → Die → Prop} (resolves : node.Resolves good fallen) :
    fallen.IsDiceFree := by
  induction resolves with
  | int | random | roll => exact trivial
  | neg operand ih => exact ih
  | binary op left right ihLeft ihRight => exact ⟨ihLeft, ihRight⟩

theorem Resolves.isFallen {good : Int → Die → Prop} (resolves : node.Resolves good fallen)
    (arithmetic : node.IsArithmetic least) : fallen.IsFallen where
  diceFree := resolves.isDiceFree
  constant := isDiceFree_iff.mp resolves.isDiceFree
  settleArguments := settleArguments_constant (isDiceFree_iff.mp resolves.isDiceFree)
  rollDice := rollDice_constant (isDiceFree_iff.mp resolves.isDiceFree)
  typed expected found failed := by
    have ends := resolves.ends_intValue arithmetic
    rw [intValue, failed] at ends
    exact ends

variable {σ : Type} [DiceSource σ] {table final : Table σ}

theorem rollDice_of_run {τ : Type} [DiceSource τ] {start last : Table τ}
    {result : Except EvalError Node} (arithmetic : node.IsArithmetic least)
    (ran : node.settleArguments.run table = (.ok settled, final))
    (rolled : settled.rollDice.run start = (result, last)) :
    (∃ refused, result = .error (.roll refused)) ∨ Ends EvalError.IsTyped IsFallen result := by
  obtain ⟨_, refused⟩ | rolls :=
    (falls_of_arithmetic arithmetic).run (DiceSource.supplies_any table.roller.source) ran
  · cases refused
  · apply (rolls.run (DiceSource.supplies_any start.roller.source) rolled).imp_right
    exact fun ends => ends.imp fun fallen resolves => resolves.isFallen arithmetic

/-- The first pass over an arithmetic expression draws the dice of its outermost arguments and
comes to rest. The second pass goes on with whatever dice are left. It asks for no value of the
wrong kind, and where it succeeds, all passes have come to rest. -/
theorem isSettled_of_run (arithmetic : node.IsArithmetic minInt)
    (ran : node.settleArguments.run table = (.ok settled, final)) :
    (∃ dice, node.Settles dice settled ∧ final.recorded = table.recorded ++ dice ∧
      ∃ last : Table (Observed σ),
        node.settleArguments.run ⟨table.roller.observed, table.recorded⟩ = (.ok settled, last) ∧
          last.roller.source.answers = dice.map .ok) ∧
    settled.IsSettled ∧
    ∀ {τ : Type} [DiceSource τ] (start : Table τ),
      (∀ expected found,
        (settled.rollDice.run start).1 ≠ .error (.typeMismatch expected found)) ∧
      ∀ fallen last, settled.rollDice.run start = (.ok fallen, last) → fallen.IsFallen := by
  have records := node.records_settleArguments
  obtain ⟨dice, recorded, last, observed, -, answers⟩ := Observed.run_ok records ran
  obtain ⟨_, refused⟩ | ⟨dice', recorded', course⟩ :=
    Evaluation.run_course records (DiceSource.supplies_any table.roller.source) ran
  · cases refused
  obtain rfl := List.append_cancel_left (recorded.symm.trans recorded')
  have settles := settles_of_settleArguments course
  refine ⟨⟨dice, settles, recorded, last, observed, answers⟩, settles.isSettled, ?_⟩
  intro τ _ start
  constructor
  · intro expected found failed
    rcases rolled : settled.rollDice.run start with ⟨result, last⟩
    rw [rolled] at failed
    cases failed
    obtain ⟨_, refused⟩ | typed := rollDice_of_run arithmetic ran rolled
    · cases refused
    · exact typed
  · intro fallen last rolled
    obtain ⟨_, refused⟩ | ends := rollDice_of_run arithmetic ran rolled
    · cases refused
    · exact ends

theorem isSettled_of_run_nested :
    let node : Node := .binary .add
      (.roll .sum (.roll .sum (.int 1) (.random (.int 2) (.int 3))) (.int 6))
      (.random (.int (-1)) (.int 2))
    let settled : Node :=
      .binary .add (.roll .sum (.int 3) (.int 6)) (.random (.int (-1)) (.int 2))
    let fallen : Node := .binary .add (.rolled [⟨5, 6⟩, ⟨1, 6⟩, ⟨6, 6⟩]) (.int 2)
    let table : Table Cycle := { roller := { source := { faces := [2, 3, 5, 1, 6, 4] } } }
    let middle := (node.settleArguments.run table).2
    node.IsArithmetic minInt ∧ node.settleArguments.run table = (.ok settled, middle) ∧
      settled.IsSettled ∧
      settled.rollDice.run middle = (.ok fallen, (settled.rollDice.run middle).2) ∧
      fallen.IsFallen := by
  intro node settled fallen table middle
  have arithmetic : node.IsArithmetic minInt := by decide
  have answered : (node.settleArguments.run table).1.toOption = some settled := by decide +kernel
  have ran : node.settleArguments.run table = (.ok settled, middle) := by
    rw [← ok_of_toOption answered]
  have answered : (settled.rollDice.run middle).1.toOption = some fallen := by decide +kernel
  have rolled : settled.rollDice.run middle = (.ok fallen, (settled.rollDice.run middle).2) := by
    rw [← ok_of_toOption answered]
  obtain ⟨-, rests, falls⟩ := isSettled_of_run arithmetic ran
  exact ⟨arithmetic, ran, rests, rolled, (falls middle).2 fallen _ rolled⟩

end DiceLanguage.Node
