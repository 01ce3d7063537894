import DiceLanguage.Execute
import DiceLanguage.Proofs.Division
import DiceLanguage.Proofs.Evaluation.Exact
import DiceLanguage.Proofs.Grammar.WellFormed
import DiceLanguage.Proofs.Replay

namespace DiceLanguage

open Grammar (ok_of_toOption)
open Text (decimal)

/-- The result over unbounded integers, where there is one. A quotient is taken among the rational
numbers. -/
def BinaryOp.ideal (op : BinaryOp) (x y : Int) : Option Int :=
  match op with
  | add => some (x + y)
  | subtract => some (x - y)
  | multiply => some (x * y)
  | divide rounding => if y = 0 then none else some (rounding.round (x / y))
  | compare _ => none

theorem BinaryOp.exact_eq_ideal (op : BinaryOp) (x y : Int) : op.exact x y = op.ideal x y := by
  cases op with
  | add | subtract | multiply | compare => rfl
  | divide rounding =>
    simp only [exact, ideal]
    by_cases zero : y = 0
    · rw [if_pos zero, if_pos zero]
    · rw [if_neg zero, if_neg zero, Rounding.quotient_eq_round rounding zero]

theorem BinaryOp.divides_by_zero {op : BinaryOp} {x y : Int} (arithmetic : op.precedence ≠ .compare)
    (missing : op.ideal x y = none) : ∃ rounding, op = .divide rounding ∧ y = 0 := by
  cases op with
  | add | subtract | multiply => cases missing
  | divide rounding =>
    refine ⟨rounding, rfl, ?_⟩
    by_contra nonzero
    rw [ideal, if_neg nonzero] at missing
    cases missing
  | compare => exact absurd rfl arithmetic

namespace Node

/-- The subexpressions from left to right, each of them behind its own parts. -/
def postorder : Node → List Node
  | int x => [int x]
  | rolled dice => [rolled dice]
  | neg x => x.postorder ++ [neg x]
  | binary op x y => x.postorder ++ y.postorder ++ [binary op x y]
  | random x y => x.postorder ++ y.postorder ++ [random x y]
  | roll kind x y => x.postorder ++ y.postorder ++ [roll kind x y]
  | thresholdRoll kind x y z =>
    x.postorder ++ y.postorder ++ z.postorder ++ [thresholdRoll kind x y z]

def exact : Node → Option Int
  | int x => some x
  | neg x => do
    let v ← x.exact
    return -v
  | binary op x y => do
    let v ← x.exact
    let w ← y.exact
    op.ideal v w
  | _ => none

def HasValue (node : Node) : Prop := ∃ v, node.exact = some v ∧ Fits v

instance (node : Node) : Decidable node.HasValue :=
  decidable_of_iff (node.exact.any (Fits ·) = true) (by simp [HasValue, Option.any_eq_true])

/-- What is wrong with an expression that has no value although its parts have values. -/
inductive Faults : Node → EvalError → Prop where
  | divisionByZero {rounding : Rounding} {x y : Node} (zero : y.exact = some 0) :
    Faults (binary (.divide rounding) x y) .divisionByZero
  | overflow {node : Node} {v : Int} (exact : node.exact = some v) (beyond : ¬ Fits v) :
    Faults node .overflow

/-- The first subexpression without a value is at fault. -/
def FirstFault (node : Node) (error : EvalError) : Prop :=
  ∃ before fault after, node.postorder = before ++ fault :: after ∧
    (∀ part ∈ before, part.HasValue) ∧ ¬ fault.HasValue ∧ fault.Faults error

def ComesOut (node : Node) : Except EvalError Int → Prop
  | .ok v => (∀ part ∈ node.postorder, part.HasValue) ∧ node.exact = some v
  | .error error => node.FirstFault error

variable {node part x y : Node} {before front behind : List Node} {v w : Int} {error : EvalError}

theorem FirstFault.not_hasValue (first : node.FirstFault error) :
    ¬ ∀ part ∈ node.postorder, part.HasValue := by
  obtain ⟨before, fault, after, order, -, missing, -⟩ := first
  intro values
  exact missing (values fault (by simp [order]))

theorem FirstFault.of_part (first : part.FirstFault error)
    (order : node.postorder = front ++ part.postorder ++ behind)
    (clear : ∀ earlier ∈ front, earlier.HasValue) : node.FirstFault error := by
  obtain ⟨before, fault, after, cut, values, missing, faults⟩ := first
  refine ⟨front ++ before, fault, after ++ behind, by simp [order, cut], ?_, missing, faults⟩
  exact List.forall_mem_append.mpr ⟨clear, values⟩

theorem Faults.not_hasValue (faults : node.Faults error) : ¬ node.HasValue := by
  intro found
  obtain ⟨v, value, fits⟩ := found
  cases faults with
  | divisionByZero zero =>
    obtain ⟨w, -, divided⟩ := Option.bind_eq_some_iff.mp value
    rw [zero] at divided
    cases divided
  | overflow exact beyond =>
    cases exact.symm.trans value
    exact beyond fits

theorem Faults.first (faults : node.Faults error) (order : node.postorder = before ++ [node])
    (clear : ∀ earlier ∈ before, earlier.HasValue) : node.FirstFault error :=
  ⟨before, node, [], order, clear, faults.not_hasValue, faults⟩

theorem comesOut_exactly (order : node.postorder = before ++ [node])
    (clear : ∀ earlier ∈ before, earlier.HasValue) (value : node.exact = some v) :
    node.ComesOut (exactly v) := by
  by_cases fits : Fits v
  · rw [exactly_ok.mpr ⟨fits, rfl⟩]
    refine ⟨?_, value⟩
    rw [order, List.forall_mem_append, List.forall_mem_singleton]
    exact ⟨clear, v, value, fits⟩
  · rw [exactly_overflow fits]
    exact (Faults.overflow value fits).first order clear

theorem comesOut_neg (operand : x.ComesOut x.intValue) : (neg x).ComesOut (neg x).intValue := by
  rw [intValue_neg]
  cases found : x.intValue with
  | error error =>
    rw [found] at operand
    have order : (neg x).postorder = [] ++ x.postorder ++ [neg x] := rfl
    exact operand.of_part order nofun
  | ok v =>
    rw [found] at operand
    exact comesOut_exactly rfl operand.1 (by rw [exact, operand.2]; rfl)

theorem comesOut_binary {op : BinaryOp} (arithmetic : op.precedence ≠ .compare)
    (left : x.ComesOut x.intValue) (right : y.ComesOut y.intValue) :
    (binary op x y).ComesOut (binary op x y).intValue := by
  rw [intValue_binary]
  cases foundLeft : x.intValue with
  | error error =>
    rw [foundLeft] at left
    have order : (binary op x y).postorder =
        [] ++ x.postorder ++ (y.postorder ++ [binary op x y]) := List.append_assoc ..
    exact left.of_part order nofun
  | ok v =>
  rw [foundLeft] at left
  cases foundRight : y.intValue with
  | error error =>
    rw [foundRight] at right
    exact right.of_part rfl left.1
  | ok w =>
  rw [foundRight] at right
  have clear := List.forall_mem_append.mpr ⟨left.1, right.1⟩
  have whole : (binary op x y).exact = op.ideal v w := by
    rw [exact, left.2, right.2]; rfl
  change ComesOut _ (op.apply v w >>= Value.asInt)
  rw [BinaryOp.apply_eq arithmetic, BinaryOp.exact_eq_ideal, ← whole]
  cases value : (binary op x y).exact with
  | some result => exact comesOut_exactly rfl clear value
  | none =>
    obtain ⟨rounding, rfl, rfl⟩ := BinaryOp.divides_by_zero arithmetic (whole.symm.trans value)
    exact (Faults.divisionByZero right.2).first rfl clear

theorem comesOut_intValue (plain : node.IsPlain) (free : node.IsDiceFree) :
    node.ComesOut node.intValue := by
  unfold IsPlain at plain
  induction node with
  | int x =>
    have fits : Fits x := ⟨Int.le_trans (by decide) plain.1, plain.2⟩
    have order : (int x).postorder = [] ++ [int x] := rfl
    have comes := comesOut_exactly order nofun rfl
    rwa [exactly_ok.mpr ⟨fits, rfl⟩] at comes
  | neg x ih => exact comesOut_neg (ih plain free)
  | binary op x y ihx ihy =>
    exact comesOut_binary plain.1 (ihx plain.2.1 free.1) (ihy plain.2.2 free.2)
  | random | roll | thresholdRoll => exact free.elim
  | rolled => exact plain.elim

end Node

namespace Statement

variable {σ : Type} [DiceSource σ]

theorem run_calculation (text : String) {expr : Node} (constant : expr.isVariable = false)
    (table : Table σ) : (Command.playCalculation text expr).run table =
      (expr.intValue.map fun v => { fragments := [text, decimal v] }, table) := by
  rw [Command.playCalculation, Node.evaluate_constant constant]
  cases expr.intValue <;> rfl

theorem execute_calculation_eq {expr : Node} {secret : Bool} (constant : expr.isVariable = false)
    (settings : Settings) (roller : Roller σ) :
    Statement.execute ⟨.calculation expr, secret⟩ settings roller =
      (expr.intValue.map fun v =>
        Outcome.report { fragments := [Command.print (.calculation expr), decimal v] } settings
          secret [], roller.limitTo settings.maxDice) := by
  have ran := run_calculation (Command.print (.calculation expr)) constant
    { roller := roller.limitTo settings.maxDice }
  simp only [Statement.execute, Command.play, ran]
  cases expr.intValue <;> rfl

/-- A calculation draws no die. Its answer ends with the exact value where all subexpressions have
values in range, and it fails with the first fault otherwise. -/
theorem execute_calculation {text : String} {expr : Node} {secret : Bool}
    (parsed : parse text = .ok ⟨.calculation expr, secret⟩) (settings : Settings)
    (roller : Roller σ) :
    (DiceLanguage.execute text settings roller).2 = roller.limitTo settings.maxDice ∧
      (DiceLanguage.execute text settings roller.observed).2.source.answers = [] ∧
      ((∀ part ∈ expr.postorder, part.HasValue) → ∃ v report, expr.exact = some v ∧
        (DiceLanguage.execute text settings roller).1 = .ok report ∧ report.rolledDice = [] ∧
        report.fragments.getLast? = some (decimal v)) ∧
      ((¬ ∀ part ∈ expr.postorder, part.HasValue) → ∃ error, expr.FirstFault error ∧
        (DiceLanguage.execute text settings roller).1 = .error (.eval error)) := by
  obtain ⟨plain, free⟩ := (Grammar.parse_origin parsed).wellFormed (choice_items parsed)
  have constant := Node.isDiceFree_iff.mp free
  have comes := Node.comesOut_intValue plain free
  simp only [DiceLanguage.execute, parsed, execute_calculation_eq constant]
  cases found : expr.intValue with
  | ok v =>
    rw [found] at comes
    refine ⟨trivial, rfl, fun _ => ⟨v, _, comes.2, rfl, rfl, rfl⟩, ?_⟩
    exact fun missing => absurd comes.1 missing
  | error error =>
    rw [found] at comes
    refine ⟨trivial, rfl, ?_, fun _ => ⟨error, comes, rfl⟩⟩
    exact fun values => absurd values comes.not_hasValue

theorem execute_calculation_overflow :
    let expr : Node := .binary (.divide .down) (.binary .add (.int maxInt) (.int 1))
      (.binary .subtract (.int 1) (.int 1))
    let text := "C((9223372036854775807+1)/(1-1))"
    let roller : Roller Cycle := { source := { faces := [6] } }
    parse text = .ok ⟨.calculation expr, false⟩ ∧
      (¬ ∀ part ∈ expr.postorder, part.HasValue) ∧
      ∃ error, expr.FirstFault error ∧
        (DiceLanguage.execute text {} roller).1 = .error (.eval error) := by
  intro expr text roller
  have parsed : parse text = .ok ⟨.calculation expr, false⟩ := ok_of_toOption (by decide +kernel)
  have missing : ¬ ∀ part ∈ expr.postorder, part.HasValue := by decide
  exact ⟨parsed, missing, (execute_calculation parsed {} roller).2.2.2 missing⟩

end Statement

end DiceLanguage
