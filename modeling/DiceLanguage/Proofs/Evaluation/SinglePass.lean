import DiceLanguage.Dice.Cycle
import DiceLanguage.Proofs.Evaluation.Exact

namespace DiceLanguage

variable {α β γ : Type}

namespace Evaluation

def SucceedsLike (first second : Evaluation α) : Prop :=
  ∀ (σ : Type) [DiceSource σ] (table final : Table σ) (value : α),
    first.run table = (.ok value, final) ↔ second.run table = (.ok value, final)

theorem run_bind_ok {σ : Type} [DiceSource σ] {evaluation : Evaluation α} {next : α → Evaluation β}
    {table final : Table σ} {value : β} :
    (evaluation >>= next).run table = (.ok value, final) ↔
      ∃ reached middle, evaluation.run table = (.ok reached, middle) ∧
        (next reached).run middle = (.ok value, final) := by
  change (evaluation.bind next).run table = _ ↔ _
  rw [run_bind]
  rcases evaluation.run table with ⟨error | reached, middle⟩
  · simp
  · simp only [Prod.mk.injEq, Except.ok.injEq]
    constructor
    · intro rest
      exact ⟨reached, middle, ⟨rfl, rfl⟩, rest⟩
    · intro runs
      obtain ⟨_, _, ⟨rfl, rfl⟩, rest⟩ := runs
      exact rest

theorem ofExcept_bind (result : Except EvalError α) (next : α → Except EvalError β) :
    ofExcept (result >>= next) = ofExcept result >>= fun a => ofExcept (next a) := by
  cases result <;> rfl

namespace SucceedsLike

variable {first second third : Evaluation α} {next next' : α → Evaluation β}

theorem trans (left : first.SucceedsLike second) (right : second.SucceedsLike third) :
    first.SucceedsLike third :=
  fun σ _ table final value => (left σ table final value).trans (right σ table final value)

theorem symm (same : first.SucceedsLike second) : second.SucceedsLike first :=
  fun σ _ table final value => (same σ table final value).symm

theorem of_eq (same : first = second) : first.SucceedsLike second := by
  intro σ _ table final value
  rw [same]

theorem bind (same : first.SucceedsLike second) (goesOn : ∀ a, (next a).SucceedsLike (next' a)) :
    (first >>= next).SucceedsLike (second >>= next') := by
  intro σ _ table final value
  rw [run_bind_ok, run_bind_ok]
  constructor
  · intro runs
    obtain ⟨reached, middle, ran, rest⟩ := runs
    exact ⟨reached, middle, (same σ _ _ _).mp ran, (goesOn reached σ _ _ _).mp rest⟩
  · intro runs
    obtain ⟨reached, middle, ran, rest⟩ := runs
    exact ⟨reached, middle, (same σ _ _ _).mpr ran, (goesOn reached σ _ _ _).mpr rest⟩

theorem ofExcept_later (result : Except EvalError α) (draws : Evaluation β)
    (next : α → β → Evaluation γ) :
    SucceedsLike (ofExcept result >>= fun a => draws >>= next a)
      (draws >>= fun b => ofExcept result >>= fun a => next a b) := by
  cases result with
  | ok a => exact of_eq rfl
  | error error =>
    intro σ _ table final value
    constructor
    · intro ran
      cases ran
    · intro ran
      obtain ⟨b, middle, -, failed⟩ := run_bind_ok.mp ran
      cases failed

end SucceedsLike

end Evaluation

namespace Node

open Evaluation (ofExcept ofThrow ofExcept_bind SucceedsLike)

/-- Evaluates the left part, then the right part, then the operation. A roll is made, and a random
number is picked, as soon as the evaluation reaches it. -/
def interpret : Node → Evaluation Int
  | int x => return x
  | rolled dice => return Die.sum dice
  | neg operand => do
    let x ← operand.interpret
    ofExcept (exactly (-x))
  | binary op left right => do
    let x ← left.interpret
    let y ← right.interpret
    ofExcept (op.apply x y >>= Value.asInt)
  | random least greatest => do
    let least ← least.interpret
    let greatest ← greatest.interpret
    randomNumber least greatest
  | roll _ count sides | thresholdRoll _ count sides _ => do
    let count ← count.interpret
    let sides ← sides.interpret
    let dice ← ofThrow (Throw.group ⟨count, sides⟩) id
    return Die.sum dice

/-- No dice are needed for the arguments of others, and all dice that have not fallen are those of
`D` rolls and random numbers. -/
def IsFlat : Node → Prop
  | int _ | rolled _ => True
  | neg x => x.IsFlat
  | binary _ x y => x.IsFlat ∧ y.IsFlat
  | random x y => x.IsDiceFree ∧ y.IsDiceFree
  | roll kind x y => kind = .sum ∧ x.IsDiceFree ∧ y.IsDiceFree
  | thresholdRoll .. => False

variable {node : Node}

theorem settleArguments_flat (flat : node.IsFlat) : node.settleArguments = pure node := by
  induction node with
  | int | rolled => rfl
  | neg x ih => rw [settleArguments, ih flat]; rfl
  | binary op x y ihx ihy => rw [settleArguments, ihx flat.1, ihy flat.2]; rfl
  | random x y =>
    rw [settleArguments, settle_of_constant (isDiceFree_iff.mp flat.1),
      settle_of_constant (isDiceFree_iff.mp flat.2)]
    rfl
  | roll kind x y =>
    rw [settleArguments, settle_of_constant (isDiceFree_iff.mp flat.2.1),
      settle_of_constant (isDiceFree_iff.mp flat.2.2)]
    rfl
  | thresholdRoll => exact flat.elim

theorem evaluate_flat (flat : node.IsFlat) : node.evaluate = node.conclude := by
  rw [evaluate, settleArguments_flat flat, pure_bind]

theorem interpret_constant (free : node.IsDiceFree) :
    node.interpret = ofExcept node.intValue := by
  induction node with
  | int | rolled => rfl
  | neg x ih => rw [interpret, ih free, intValue_neg, ofExcept_bind]
  | binary op x y ihx ihy =>
    rw [interpret, ihx free.1, ihy free.2, intValue_binary]
    simp only [ofExcept_bind]
  | random | roll | thresholdRoll => exact free.elim

theorem conclude_neg (x : Node) :
    (neg x).conclude = x.conclude >>= fun v => ofExcept (exactly (-v)) := by
  simp only [conclude, rollDice, bind_assoc, pure_bind, intValue_neg, ofExcept_bind]

theorem conclude_binary (op : BinaryOp) (x y : Node) : (binary op x y).conclude =
    x.rollDice >>= fun x' => y.rollDice >>= fun y' =>
      ofExcept x'.intValue >>= fun v => ofExcept y'.intValue >>= fun w =>
        ofExcept (op.apply v w >>= Value.asInt) := by
  simp only [conclude, rollDice, bind_assoc, pure_bind, intValue_binary, ofExcept_bind]

theorem conclude_binary_succeedsLike (op : BinaryOp) (x y : Node) :
    (binary op x y).conclude.SucceedsLike
      (x.conclude >>= fun v => y.conclude >>= fun w => ofExcept (op.apply v w >>= Value.asInt)) := by
  rw [conclude_binary]
  simp only [conclude, bind_assoc]
  refine SucceedsLike.bind (.of_eq rfl) fun x' => ?_
  exact (SucceedsLike.ofExcept_later x'.intValue y.rollDice _).symm

theorem conclude_succeedsLike (flat : node.IsFlat) :
    node.conclude.SucceedsLike node.interpret := by
  induction node with
  | int | rolled => exact .of_eq rfl
  | neg x ih =>
    rw [conclude_neg]
    exact (ih flat).bind fun v => .of_eq rfl
  | binary op x y ihx ihy =>
    refine (conclude_binary_succeedsLike op x y).trans ?_
    exact (ihx flat.1).bind fun v => (ihy flat.2).bind fun w => .of_eq rfl
  | random x y =>
    apply SucceedsLike.of_eq
    rw [interpret, interpret_constant flat.1, interpret_constant flat.2]
    simp only [conclude, rollDice, bind_assoc, pure_bind]
    have last (v : Int) : ofExcept (int v).intValue = pure v := rfl
    simp only [last, bind_pure]
  | roll kind x y =>
    obtain ⟨rfl, count, sides⟩ := flat
    apply SucceedsLike.of_eq
    rw [interpret, interpret_constant count, interpret_constant sides]
    simp only [conclude, rollDice, rollSum, bind_assoc, pure_bind]
    rfl
  | thresholdRoll => exact flat.elim

/-- Where no argument needs dice, the three passes and the interpreter come to the same values from
the same start, with the same dice on the record and the same roller at the end. -/
theorem evaluate_iff_interpret {σ : Type} [DiceSource σ] (flat : node.IsFlat)
    (table final : Table σ) (v : Int) :
    node.evaluate.run table = (.ok v, final) ↔ node.interpret.run table = (.ok v, final) := by
  rw [evaluate_flat flat]
  exact conclude_succeedsLike flat σ table final v

theorem evaluate_iff_interpret_quotient :
    let node : Node := .binary .add (.rolled [⟨5, 6⟩]) (.binary (.divide .up)
      (.roll .sum (.int 2) (.binary .multiply (.int 3) (.int 2))) (.random (.neg (.int 1)) (.int 3)))
    let table : Table Cycle :=
      { roller := { source := { faces := [6, 3, 4] }, limit := some 3 }, recorded := [⟨5, 6⟩] }
    let final := (node.evaluate.run table).2
    node.IsFlat ∧ node.evaluate.run table = (.ok 10, final) ∧
      node.interpret.run table = (.ok 10, final) ∧
      final.recorded = [⟨5, 6⟩, ⟨6, 6⟩, ⟨3, 6⟩, ⟨4, 5⟩] := by
  intro node table final
  have flat : node.IsFlat := by simp [node, IsFlat, IsDiceFree]
  have answered : (node.evaluate.run table).1.toOption = some 10 := by decide +kernel
  have ran : node.evaluate.run table = (.ok 10, final) := by
    rw [← Grammar.ok_of_toOption answered]
  exact ⟨flat, ran, (evaluate_iff_interpret flat table final 10).mp ran, by decide +kernel⟩

end Node

end DiceLanguage
