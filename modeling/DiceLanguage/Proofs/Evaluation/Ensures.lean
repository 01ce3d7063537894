import DiceLanguage.Proofs.Evaluation.Course
import DiceLanguage.Proofs.Replay

namespace DiceLanguage

open DiceSource (Supplies)

variable {σ α β : Type} {good : Int → Die → Prop} {allowed : EvalError → Prop}

/-- A value that has the property, or an error that is allowed. -/
def Ends (allowed : EvalError → Prop) (holds : α → Prop) : Except EvalError α → Prop
  | .ok value => holds value
  | .error error => allowed error

def Evaluation.Ensures (good : Int → Die → Prop) (allowed : EvalError → Prop) (holds : α → Prop) :
    Evaluation α → Prop
  | done value => holds value
  | fail error => allowed error
  | throwing throw _ next =>
    ∀ dice reached, throw.Yields good dice reached → (next reached).Ensures good allowed holds

namespace Ends

variable {holds : α → Prop} {holds' : β → Prop} {result : Except EvalError α}

theorem bind {next : α → Except EvalError β} (first : Ends allowed holds result)
    (rest : ∀ value, holds value → Ends allowed holds' (next value)) :
    Ends allowed holds' (result >>= next) := by
  cases result with
  | ok value => exact rest value first
  | error => exact first

theorem imp (ends : Ends allowed holds result) {weaker : α → Prop}
    (implies : ∀ value, holds value → weaker value) : Ends allowed weaker result := by
  cases result with
  | ok value => exact implies value ends
  | error => exact ends

theorem map {f : α → β} (ends : Ends allowed holds result)
    (image : ∀ value, holds value → holds' (f value)) : Ends allowed holds' (f <$> result) := by
  cases result with
  | ok value => exact image value ends
  | error => exact ends

theorem exactly (overflow : allowed .overflow) (x : Int) : Ends allowed Fits (exactly x) := by
  unfold DiceLanguage.exactly
  cases same : checked x with
  | none => exact overflow
  | some y =>
    obtain ⟨fits, rfl⟩ := checked_eq_some_iff.mp same
    exact fits

theorem mapM {f : α → Except EvalError β} {as : List α}
    (each : ∀ a ∈ as, Ends allowed holds' (f a)) :
    Ends allowed (fun bs => ∀ b ∈ bs, holds' b) (as.mapM f) := by
  induction as with
  | nil => exact List.forall_mem_nil _
  | cons a as ih =>
    obtain ⟨first, others⟩ := List.forall_mem_cons.mp each
    rw [List.mapM_cons]
    refine first.bind fun b head => (ih others).bind fun bs tail => ?_
    exact List.forall_mem_cons.mpr ⟨head, tail⟩

theorem foldlM {f : β → α → Except EvalError β} {as : List α}
    (each : ∀ b, holds' b → ∀ a ∈ as, Ends allowed holds' (f b a)) {start : β}
    (first : holds' start) : Ends allowed holds' (as.foldlM f start) := by
  induction as generalizing start with
  | nil => exact first
  | cons a as ih =>
    rw [List.foldlM_cons]
    refine (each start first a List.mem_cons_self).bind fun next holds => ih ?_ holds
    exact fun b holds a member => each b holds a (List.mem_cons_of_mem _ member)

end Ends

namespace Evaluation

variable {holds : α → Prop} {holds' : β → Prop} {evaluation : Evaluation α}

namespace Ensures

theorem pure {value : α} (found : holds value) :
    (Pure.pure value : Evaluation α).Ensures good allowed holds := found

theorem imp (ensures : evaluation.Ensures good allowed holds) {holds' : α → Prop}
    (weaker : ∀ value, holds value → holds' value) : evaluation.Ensures good allowed holds' := by
  induction evaluation with
  | done value => exact weaker value ensures
  | fail => exact ensures
  | throwing throw record next ih =>
    exact fun dice reached yields => ih reached (ensures dice reached yields)

theorem bind {next : α → Evaluation β} (first : evaluation.Ensures good allowed holds)
    (rest : ∀ value, holds value → (next value).Ensures good allowed holds') :
    (evaluation >>= next).Ensures good allowed holds' := by
  change (evaluation.bind next).Ensures good allowed holds'
  induction evaluation with
  | done value => exact rest value first
  | fail => exact first
  | throwing throw record following ih =>
    exact fun dice reached yields => ih reached (first dice reached yields)

theorem ofExcept {result : Except EvalError α} (ends : Ends allowed holds result) :
    (Evaluation.ofExcept result).Ensures good allowed holds := by
  cases result <;> exact ends

theorem ofThrow {throw : Throw α} {record : α → List Die}
    (falls : ∀ dice result, throw.Yields good dice result → holds result) :
    (Evaluation.ofThrow throw record).Ensures good allowed holds := falls

theorem mapM {f : α → Evaluation β} {as : List α}
    (each : ∀ a ∈ as, (f a).Ensures good allowed holds') :
    (as.mapM f).Ensures good allowed (fun bs => ∀ b ∈ bs, holds' b) := by
  induction as with
  | nil => exact List.forall_mem_nil _
  | cons a as ih =>
    obtain ⟨first, others⟩ := List.forall_mem_cons.mp each
    rw [List.mapM_cons]
    refine first.bind fun b head => (ih others).bind fun bs tail => ?_
    exact List.forall_mem_cons.mpr ⟨head, tail⟩

theorem course {dice : List Die} {result : Except EvalError α}
    (ensures : evaluation.Ensures good allowed holds)
    (takes : evaluation.Course good dice result) : Ends allowed holds result := by
  induction takes with
  | done | fail => exact ensures
  | throwing thrown rest ih => exact ih (ensures _ _ thrown)

theorem run [DiceSource σ] {table final : Table σ} {result : Except EvalError α}
    (ensures : evaluation.Ensures good allowed holds)
    (promise : Supplies good table.roller.source) (ran : evaluation.run table = (result, final)) :
    (∃ refused, result = .error (.roll refused)) ∨ Ends allowed holds result := by
  induction evaluation generalizing table with
  | done | fail =>
    cases ran
    exact .inr ensures
  | throwing throw record next ih =>
    rw [Evaluation.run] at ran
    rcases thrown : throw.run table.roller with ⟨refused | ⟨reached, fallen⟩, roller⟩
    · rw [thrown] at ran
      cases ran
      exact .inl ⟨refused, rfl⟩
    · rw [thrown] at ran
      obtain ⟨yields, kept⟩ := Throw.run_yields promise thrown
      exact ih reached (ensures fallen reached yields) kept ran

end Ensures

end Evaluation

theorem Statement.error_of_ensures [DiceSource σ] {statement : Statement} {settings : Settings}
    {roller : Roller σ} {holds : Outcome → Prop} {error : EvalError}
    (ensures : (statement.command.play settings.maxRerolls).Ensures good allowed holds)
    (promise : Supplies good roller.source)
    (failed : (statement.execute settings roller).1 = .error error) :
    (∃ refused, error = .roll refused) ∨ allowed error := by
  rw [execute_error] at failed
  rcases ran : (statement.command.play settings.maxRerolls).run
    { roller := roller.limitTo settings.maxDice } with ⟨result, final⟩
  rw [ran] at failed
  cases failed
  apply (ensures.run promise ran).imp_left
  intro refusal
  obtain ⟨refused, same⟩ := refusal
  exact ⟨refused, Except.error.inj same⟩

end DiceLanguage
