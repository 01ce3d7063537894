import DiceLanguage.Dice.Throw
import DiceLanguage.Evaluation.Error

namespace DiceLanguage

/-- A course of throws that ends with a value or an error. -/
inductive Evaluation (α : Type) : Type 1 where
  | done (value : α)
  | fail (error : EvalError)
  /-- Throws dice and goes on with the result, off which the dice written down are read. A throw that
  is refused leaves no record. -/
  | throwing {β : Type} (throw : Throw β) (record : β → List Die) (next : β → Evaluation α)

structure Table (σ : Type) where
  roller : Roller σ
  recorded : List Die := []

namespace Evaluation

variable {α β γ : Type}

def bind : Evaluation α → (α → Evaluation β) → Evaluation β
  | done value, f => f value
  | fail error, _ => fail error
  | throwing throw record next, f => throwing throw record fun result => (next result).bind f

instance : Monad Evaluation where
  pure := done
  bind := bind

theorem bind_done (evaluation : Evaluation α) : evaluation.bind done = evaluation := by
  induction evaluation with
  | done | fail => rfl
  | throwing throw record next ih => simp only [bind, ih]

theorem bind_assoc (evaluation : Evaluation α) (f : α → Evaluation β) (g : β → Evaluation γ) :
    (evaluation.bind f).bind g = evaluation.bind fun a => (f a).bind g := by
  induction evaluation with
  | done | fail => rfl
  | throwing throw record next ih => simp only [bind, ih]

instance : LawfulMonad Evaluation :=
  LawfulMonad.mk' Evaluation bind_done (fun _ _ => rfl) bind_assoc

def ofExcept : Except EvalError α → Evaluation α
  | .ok value => done value
  | .error error => fail error

def ofThrow (throw : Throw α) (record : α → List Die) : Evaluation α := throwing throw record done

def run {σ : Type} [DiceSource σ] : Evaluation α → Table σ → Except EvalError α × Table σ
  | done value, table => (.ok value, table)
  | fail error, table => (.error error, table)
  | throwing throw record next, table =>
    match throw.run table.roller with
    | (.error e, roller) => (.error (.roll e), { table with roller })
    | (.ok (result, _), roller) => (next result).run ⟨roller, table.recorded ++ record result⟩

theorem run_bind {σ : Type} [DiceSource σ] (evaluation : Evaluation α) (f : α → Evaluation β)
    (table : Table σ) :
    (evaluation.bind f).run table =
      match evaluation.run table with
      | (.error e, table) => (.error e, table)
      | (.ok value, table) => (f value).run table := by
  induction evaluation generalizing table with
  | done | fail => rfl
  | throwing throw record next ih =>
    simp only [bind, run]
    split
    · rfl
    · exact ih _ _

end Evaluation

end DiceLanguage
