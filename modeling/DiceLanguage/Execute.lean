import DiceLanguage.Command.Play
import DiceLanguage.Dice.Random
import DiceLanguage.Grammar.Statement

namespace DiceLanguage

inductive CommandError where
  | parse (error : ParseError)
  | eval (error : EvalError)
deriving DecidableEq, Repr

def CommandError.message : CommandError → String
  | parse error => error.message
  | eval error => error.message

section

variable {σ : Type} [DiceSource σ]

/-- Executes a statement with a roller, which is limited to the dice of one command. -/
def Statement.execute (statement : Statement) (settings : Settings) (roller : Roller σ) :
    Except EvalError Report × Roller σ :=
  let table : Table σ := { roller := roller.limitTo settings.maxDice }
  match (statement.command.play settings.maxRerolls).run table with
  | (.error e, table) => (.error e, table.roller)
  | (.ok outcome, table) =>
    (.ok (outcome.report settings statement.secret table.recorded), table.roller)

def execute (text : String) (settings : Settings) (roller : Roller σ) :
    Except CommandError Report × Roller σ :=
  match Statement.parse text with
  | .error e => (.error (.parse e), roller)
  | .ok statement =>
    let (result, roller) := statement.execute settings roller
    (result.mapError .eval, roller)

end

def roll (text : String) (seed : Nat) : Except CommandError Report :=
  (execute text {} { source := RandomDice.ofSeed seed : Roller RandomDice }).1

end DiceLanguage
