import DiceLanguage.Settings
import DiceLanguage.Dice.Die

namespace DiceLanguage

inductive Verdict where
  | success
  | failure
  /-- The command compares nothing. -/
  | unspecified
deriving DecidableEq, Repr

namespace Verdict

def ofBool : Bool → Verdict
  | true => success
  | false => failure

def word : Verdict → Option String
  | success => some "Success"
  | failure => some "Failure"
  | unspecified => none

end Verdict

structure Outcome where
  fragments : List String
  verdict : Verdict := .unspecified
deriving DecidableEq, Repr

structure Report where
  gameId : String
  fragments : List String
  separator : String
  rolledDice : List Die
  verdict : Verdict
  secret : Bool
deriving DecidableEq, Repr

def Outcome.report (outcome : Outcome) (settings : Settings) (secret : Bool)
    (rolledDice : List Die) : Report :=
  { gameId := settings.gameId
    fragments := outcome.fragments
    separator := settings.separator
    rolledDice
    verdict := outcome.verdict
    secret }

namespace Report

def message (report : Report) : String := report.separator.intercalate report.fragments

def print (report : Report) : String := report.gameId ++ " : " ++ report.message

def isSuccess (report : Report) : Bool := report.verdict == .success

def isFailure (report : Report) : Bool := report.verdict == .failure

end Report

end DiceLanguage
