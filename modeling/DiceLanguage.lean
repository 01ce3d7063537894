import DiceLanguage.Dice.Cycle
import DiceLanguage.Dice.Script
import DiceLanguage.Execute
import DiceLanguage.Proofs.Print.Choice
import DiceLanguage.Proofs.Print.Compound
import DiceLanguage.Proofs.Replay
import DiceLanguage.Proofs.Limit
import DiceLanguage.Proofs.Grammar.Language
import DiceLanguage.Proofs.Grammar.WellFormed
import DiceLanguage.Proofs.Evaluation.Course
import DiceLanguage.Proofs.Evaluation.Exact
import DiceLanguage.Proofs.Evaluation.Lists
import DiceLanguage.Proofs.Evaluation.Records
import DiceLanguage.Proofs.Evaluation.Settled
import DiceLanguage.Proofs.Numbers
import DiceLanguage.Proofs.Typing
import DiceLanguage.Proofs.Rerolling
import DiceLanguage.Proofs.Threshold
import DiceLanguage.Proofs.Successes
import DiceLanguage.Proofs.Trace
import DiceLanguage.Proofs.Balance
import DiceLanguage.Proofs.Token.Cover
import DiceLanguage.Proofs.Grammar.Rejection
import DiceLanguage.Proofs.Chains
import DiceLanguage.Proofs.Division
import DiceLanguage.Proofs.Calculation
import DiceLanguage.Proofs.Evaluation.SinglePass
import DiceLanguage.Proofs.Classification
import DiceLanguage.Proofs.Secrecy
import DiceLanguage.Proofs.Print.Minimal
import DiceLanguage.Proofs.Dice.Account
import DiceLanguage.Proofs.Picks
import DiceLanguage.Proofs.Dice.Script
import DiceLanguage.Proofs.LetterCase
