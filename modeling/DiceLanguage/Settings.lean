namespace DiceLanguage

structure Settings where
  /-- At most so many waves, or dice in a chain. -/
  maxRerolls : Nat := 10000
  /-- At most so many dice in a command, rerolls included. -/
  maxDice : Nat := 1000
  gameId : String := "DiceBot"
  separator : String := " ＞ "
deriving DecidableEq, Repr

end DiceLanguage
