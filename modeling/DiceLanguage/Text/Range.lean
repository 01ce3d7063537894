namespace DiceLanguage.Text

/-- A set of characters, as the first and last code point of each of its ranges. -/
abbrev CharRanges := List (Nat × Nat)

def CharRanges.contains (ranges : CharRanges) (c : Char) : Bool :=
  ranges.any fun (first, last) => first ≤ c.toNat && c.toNat ≤ last

end DiceLanguage.Text
