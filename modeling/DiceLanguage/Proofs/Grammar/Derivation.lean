import DiceLanguage.Grammar.Expression

namespace DiceLanguage.Grammar

inductive Rule where
  | sum
  | product
  | signed
  | rolls
  | operand
deriving DecidableEq, Repr

def sumOp? : TokenKind → Option BinaryOp
  | .plus => some .add
  | .minus => some .subtract
  | _ => none

theorem sumOp?_eq_none {kind : TokenKind} (noPlus : kind ≠ .plus) (noMinus : kind ≠ .minus) :
    sumOp? kind = none := by
  cases kind <;> first | rfl | contradiction

theorem sumOp?_cases {kind : TokenKind} {op : BinaryOp} (joins : sumOp? kind = some op) :
    kind = .plus ∧ op = .add ∨ kind = .minus ∧ op = .subtract := by
  unfold sumOp? at joins
  split at joins <;> cases joins
  · exact .inl ⟨rfl, rfl⟩
  · exact .inr ⟨rfl, rfl⟩

inductive Suffix : Rounding → List Token → Prop where
  | down : Suffix .down []
  | nearest {mark : Token} (letter : mark.kind = .letter .r) : Suffix .nearest [mark]
  | up {mark : Token} (letter : mark.kind = .letter .u) : Suffix .up [mark]

/-- The tokens have the form of the rule and stand for the node. -/
inductive Derives : Rule → List Token → Node → Prop where
  | product {tokens : List Token} {x : Node} (term : Derives .product tokens x) :
    Derives .sum tokens x
  | join {left right : List Token} {sign : Token} {op : BinaryOp} {x y : Node}
    (earlier : Derives .sum left x) (joins : sumOp? sign.kind = some op)
    (term : Derives .product right y) :
    Derives .sum (left ++ sign :: right) (.binary op x y)
  | signed {tokens : List Token} {x : Node} (factor : Derives .signed tokens x) :
    Derives .product tokens x
  | multiply {left right : List Token} {sign : Token} {x y : Node}
    (earlier : Derives .product left x) (times : sign.kind = .times)
    (factor : Derives .signed right y) :
    Derives .product (left ++ sign :: right) (.binary .multiply x y)
  | divide {left right marks : List Token} {sign : Token} {x y : Node} {rounding : Rounding}
    (earlier : Derives .product left x) (slash : sign.kind = .slash)
    (divisor : Derives .signed right y) (suffix : Suffix rounding marks) :
    Derives .product (left ++ sign :: (right ++ marks)) (.binary (.divide rounding) x y)
  | rolls {tokens : List Token} {x : Node} (unsigned : Derives .rolls tokens x) :
    Derives .signed tokens x
  | neg {tokens : List Token} {sign : Token} {x : Node} (minus : sign.kind = .minus)
    (negated : Derives .signed tokens x) : Derives .signed (sign :: tokens) (.neg x)
  | operand {tokens : List Token} {x : Node} (single : Derives .operand tokens x) :
    Derives .rolls tokens x
  | roll {left right : List Token} {letter : Token} {kind : RollKind} {x y : Node}
    (count : Derives .rolls left x) (family : letter.kind = .letter kind.letter)
    (sides : Derives .operand right y) :
    Derives .rolls (left ++ letter :: right) (.roll kind x y)
  | thresholdRoll {left right inner : List Token} {letter opening closing : Token}
    {kind : RollKind} {x y z : Node}
    (count : Derives .rolls left x) (family : letter.kind = .letter kind.letter)
    (sides : Derives .operand right y) (allowed : kind.takesThreshold = true)
    (opens : opening.kind = .leftBracket) (limit : Derives .sum inner z)
    (closes : closing.kind = .rightBracket) :
    Derives .rolls (left ++ letter :: (right ++ opening :: (inner ++ [closing])))
      (.thresholdRoll kind x y z)
  | integer {token : Token} (digits : token.kind = .integer)
    (fits : Fits (Nat.ofDigitChars 10 token.literal.toList 0)) :
    Derives .operand [token] (.int (Nat.ofDigitChars 10 token.literal.toList 0))
  | enclosed {inner : List Token} {opening closing : Token} {x : Node}
    (opens : opening.kind = .leftParen) (whole : Derives .sum inner x)
    (closes : closing.kind = .rightParen) :
    Derives .operand (opening :: (inner ++ [closing])) x
  | random {left right : List Token} {opening dots closing : Token} {x y : Node}
    (opens : opening.kind = .leftBracket) (least : Derives .sum left x)
    (between : dots.kind = .ellipsis) (greatest : Derives .sum right y)
    (closes : closing.kind = .rightBracket) :
    Derives .operand (opening :: (left ++ dots :: (right ++ [closing]))) (.random x y)

namespace Derives

variable {tokens : List Token} {x : Node}

theorem begins {rule : Rule} (derives : Derives rule tokens x) :
    ∃ first rest, tokens = first :: rest ∧ (first.kind.startsOperand = true ∨
      first.kind = .minus ∧ rule ≠ .rolls ∧ rule ≠ .operand) := by
  induction derives with
  | product term ih | signed factor ih =>
    obtain ⟨first, rest, same, starts⟩ := ih
    exact ⟨first, rest, same, starts.imp_right fun minus => ⟨minus.1, nofun, nofun⟩⟩
  | join earlier joins term ih | multiply earlier times factor ih
  | divide earlier slash divisor suffix ih =>
    obtain ⟨first, rest, rfl, starts⟩ := ih
    exact ⟨first, _, rfl, starts⟩
  | neg minus negated => exact ⟨_, _, rfl, .inr ⟨minus, nofun, nofun⟩⟩
  | rolls unsigned ih =>
    obtain ⟨first, rest, same, starts⟩ := ih
    exact ⟨first, rest, same, starts.imp_right fun minus => absurd rfl minus.2.1⟩
  | operand single ih =>
    obtain ⟨first, rest, same, starts⟩ := ih
    exact ⟨first, rest, same, starts.imp_right fun minus => absurd rfl minus.2.2⟩
  | roll count family sides ih | thresholdRoll count family sides allowed opens limit closes ih =>
    obtain ⟨first, rest, rfl, starts⟩ := ih
    exact ⟨first, _, rfl, starts⟩
  | integer digits fits => exact ⟨_, _, rfl, .inl (by rw [digits]; rfl)⟩
  | enclosed opens whole closes => exact ⟨_, _, rfl, .inl (by rw [opens]; rfl)⟩
  | random opens least between greatest closes => exact ⟨_, _, rfl, .inl (by rw [opens]; rfl)⟩

theorem startsOperand {rule : Rule} (derives : Derives rule tokens x)
    (unsigned : rule = .rolls ∨ rule = .operand) :
    ∃ first rest, tokens = first :: rest ∧ first.kind.startsOperand = true := by
  obtain ⟨first, rest, same, starts | ⟨-, noRolls, noOperand⟩⟩ := derives.begins
  · exact ⟨first, rest, same, starts⟩
  · exact absurd unsigned (by simp [noRolls, noOperand])

end Derives

end DiceLanguage.Grammar
