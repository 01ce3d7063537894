import DiceLanguage.Proofs.Grammar.Derivation

namespace DiceLanguage.Grammar

/-- What a rule has read, and the tokens behind it. -/
def outcome {α : Type} {n : Nat} (reading : Except ParseError (Step α n)) :
    Except ParseError (α × List Token) :=
  reading.map fun step => (step.value, step.rest)

theorem eq_of_outcome {α : Type} {n : Nat} {reading : Except ParseError (Step α n)} {value : α}
    {rest : List Token} (read : outcome reading = .ok (value, rest)) :
    ∃ shorter, reading = .ok ⟨value, rest, shorter⟩ := by
  cases reading with
  | error => cases read
  | ok step => cases read; exact ⟨step.shorter, rfl⟩

theorem bind_ok {ε α β : Type} {first : Except ε α} {next : α → Except ε β}
    {result : β} (succeeds : first >>= next = .ok result) :
    ∃ value, first = .ok value ∧ next value = .ok result := by
  cases first with
  | error => cases succeeds
  | ok value => exact ⟨value, rfl, succeeds⟩

theorem bind_error {ε α β : Type} {first : Except ε α} {next : α → Except ε β} {error : ε}
    (fails : first >>= next = .error error) :
    first = .error error ∨ ∃ value, first = .ok value ∧ next value = .error error := by
  cases first with
  | error => exact .inl (Except.error.inj fails ▸ rfl)
  | ok value => exact .inr ⟨value, rfl, fails⟩

theorem ok_of_toOption {ε α : Type} {result : Except ε α} {value : α}
    (found : result.toOption = some value) : result = .ok value := by
  cases result with
  | error => cases found
  | ok => cases found; rfl

section Bind

variable {α β : Type} {n m : Nat} {reading : Except ParseError (Step α n)}

theorem outcome_bind {next : Step α n → Except ParseError (Step β m)}
    {f : α × List Token → Except ParseError (β × List Token)}
    (same : ∀ value rest shorter, outcome (next ⟨value, rest, shorter⟩) = f (value, rest)) :
    outcome (reading >>= next) = outcome reading >>= f := by
  cases reading with
  | error => rfl
  | ok step => exact same step.value step.rest step.shorter

theorem outcome_last {next : Step α n → Except ParseError (Step α m)}
    (same : ∀ value rest shorter, outcome (next ⟨value, rest, shorter⟩) = .ok (value, rest)) :
    outcome (reading >>= next) = outcome reading := by
  cases reading with
  | error => rfl
  | ok step => exact same step.value step.rest step.shorter

end Bind

variable (context : Context)

theorem outcome_expect (kind : TokenKind) (token : Token) (rest : List Token) :
    outcome (expect context kind (token :: rest)) =
      if token.kind = kind then .ok (token, rest)
      else .error (context.unexpected (token :: rest) [kind]) := by
  by_cases found : token.kind = kind <;> simp only [expect, found] <;> rfl

theorem outcome_sum (tokens : List Token) :
    outcome (sum context tokens) =
      outcome (product context tokens) >>= fun (first, rest) =>
        outcome (sumTail context first rest) := by
  rw [sum]
  apply outcome_bind
  intro first rest shorter
  exact outcome_last fun _ _ _ => rfl

theorem outcome_sumTail_nil (left : Node) :
    outcome (sumTail context left []) = .ok (left, []) := by
  rw [sumTail]
  rfl

theorem outcome_sumTail (left : Node) (token : Token) (rest : List Token) :
    outcome (sumTail context left (token :: rest)) =
      match sumOp? token.kind with
      | none => .ok (left, token :: rest)
      | some op =>
        outcome (product context rest) >>= fun (right, rest) =>
          outcome (sumTail context (.binary op left right) rest) := by
  rw [sumTail]
  cases token.kind with
  | plus | minus =>
    apply outcome_bind
    intro right rest shorter
    exact outcome_last fun _ _ _ => rfl
  | _ => rfl

theorem outcome_product (tokens : List Token) :
    outcome (product context tokens) =
      outcome (signed context tokens) >>= fun (first, rest) =>
        outcome (productTail context first rest) := by
  rw [product]
  apply outcome_bind
  intro first rest shorter
  exact outcome_last fun _ _ _ => rfl

theorem outcome_productTail_nil (left : Node) :
    outcome (productTail context left []) = .ok (left, []) := by
  rw [productTail]
  rfl

theorem outcome_productTail (left : Node) (token : Token) (rest : List Token) :
    outcome (productTail context left (token :: rest)) =
      match token.kind with
      | .times =>
        outcome (signed context rest) >>= fun (right, rest) =>
          outcome (productTail context (.binary .multiply left right) rest)
      | .slash =>
        outcome (signed context rest) >>= fun (right, rest) =>
          outcome (productTail context (.binary (.divide (rounding rest).value) left right)
            (rounding rest).rest)
      | _ => .ok (left, token :: rest) := by
  rw [productTail]
  cases token.kind with
  | times | slash =>
    apply outcome_bind
    intro right rest shorter
    exact outcome_last fun _ _ _ => rfl
  | _ => rfl

theorem outcome_signed_minus (token : Token) (rest : List Token) (minus : token.kind = .minus) :
    outcome (signed context (token :: rest)) =
      outcome (signed context rest) >>= fun (operand, rest) => .ok (.neg operand, rest) := by
  rw [signed, if_pos minus]
  exact outcome_bind fun _ _ _ => rfl

theorem outcome_signed (token : Token) (rest : List Token) (unsigned : token.kind ≠ .minus) :
    outcome (signed context (token :: rest)) = outcome (rolls context (token :: rest)) := by
  rw [signed, if_neg unsigned]

theorem outcome_signed_nil : outcome (signed context []) = outcome (rolls context []) := by
  rw [signed]

theorem outcome_rolls (tokens : List Token) :
    outcome (rolls context tokens) =
      outcome (operand context tokens) >>= fun (first, rest) =>
        outcome (rollsTail context first rest) := by
  rw [rolls]
  apply outcome_bind
  intro first rest shorter
  exact outcome_last fun _ _ _ => rfl

theorem outcome_rollsTail_nil (count : Node) :
    outcome (rollsTail context count []) = .ok (count, []) := by
  rw [rollsTail]
  rfl

theorem outcome_rollsTail (count : Node) (token : Token) (rest : List Token) :
    outcome (rollsTail context count (token :: rest)) =
      match rollKind? token rest with
      | none => .ok (count, token :: rest)
      | some kind =>
        if context.constantOnly then .error (.of token .diceInCalculation)
        else
          outcome (operand context rest) >>= fun (sides, rest) =>
            outcome (threshold context kind rest) >>= fun (limit, rest) =>
              outcome (rollsTail context (Roll.toNode ⟨kind, count, sides, limit⟩) rest) := by
  rw [rollsTail]
  cases rollKind? token rest with
  | none => rfl
  | some kind =>
    simp only
    split
    · rfl
    · apply outcome_bind
      intro sides rest shorter
      apply outcome_bind
      intro limit rest shorter
      exact outcome_last fun _ _ _ => rfl

theorem outcome_threshold_nil (kind : RollKind) :
    outcome (threshold context kind []) = .ok (none, []) := by
  rw [threshold]
  rfl

theorem outcome_threshold (kind : RollKind) (token : Token) (rest : List Token) :
    outcome (threshold context kind (token :: rest)) =
      if kind.takesThreshold && token.kind = .leftBracket then
        outcome (sum context rest) >>= fun (limit, rest) =>
          outcome (expect context .rightBracket rest) >>= fun (_, rest) => .ok (some limit, rest)
      else .ok (none, token :: rest) := by
  rw [threshold]
  split
  · apply outcome_bind
    intro limit rest shorter
    exact outcome_bind fun _ _ _ => rfl
  · rfl

theorem outcome_operand_nil :
    outcome (operand context []) = .error (context.unexpected [] TokenKind.operandStarts) := by
  rw [operand]
  rfl

theorem outcome_operand (token : Token) (rest : List Token) :
    outcome (operand context (token :: rest)) =
      match token.kind with
      | .integer => integer token >>= fun value => .ok (value, rest)
      | .leftParen =>
        outcome (sum context rest) >>= fun (inner, rest) =>
          outcome (expect context .rightParen rest) >>= fun (_, rest) => .ok (inner, rest)
      | .leftBracket =>
        if context.constantOnly then .error (.of token .randomNumberInCalculation)
        else
          outcome (sum context rest) >>= fun (least, rest) =>
            outcome (expect context .ellipsis rest) >>= fun (_, rest) =>
              outcome (sum context rest) >>= fun (greatest, rest) =>
                outcome (expect context .rightBracket rest) >>= fun (_, rest) =>
                  .ok (.random least greatest, rest)
      | _ => .error (context.unexpected (token :: rest) TokenKind.operandStarts) := by
  rw [operand]
  cases token.kind with
  | integer =>
    simp only
    rcases integer token with error | value <;> rfl
  | leftParen =>
    apply outcome_bind
    intro inner rest shorter
    exact outcome_bind fun _ _ _ => rfl
  | leftBracket =>
    simp only
    split
    · rfl
    · apply outcome_bind
      intro least rest shorter
      apply outcome_bind
      intro dots rest shorter
      apply outcome_bind
      intro greatest rest shorter
      exact outcome_bind fun _ _ _ => rfl
  | _ => rfl

end DiceLanguage.Grammar
