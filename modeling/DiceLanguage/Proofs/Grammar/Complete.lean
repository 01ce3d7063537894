import DiceLanguage.Proofs.Grammar.Outcome
import DiceLanguage.Proofs.Node.Arithmetic

namespace DiceLanguage.Grammar

def StopsFactor (rest : List Token) : Prop :=
  ∀ token ∈ rest.head?, token.kind.startsOperand = false ∧ ∀ letter, token.kind ≠ .letter letter

/-- The tokens do not go on with what the rule has read. -/
def Rule.Stops (rule : Rule) (rest : List Token) : Prop :=
  match rule with
  | .operand => True
  | .rolls => ∀ token ∈ rest.head?, token.kind ≠ .leftBracket
  | .signed => ∀ token tail, rest = token :: tail →
      token.kind ≠ .leftBracket ∧ rollKind? token tail = none
  | .product => StopsFactor rest
  | .sum => StopsFactor rest ∧ ∀ token ∈ rest.head?, token.kind ≠ .times ∧ token.kind ≠ .slash

def Rule.read (rule : Rule) (context : Context) (tokens : List Token) :
    Except ParseError (Node × List Token) :=
  match rule with
  | .sum => outcome (Grammar.sum context tokens)
  | .product => outcome (Grammar.product context tokens)
  | .signed => outcome (Grammar.signed context tokens)
  | .rolls => outcome (Grammar.rolls context tokens)
  | .operand => outcome (Grammar.operand context tokens)

def Rule.resume (rule : Rule) (context : Context) (node : Node) (rest : List Token) :
    Except ParseError (Node × List Token) :=
  match rule with
  | .sum => outcome (sumTail context node rest)
  | .product => outcome (productTail context node rest)
  | .rolls => outcome (rollsTail context node rest)
  | .signed | .operand => .ok (node, rest)

variable {context : Context}

theorem resume_product_stops {node : Node} {rest : List Token}
    (stops : Rule.sum.Stops rest) : Rule.product.resume context node rest = .ok (node, rest) := by
  cases rest with
  | nil => exact outcome_productTail_nil context node
  | cons token rest =>
    have factor := stops.2 token rfl
    change outcome (productTail context node (token :: rest)) = _
    rw [outcome_productTail]
    split
    · exact absurd ‹_› factor.1
    · exact absurd ‹_› factor.2
    · rfl

theorem resume_rolls_stops {node : Node} {rest : List Token}
    (stops : Rule.signed.Stops rest) : Rule.rolls.resume context node rest = .ok (node, rest) := by
  cases rest with
  | nil => exact outcome_rollsTail_nil context node
  | cons token rest =>
    change outcome (rollsTail context node (token :: rest)) = _
    rw [outcome_rollsTail, (stops token rest rfl).2]

theorem rollKind?_other {token : Token} {rest : List Token}
    (other : ∀ letter, token.kind ≠ .letter letter) : rollKind? token rest = none := by
  unfold rollKind?
  split <;> first | exact absurd ‹_› (other _) | rfl

theorem signed_stops_of_factor {rest : List Token} (stops : StopsFactor rest) :
    Rule.signed.Stops rest := by
  intro token tail same
  subst same
  obtain ⟨noOperand, noLetter⟩ := stops token rfl
  constructor
  · intro bracket
    rw [bracket] at noOperand
    cases noOperand
  · exact rollKind?_other noLetter

theorem rolls_stops_of_signed {rest : List Token} (stops : Rule.signed.Stops rest) :
    Rule.rolls.Stops rest := by
  intro token first
  cases rest with
  | nil => cases first
  | cons head tail => cases first; exact (stops _ tail rfl).1

theorem signed_stops_of_suffix {rounding : Rounding} {marks rest : List Token}
    (suffix : Suffix rounding marks) (stops : StopsFactor rest) :
    Rule.signed.Stops (marks ++ rest) := by
  have noOperand : operandFollows rest = false := by
    cases rest with
    | nil => rfl
    | cons token rest => exact (stops token rfl).1
  cases suffix with
  | down => exact signed_stops_of_factor stops
  | nearest letter =>
    intro token tail same
    cases same
    exact ⟨by rw [letter]; decide, by simp [rollKind?, letter, noOperand]⟩
  | up letter =>
    intro token tail same
    cases same
    exact ⟨by rw [letter]; decide, by simp [rollKind?, letter, noOperand]⟩

theorem rounding_suffix {method : Rounding} {marks rest : List Token}
    (suffix : Suffix method marks) (stops : StopsFactor rest) :
    (rounding (marks ++ rest)).value = method ∧ (rounding (marks ++ rest)).rest = rest := by
  cases suffix with
  | down =>
    cases rest with
    | nil => exact ⟨rfl, rfl⟩
    | cons token rest =>
      have noLetter := (stops token rfl).2
      simp only [List.nil_append, rounding]
      split
      · exact absurd ‹_› (noLetter _)
      · exact absurd ‹_› (noLetter _)
      · exact ⟨rfl, rfl⟩
  | nearest letter => simp [rounding, letter]
  | up letter => simp [rounding, letter]

def Closes (kind : TokenKind) : Prop :=
  kind = .rightParen ∨ kind = .rightBracket ∨ kind = .ellipsis ∨ ∃ relation, kind = .relation relation

def endsTerm : TokenKind → Bool
  | .plus | .minus | .rightParen | .rightBracket | .ellipsis | .relation _ => true
  | _ => false

theorem sum_stops_cons {token : Token} {rest : List Token} (ends : endsTerm token.kind = true) :
    Rule.sum.Stops (token :: rest) := by
  constructor
  · intro first same
    cases same
    unfold endsTerm at ends
    split at ends <;> simp_all <;> rfl
  · intro first same
    cases same
    unfold endsTerm at ends
    split at ends <;> simp_all

theorem sum_stops_of_join {token : Token} {rest : List Token} {op : BinaryOp}
    (joins : sumOp? token.kind = some op) : Rule.sum.Stops (token :: rest) := by
  apply sum_stops_cons
  rcases sumOp?_cases joins with ⟨plus, -⟩ | ⟨minus, -⟩
  · rw [plus]
    rfl
  · rw [minus]
    rfl

theorem sum_stops_of_closes {token : Token} {rest : List Token} (closes : Closes token.kind) :
    Rule.sum.Stops (token :: rest) := by
  apply sum_stops_cons
  rcases closes with same | same | same | ⟨relation, same⟩ <;> rw [same] <;> rfl

theorem resume_sum_closes {node : Node} {token : Token} {rest : List Token}
    (closes : Closes token.kind) :
    Rule.sum.resume context node (token :: rest) = .ok (node, token :: rest) := by
  change outcome (sumTail context node (token :: rest)) = _
  rw [outcome_sumTail]
  rcases closes with same | same | same | ⟨relation, same⟩ <;> rw [same] <;> rfl

theorem product_stops_of_operator {token : Token} {rest : List Token}
    (operator : token.kind = .times ∨ token.kind = .slash) : Rule.product.Stops (token :: rest) := by
  intro first same
  cases same
  rcases operator with same | same <;> simp [same] <;> rfl

theorem rollKind?_letter {token : Token} {rest : List Token} {kind : RollKind}
    (family : token.kind = .letter kind.letter) (follows : operandFollows rest = true) :
    rollKind? token rest = some kind := by
  cases kind <;> simp only [RollKind.letter] at family <;> simp [rollKind?, family, follows]

theorem operandFollows_append {tokens rest : List Token} {x : Node}
    (single : Derives .operand tokens x) : operandFollows (tokens ++ rest) = true := by
  obtain ⟨first, tail, rfl, starts⟩ := single.startsOperand (.inr rfl)
  exact starts

theorem outcome_expect_found {kind : TokenKind} {token : Token} {rest : List Token}
    (found : token.kind = kind) : outcome (expect context kind (token :: rest)) = .ok (token, rest) := by
  rw [outcome_expect, if_pos found]

theorem Derives.read {rule : Rule} {tokens : List Token} {node : Node}
    (derives : Derives rule tokens node)
    (constant : context.constantOnly = true → node.isVariable = false) {rest : List Token}
    (stops : rule.Stops rest) :
    rule.read context (tokens ++ rest) = rule.resume context node rest := by
  -- A part stops at the operator behind it, so what stands behind has to vary along the derivation.
  induction derives generalizing rest with
  | product term ih =>
    change outcome (Grammar.sum context _) = _
    rw [outcome_sum]
    change Rule.product.read context _ >>= _ = _
    rw [ih constant stops.1, resume_product_stops stops]
    rfl
  | @join left right sign op x y earlier joins term ihEarlier ihTerm =>
    have noDice := fun only => Node.constant_parts (constant only)
    rw [List.append_assoc, List.cons_append,
      ihEarlier (fun only => (noDice only).1) (sum_stops_of_join joins)]
    change outcome (sumTail context x _) = _
    rw [outcome_sumTail, joins]
    change Rule.product.read context _ >>= _ = _
    rw [ihTerm (fun only => (noDice only).2) stops.1, resume_product_stops stops]
    rfl
  | signed factor ih =>
    change outcome (Grammar.product context _) = _
    rw [outcome_product]
    change Rule.signed.read context _ >>= _ = _
    rw [ih constant (signed_stops_of_factor stops)]
    rfl
  | @multiply left right sign x y earlier times factor ihEarlier ihFactor =>
    have noDice := fun only => Node.constant_parts (constant only)
    rw [List.append_assoc, List.cons_append,
      ihEarlier (fun only => (noDice only).1) (product_stops_of_operator (.inl times))]
    change outcome (productTail context x _) = _
    rw [outcome_productTail, times]
    change Rule.signed.read context _ >>= _ = _
    rw [ihFactor (fun only => (noDice only).2) (signed_stops_of_factor stops)]
    rfl
  | @divide left right marks sign x y method earlier slash divisor suffix ihEarlier ihDivisor =>
    have noDice := fun only => Node.constant_parts (constant only)
    rw [List.append_assoc, List.cons_append, List.append_assoc,
      ihEarlier (fun only => (noDice only).1) (product_stops_of_operator (.inr slash))]
    change outcome (productTail context x _) = _
    rw [outcome_productTail, slash]
    change Rule.signed.read context _ >>= _ = _
    -- The divisor stops at the letter that rounds, which `rounding` then takes off.
    rw [ihDivisor (fun only => (noDice only).2) (signed_stops_of_suffix suffix stops)]
    change outcome (productTail context (.binary (.divide (rounding _).value) x y) _) = _
    rw [(rounding_suffix suffix stops).1, (rounding_suffix suffix stops).2]
    rfl
  | rolls unsigned ih =>
    obtain ⟨first, tail, rfl, starts⟩ := unsigned.startsOperand (.inl rfl)
    have noSign : first.kind ≠ .minus := by
      intro minus
      rw [minus] at starts
      cases starts
    change outcome (Grammar.signed context (first :: (tail ++ rest))) = _
    rw [outcome_signed context first _ noSign]
    exact (ih constant (rolls_stops_of_signed stops)).trans (resume_rolls_stops stops)
  | neg minus negated ih =>
    rw [List.cons_append]
    change outcome (Grammar.signed context (_ :: _)) = _
    rw [outcome_signed_minus context _ _ minus]
    change Rule.signed.read context _ >>= _ = _
    rw [ih constant stops]
    rfl
  | operand single ih =>
    change outcome (Grammar.rolls context _) = _
    rw [outcome_rolls]
    change Rule.operand.read context _ >>= _ = _
    rw [ih constant trivial]
    rfl
  | @roll left right letter kind x y count family sides ihCount ihSides =>
    have free : ¬ context.constantOnly = true := fun only => by cases constant only
    have bracket : Rule.rolls.Stops (letter :: (right ++ rest)) := by
      intro first same
      cases same
      simp [family]
    rw [List.append_assoc, List.cons_append, ihCount (fun only => absurd only free) bracket]
    change outcome (rollsTail context x _) = _
    rw [outcome_rollsTail, rollKind?_letter family (operandFollows_append sides)]
    simp only [if_neg free]
    change Rule.operand.read context _ >>= _ = _
    rw [ihSides (fun only => absurd only free) trivial]
    change outcome (threshold context kind rest) >>= _ = _
    -- No bracket stands behind the sides, or it would have been read as a threshold.
    have without : outcome (threshold context kind rest) = .ok (none, rest) := by
      cases rest with
      | nil => exact outcome_threshold_nil context kind
      | cons token rest =>
        have noBracket := stops token rfl
        rw [outcome_threshold, if_neg (by simp [noBracket])]
    rw [without]
    rfl
  | @thresholdRoll left right inner letter opening closing kind x y z count family sides allowed
      opens limit closes ihCount ihSides ihLimit =>
    have free : ¬ context.constantOnly = true := fun only => by cases constant only
    have bracket : Rule.rolls.Stops
        (letter :: (right ++ opening :: (inner ++ closing :: rest))) := by
      intro first same
      cases same
      simp [family]
    simp only [List.append_assoc, List.cons_append, List.nil_append]
    rw [ihCount (fun only => absurd only free) bracket]
    change outcome (rollsTail context x _) = _
    rw [outcome_rollsTail, rollKind?_letter family (operandFollows_append sides)]
    simp only [if_neg free]
    change Rule.operand.read context _ >>= _ = _
    rw [ihSides (fun only => absurd only free) trivial]
    change outcome (threshold context kind _) >>= _ = _
    have closed : Closes closing.kind := .inr (.inl closes)
    rw [outcome_threshold, if_pos (by simp [allowed, opens])]
    change (Rule.sum.read context _ >>= _) >>= _ = _
    rw [ihLimit (fun only => absurd only free) (sum_stops_of_closes closed), resume_sum_closes closed]
    change (outcome (expect context .rightBracket (closing :: rest)) >>= _) >>= _ = _
    rw [outcome_expect_found closes]
    rfl
  | integer digits fits =>
    change outcome (Grammar.operand context (_ :: rest)) = _
    rw [outcome_operand, digits]
    simp only [Grammar.integer, checked_eq_some_iff.mpr ⟨fits, rfl⟩]
    rfl
  | @enclosed inner opening closing x opens whole closes ih =>
    have closed : Closes closing.kind := .inl closes
    simp only [List.append_assoc, List.cons_append, List.nil_append]
    change outcome (Grammar.operand context (_ :: _)) = _
    rw [outcome_operand, opens]
    change Rule.sum.read context _ >>= _ = _
    rw [ih constant (sum_stops_of_closes closed), resume_sum_closes closed]
    change outcome (expect context .rightParen (closing :: rest)) >>= _ = _
    rw [outcome_expect_found closes]
    rfl
  | @random left right opening dots closing x y opens least between greatest closes ihLeast
      ihGreatest =>
    have free : ¬ context.constantOnly = true := fun only => by cases constant only
    have dotted : Closes dots.kind := .inr (.inr (.inl between))
    have closed : Closes closing.kind := .inr (.inl closes)
    simp only [List.append_assoc, List.cons_append, List.nil_append]
    change outcome (Grammar.operand context (_ :: _)) = _
    rw [outcome_operand, opens]
    simp only [if_neg free]
    change Rule.sum.read context _ >>= _ = _
    rw [ihLeast (fun only => absurd only free) (sum_stops_of_closes dotted), resume_sum_closes dotted]
    change outcome (expect context .ellipsis (dots :: _)) >>= _ = _
    rw [outcome_expect_found between]
    change Rule.sum.read context _ >>= _ = _
    rw [ihGreatest (fun only => absurd only free) (sum_stops_of_closes closed), resume_sum_closes closed]
    change outcome (expect context .rightBracket (closing :: rest)) >>= _ = _
    rw [outcome_expect_found closes]
    rfl

end DiceLanguage.Grammar
