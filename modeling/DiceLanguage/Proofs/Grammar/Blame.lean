import DiceLanguage.Proofs.Grammar.Language

namespace DiceLanguage

open Grammar

/-- No parenthesis is closed in the tokens that was not opened in them. -/
def Unclosed (tokens : List Token) : Prop :=
  ∀ front, front <+: tokens →
    front.countP (·.kind == .rightParen) ≤ front.countP (·.kind == .leftParen)

/-- What stands behind these tokens is inside the parentheses of a calculation. -/
def InCalculation (before : List Token) : Prop :=
  ∃ secret lead inner, before = lead ++ inner ∧ CalculationLead secret lead ∧ Unclosed inner

def Token.IsRelation (token : Token) : Prop := ∃ relation, token.kind = .relation relation

/-- What an error of the kind says is true of the token, which stands behind the others. -/
def ParseErrorKind.Concerns (before : List Token) (token : Token) : ParseErrorKind → Prop
  | unexpectedToken found expected => found = token.kind ∧ found ≠ .illegal ∧ found ∉ expected
  | illegalToken => token.kind = .illegal
  | integerOverflow =>
    token.kind = .integer ∧ maxInt < Nat.ofDigitChars 10 token.literal.toList 0
  | diceInCalculation =>
    token.kind ∈ [.letter .d, .letter .b, .letter .r, .letter .u] ∧ InCalculation before
  | randomNumberInCalculation => token.kind = .leftBracket ∧ InCalculation before
  | chainedComparison => token.IsRelation ∧ ∃ earlier ∈ before, earlier.IsRelation
  | emptyChoiceItem => BeginsItem before
  | noDiceRoll | mixedRollFamilies | misplacedThreshold | invalidModifier =>
    BeginsCommand before token

def Blames (last : Token) (lead tokens : List Token) (error : ParseError) : Prop :=
  ∃ before token after, tokens ++ [last] = before ++ token :: after ∧
    error.column = token.column ∧ error.literal = token.literal ∧
    error.kind.Concerns (lead ++ before) token

namespace Unclosed

variable {token opening closing : Token} {tokens more : List Token}

theorem nil : Unclosed [] := by
  intro front short
  rw [List.prefix_nil.mp short]
  exact Nat.le_refl 0

theorem single (noParen : token.kind ≠ .rightParen) : Unclosed [token] := by
  intro front short
  have none : front.countP (·.kind == .rightParen) = 0 := by
    rw [List.countP_eq_zero]
    intro t member
    rw [List.mem_singleton.mp (short.subset member)]
    simpa using noParen
  omega

theorem append (first : Unclosed tokens) (second : Unclosed more) : Unclosed (tokens ++ more) := by
  intro front short
  obtain ⟨rest, same⟩ := short
  rcases List.append_eq_append_iff.mp same with ⟨middle, within, -⟩ | ⟨behind, rfl, within⟩
  · exact first front ⟨middle, within.symm⟩
  · have whole := first tokens (List.prefix_refl _)
    have part := second behind ⟨rest, within.symm⟩
    rw [List.countP_append, List.countP_append]
    omega

theorem enclosed (opens : opening.kind = .leftParen) (inner : Unclosed tokens) :
    Unclosed (opening :: (tokens ++ [closing])) := by
  intro front short
  cases front with
  | nil => exact Nat.le_refl 0
  | cons first front =>
    rw [List.cons_prefix_cons] at short
    obtain ⟨rfl, rest, same⟩ := short
    rw [List.countP_cons_of_neg (by rw [opens]; decide), List.countP_cons_of_pos (by rw [opens]; rfl)]
    rcases List.append_eq_append_iff.mp same with ⟨middle, within, -⟩ | ⟨behind, rfl, within⟩
    · exact Nat.le_succ_of_le (inner front ⟨middle, within.symm⟩)
    · -- The closing parenthesis is one more than the tokens before it may close.
      have bound := inner tokens (List.prefix_refl _)
      have few := List.countP_le_length (p := (·.kind == .rightParen)) (l := behind)
      have length := congrArg List.length within
      rw [List.length_append, List.length_singleton] at length
      rw [List.countP_append, List.countP_append]
      omega

end Unclosed

theorem InCalculation.append {before used : List Token} (within : InCalculation before)
    (unclosed : Unclosed used) : InCalculation (before ++ used) := by
  obtain ⟨secret, lead, inner, rfl, leads, closed⟩ := within
  exact ⟨secret, lead, inner ++ used, List.append_assoc _ _ _, leads, closed.append unclosed⟩

theorem Blames.behind {last : Token} {lead used rest : List Token} {error : ParseError}
    (blames : Blames last (lead ++ used) rest error) : Blames last lead (used ++ rest) error := by
  obtain ⟨before, token, after, same, column, literal, concerns⟩ := blames
  refine ⟨used ++ before, token, after, ?_, column, literal, ?_⟩
  · rw [List.append_assoc, same, List.append_assoc]
  · rwa [← List.append_assoc]

theorem Blames.unexpected {context : Context} {lead tokens : List Token} {expected : List TokenKind}
    (other : (tokens.headD context.last).kind ∉ expected) :
    Blames context.last lead tokens (context.unexpected tokens expected) := by
  have concerns : (context.unexpected tokens expected).kind.Concerns lead
      (tokens.headD context.last) := by
    change ParseErrorKind.Concerns _ _ (if _ then _ else _)
    split
    · assumption
    · exact ⟨rfl, by assumption, other⟩
  rw [← List.append_nil lead] at concerns
  cases tokens with
  | nil => exact ⟨[], context.last, [], rfl, rfl, rfl, concerns⟩
  | cons token rest => exact ⟨[], token, rest ++ [context.last], rfl, rfl, rfl, concerns⟩

namespace Grammar

theorem expect_error {context : Context} {kind : TokenKind} {tokens : List Token}
    {error : ParseError} (ends : context.last.kind = .endOfText)
    (failed : outcome (expect context kind tokens) = .error error) (noEnd : kind ≠ .endOfText) :
    error = context.unexpected tokens [kind] ∧ (tokens.headD context.last).kind ∉ [kind] := by
  cases tokens with
  | nil =>
    cases failed
    exact ⟨rfl, by simpa [ends] using noEnd.symm⟩
  | cons token rest =>
    rw [outcome_expect] at failed
    split at failed
    · cases failed
    · rename_i other
      cases failed
      exact ⟨rfl, by simpa using other⟩

structure Reads {α : Type} (context : Context) (tokens : List Token)
    (result : Except ParseError (α × List Token)) : Prop where
  ok : ∀ value rest, result = .ok (value, rest) → ∃ used, tokens = used ++ rest ∧ Unclosed used
  error : ∀ error, result = .error error → ∀ lead,
    (context.constantOnly = true → InCalculation lead) → Blames context.last lead tokens error

namespace Reads

variable {α β : Type} {n : Nat} {context : Context} {token : Token} {tokens rest : List Token}
  {result : Except ParseError (α × List Token)}

theorem pure (value : α) : Reads context tokens (.ok (value, tokens)) where
  ok _ _ same := by
    cases same
    exact ⟨[], rfl, .nil⟩
  error _ same := by cases same

theorem append {used : List Token} (unclosed : Unclosed used) (reads : Reads context rest result) :
    Reads context (used ++ rest) result where
  ok value rest' same := by
    obtain ⟨used', rfl, unclosed'⟩ := reads.ok value rest' same
    exact ⟨used ++ used', (List.append_assoc _ _ _).symm, unclosed.append unclosed'⟩
  error error same lead inside :=
    (reads.error error same _ fun only => (inside only).append unclosed).behind

theorem behind (noParen : token.kind ≠ .rightParen) (reads : Reads context rest result) :
    Reads context (token :: rest) result :=
  reads.append (.single noParen)

theorem bind {reading : Except ParseError (Step α n)}
    {next : α × List Token → Except ParseError (β × List Token)}
    (first : Reads context tokens (outcome reading))
    (second : ∀ value (rest : List Token), rest.length < n → Reads context rest (next (value, rest))) :
    Reads context tokens (outcome reading >>= next) := by
  cases read : outcome reading with
  | error error =>
    refine ⟨nofun, fun error' same => ?_⟩
    cases same
    exact first.error error read
  | ok made =>
    obtain ⟨value, rest⟩ := made
    obtain ⟨used, rfl, unclosed⟩ := first.ok value rest read
    exact .append unclosed (second value rest (eq_of_outcome read).1)

theorem refuse {kind : ParseErrorKind}
    (concerns : ∀ lead, (context.constantOnly = true → InCalculation lead) → kind.Concerns lead token) :
    Reads context (token :: rest) (.error (.of token kind) : Except ParseError (α × List Token)) where
  ok _ _ same := by cases same
  error _ same lead inside := by
    cases same
    refine ⟨[], token, rest ++ [context.last], rfl, rfl, rfl, ?_⟩
    rw [List.append_nil]
    exact concerns lead inside

theorem integer (digits : token.kind = .integer) :
    Reads context (token :: rest) (Grammar.integer token >>= fun value => .ok (value, rest)) := by
  unfold Grammar.integer
  split
  · rename_i x inRange
    exact .behind (by simp [digits]) (.pure (Node.int x))
  · rename_i outside
    refine .refuse fun lead _ => ⟨digits, ?_⟩
    have beyond := checked_eq_none_iff.mp outside
    unfold Fits minInt at beyond
    omega

theorem rounded (reads : Reads context (rounding tokens).rest result) :
    Reads context tokens result := by
  cases tokens with
  | nil => exact reads
  | cons token rest =>
    simp only [rounding] at reads
    split at reads
    · rename_i letter
      exact .behind (by simp [letter]) reads
    · rename_i letter
      exact .behind (by simp [letter]) reads
    · exact reads

theorem unexpected {expected : List TokenKind}
    (other : (tokens.headD context.last).kind ∉ expected) :
    Reads context tokens
      (.error (context.unexpected tokens expected) : Except ParseError (α × List Token)) where
  ok _ _ same := by cases same
  error _ same _ _ := by
    cases same
    exact .unexpected other

variable (ends : context.last.kind = .endOfText)
include ends

theorem expect (kind : TokenKind) (noParen : kind ≠ .rightParen) (noEnd : kind ≠ .endOfText)
    (tokens : List Token) : Reads context tokens (outcome (Grammar.expect context kind tokens)) := by
  cases found : outcome (Grammar.expect context kind tokens) with
  | error error =>
    obtain ⟨rfl, other⟩ := expect_error ends found noEnd
    exact .unexpected other
  | ok step =>
    obtain ⟨rfl, same⟩ := expect_ok found
    exact .behind (same ▸ noParen) (.pure step.1)

theorem enclosed {reading : Except ParseError (Step Node tokens.length)}
    (opens : token.kind = .leftParen) (inner : Reads context tokens (outcome reading)) :
    Reads context (token :: tokens)
      (outcome reading >>= fun (x, rest) =>
        outcome (Grammar.expect context .rightParen rest) >>= fun (_, rest) => .ok (x, rest)) := by
  have noParen : token.kind ≠ .rightParen := by
    rw [opens]
    exact nofun
  cases read : outcome reading with
  | error error => exact .behind noParen ⟨nofun, fun _ same => inner.error _ (read.trans same)⟩
  | ok made =>
    obtain ⟨x, rest⟩ := made
    obtain ⟨used, rfl, unclosed⟩ := inner.ok x rest read
    change Reads _ _ (outcome (Grammar.expect context .rightParen rest) >>= _)
    cases found : outcome (Grammar.expect context .rightParen rest) with
    | error error =>
      obtain ⟨rfl, other⟩ := expect_error ends found nofun
      exact .behind noParen (.append unclosed (.unexpected other))
    | ok step =>
      obtain ⟨closing, rest⟩ := step
      obtain ⟨rfl, -⟩ := expect_ok found
      have whole : token :: (used ++ closing :: rest) =
          token :: (used ++ [closing]) ++ rest := by simp
      rw [whole]
      exact .append (.enclosed opens unclosed) (.pure x)

end Reads

theorem rules_read {context : Context} (ends : context.last.kind = .endOfText) :
    (∀ tokens, Reads context tokens (outcome (sum context tokens))) ∧
    (∀ left tokens, Reads context tokens (outcome (sumTail context left tokens))) ∧
    (∀ tokens, Reads context tokens (outcome (product context tokens))) ∧
    (∀ left tokens, Reads context tokens (outcome (productTail context left tokens))) ∧
    (∀ tokens, Reads context tokens (outcome (signed context tokens))) ∧
    (∀ tokens, Reads context tokens (outcome (rolls context tokens))) ∧
    (∀ count tokens, Reads context tokens (outcome (rollsTail context count tokens))) ∧
    (∀ kind tokens, Reads context tokens (outcome (threshold context kind tokens))) ∧
    ∀ tokens, Reads context tokens (outcome (operand context tokens)) := by
  -- One case for each way through each rule; the calls of a rule give the hypotheses.
  refine sum.mutual_induct context _ _ _ _ _ _ _ _ _
    ?sum ?sumNil ?plus ?minus ?sumStop ?product ?productNil ?times ?slash ?productStop
    ?signedNil ?sign ?unsigned ?rolls ?rollsNil ?rollsStop ?constantRoll ?roll
    ?thresholdNil ?threshold ?noThreshold ?operandNil ?integer ?enclosed ?constantRandom ?random
    ?noOperand
  case sum =>
    intro tokens first behind
    rw [outcome_sum]
    exact first.bind behind
  case sumNil =>
    intro left
    rw [outcome_sumTail_nil]
    exact .pure left
  case plus =>
    intro left token rest plus term behind
    rw [outcome_sumTail, plus]
    exact .behind (by simp [plus]) (term.bind behind)
  case minus =>
    intro left token rest minus term behind
    rw [outcome_sumTail, minus]
    exact .behind (by simp [minus]) (term.bind behind)
  case sumStop =>
    intro left token rest noPlus noMinus
    rw [outcome_sumTail, sumOp?_eq_none noPlus noMinus]
    exact .pure left
  case product =>
    intro tokens first behind
    rw [outcome_product]
    exact first.bind behind
  case productNil =>
    intro left
    rw [outcome_productTail_nil]
    exact .pure left
  case times =>
    intro left token rest times factor behind
    rw [outcome_productTail, times]
    exact .behind (by simp [times]) (factor.bind behind)
  case slash =>
    intro left token rest slash divisor behind
    rw [outcome_productTail, slash]
    refine .behind (by simp [slash]) (divisor.bind fun right rest' shorter => ?_)
    exact .rounded (behind right rest' shorter _ _ (rounding rest').shorter)
  case productStop =>
    intro left token rest noTimes noSlash
    rw [outcome_productTail]
    split
    · exact (noTimes ‹_›).elim
    · exact (noSlash ‹_›).elim
    · exact .pure left
  case signedNil =>
    intro rolls
    rwa [outcome_signed_nil]
  case sign =>
    intro token rest minus operand
    rw [outcome_signed_minus context token rest minus]
    exact .behind (by simp [minus]) (operand.bind fun x rest' _ => .pure (Node.neg x))
  case unsigned =>
    intro token rest unsigned rolls
    rwa [outcome_signed context token rest unsigned]
  case rolls =>
    intro tokens first behind
    rw [outcome_rolls]
    exact first.bind behind
  case rollsNil =>
    intro count
    rw [outcome_rollsTail_nil]
    exact .pure count
  case rollsStop =>
    intro count token rest none
    rw [outcome_rollsTail, none]
    exact .pure count
  case constantRoll =>
    intro count token rest kind calls only
    rw [outcome_rollsTail, calls]
    simp only [only, if_true]
    refine .refuse fun lead inside => ⟨?_, inside only⟩
    rw [rollKind?_some calls]
    cases kind <;> decide
  case roll =>
    intro count token rest kind calls free operand limits behind
    rw [outcome_rollsTail, calls]
    simp only [if_neg free]
    refine .behind (by simp [rollKind?_some calls]) ?_
    refine operand.bind fun sides rest₁ shorter => ?_
    refine (limits rest₁ shorter).bind fun limit rest₂ shorter' => ?_
    exact behind sides rest₁ shorter limit rest₂ shorter'
  case thresholdNil =>
    intro kind
    rw [outcome_threshold_nil]
    exact .pure none
  case threshold =>
    intro kind token rest opens inner
    rw [outcome_threshold, if_pos opens]
    simp only [Bool.and_eq_true, decide_eq_true_eq] at opens
    refine .behind (by simp [opens.2]) ?_
    refine inner.bind fun limit rest₁ _ => ?_
    exact (Reads.expect ends .rightBracket (by decide) (by decide) rest₁).bind fun _ _ _ =>
      .pure (some limit)
  case noThreshold =>
    intro kind token rest other
    rw [outcome_threshold, if_neg other]
    exact .pure none
  case operandNil =>
    rw [outcome_operand_nil]
    exact .unexpected (by rw [List.headD_nil, ends]; decide)
  case integer =>
    intro token rest digits
    rw [outcome_operand, digits]
    exact .integer digits
  case enclosed =>
    intro token rest opens inner
    rw [outcome_operand, opens]
    exact .enclosed ends opens inner
  case constantRandom =>
    intro token rest opens only
    rw [outcome_operand, opens]
    simp only [only, if_true]
    exact .refuse fun lead inside => ⟨opens, inside only⟩
  case random =>
    intro token rest opens free least greatest
    rw [outcome_operand, opens]
    simp only [if_neg free]
    refine .behind (by simp [opens]) ?_
    refine least.bind fun x rest₁ shorter => ?_
    have dotted := Reads.expect ends .ellipsis (by decide) (by decide) rest₁
    refine dotted.bind fun dots rest₂ shorter' => ?_
    refine (greatest rest₁ shorter rest₂ shorter').bind fun y rest₃ _ => ?_
    exact (Reads.expect ends .rightBracket (by decide) (by decide) rest₃).bind fun _ _ _ =>
      .pure (Node.random x y)
  case noOperand =>
    intro token rest noInteger noParen noBracket
    rw [outcome_operand]
    split
    · exact (noInteger ‹_›).elim
    · exact (noParen ‹_›).elim
    · exact (noBracket ‹_›).elim
    · refine .unexpected ?_
      simp only [List.headD_cons, TokenKind.operandStarts, List.mem_cons, List.not_mem_nil, or_false]
      rintro (integer | paren | bracket)
      · exact noInteger integer
      · exact noParen paren
      · exact noBracket bracket

end Grammar

end DiceLanguage
