import DiceLanguage.Proofs.Grammar.Complete

namespace DiceLanguage.Grammar

/-- What the rule reads off the head of the tokens is derived by it. In a calculation nothing is
read that has a roll or a random number in it. -/
def Rule.Sound (rule : Rule) (context : Context) (tokens : List Token) : Prop :=
  ∀ node rest, rule.read context tokens = .ok (node, rest) →
    ∃ used, tokens = used ++ rest ∧ Derives rule used node ∧
      (context.constantOnly = true → node.isVariable = false)

def Rule.SoundBehind (rule : Rule) (context : Context) (left : Node) (tokens : List Token) : Prop :=
  ∀ node rest, rule.resume context left tokens = .ok (node, rest) →
    ∃ used, tokens = used ++ rest ∧
      (∀ before, Derives rule before left → Derives rule (before ++ used) node) ∧
      (context.constantOnly = true → left.isVariable = false → node.isVariable = false)

def SoundThreshold (context : Context) (kind : RollKind) (tokens : List Token) : Prop :=
  ∀ limit rest, outcome (threshold context kind tokens) = .ok (limit, rest) →
    (limit = none ∧ tokens = rest) ∨
    ∃ z opening inner closing, limit = some z ∧ kind.takesThreshold = true ∧
      tokens = opening :: (inner ++ closing :: rest) ∧ opening.kind = .leftBracket ∧
      Derives .sum inner z ∧ closing.kind = .rightBracket

variable {context : Context}

theorem expect_ok {kind : TokenKind} {tokens rest : List Token} {token : Token}
    (found : outcome (expect context kind tokens) = .ok (token, rest)) :
    tokens = token :: rest ∧ token.kind = kind := by
  cases tokens with
  | nil => cases found
  | cons head tail =>
    rw [outcome_expect] at found
    split at found
    · cases found; exact ⟨rfl, by assumption⟩
    · cases found

theorem soundBehind_stop {rule : Rule} {left : Node} {tokens : List Token}
    (stops : rule.resume context left tokens = .ok (left, tokens)) :
    rule.SoundBehind context left tokens := by
  intro node rest read
  rw [stops] at read
  cases read
  exact ⟨[], rfl, fun before derives => by simpa using derives, fun _ constant => constant⟩

theorem read_shorter {rule : Rule} {tokens rest : List Token} {node : Node}
    (read : rule.read context tokens = .ok (node, rest)) : rest.length < tokens.length := by
  cases rule <;> exact (eq_of_outcome read).1

theorem chain_sound (rule below : Rule) {tokens : List Token}
    (reads : rule.read context tokens =
      below.read context tokens >>= fun (left, rest) => rule.resume context left rest)
    (single : ∀ {used x}, Derives below used x → Derives rule used x)
    (first : below.Sound context tokens)
    (behind : ∀ left (rest : List Token), rest.length < tokens.length → rule.SoundBehind context left rest) :
    rule.Sound context tokens := by
  intro node rest read
  rw [reads] at read
  obtain ⟨⟨left, middle⟩, head, tail⟩ := bind_ok read
  obtain ⟨used, rfl, derives, constant⟩ := first left middle head
  obtain ⟨more, rfl, goesOn, constant'⟩ := behind left middle (read_shorter head) node rest tail
  exact ⟨used ++ more, by simp, goesOn used (single derives), fun only => constant' only (constant only)⟩

theorem chainTail_sound (rule below : Rule) {left : Node} {token : Token} {tokens : List Token}
    {op : BinaryOp}
    (reads : rule.resume context left (token :: tokens) =
      below.read context tokens >>= fun (right, rest) =>
        rule.resume context (.binary op left right) rest)
    (joined : ∀ {before used right}, Derives rule before left → Derives below used right →
      Derives rule (before ++ token :: used) (.binary op left right))
    (part : below.Sound context tokens)
    (behind : ∀ right (rest : List Token), rest.length < tokens.length →
      rule.SoundBehind context (.binary op left right) rest) :
    rule.SoundBehind context left (token :: tokens) := by
  intro node rest read
  rw [reads] at read
  obtain ⟨⟨right, middle⟩, head, tail⟩ := bind_ok read
  obtain ⟨used, rfl, derives, constant⟩ := part right middle head
  obtain ⟨more, rfl, goesOn, constant'⟩ := behind right middle (read_shorter head) node rest tail
  refine ⟨token :: (used ++ more), by simp, ?_, ?_⟩
  · intro before earlier
    have whole := goesOn (before ++ token :: used) (joined earlier derives)
    simpa using whole
  · intro only constantLeft
    exact constant' only (by simp [Node.isVariable, constantLeft, constant only])

theorem rounding_sound (tokens : List Token) :
    ∃ marks, tokens = marks ++ (rounding tokens).rest ∧ Suffix (rounding tokens).value marks := by
  cases tokens with
  | nil => exact ⟨[], rfl, .down⟩
  | cons token rest =>
    simp only [rounding]
    split
    · exact ⟨[token], rfl, .nearest ‹_›⟩
    · exact ⟨[token], rfl, .up ‹_›⟩
    · exact ⟨[], rfl, .down⟩

theorem productTail_slash_sound {left : Node} {token : Token} {tokens : List Token}
    (slash : token.kind = .slash) (divisor : Rule.signed.Sound context tokens)
    (behind : ∀ right (rest : List Token), rest.length < tokens.length →
      ∀ method (rest' : List Token), rest'.length < rest.length + 1 →
        Rule.product.SoundBehind context (.binary (.divide method) left right) rest') :
    Rule.product.SoundBehind context left (token :: tokens) := by
  intro node rest read
  change outcome (productTail context left (token :: tokens)) = _ at read
  rw [outcome_productTail, slash] at read
  obtain ⟨⟨right, middle⟩, head, tail⟩ := bind_ok read
  have shorter : middle.length < tokens.length := (eq_of_outcome head).1
  obtain ⟨used, rfl, derives, constant⟩ := divisor right middle head
  obtain ⟨marks, cut, suffix⟩ := rounding_sound middle
  obtain ⟨more, same, goesOn, constant'⟩ :=
    behind right middle shorter _ _ (rounding middle).shorter node rest tail
  refine ⟨token :: (used ++ (marks ++ more)), ?_, ?_, ?_⟩
  · rw [cut, same]
    simp
  · intro before earlier
    have whole := goesOn (before ++ token :: (used ++ marks)) (.divide earlier slash derives suffix)
    simpa using whole
  · intro only constantLeft
    exact constant' only (by simp [Node.isVariable, constantLeft, constant only])

theorem signed_minus_sound {token : Token} {tokens : List Token} (minus : token.kind = .minus)
    (operand : Rule.signed.Sound context tokens) : Rule.signed.Sound context (token :: tokens) := by
  intro node rest read
  change outcome (Grammar.signed context (token :: tokens)) = _ at read
  rw [outcome_signed_minus context token tokens minus] at read
  obtain ⟨⟨x, middle⟩, head, tail⟩ := bind_ok read
  obtain ⟨used, rfl, derives, constant⟩ := operand x middle head
  cases tail
  exact ⟨token :: used, rfl, .neg minus derives, constant⟩

theorem signed_sound {token : Token} {tokens : List Token} (unsigned : ¬ token.kind = .minus)
    (rolls : Rule.rolls.Sound context (token :: tokens)) :
    Rule.signed.Sound context (token :: tokens) := by
  intro node rest read
  change outcome (Grammar.signed context (token :: tokens)) = _ at read
  rw [outcome_signed context token tokens unsigned] at read
  obtain ⟨used, same, derives, constant⟩ := rolls node rest read
  exact ⟨used, same, .rolls derives, constant⟩

theorem rollKind?_some {token : Token} {rest : List Token} {kind : RollKind}
    (calls : rollKind? token rest = some kind) : token.kind = .letter kind.letter := by
  unfold rollKind? at calls
  split at calls
  · cases calls; assumption
  · cases calls; assumption
  · split at calls <;> cases calls
    assumption
  · split at calls <;> cases calls
    assumption
  · cases calls

theorem rollsTail_constant_sound {count : Node} {token : Token} {tokens : List Token}
    {kind : RollKind} (calls : rollKind? token tokens = some kind)
    (only : context.constantOnly = true) :
    Rule.rolls.SoundBehind context count (token :: tokens) := by
  intro node rest read
  change outcome (rollsTail context count (token :: tokens)) = _ at read
  rw [outcome_rollsTail, calls] at read
  simp [only] at read

theorem rollsTail_sound {count : Node} {token : Token} {tokens : List Token} {kind : RollKind}
    (calls : rollKind? token tokens = some kind) (free : ¬ context.constantOnly = true)
    (operand : Rule.operand.Sound context tokens)
    (limits : ∀ rest : List Token, rest.length < tokens.length → SoundThreshold context kind rest)
    (behind : ∀ sides (rest : List Token), rest.length < tokens.length →
      ∀ limit (rest' : List Token), rest'.length < rest.length + 1 →
        Rule.rolls.SoundBehind context (Roll.toNode ⟨kind, count, sides, limit⟩) rest') :
    Rule.rolls.SoundBehind context count (token :: tokens) := by
  intro node rest read
  change outcome (rollsTail context count (token :: tokens)) = _ at read
  rw [outcome_rollsTail, calls] at read
  simp only [if_neg free] at read
  obtain ⟨⟨sides, middle⟩, head, tail⟩ := bind_ok read
  obtain ⟨⟨limit, later⟩, limited, last⟩ := bind_ok tail
  have family := rollKind?_some calls
  have shorter : middle.length < tokens.length := (eq_of_outcome head).1
  have shorter' : later.length < middle.length + 1 := (eq_of_outcome limited).1
  obtain ⟨used, rfl, derives, -⟩ := operand sides middle head
  obtain ⟨more, rfl, goesOn, -⟩ := behind sides middle shorter limit later shorter' node rest last
  rcases limits middle shorter limit (more ++ rest) limited with ⟨rfl, rfl⟩ |
    ⟨z, opening, inner, closing, rfl, allowed, rfl, opens, inside, closes⟩
  · refine ⟨token :: (used ++ more), by simp, ?_, fun only => absurd only free⟩
    intro before earlier
    have whole := goesOn (before ++ token :: used) (.roll earlier family derives)
    simpa using whole
  · refine ⟨token :: (used ++ opening :: (inner ++ closing :: more)), by simp, ?_,
      fun only => absurd only free⟩
    intro before earlier
    have whole := goesOn (before ++ token :: (used ++ opening :: (inner ++ [closing])))
      (.thresholdRoll earlier family derives allowed opens inside closes)
    simpa using whole

theorem threshold_sound {kind : RollKind} {token : Token} {tokens : List Token}
    (opens : (kind.takesThreshold && decide (token.kind = .leftBracket)) = true)
    (inner : Rule.sum.Sound context tokens) : SoundThreshold context kind (token :: tokens) := by
  intro limit rest read
  rw [outcome_threshold, if_pos opens] at read
  obtain ⟨⟨z, middle⟩, head, tail⟩ := bind_ok read
  obtain ⟨⟨closing, later⟩, closed, last⟩ := bind_ok tail
  obtain ⟨used, rfl, derives, -⟩ := inner z middle head
  obtain ⟨rfl, closes⟩ := expect_ok closed
  cases last
  simp only [Bool.and_eq_true, decide_eq_true_eq] at opens
  exact .inr ⟨z, token, used, closing, rfl, opens.1, rfl, opens.2, derives, closes⟩

theorem threshold_none_sound {kind : RollKind} {token : Token} {tokens : List Token}
    (other : ¬ (kind.takesThreshold && decide (token.kind = .leftBracket)) = true) :
    SoundThreshold context kind (token :: tokens) := by
  intro limit rest read
  rw [outcome_threshold, if_neg other] at read
  cases read
  exact .inl ⟨rfl, rfl⟩

theorem operand_integer_sound {token : Token} {tokens : List Token}
    (digits : token.kind = .integer) : Rule.operand.Sound context (token :: tokens) := by
  intro node rest read
  change outcome (Grammar.operand context (token :: tokens)) = _ at read
  rw [outcome_operand, digits] at read
  obtain ⟨value, head, tail⟩ := bind_ok read
  unfold Grammar.integer at head
  split at head
  · rename_i x inRange
    obtain ⟨fits, rfl⟩ := checked_eq_some_iff.mp inRange
    cases head
    cases tail
    exact ⟨[token], rfl, .integer digits fits, fun _ => rfl⟩
  · cases head

theorem operand_enclosed_sound {token : Token} {tokens : List Token}
    (opens : token.kind = .leftParen) (inner : Rule.sum.Sound context tokens) :
    Rule.operand.Sound context (token :: tokens) := by
  intro node rest read
  change outcome (Grammar.operand context (token :: tokens)) = _ at read
  rw [outcome_operand, opens] at read
  obtain ⟨⟨x, middle⟩, head, tail⟩ := bind_ok read
  obtain ⟨⟨closing, later⟩, closed, last⟩ := bind_ok tail
  obtain ⟨used, rfl, derives, constant⟩ := inner x middle head
  obtain ⟨rfl, closes⟩ := expect_ok closed
  cases last
  exact ⟨token :: (used ++ [closing]), by simp, .enclosed opens derives closes, constant⟩

theorem operand_constant_sound {token : Token} {tokens : List Token}
    (opens : token.kind = .leftBracket) (only : context.constantOnly = true) :
    Rule.operand.Sound context (token :: tokens) := by
  intro node rest read
  change outcome (Grammar.operand context (token :: tokens)) = _ at read
  rw [outcome_operand, opens] at read
  simp [only] at read

theorem operand_random_sound {token : Token} {tokens : List Token}
    (opens : token.kind = .leftBracket) (free : ¬ context.constantOnly = true)
    (least : Rule.sum.Sound context tokens)
    (greatest : ∀ rest : List Token, rest.length < tokens.length →
      ∀ rest' : List Token, rest'.length < rest.length → Rule.sum.Sound context rest') :
    Rule.operand.Sound context (token :: tokens) := by
  intro node rest read
  change outcome (Grammar.operand context (token :: tokens)) = _ at read
  rw [outcome_operand, opens] at read
  simp only [if_neg free] at read
  obtain ⟨⟨x, rest₁⟩, head, tail⟩ := bind_ok read
  obtain ⟨⟨dots, rest₂⟩, dotted, tail⟩ := bind_ok tail
  obtain ⟨⟨y, rest₃⟩, second, tail⟩ := bind_ok tail
  obtain ⟨⟨closing, rest₄⟩, closed, last⟩ := bind_ok tail
  have shorter : rest₁.length < tokens.length := (eq_of_outcome head).1
  have shorter' : rest₂.length < rest₁.length := (eq_of_outcome dotted).1
  obtain ⟨used, rfl, derives, -⟩ := least x rest₁ head
  obtain ⟨rfl, between⟩ := expect_ok dotted
  obtain ⟨used', rfl, derives', -⟩ := greatest _ shorter _ shorter' y rest₃ second
  obtain ⟨rfl, closes⟩ := expect_ok closed
  cases last
  exact ⟨token :: (used ++ dots :: (used' ++ [closing])), by simp,
    .random opens derives between derives' closes, fun only => absurd only free⟩

theorem rules_sound (context : Context) :
    (∀ tokens, Rule.sum.Sound context tokens) ∧
    (∀ left tokens, Rule.sum.SoundBehind context left tokens) ∧
    (∀ tokens, Rule.product.Sound context tokens) ∧
    (∀ left tokens, Rule.product.SoundBehind context left tokens) ∧
    (∀ tokens, Rule.signed.Sound context tokens) ∧
    (∀ tokens, Rule.rolls.Sound context tokens) ∧
    (∀ count tokens, Rule.rolls.SoundBehind context count tokens) ∧
    (∀ kind tokens, SoundThreshold context kind tokens) ∧
    ∀ tokens, Rule.operand.Sound context tokens := by
  -- One case for each way through each rule; the calls of a rule give the hypotheses.
  refine sum.mutual_induct context _ _ _ _ _ _ _ _ _
    ?sum ?sumNil ?plus ?minus ?sumStop ?product ?productNil ?times ?slash ?productStop
    ?signedNil ?sign ?unsigned ?rolls ?rollsNil ?rollsStop ?constantRoll ?roll
    ?thresholdNil ?threshold ?noThreshold ?operandNil ?integer ?enclosed ?constantRandom ?random
    ?noOperand
  case sum =>
    exact fun tokens first behind =>
      chain_sound .sum .product (outcome_sum context tokens) .product first behind
  case sumNil => exact fun left => soundBehind_stop (outcome_sumTail_nil context left)
  case plus =>
    intro left token rest plus term behind
    refine chainTail_sound .sum .product ?_ (.join · (by rw [plus]; rfl) ·) term behind
    exact (outcome_sumTail context left token rest).trans (by rw [plus]; rfl)
  case minus =>
    intro left token rest minus term behind
    refine chainTail_sound .sum .product ?_ (.join · (by rw [minus]; rfl) ·) term behind
    exact (outcome_sumTail context left token rest).trans (by rw [minus]; rfl)
  case sumStop =>
    intro left token rest noPlus noMinus
    apply soundBehind_stop
    change outcome (sumTail context left (token :: rest)) = _
    rw [outcome_sumTail, sumOp?_eq_none noPlus noMinus]
  case product =>
    exact fun tokens first behind =>
      chain_sound .product .signed (outcome_product context tokens) .signed first behind
  case productNil => exact fun left => soundBehind_stop (outcome_productTail_nil context left)
  case times =>
    intro left token rest times factor behind
    refine chainTail_sound .product .signed ?_ (.multiply · times ·) factor behind
    exact (outcome_productTail context left token rest).trans (by rw [times]; rfl)
  case slash => exact fun left token rest => productTail_slash_sound
  case productStop =>
    intro left token rest noTimes noSlash
    apply soundBehind_stop
    change outcome (productTail context left (token :: rest)) = _
    rw [outcome_productTail]
    split
    · exact (noTimes ‹_›).elim
    · exact (noSlash ‹_›).elim
    · rfl
  case signedNil =>
    intro rolls node rest read
    change outcome (Grammar.signed context []) = _ at read
    rw [outcome_signed_nil] at read
    obtain ⟨used, same, derives, constant⟩ := rolls node rest read
    exact ⟨used, same, .rolls derives, constant⟩
  case sign => exact fun token rest => signed_minus_sound
  case unsigned => exact fun token rest => signed_sound
  case rolls =>
    exact fun tokens first behind =>
      chain_sound .rolls .operand (outcome_rolls context tokens) .operand first behind
  case rollsNil => exact fun count => soundBehind_stop (outcome_rollsTail_nil context count)
  case rollsStop =>
    intro count token rest none
    apply soundBehind_stop
    change outcome (rollsTail context count (token :: rest)) = _
    rw [outcome_rollsTail, none]
  case constantRoll => exact fun count token rest kind => rollsTail_constant_sound
  case roll => exact fun count token rest kind => rollsTail_sound
  case thresholdNil =>
    intro kind limit rest read
    rw [outcome_threshold_nil] at read
    cases read
    exact .inl ⟨rfl, rfl⟩
  case threshold => exact fun kind token rest => threshold_sound
  case noThreshold => exact fun kind token rest => threshold_none_sound
  case operandNil =>
    intro node rest read
    change outcome (Grammar.operand context []) = _ at read
    rw [outcome_operand_nil] at read
    cases read
  case integer => exact fun token rest => operand_integer_sound
  case enclosed => exact fun token rest => operand_enclosed_sound
  case constantRandom => exact fun token rest => operand_constant_sound
  case random => exact fun token rest => operand_random_sound
  case noOperand =>
    intro token rest noInteger noParen noBracket node rest' read
    change outcome (Grammar.operand context (token :: rest)) = _ at read
    rw [outcome_operand] at read
    split at read
    · exact (noInteger ‹_›).elim
    · exact (noParen ‹_›).elim
    · exact (noBracket ‹_›).elim
    · cases read

theorem sum_sound {tokens : List Token} {step : Step Node tokens.length}
    (read : sum context tokens = .ok step) :
    ∃ used, tokens = used ++ step.rest ∧ Derives .sum used step.value ∧
      (context.constantOnly = true → step.value.isVariable = false) := by
  apply (rules_sound context).1 tokens
  change outcome (sum context tokens) = _
  rw [read]
  rfl

end DiceLanguage.Grammar
