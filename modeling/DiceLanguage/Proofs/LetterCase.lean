import DiceLanguage.Proofs.Grammar.Command
import DiceLanguage.Proofs.Grammar.Statement
import DiceLanguage.Proofs.Token.LetterCase

namespace DiceLanguage

open Grammar

abbrev Recased : List Token → List Token → Prop := List.Forall₂ Token.Recased

def ParseError.toUpper (error : ParseError) : ParseError :=
  { error with literal := error.literal.toUpper }

theorem trim_toUpper (text : List Char) :
    Text.trim (text.map Char.toUpper) = (Text.trim text).map Char.toUpper := by
  have blanks := dropWhile_toUpper isBlank_toUpper
  rw [Text.trim, blanks, ← List.map_reverse, blanks, ← List.map_reverse]
  rfl

namespace Token.Recased

variable {token upper : Token} (recased : token.Recased upper)
include recased

theorem spells (word : String) : upper.spells word = token.spells word := by
  rw [Token.spells, Token.spells, recased.kind, recased.literal, String.toUpper,
    String.toList_map, List.map_map]
  have lower : Char.toLower ∘ Char.toUpper = Char.toLower :=
    funext (apply_toUpper Char.toLower (by decide))
  rw [lower]

theorem endsItem : endsItem upper = endsItem token := by
  rw [Grammar.endsItem, Grammar.endsItem, recased.kind]

theorem error (kind : ParseErrorKind) :
    ParseError.of upper kind = (ParseError.of token kind).toUpper := by
  rw [ParseError.of, recased.column, recased.literal]
  rfl

end Token.Recased

/-- Both fail with the same error, but for the letters, or both succeed with related values. -/
inductive Agree {α : Type} (related : α → α → Prop) :
    Except ParseError (α × List Token) → Except ParseError (α × List Token) → Prop where
  | error (error : ParseError) : Agree related (.error error) (.error error.toUpper)
  | ok {x y : α} {rest rest' : List Token} (value : related x y) (behind : Recased rest rest') :
    Agree related (.ok (x, rest)) (.ok (y, rest'))

namespace Agree

variable {α β : Type} {earlier : α → α → Prop} {related : β → β → Prop}

theorem refuse {error error' : ParseError} (same : error' = error.toUpper) :
    Agree related (.error error) (.error error') :=
  same ▸ .error error

theorem bind {result result' : Except ParseError (α × List Token)}
    {next next' : α × List Token → Except ParseError (β × List Token)}
    (first : Agree earlier result result')
    (second : ∀ x y rest rest', result = .ok (x, rest) → earlier x y → Recased rest rest' →
      Agree related (next (x, rest)) (next' (y, rest'))) :
    Agree related (result >>= next) (result' >>= next') := by
  cases first with
  | error error => exact .error error
  | ok value behind => exact second _ _ _ _ rfl value behind

section Steps

variable {n n' : Nat} {reading : Except ParseError (Step α n)}
  {reading' : Except ParseError (Step α n')}

theorem behind {next next' : α × List Token → Except ParseError (β × List Token)}
    (first : Agree Eq (outcome reading) (outcome reading'))
    (second : ∀ x rest, rest.length < n → ∀ rest', Recased rest rest' →
      Agree related (next (x, rest)) (next' (x, rest'))) :
    Agree related (outcome reading >>= next) (outcome reading' >>= next') := by
  apply first.bind
  rintro x _ rest rest' read rfl recased
  exact second x rest (eq_of_outcome read).1 rest' recased

theorem step {next : Step α n → Except ParseError (β × List Token)}
    {next' : Step α n' → Except ParseError (β × List Token)}
    (first : Agree earlier (outcome reading) (outcome reading'))
    (second : ∀ x y rest rest' shorter shorter', earlier x y → Recased rest rest' →
      Agree related (next ⟨x, rest, shorter⟩) (next' ⟨y, rest', shorter'⟩)) :
    Agree related (reading >>= next) (reading' >>= next') := by
  rcases reading with error | ⟨x, rest, shorter⟩
  · rcases reading' with error' | step
    · change Agree earlier (.error error) (.error error') at first
      cases first
      exact .error error
    · change Agree earlier (.error error) (.ok (step.value, step.rest)) at first
      cases first
  · rcases reading' with error' | ⟨y, rest', shorter'⟩
    · change Agree earlier (.ok (x, rest)) (.error error') at first
      cases first
    · change Agree earlier (.ok (x, rest)) (.ok (y, rest')) at first
      cases first with
      | ok value behind => exact second x y rest rest' shorter shorter' value behind

end Steps

end Agree

namespace Recased

variable {tokens upper : List Token} {last last' : Token} {constantOnly : Bool}
  (recased : Recased tokens upper)
include recased

theorem headD (ends : last.Recased last') : (tokens.headD last).Recased (upper.headD last') := by
  cases recased with
  | nil => exact ends
  | cons first rest => exact first

theorem operandFollows : operandFollows upper = operandFollows tokens := by
  cases recased with
  | nil => rfl
  | cons first rest =>
    simp only [Grammar.operandFollows, List.head?_cons, Option.any_some, first.kind]

theorem rounding :
    (rounding upper).value = (rounding tokens).value ∧
      Recased (rounding tokens).rest (rounding upper).rest := by
  cases recased with
  | nil => exact ⟨rfl, .nil⟩
  | cons first rest =>
    simp only [Grammar.rounding, first.kind]
    split
    · exact ⟨rfl, rest⟩
    · exact ⟨rfl, rest⟩
    · exact ⟨rfl, .cons first rest⟩

theorem unexpected (ends : last.Recased last') (constantOnly : Bool) (expected : List TokenKind) :
    Context.unexpected { last := last', constantOnly } upper expected =
      (Context.unexpected { last, constantOnly } tokens expected).toUpper := by
  have found := recased.headD ends
  rw [Context.unexpected, found.error, found.kind]
  rfl

theorem expect (ends : last.Recased last') (kind : TokenKind) :
    Agree Token.Recased (outcome (expect { last, constantOnly } kind tokens))
      (outcome (expect { last := last', constantOnly } kind upper)) := by
  cases recased with
  | nil => exact .refuse (Recased.unexpected .nil ends _ [kind])
  | cons first rest =>
    rw [outcome_expect, outcome_expect, first.kind]
    split
    · exact .ok first rest
    · exact .refuse (Recased.unexpected (.cons first rest) ends _ [kind])

theorem flatMap_span :
    upper.flatMap Token.span = (tokens.flatMap Token.span).map Char.toUpper := by
  induction recased with
  | nil => rfl
  | cons first rest ih => rw [List.flatMap_cons, List.flatMap_cons, List.map_append, first.span, ih]

theorem itemText : itemText upper = (itemText tokens).toUpper := by
  rw [Grammar.itemText, Grammar.itemText, recased.flatMap_span, trim_toUpper, toUpper_ofList]

theorem cut :
    Recased (tokens.takeWhile (!endsItem ·)) (upper.takeWhile (!endsItem ·)) ∧
      Recased (tokens.dropWhile (!endsItem ·)) (upper.dropWhile (!endsItem ·)) := by
  induction recased with
  | nil => exact ⟨.nil, .nil⟩
  | @cons token token' tokens upper first rest ih =>
    have same := first.endsItem
    cases ends : endsItem token with
    | true =>
      rw [ends] at same
      simp only [List.takeWhile_cons, List.dropWhile_cons, ends, same]
      exact ⟨.nil, .cons first rest⟩
    | false =>
      rw [ends] at same
      simp only [List.takeWhile_cons, List.dropWhile_cons, ends, same]
      exact ⟨.cons first ih.1, ih.2⟩

theorem relation? :
    relation? tokens = none ∧ relation? upper = none ∨
      ∃ relation rest rest', relation? tokens = some (relation, rest) ∧
        relation? upper = some (relation, rest') ∧ Recased rest rest' := by
  cases recased with
  | nil => exact .inl ⟨rfl, rfl⟩
  | @cons token token' tokens upper first rest =>
    obtain ⟨kind, literal, gap, column, offset⟩ := token
    obtain ⟨kind', literal', gap', column', offset'⟩ := token'
    obtain rfl : kind' = kind := first.kind
    cases kind' with
    | relation relation => exact .inr ⟨relation, tokens, upper, rfl, rfl, rest⟩
    | _ => exact .inl ⟨rfl, rfl⟩

end Recased

def NonEmptyList.map {α β : Type} (f : α → β) (list : NonEmptyList α) : NonEmptyList β :=
  ⟨f list.head, list.tail.map f⟩

def Command.toUpper : Command → Command
  | choice items => choice (items.map String.toUpper)
  | command => command

def Statement.toUpper (statement : Statement) : Statement :=
  { statement with command := statement.command.toUpper }

namespace Grammar

theorem rollKind?_recased {token token' : Token} (first : token.Recased token')
    {rest rest' : List Token} (behind : Recased rest rest') :
    rollKind? token' rest' = rollKind? token rest := by
  rw [rollKind?, rollKind?, first.kind, behind.operandFollows]

theorem integer_recased {token token' : Token} (first : token.Recased token')
    (number : token.kind = .integer) {rest rest' : List Token} (behind : Recased rest rest') :
    Agree Eq (integer token >>= fun value => .ok (value, rest))
      (integer token' >>= fun value => .ok (value, rest')) := by
  unfold integer
  rw [first.number number]
  split
  · exact .ok rfl behind
  · exact .refuse (first.error _)

theorem rules_recased {last last' : Token} (ends : last.Recased last') (constantOnly : Bool) :
    let context : Context := { last, constantOnly }
    let context' : Context := { last := last', constantOnly }
    (∀ tokens upper, Recased tokens upper →
      Agree Eq (outcome (sum context tokens)) (outcome (sum context' upper))) ∧
    (∀ left tokens upper, Recased tokens upper →
      Agree Eq (outcome (sumTail context left tokens)) (outcome (sumTail context' left upper))) ∧
    (∀ tokens upper, Recased tokens upper →
      Agree Eq (outcome (product context tokens)) (outcome (product context' upper))) ∧
    (∀ left tokens upper, Recased tokens upper →
      Agree Eq (outcome (productTail context left tokens))
        (outcome (productTail context' left upper))) ∧
    (∀ tokens upper, Recased tokens upper →
      Agree Eq (outcome (signed context tokens)) (outcome (signed context' upper))) ∧
    (∀ tokens upper, Recased tokens upper →
      Agree Eq (outcome (rolls context tokens)) (outcome (rolls context' upper))) ∧
    (∀ count tokens upper, Recased tokens upper →
      Agree Eq (outcome (rollsTail context count tokens))
        (outcome (rollsTail context' count upper))) ∧
    (∀ kind tokens upper, Recased tokens upper →
      Agree Eq (outcome (threshold context kind tokens))
        (outcome (threshold context' kind upper))) ∧
    ∀ tokens upper, Recased tokens upper →
      Agree Eq (outcome (operand context tokens)) (outcome (operand context' upper)) := by
  intro context context'
  have same : context'.constantOnly = context.constantOnly := rfl
  -- One case for each way through each rule; the calls of a rule give the hypotheses.
  refine sum.mutual_induct context _ _ _ _ _ _ _ _ _
    ?sum ?sumNil ?plus ?minus ?sumStop ?product ?productNil ?times ?slash ?productStop
    ?signedNil ?sign ?unsigned ?rolls ?rollsNil ?rollsStop ?constantRoll ?roll
    ?thresholdNil ?threshold ?noThreshold ?operandNil ?integer ?enclosed ?constantRandom ?random
    ?noOperand
  case sum =>
    intro tokens first others upper recased
    rw [outcome_sum, outcome_sum]
    exact (first upper recased).behind others
  case sumNil =>
    intro left upper recased
    cases recased
    rw [outcome_sumTail_nil, outcome_sumTail_nil]
    exact .ok rfl .nil
  case plus =>
    intro left token rest plus term others upper recased
    obtain _ | ⟨first, recased⟩ := recased
    rw [outcome_sumTail, outcome_sumTail, first.kind, plus]
    exact (term _ recased).behind others
  case minus =>
    intro left token rest minus term others upper recased
    obtain _ | ⟨first, recased⟩ := recased
    rw [outcome_sumTail, outcome_sumTail, first.kind, minus]
    exact (term _ recased).behind others
  case sumStop =>
    intro left token rest noPlus noMinus upper recased
    obtain _ | ⟨first, recased⟩ := recased
    rw [outcome_sumTail, outcome_sumTail, first.kind, sumOp?_eq_none noPlus noMinus]
    exact .ok rfl (.cons first recased)
  case product =>
    intro tokens first others upper recased
    rw [outcome_product, outcome_product]
    exact (first upper recased).behind others
  case productNil =>
    intro left upper recased
    cases recased
    rw [outcome_productTail_nil, outcome_productTail_nil]
    exact .ok rfl .nil
  case times =>
    intro left token rest times factor others upper recased
    obtain _ | ⟨first, recased⟩ := recased
    rw [outcome_productTail, outcome_productTail, first.kind, times]
    exact (factor _ recased).behind others
  case slash =>
    intro left token rest slash divisor others upper recased
    obtain _ | ⟨first, recased⟩ := recased
    rw [outcome_productTail, outcome_productTail, first.kind, slash]
    apply (divisor _ recased).behind
    intro right rest' shorter upper' recased'
    obtain ⟨method, recased'⟩ := recased'.rounding
    simp only [method]
    exact others right rest' shorter _ _ (rounding rest').shorter _ recased'
  case productStop =>
    intro left token rest noTimes noSlash upper recased
    obtain _ | ⟨first, recased⟩ := recased
    rw [outcome_productTail, outcome_productTail, first.kind]
    split
    · exact (noTimes ‹_›).elim
    · exact (noSlash ‹_›).elim
    · exact .ok rfl (.cons first recased)
  case signedNil =>
    intro rolls upper recased
    have read := rolls upper recased
    cases recased
    rwa [outcome_signed_nil, outcome_signed_nil]
  case sign =>
    intro token rest minus operand upper recased
    obtain _ | ⟨first, recased⟩ := recased
    rw [outcome_signed_minus _ _ _ minus, outcome_signed_minus _ _ _ (first.kind.trans minus)]
    exact (operand _ recased).behind fun x rest _ rest' recased => .ok rfl recased
  case unsigned =>
    intro token rest unsigned rolls upper recased
    have read := rolls upper recased
    obtain _ | ⟨first, recased⟩ := recased
    have unsigned' := first.kind.trans_ne unsigned
    rwa [outcome_signed _ _ _ unsigned, outcome_signed _ _ _ unsigned']
  case rolls =>
    intro tokens first others upper recased
    rw [outcome_rolls, outcome_rolls]
    exact (first upper recased).behind others
  case rollsNil =>
    intro count upper recased
    cases recased
    rw [outcome_rollsTail_nil, outcome_rollsTail_nil]
    exact .ok rfl .nil
  case rollsStop =>
    intro count token rest none upper recased
    obtain _ | ⟨first, recased⟩ := recased
    rw [outcome_rollsTail, outcome_rollsTail, rollKind?_recased first recased, none]
    exact .ok rfl (.cons first recased)
  case constantRoll =>
    intro count token rest kind calls only upper recased
    obtain _ | ⟨first, recased⟩ := recased
    rw [outcome_rollsTail, outcome_rollsTail, rollKind?_recased first recased, calls]
    simp only [same, if_pos only]
    exact .refuse (first.error _)
  case roll =>
    intro count token rest kind calls free operand limits others upper recased
    obtain _ | ⟨first, recased⟩ := recased
    rw [outcome_rollsTail, outcome_rollsTail, rollKind?_recased first recased, calls]
    simp only [same, if_neg free]
    apply (operand _ recased).behind
    intro sides rest₁ shorter upper₁ recased₁
    apply (limits rest₁ shorter upper₁ recased₁).behind
    exact fun limit rest₂ shorter' => others sides rest₁ shorter limit rest₂ shorter'
  case thresholdNil =>
    intro kind upper recased
    cases recased
    rw [outcome_threshold_nil, outcome_threshold_nil]
    exact .ok rfl .nil
  case threshold =>
    intro kind token rest opens inner upper recased
    obtain _ | ⟨first, recased⟩ := recased
    rw [outcome_threshold, outcome_threshold, first.kind, if_pos opens, if_pos opens]
    apply (inner _ recased).behind
    intro limit rest₁ _ upper₁ recased₁
    apply (recased₁.expect ends .rightBracket).bind
    exact fun _ _ _ _ _ _ recased₂ => .ok rfl recased₂
  case noThreshold =>
    intro kind token rest other upper recased
    obtain _ | ⟨first, recased⟩ := recased
    rw [outcome_threshold, outcome_threshold, first.kind, if_neg other, if_neg other]
    exact .ok rfl (.cons first recased)
  case operandNil =>
    intro upper recased
    have refused := recased.unexpected ends constantOnly TokenKind.operandStarts
    cases recased
    rw [outcome_operand_nil, outcome_operand_nil]
    exact .refuse refused
  case integer =>
    intro token rest digits upper recased
    obtain _ | ⟨first, recased⟩ := recased
    rw [outcome_operand, outcome_operand, first.kind, digits]
    exact integer_recased first digits recased
  case enclosed =>
    intro token rest opens inner upper recased
    obtain _ | ⟨first, recased⟩ := recased
    rw [outcome_operand, outcome_operand, first.kind, opens]
    apply (inner _ recased).behind
    intro x rest₁ _ upper₁ recased₁
    apply (recased₁.expect ends .rightParen).bind
    exact fun _ _ _ _ _ _ recased₂ => .ok rfl recased₂
  case constantRandom =>
    intro token rest opens only upper recased
    obtain _ | ⟨first, recased⟩ := recased
    rw [outcome_operand, outcome_operand, first.kind, opens]
    simp only [same, if_pos only]
    exact .refuse (first.error _)
  case random =>
    intro token rest opens free least greatest upper recased
    obtain _ | ⟨first, recased⟩ := recased
    rw [outcome_operand, outcome_operand, first.kind, opens]
    simp only [same, if_neg free]
    apply (least _ recased).behind
    intro x rest₁ shorter upper₁ recased₁
    apply (recased₁.expect ends .ellipsis).bind
    intro _ _ rest₂ upper₂ found _ recased₂
    apply (greatest rest₁ shorter rest₂ (eq_of_outcome found).1 upper₂ recased₂).behind
    intro y rest₃ _ upper₃ recased₃
    apply (recased₃.expect ends .rightBracket).bind
    exact fun _ _ _ _ _ _ recased₄ => .ok rfl recased₄
  case noOperand =>
    intro token rest noInteger noParen noBracket upper recased
    have refused := recased.unexpected ends constantOnly TokenKind.operandStarts
    obtain _ | ⟨first, recased⟩ := recased
    rw [outcome_operand, outcome_operand, first.kind]
    split
    · exact (noInteger ‹_›).elim
    · exact (noParen ‹_›).elim
    · exact (noBracket ‹_›).elim
    · exact .refuse refused

section Readers

variable {last last' : Token} {tokens upper : List Token}

theorem toUpper_eq_empty_iff {text : String} : text.toUpper = "" ↔ text = "" := by
  rw [← String.toList_inj, ← String.toList_inj, String.toUpper, String.toList_map]
  exact List.map_eq_nil_iff

variable (ends : last.Recased last') (recased : Recased tokens upper)
include ends recased

theorem choiceItems_recased :
    Agree (fun items items' => items' = items.map String.toUpper) (choiceItems last tokens)
      (choiceItems last' upper) := by
  -- By induction on the number of tokens, as the items behind a comma are read from fewer.
  induction size : tokens.length using Nat.strongRecOn generalizing tokens upper with
  | ind n ih =>
    obtain ⟨front, behind⟩ := recased.cut
    cases cut : tokens.dropWhile (!endsItem ·) with
    | nil =>
      rw [cut] at behind
      rw [choiceItems_none cut, choiceItems_none (List.forall₂_nil_left_iff.mp behind)]
      exact .refuse (Recased.unexpected .nil ends false _)
    | cons delimiter rest =>
      rw [cut] at behind
      obtain ⟨delimiter', rest', first, recased', cut'⟩ := List.forall₂_cons_left_iff.mp behind
      rw [choiceItems_cut cut, choiceItems_cut cut']
      simp only [front.itemText, toUpper_eq_empty_iff, first.kind]
      split
      · exact .refuse ((front.headD first).error _)
      · split
        · have shorter : rest.length < n := by
            have bound := (List.dropWhile_suffix (!endsItem ·) (l := tokens)).length_le
            rw [cut, List.length_cons, size] at bound
            exact bound
          apply (ih _ shorter recased' rfl).bind
          rintro items _ rest rest' _ rfl behind
          exact .ok rfl behind
        · exact .ok rfl recased'

theorem sum_recased (constantOnly : Bool) :
    Agree Eq (outcome (sum { last, constantOnly } tokens))
      (outcome (sum { last := last', constantOnly } upper)) :=
  (rules_recased ends constantOnly).1 tokens upper recased

theorem calculation_recased :
    Agree (fun made made' => made' = made.toUpper) (calculation last tokens)
      (calculation last' upper) := by
  rw [calculation, calculation]
  apply (sum_recased ends recased true).step
  rintro expr _ rest rest' _ _ rfl recased
  apply (recased.expect ends .rightParen).step
  exact fun _ _ _ _ _ _ _ recased => .ok rfl recased

theorem comparison_recased : Agree Eq (comparison last tokens) (comparison last' upper) := by
  rw [comparison, comparison]
  rcases recased.relation? with ⟨none, none'⟩ | ⟨relation, rest, rest', found, found', behind⟩
  · rw [none, none']
    exact .ok rfl recased
  rw [found, found']
  apply (sum_recased ends behind false).step
  rintro target _ rest rest' _ _ rfl behind
  simp only
  rcases behind.relation? with ⟨none, none'⟩ | ⟨relation', _, _, found, found', -⟩
  · rw [none, none']
    exact .ok rfl behind
  · rw [found, found']
    exact .refuse ((behind.headD ends).error _)

theorem rollCommand_recased :
    Agree (fun made made' => made' = made.toUpper) (rollCommand last tokens)
      (rollCommand last' upper) := by
  rw [rollCommand, rollCommand]
  apply (sum_recased ends recased false).step
  rintro expr _ rest rest' _ _ rfl behind
  apply (comparison_recased ends behind).bind
  rintro check _ rest rest' _ rfl behind
  simp only
  -- The expressions are equal, so the same command comes of both or the same is wrong with them.
  cases made : Command.ofExpression expr check with
  | error kind => exact .refuse ((recased.headD ends).error kind)
  | ok command =>
    have same : command = command.toUpper := by
      cases (Command.ofExpression_made made).2 <;> rfl
    exact .ok same behind

theorem command_recased (shape : Shape) :
    Agree (fun made made' => made' = made.toUpper) (command last shape tokens)
      (command last' shape upper) := by
  cases shape with
  | calculation => exact calculation_recased ends recased
  | choice =>
    apply (choiceItems_recased ends recased).bind
    rintro items _ rest rest' _ rfl behind
    exact .ok rfl behind
  | rolls => exact rollCommand_recased ends recased

end Readers

namespace Lead

structure Agrees (lead lead' : Lead) : Prop where
  secret : lead'.secret = lead.secret
  shape : lead'.shape = lead.shape
  rest : Recased lead.rest lead'.rest

variable {tokens upper : List Token} (recased : Recased tokens upper)
include recased

theorem ofCommand_agrees (secret : Bool) :
    (ofCommand secret tokens).Agrees (ofCommand secret upper) := by
  obtain _ | ⟨first, _ | ⟨second, rest⟩⟩ := recased
  · exact ⟨rfl, rfl, .nil⟩
  · exact ⟨rfl, rfl, .cons first .nil⟩
  · simp only [ofCommand, first.kind, second.kind, first.spells]
    split
    · exact ⟨rfl, rfl, rest⟩
    · split
      · exact ⟨rfl, rfl, rest⟩
      · exact ⟨rfl, rfl, .cons first (.cons second rest)⟩

theorem ofMarked_agrees : (ofMarked tokens).Agrees (ofMarked upper) := by
  obtain _ | ⟨first, rest⟩ := recased
  · exact ofCommand_agrees .nil false
  · simp only [ofMarked, first.kind]
    split
    · exact ofCommand_agrees rest true
    · exact ofCommand_agrees (.cons first rest) false

theorem ofTokens_agrees : (ofTokens tokens).Agrees (ofTokens upper) := by
  obtain _ | ⟨first, _ | ⟨second, rest⟩⟩ := recased
  · exact ofMarked_agrees .nil
  · exact ofMarked_agrees (.cons first .nil)
  · simp only [ofTokens, second.kind, first.spells]
    split
    · exact ⟨rfl, rfl, rest⟩
    · split
      · exact ⟨rfl, rfl, rest⟩
      · exact ofMarked_agrees (.cons first (.cons second rest))

end Lead

theorem statement_recased {tokens upper : Tokens} (recased : Recased tokens.body upper.body)
    (ends : tokens.last.Recased upper.last) :
    statement upper = match statement tokens with
      | .ok statement => .ok statement.toUpper
      | .error error => .error error.toUpper := by
  have lead := Lead.ofTokens_agrees recased
  have agree := command_recased ends lead.rest (Lead.ofTokens tokens.body).shape
  rw [statement, statement]
  simp only [lead.shape, lead.secret]
  generalize command tokens.last _ _ = result at agree ⊢
  generalize command upper.last _ _ = result' at agree ⊢
  cases agree with
  | error error => rfl
  | ok same behind =>
    subst same
    cases behind with
    | nil => rfl
    | @cons token token' rest rest' first behind =>
      exact congrArg Except.error (Recased.unexpected (.cons first behind) ends false [.endOfText])

end Grammar

/-- Capital letters do not change what is read from a text, except for the items of a choice, nor
where and why it is not read. -/
theorem Statement.parse_toUpper (text : String) :
    parse text.toUpper = match parse text with
      | .ok statement => .ok statement.toUpper
      | .error error => .error error.toUpper := by
  have scanned := Tokens.scan_toUpper {} text.toList
  rw [← String.toList_map] at scanned
  exact statement_recased scanned.1 scanned.2

end DiceLanguage
