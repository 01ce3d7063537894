import DiceLanguage.Proofs.Grammar.Blame
import DiceLanguage.Proofs.Token.Cover

namespace DiceLanguage

open Grammar

namespace Command

variable {expr : Node} {check : Option Comparison} {kind : RollKind} {error : ParseErrorKind}

def faults : List ParseErrorKind :=
  [.noDiceRoll, .mixedRollFamilies, .misplacedThreshold, .invalidModifier]

theorem rollList_error (failed : rollList kind expr = .error error) : error ∈ faults := by
  unfold rollList at failed
  split at failed
  · cases failed
    decide
  · simp only at failed
    split at failed
    · cases failed
      decide
    · split at failed
      · cases failed
      · cases failed
        decide

theorem ofScatter_error (failed : ofScatter expr check = .error error) : error ∈ faults := by
  rcases bind_error failed with first | ⟨⟨rolls, threshold⟩, -, second⟩
  · exact rollList_error first
  · simp only at second
    split at second <;> cases second
    decide

theorem ofReroll_error (failed : ofReroll expr check = .error error) : error ∈ faults := by
  rcases bind_error failed with first | ⟨_, -, second⟩
  · exact rollList_error first
  · cases second

theorem ofCompound_error (failed : ofCompound expr check = .error error) : error ∈ faults := by
  unfold ofCompound at failed
  simp only at failed
  split at failed
  · cases failed
    decide
  · rcases bind_error failed with first | ⟨_, -, second⟩
    · exact rollList_error first
    · cases second

theorem ofSum_error (failed : ofSum expr check = .error error) : error ∈ faults := by
  unfold ofSum at failed
  split at failed <;> split at failed <;> cases failed <;> decide

theorem ofExpression_error (failed : ofExpression expr check = .error error) : error ∈ faults := by
  unfold ofExpression at failed
  split at failed
  · cases failed
    decide
  split at failed
  · exact ofScatter_error failed
  split at failed
  · exact ofReroll_error failed
  split at failed
  · exact ofCompound_error failed
  · exact ofSum_error failed

theorem concerns_of_fault {before : List Token} {token : Token} (fault : error ∈ faults)
    (begins : BeginsCommand before token) : error.Concerns before token := by
  simp only [faults, List.mem_cons, List.not_mem_nil, or_false] at fault
  rcases fault with rfl | rfl | rfl | rfl <;> exact begins

end Command

namespace Grammar

variable {last : Token} {lead tokens rest : List Token} {error : ParseError}

theorem sum_suffix {context : Context} {expr : Node} {shorter : rest.length < tokens.length}
    (read : sum context tokens = .ok ⟨expr, rest, shorter⟩) : ∃ used, tokens = used ++ rest := by
  obtain ⟨used, whole, -⟩ := sum_sound read
  exact ⟨used, whole⟩

theorem unexpected_blames {expected : List TokenKind}
    (other : (tokens.headD last).kind ∉ expected) :
    Blames last lead tokens (Context.unexpected { last } tokens expected) :=
  Blames.unexpected (show (tokens.headD (Context.mk last false).last).kind ∉ expected from other)

section Readers

variable (ends : last.kind = .endOfText)
include ends

theorem sum_blames {constantOnly : Bool}
    (failed : sum { last, constantOnly } tokens = .error error)
    (inside : constantOnly = true → InCalculation lead) : Blames last lead tokens error := by
  have reads := (rules_read (show (Context.mk last constantOnly).last.kind = _ from ends)).1 tokens
  exact reads.error error (by rw [failed]; rfl) lead inside

theorem calculation_blames (inside : InCalculation lead)
    (failed : calculation last tokens = .error error) : Blames last lead tokens error := by
  rw [calculation] at failed
  rcases bind_error failed with first | ⟨⟨expr, rest, _⟩, first, second⟩
  · exact sum_blames ends first fun _ => inside
  obtain ⟨used, rfl⟩ := sum_suffix first
  rcases bind_error second with missing | ⟨closing, -, same⟩
  · have refused : outcome (expect { last } .rightParen rest) = .error error := by
      rw [missing]
      rfl
    obtain ⟨rfl, other⟩ := expect_error ends refused (by decide)
    exact .behind (.unexpected other)
  · cases same

theorem choiceItems_blames (begins : BeginsItem lead)
    (failed : choiceItems last tokens = .error error) : Blames last lead tokens error := by
  fun_induction choiceItems last tokens generalizing lead error with
  | case1 tokens cut =>
    cases failed
    have other : (List.headD [] last).kind ∉ [TokenKind.comma, .rightBracket] := by
      rw [List.headD_nil, ends]
      decide
    have blames : Blames last (lead ++ tokens) [] _ := unexpected_blames other
    have behind := blames.behind
    rwa [List.append_nil] at behind
  | case2 tokens item delimiter rest cut =>
    cases failed
    have whole : tokens = item ++ delimiter :: rest := cut ▸ List.takeWhile_append_dropWhile.symm
    have first : BeginsItem (lead ++ []) := by rwa [List.append_nil]
    rw [whole]
    cases item with
    | nil => exact ⟨[], delimiter, rest ++ [last], rfl, rfl, rfl, first⟩
    | cons token item =>
      exact ⟨[], token, item ++ delimiter :: rest ++ [last], rfl, rfl, rfl, first⟩
  | case3 tokens item delimiter rest cut text nonempty =>
    rename_i comma ih
    have parts : tokens = item ++ delimiter :: rest := cut ▸ List.takeWhile_append_dropWhile.symm
    have whole : tokens = item ++ [delimiter] ++ rest := by simpa using parts
    rcases bind_error failed with later | ⟨_, -, same⟩
    · rw [whole]
      have next : BeginsItem (lead ++ (item ++ [delimiter])) :=
        ⟨delimiter, by rw [← List.append_assoc]; exact List.getLast?_concat, .inr comma⟩
      exact .behind (ih next later)
    · cases same
  | case4 => cases failed

theorem comparison_blames (failed : comparison last tokens = .error error) :
    Blames last lead tokens error := by
  rw [comparison] at failed
  split at failed
  · cases failed
  rename_i relation rest found
  obtain ⟨sign, rfl, compares⟩ := relation?_some found
  rcases bind_error failed with first | ⟨⟨target, rest', _⟩, first, second⟩
  · have blames : Blames last (lead ++ [sign]) rest error :=
      sum_blames ends first (absurd · Bool.false_ne_true)
    exact blames.behind
  obtain ⟨used, rfl⟩ := sum_suffix first
  simp only at second
  split at second
  · rename_i chained
    cases second
    obtain ⟨⟨relation', behind⟩, found'⟩ := Option.isSome_iff_exists.mp chained
    obtain ⟨sign', rfl, compares'⟩ := relation?_some found'
    exact ⟨sign :: used, sign', behind ++ [last], by simp, rfl, rfl, ⟨relation', compares'⟩, sign,
      by simp, relation, compares⟩
  · cases second

theorem rollCommand_blames (begins : ∀ token ∈ tokens.head?, BeginsCommand lead token)
    (failed : rollCommand last tokens = .error error) : Blames last lead tokens error := by
  rw [rollCommand] at failed
  rcases bind_error failed with first | ⟨⟨expr, rest, shorter⟩, first, second⟩
  · exact sum_blames ends first (absurd · Bool.false_ne_true)
  obtain ⟨used, whole⟩ := sum_suffix first
  rcases bind_error second with compared | ⟨⟨check, rest'⟩, -, third⟩
  · rw [whole]
    exact .behind (comparison_blames ends compared)
  rcases bind_error third with refused | ⟨_, -, same⟩
  · -- The command is read from something, so that its first token is not the end of the text.
    obtain ⟨token, behind, rfl⟩ := List.exists_cons_of_length_pos (Nat.zero_lt_of_lt shorter)
    have begins' : BeginsCommand (lead ++ []) token := by
      rw [List.append_nil]
      exact begins token rfl
    cases classified : Command.ofExpression expr check with
    | ok made =>
      rw [classified] at refused
      cases refused
    | error fault =>
      rw [classified] at refused
      cases refused
      exact ⟨[], token, behind ++ [last], rfl, rfl, rfl,
        Command.concerns_of_fault (Command.ofExpression_error classified) begins'⟩
  · cases same

theorem command_blames {shape : Shape} (prepares : Prepares lead tokens shape)
    (failed : command last shape tokens = .error error) : Blames last lead tokens error := by
  cases shape with
  | calculation =>
    obtain ⟨secret, leads⟩ := prepares
    exact calculation_blames ends ⟨secret, lead, [], by simp, leads, .nil⟩ failed
  | choice =>
    rcases bind_error failed with items | ⟨_, -, same⟩
    · exact choiceItems_blames ends prepares items
    · cases same
  | rolls => exact rollCommand_blames ends prepares failed

end Readers

theorem choiceItems_suffix {items : NonEmptyList String}
    (read : choiceItems last tokens = .ok (items, rest)) : rest <:+ tokens := by
  fun_induction choiceItems last tokens generalizing items rest with
  | case1 | case2 => cases read
  | case3 tokens item delimiter behind cut =>
    rename_i ih
    obtain ⟨⟨later, _⟩, next, same⟩ := bind_ok read
    cases same
    have within : behind <:+ tokens :=
      (cut ▸ List.suffix_cons delimiter behind).trans (List.dropWhile_suffix _)
    exact (ih next).trans within
  | case4 tokens item delimiter behind cut =>
    cases read
    exact (cut ▸ List.suffix_cons delimiter behind).trans (List.dropWhile_suffix _)

theorem command_suffix {shape : Shape} {made : Command}
    (read : command last shape tokens = .ok (made, rest)) : rest <:+ tokens := by
  cases shape with
  | calculation =>
    obtain ⟨inner, closing, -, rfl, -⟩ := calculation_sound read
    exact ⟨inner ++ [closing], by simp⟩
  | choice =>
    obtain ⟨⟨items, _⟩, read, same⟩ := bind_ok read
    cases same
    exact choiceItems_suffix read
  | rolls =>
    obtain ⟨used, behind, -, -, rfl, -⟩ := rollCommand_sound read
    exact ⟨used ++ behind, List.append_assoc _ _ _⟩

theorem statement_blames {tokens : Tokens} (ends : tokens.last.kind = .endOfText)
    (body : ∀ token ∈ tokens.body, token.kind ≠ .endOfText)
    (failed : statement tokens = .error error) : Blames tokens.last [] tokens.body error := by
  obtain ⟨before, whole, prepares⟩ := lead_prepares tokens.body
  rw [statement] at failed
  rcases bind_error failed with first | ⟨⟨made, rest⟩, read, second⟩
  · rw [whole]
    exact .behind (command_blames ends prepares first)
  simp only at second
  split at second
  · rename_i left
    cases second
    obtain ⟨used, same⟩ := command_suffix read
    have parts : tokens.body = before ++ used ++ rest := by
      rw [List.append_assoc, same]
      exact whole
    obtain ⟨token, behind, rfl⟩ := List.exists_cons_of_ne_nil left
    have other : token.kind ∉ [TokenKind.endOfText] := by
      have inBody := body token (parts ▸ List.mem_append_right _ List.mem_cons_self)
      simpa using inBody
    rw [parts]
    exact .behind (unexpected_blames other)
  · cases second

end Grammar

namespace Statement

/-- What is wrong with a text that is not read shows at one of its tokens. -/
theorem parse_blames {text : String} {error : ParseError} (failed : parse text = .error error) :
    ∃ before token after, (Tokens.ofText text).toList = before ++ token :: after ∧
      error.column = token.column ∧ error.literal = token.literal ∧
      error.kind.Concerns before token := by
  have laid := Tokens.scan_laid {} text.toList
  exact Grammar.statement_blames laid.last_eq.1 (fun _ => laid.body_kind) failed

theorem parse_blames_dice :
    Statement.parse "SC((1)+(2D6))" = .error ⟨.diceInCalculation, 10, "D"⟩ ∧
      ∃ before token after, (Tokens.ofText "SC((1)+(2D6))").toList = before ++ token :: after ∧
        10 = token.column ∧ "D" = token.literal ∧
        token.kind ∈ [.letter .d, .letter .b, .letter .r, .letter .u] ∧ InCalculation before := by
  have failed : Statement.parse "SC((1)+(2D6))" = .error ⟨.diceInCalculation, 10, "D"⟩ := by
    have shown : (match parse "SC((1)+(2D6))" with | .ok _ => none | .error error => some error) =
        some ⟨.diceInCalculation, 10, "D"⟩ := by decide +kernel
    split at shown
    · cases shown
    · cases shown
      assumption
  exact ⟨failed, parse_blames failed⟩

end Statement

end DiceLanguage
