import DiceLanguage.Proofs.Grammar.Language
import DiceLanguage.Proofs.Print.Choice
import DiceLanguage.Proofs.Print.Compound
import DiceLanguage.Proofs.Text

namespace DiceLanguage

open Grammar

namespace Command

def WellFormed : Command → Prop
  | calculation expr => expr.IsPlain ∧ expr.IsDiceFree
  | sum expr => expr.IsPlain ∧ expr.isVariable = true
  | sumCheck comparison =>
    ∃ relation left right, comparison = .binary (.compare relation) left right ∧
      left.IsPlain ∧ right.IsPlain ∧ (left.isVariable = true ∨ right.isVariable = true)
  | scatter rolls check => (∀ roll ∈ rolls.toList, roll.IsPlain .scatter) ∧ PlainCheck check
  | reroll rolls threshold check =>
    (∀ roll ∈ rolls.toList, roll.IsPlain .reroll) ∧ (∀ limit ∈ threshold, limit.IsPlain) ∧
      PlainCheck check
  | compound rolls threshold modifier check =>
    (∀ roll ∈ rolls.toList, roll.IsPlain .compound) ∧ (∀ limit ∈ threshold, limit.IsPlain) ∧
      PlainModifier modifier ∧ PlainCheck check
  | choice items => ∀ item ∈ items.toList, IsItem item

theorem Made.wellFormed {expr : Node} {check : Option Comparison} {command : Command}
    (made : Made expr check command) (readable : expr.IsReadable) (checked : PlainCheck check) :
    command.WellFormed := by
  cases made with
  | scatter list =>
    obtain ⟨init, last, rfl, -, plain⟩ := plainRolls_of_rollList readable list
    exact ⟨plain.list, checked⟩
  | reroll list =>
    obtain ⟨init, last, rfl, rfl, plain⟩ := plainRolls_of_rollList readable list
    exact ⟨plain.list, fun limit member => (plain.limited limit member).2, checked⟩
  | compound detached constant list =>
    obtain ⟨⟨init, last, rfl, rfl, plain⟩, fixed⟩ := compound_plain readable detached constant list
    exact ⟨plain.list, fun limit member => (plain.limited limit member).2, fixed, checked⟩
  | sum free absent dice => exact ⟨readable.plain free, dice⟩
  | @sumCheck relation target free present dice =>
    exact ⟨relation, expr, target, rfl, readable.plain free, checked _ present,
      Bool.or_eq_true_iff.mp dice⟩

end Command

theorem Grammar.Origin.wellFormed {command : Command} (origin : Origin command)
    (items : ∀ {items}, command = .choice items → ∀ item ∈ items.toList, IsItem item) :
    command.WellFormed := by
  cases origin with
  | calculation derives constant =>
    exact ⟨derives.readable.plain (Node.contains_of_constant constant _),
      Node.isDiceFree_iff.mpr constant⟩
  | choice => exact items rfl
  | rolls derives checks accepted =>
    obtain ⟨free, made⟩ := Command.ofExpression_made accepted
    exact made.wellFormed derives.readable (checks.plain free)

theorem not_isDelimiter {p : Char → Bool} (comma : p ',' = false) (bracket : p ']' = false) {c : Char}
    (holds : p c = true) : ¬ IsDelimiter c := by
  intro delimiter
  rcases delimiter with rfl | rfl
  · simp [comma] at holds
  · simp [bracket] at holds

theorem not_isDelimiter_of_run {p : Char → Bool} (comma : p ',' = false) (bracket : p ']' = false)
    {c : Char} (first : p c = true) (rest : List Char) :
    ∀ x ∈ c :: rest.takeWhile p, ¬ IsDelimiter x := by
  intro x member
  rcases List.mem_cons.mp member with rfl | member
  · exact not_isDelimiter comma bracket first
  · exact not_isDelimiter comma bracket (List.all_eq_true.mp List.all_takeWhile x member)

theorem Lexeme.first_text_free (c : Char) (rest : List Char)
    (noComma : (first c rest).kind ≠ .comma) (noBracket : (first c rest).kind ≠ .rightBracket) :
    ∀ x ∈ (first c rest).text, ¬ IsDelimiter x := by
  unfold first at noComma noBracket ⊢
  split
  · exact not_isDelimiter_of_run rfl rfl ‹_› rest
  split
  · exact not_isDelimiter_of_run rfl rfl ‹_› rest
  · rename_i noDigit noLetter
    rw [if_neg noDigit, if_neg noLetter] at noComma noBracket
    unfold symbol at noComma noBracket ⊢
    split
    case h_6 =>
      intro x member
      cases List.mem_singleton.mp member
      intro delimiter
      rcases delimiter with rfl | rfl
      · exact noComma rfl
      · exact noBracket rfl
    all_goals simp [IsDelimiter]

theorem Tokens.scan_span_free (start : Position) (text : List Char) :
    ∀ token ∈ (scan start text).body, endsItem token = false →
      ∀ c ∈ token.span, ¬ IsDelimiter c := by
  fun_induction scan start text with
  | case1 => nofun
  | case2 start text gap place c rest behind lexeme token tokens ih =>
    intro token' member noEnd x inside
    rcases List.mem_cons.mp member with rfl | member
    · rw [endsItem, Bool.or_eq_false_iff] at noEnd
      rcases List.mem_append.mp inside with inside | inside
      · rw [String.toList_ofList] at inside
        exact not_isDelimiter rfl rfl (List.all_eq_true.mp List.all_takeWhile x inside)
      · rw [String.toList_ofList] at inside
        exact Lexeme.first_text_free c rest (by simpa using noEnd.1) (by simpa using noEnd.2) x inside
    · exact ih token' member noEnd x inside

namespace Grammar

variable {last : Token} {tokens rest : List Token}

theorem isItem_itemText (free : ∀ token ∈ tokens, ∀ c ∈ token.span, ¬ IsDelimiter c)
    (nonempty : itemText tokens ≠ "") : IsItem (itemText tokens) := by
  refine ⟨nonempty, ?_, ?_⟩
  · rw [itemText, String.toList_ofList, Text.trim_trim]
  · intro c member
    rw [itemText, String.toList_ofList] at member
    obtain ⟨token, within, inside⟩ := List.mem_flatMap.mp (Text.mem_of_mem_trim member)
    exact free token within c inside

theorem takeWhile_span_free
    (free : ∀ token ∈ tokens, endsItem token = false → ∀ c ∈ token.span, ¬ IsDelimiter c) :
    ∀ token ∈ tokens.takeWhile (!endsItem ·), ∀ c ∈ token.span, ¬ IsDelimiter c := by
  intro token member
  have noEnd := List.all_eq_true.mp List.all_takeWhile token member
  exact free token ((List.takeWhile_prefix _).subset member) (by simpa using noEnd)

theorem choiceItems_items {items : NonEmptyList String}
    (free : ∀ token ∈ tokens, endsItem token = false → ∀ c ∈ token.span, ¬ IsDelimiter c)
    (read : choiceItems last tokens = .ok (items, rest)) : ∀ item ∈ items.toList, IsItem item := by
  fun_induction choiceItems last tokens generalizing items rest with
  | case1 | case2 => cases read
  | case3 tokens item delimiter behind cut text nonempty =>
    rename_i ih
    obtain ⟨⟨later, _⟩, next, same⟩ := bind_ok read
    cases same
    have within : behind ⊆ tokens := fun token member =>
      (List.dropWhile_suffix _).subset (cut ▸ List.mem_cons_of_mem delimiter member)
    intro item member
    rcases List.mem_cons.mp member with rfl | member
    · exact isItem_itemText (takeWhile_span_free free) nonempty
    · exact ih (fun token member => free token (within member)) next item member
  | case4 tokens item delimiter behind cut text =>
    rename_i nonempty _
    cases read
    intro item member
    cases List.mem_singleton.mp member
    exact isItem_itemText (takeWhile_span_free free) nonempty

theorem lead_rest_subset (tokens : List Token) : (Lead.ofTokens tokens).rest ⊆ tokens := by
  obtain ⟨before, whole, -⟩ := lead_prepares tokens
  intro token member
  rw [whole]
  exact List.mem_append_right before member

theorem choiceItems_of_command {shape : Shape} {items : NonEmptyList String}
    (read : command last shape tokens = .ok (.choice items, rest)) :
    choiceItems last tokens = .ok (items, rest) := by
  cases shape with
  | calculation =>
    obtain ⟨_, _, _, -, -, -, -, same⟩ := calculation_sound read
    cases same
  | rolls =>
    obtain ⟨_, _, _, _, -, -, -, accepted⟩ := rollCommand_sound read
    cases (Command.ofExpression_made accepted).2
  | choice =>
    change choice last tokens = _ at read
    obtain ⟨⟨_, _⟩, items, same⟩ := bind_ok read
    cases same
    exact items

end Grammar

namespace Statement

theorem choice_items {text : String} {statement : Statement}
    (parsed : parse text = .ok statement) {items : NonEmptyList String}
    (chooses : statement.command = .choice items) : ∀ item ∈ items.toList, IsItem item := by
  obtain ⟨command, secret⟩ := statement
  cases chooses
  obtain ⟨read, -⟩ := statement_ok.mp parsed
  apply choiceItems_items _ (choiceItems_of_command read)
  exact fun token member => Tokens.scan_span_free {} text.toList token (lead_rest_subset _ member)

/-- The command of every text that is read is well-formed. -/
theorem parse_wellFormed {text : String} {statement : Statement}
    (parsed : parse text = .ok statement) : statement.command.WellFormed :=
  (parse_origin parsed).wellFormed (choice_items parsed)

theorem parse_wellFormed_nested :
    let command : Command := .compound
      ⟨⟨.compound, .int 1, .roll .sum (.int 2) (.int 6), none⟩,
        [⟨.compound, .int 2, .random (.int 1) (.int 8), none⟩]⟩
      (some (.binary .add (.int 4) (.int 1))) (some (.neg (.int 3))) (some ⟨.atLeast, .neg (.int 2)⟩)
    parse "S1U(2D6)+2U[1...8][4+1]-3>=-2" = .ok ⟨command, true⟩ ∧ command.WellFormed := by
  intro command
  have parsed : parse "S1U(2D6)+2U[1...8][4+1]-3>=-2" = .ok ⟨command, true⟩ :=
    ok_of_toOption (by decide +kernel)
  exact ⟨parsed, parse_wellFormed parsed⟩

end Statement

end DiceLanguage
