import DiceLanguage.Proofs.Print.RollList

namespace DiceLanguage

open Grammar

def IsDelimiter (c : Char) : Prop := c = ',' ∨ c = ']'

instance (c : Char) : Decidable (IsDelimiter c) := inferInstanceAs (Decidable (_ ∨ _))

/-- A text that may stand as an item: something, with no blanks around it and no delimiter in it. -/
structure IsItem (item : String) : Prop where
  nonempty : item ≠ ""
  trimmed : String.ofList (Text.trim item.toList) = item
  free : ∀ c ∈ item.toList, ¬ IsDelimiter c

namespace Lexeme

variable {c d : Char} {text rest : List Char}

theorem takeWhile_append_stop {p : Char → Bool} (stop : p d = false) (text rest : List Char) :
    (text ++ d :: rest).takeWhile p = text.takeWhile p ∧
      (text ++ d :: rest).dropWhile p = text.dropWhile p ++ d :: rest := by
  induction text with
  | nil => simp [stop]
  | cons c text ih => cases holds : p c <;> simp [holds, ih]

theorem symbol_append (delimiter : IsDelimiter d) (c : Char) (text rest : List Char) :
    symbol c (text ++ d :: rest) =
      ⟨(symbol c text).kind, (symbol c text).text, (symbol c text).rest ++ d :: rest⟩ := by
  have noGreater : d ≠ '>' := by rcases delimiter with rfl | rfl <;> decide
  have noEqual : d ≠ '=' := by rcases delimiter with rfl | rfl <;> decide
  have noDot : d ≠ '.' := by rcases delimiter with rfl | rfl <;> decide
  rcases text with _ | ⟨x, _ | ⟨y, text⟩⟩
  · simp [symbol, noGreater, noEqual, noDot]
  · simp only [List.cons_append, List.nil_append]
    unfold symbol
    split <;> simp_all
  · simp only [List.cons_append]
    unfold symbol
    split
    case h_5 tail noDots same =>
      cases same
      have other : y ≠ '.' := by
        intro dot
        subst dot
        exact noDots _ rfl
      simp [other]
    all_goals simp_all

theorem first_append (delimiter : IsDelimiter d) (c : Char) (text rest : List Char) :
    first c (text ++ d :: rest) =
      ⟨(first c text).kind, (first c text).text, (first c text).rest ++ d :: rest⟩ := by
  have noDigit : d.isDigit = false := by rcases delimiter with rfl | rfl <;> rfl
  have noLetter : d.isAlpha = false := by rcases delimiter with rfl | rfl <;> rfl
  obtain ⟨digits, behindDigits⟩ := takeWhile_append_stop noDigit text rest
  obtain ⟨letters, behindLetters⟩ := takeWhile_append_stop noLetter text rest
  unfold first
  split
  · rw [digits, behindDigits]
  · split
    · rw [letters, behindLetters]
    · exact symbol_append delimiter c text rest

theorem wordKind_cases (text : List Char) :
    wordKind text = .word ∨ ∃ letter, wordKind text = .letter letter := by
  unfold wordKind
  split
  · rename_i c
    cases Letter.ofChar? c with
    | none => exact .inl rfl
    | some letter => exact .inr ⟨letter, rfl⟩
  · exact .inl rfl

theorem first_kind (free : ¬ IsDelimiter c) (text : List Char) :
    (first c text).kind ≠ .comma ∧ (first c text).kind ≠ .rightBracket := by
  unfold first
  split
  · exact ⟨nofun, nofun⟩
  split
  · rcases wordKind_cases (c :: text.takeWhile Char.isAlpha) with same | ⟨letter, same⟩ <;>
      simp [same]
  · unfold symbol
    split
    case h_6 =>
      rw [IsDelimiter, not_or] at free
      unfold symbolKind
      split <;> simp_all
    all_goals exact ⟨nofun, nofun⟩

end Lexeme

theorem not_endsItem {token : Token} (noComma : token.kind ≠ .comma)
    (noBracket : token.kind ≠ .rightBracket) : endsItem token = false := by
  simp [endsItem, noComma, noBracket]

theorem scan_item {d : Char} (delimiter : IsDelimiter d) (text rest : List Char)
    (free : ∀ c ∈ text, ¬ IsDelimiter c) (start : Position) :
    ∃ tokens token place,
      (Tokens.scan start (text ++ d :: rest)).body =
        tokens ++ token :: (Tokens.scan place rest).body ∧
      (∀ t ∈ tokens, endsItem t = false) ∧ token.kind = Lexeme.symbolKind d ∧
      tokens.flatMap Token.span ++ token.gap.toList = text ∧
      ∀ c ∈ token.gap.toList, Text.isGap c = true := by
  -- By induction on the length, since a shorter text stands behind the first token.
  induction size : text.length using Nat.strongRecOn generalizing text start with
  | ind n ih =>
    subst size
    let gap := text.takeWhile Text.isGap
    have blank : ∀ c ∈ gap, Text.isGap c = true := List.all_eq_true.mp List.all_takeWhile
    have cut : text = gap ++ text.dropWhile Text.isGap := List.takeWhile_append_dropWhile.symm
    cases behind : text.dropWhile Text.isGap with
    | nil =>
      have noGap : Text.isGap d = false := by rcases delimiter with rfl | rfl <;> rfl
      have single : Lexeme.first d rest = ⟨Lexeme.symbolKind d, [d], rest⟩ := by
        rcases delimiter with rfl | rfl <;> rfl
      rw [behind, List.append_nil] at cut
      have scanned := Tokens.scan_gap blank noGap start rest
      rw [single] at scanned
      rw [cut]
      exact ⟨[], _, _, scanned, nofun, rfl, by simp, by simpa using blank⟩
    | cons c more =>
      have noGap : Text.isGap c = false := by
        have stops := List.head?_dropWhile_not Text.isGap text
        rwa [behind] at stops
      rw [behind] at cut
      have within : ∀ x ∈ c :: more, x ∈ text := by
        intro x member
        rw [cut]
        exact List.mem_append_right gap member
      have whole := Lexeme.first_text_append_rest c more
      have shorter : (Lexeme.first c more).rest.length < text.length := by
        have bound := Lexeme.length_first_rest c more
        have size := congrArg List.length cut
        rw [List.length_append, List.length_cons] at size
        omega
      have scanned := Tokens.scan_gap blank noGap start (more ++ d :: rest)
      rw [Lexeme.first_append delimiter] at scanned
      obtain ⟨tokens, token, place, later, noEnd, kind, same, last⟩ :=
        ih _ shorter (Lexeme.first c more).rest
          (fun x member => free x (within x (whole ▸ List.mem_append_right _ member))) _ rfl
      rw [later] at scanned
      rw [← List.cons_append, ← List.append_assoc, ← cut] at scanned
      obtain ⟨noComma, noBracket⟩ := Lexeme.first_kind (free c (within c List.mem_cons_self)) more
      refine ⟨_ :: tokens, token, place, scanned, ?_, kind, ?_, last⟩
      · intro t member
        rcases List.mem_cons.mp member with rfl | member
        · exact not_endsItem noComma noBracket
        · exact noEnd t member
      · rw [List.flatMap_cons, List.append_assoc, same, Token.span]
        simp only [String.toList_ofList, List.append_assoc]
        rw [whole, ← cut]

theorem getLast?_trim {text : List Char} (trimmed : Text.trim text = text) :
    ∀ c ∈ text.getLast?, Text.isBlank c = false := by
  intro c last
  rw [← trimmed, Text.trim, List.getLast?_reverse] at last
  have stops := List.head?_dropWhile_not Text.isBlank (text.dropWhile Text.isBlank).reverse
  rwa [Option.mem_def.mp last] at stops

theorem itemText_of_tokens {item : String} (valid : IsItem item) {tokens : List Token}
    {gap : List Char} (whole : tokens.flatMap Token.span ++ gap = item.toList)
    (blank : ∀ c ∈ gap, Text.isGap c = true) : itemText tokens = item := by
  have trimmed : Text.trim item.toList = item.toList := by
    rw [← String.ofList_inj, valid.trimmed, String.ofList_toList]
  -- A gap at the end would be a blank at the end of the item, which `trim` takes off.
  have empty : gap = [] := by
    cases same : gap.getLast? with
    | none => exact List.getLast?_eq_none_iff.mp same
    | some c =>
      have last : c ∈ item.toList.getLast? := by
        rw [← whole, List.getLast?_append, same]
        rfl
      have visible := getLast?_trim trimmed c last
      rw [Text.isBlank_of_isGap (blank c (List.mem_of_getLast? same))] at visible
      cases visible
  rw [empty, List.append_nil] at whole
  rw [itemText, whole, valid.trimmed]

section Items

variable {last token : Token} {tokens rest : List Token} {item : String}

theorem choiceItems_step (noEnd : ∀ t ∈ tokens, endsItem t = false) (ends : endsItem token = true)
    (text : itemText tokens = item) (nonempty : item ≠ "") :
    choiceItems last (tokens ++ token :: rest) =
      if token.kind = .comma then do
        let (items, rest) ← choiceItems last rest
        return (items.cons item, rest)
      else .ok (⟨item, []⟩, rest) := by
  have taken : (tokens ++ token :: rest).takeWhile (!endsItem ·) = tokens := by
    rw [List.takeWhile_append_of_pos (by simpa using noEnd)]
    simp [ends]
  have dropped : (tokens ++ token :: rest).dropWhile (!endsItem ·) = token :: rest := by
    rw [List.dropWhile_append_of_pos (by simpa using noEnd)]
    simp [ends]
  rw [choiceItems_cut dropped, taken]
  simp only [text, if_neg nonempty]
  rfl

theorem choiceItems_read (head : String) (tail : List String)
    (valid : ∀ item ∈ head :: tail, IsItem item) (start : Position) :
    choiceItems last
        (Tokens.scan start ((",".intercalate (head :: tail)).toList ++ [']'])).body =
      .ok (⟨head, tail⟩, []) := by
  induction tail generalizing head start with
  | nil =>
    have single := valid head List.mem_cons_self
    obtain ⟨tokens, token, place, scanned, noEnd, kind, whole, blank⟩ :=
      scan_item (.inr rfl) head.toList [] single.free start
    have bracket : token.kind = .rightBracket := kind
    rw [String.intercalate_singleton, scanned, Tokens.scan_nil, choiceItems_step noEnd
      (by simp [endsItem, bracket]) (itemText_of_tokens single whole blank) single.nonempty,
      if_neg (by simp [bracket])]
  | cons next tail ih =>
    have single := valid head List.mem_cons_self
    have text : (",".intercalate (head :: next :: tail)).toList ++ [']'] =
        head.toList ++ ',' :: ((",".intercalate (next :: tail)).toList ++ [']']) := by
      rw [String.intercalate_cons_cons]
      simp
    obtain ⟨tokens, token, place, scanned, noEnd, kind, whole, blank⟩ :=
      scan_item (.inl rfl) head.toList _ single.free start
    have comma : token.kind = .comma := kind
    rw [text, scanned, choiceItems_step noEnd (by simp [endsItem, comma])
      (itemText_of_tokens single whole blank) single.nonempty, if_pos comma,
      ih next fun item member => valid item (List.mem_cons_of_mem _ member)]
    rfl

end Items

def choiceWord (secret : Bool) : String := secretText secret ++ "CHOICE"

theorem lead_choice {secret : Bool} {head opening : Token} {rest : List Token}
    (word : head.kind = .word) (literal : head.literal = choiceWord secret)
    (opens : opening.kind = .leftBracket) :
    Lead.ofTokens (head :: opening :: rest) = ⟨secret, .choice, rest⟩ := by
  cases secret with
  | false =>
    have spelled : head.spells "choice" = true := by
      simp [Token.spells, word, literal, choiceWord, secretText]
    have other : ¬ head.spells "schoice" = true := by
      simp [Token.spells, word, literal, choiceWord, secretText]
    rw [Lead.ofTokens, if_neg fun both => other both.1, if_neg (by simp [opens]), Lead.ofMarked,
      if_neg (by simp [word]), Lead.ofCommand, if_neg (by simp [word]), if_pos ⟨spelled, opens⟩]
  | true =>
    have spelled : head.spells "schoice" = true := by
      simp [Token.spells, word, literal, choiceWord, secretText]
    rw [Lead.ofTokens, if_pos ⟨spelled, opens⟩]

theorem body_choice (secret : Bool) (text : List Char) :
    ∃ head opening place, (Tokens.scan {} ((choiceWord secret).toList ++ '[' :: text)).body =
        head :: opening :: (Tokens.scan place text).body ∧
      head.kind = .word ∧ head.literal = choiceWord secret ∧ opening.kind = .leftBracket := by
  have word : Spells (choiceWord secret).toList
      (Single .word (choiceWord secret).toList) := by
    cases secret <;> exact .letters rfl
  have bracket : Spells ['['] (Single .leftBracket ['[']) := .symbol rfl rfl rfl
  have apart : Apart (choiceWord secret).toList ['['] := apart_before_bracket (.inr (.inr rfl)) _
  obtain ⟨_, ⟨_, _, rfl, ⟨head, rfl, kind, literal, -⟩, opening, rfl, opens, -⟩, cut⟩ :=
    (word.append bracket apart (List.cons_ne_nil _ _)) {} text
      (apart_behind_bracket (.inr (.inr rfl)) _ text)
  rw [List.append_assoc] at cut
  exact ⟨head, opening, _, cut, kind, by rw [literal, String.ofList_toList], opens⟩

/-- Lists of plain rolls, which are reported one by one, and choices. -/
def Command.IsPlainList : Command → Prop
  | scatter rolls check => (∀ roll ∈ rolls.toList, roll.IsPlain .scatter) ∧ PlainCheck check
  | reroll rolls threshold check =>
    (∀ roll ∈ rolls.toList, roll.IsPlain .reroll) ∧ (∀ limit ∈ threshold, limit.IsPlain) ∧
      PlainCheck check
  | choice items => ∀ item ∈ items.toList, IsItem item
  | calculation _ | sum _ | sumCheck _ | compound .. => False

namespace Statement

theorem parse_print_choice {items : NonEmptyList String}
    (valid : ∀ item ∈ items.toList, IsItem item) (secret : Bool) :
    parse (Statement.mk (.choice items) secret).print = .ok ⟨.choice items, secret⟩ := by
  have text : (Statement.mk (.choice items) secret).print.toList =
      (choiceWord secret).toList ++ '[' :: ((",".intercalate items.toList).toList ++ [']']) := by
    simp [print_eq, Command.print, choiceWord]
  obtain ⟨head, opening, place, scanned, word, literal, opens⟩ := body_choice secret
    ((",".intercalate items.toList).toList ++ [']'])
  rw [parse, Grammar.statement, Tokens.ofText, text, scanned, lead_choice word literal opens]
  change (choice _ _ >>= _) = _
  rw [choice, NonEmptyList.toList, choiceItems_read items.head items.tail valid place]
  rfl

/-- Lists of rolls and choices are read back from their text, whoever made them. -/
theorem parse_print_list {statement : Statement} (plain : statement.command.IsPlainList) :
    parse statement.print = .ok statement := by
  obtain ⟨command, secret⟩ := statement
  cases command with
  | scatter rolls check => exact parse_print_scatter plain.1 plain.2 secret
  | reroll rolls threshold check => exact parse_print_reroll plain.1 plain.2.1 plain.2.2 secret
  | choice items => exact parse_print_choice plain secret
  | calculation | sum | sumCheck | compound => exact plain.elim

theorem parse_print_list_nested :
    parse (Statement.mk (.scatter ⟨⟨.scatter, .roll .sum (.int 2) (.int 6), .int 6, none⟩,
        [⟨.scatter, .int 1, .neg (.int 8), none⟩]⟩ (some ⟨.atLeast, .neg (.int 3)⟩)) true).print =
      .ok ⟨.scatter ⟨⟨.scatter, .roll .sum (.int 2) (.int 6), .int 6, none⟩,
        [⟨.scatter, .int 1, .neg (.int 8), none⟩]⟩ (some ⟨.atLeast, .neg (.int 3)⟩), true⟩ ∧
    parse (Statement.mk (.reroll ⟨⟨.reroll, .int 2, .int 6, none⟩, []⟩
        (some (.binary .add (.int 4) (.int 1))) none) false).print =
      .ok ⟨.reroll ⟨⟨.reroll, .int 2, .int 6, none⟩, []⟩
        (some (.binary .add (.int 4) (.int 1))) none, false⟩ ∧
    parse (Statement.mk (.choice ⟨"ü < 1", ["..x"]⟩) true).print =
      .ok ⟨.choice ⟨"ü < 1", ["..x"]⟩, true⟩ := by
  refine ⟨parse_print_list ⟨?_, ?_⟩, parse_print_list ⟨?_, ?_, nofun⟩, parse_print_list ?_⟩
  · intro roll member
    simp only [NonEmptyList.toList, List.mem_cons, List.not_mem_nil, or_false] at member
    rcases member with rfl | rfl
    · exact ⟨rfl, by decide, by decide, rfl⟩
    · exact ⟨rfl, by decide, by decide, rfl⟩
  · intro comparison same
    cases same
    decide
  · intro roll member
    cases List.mem_singleton.mp member
    exact ⟨rfl, by decide, by decide, rfl⟩
  · intro limit same
    cases same
    decide
  · intro item member
    simp only [NonEmptyList.toList, List.mem_cons, List.not_mem_nil, or_false] at member
    rcases member with rfl | rfl
    · exact ⟨by decide, by decide, by simp [IsDelimiter]⟩
    · exact ⟨by decide, by decide, by simp [IsDelimiter]⟩

end Statement

end DiceLanguage
