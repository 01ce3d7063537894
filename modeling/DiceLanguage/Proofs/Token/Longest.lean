import DiceLanguage.Proofs.Token.Spelling

namespace DiceLanguage

/-- The texts that are tokens of the kind. Of the illegal tokens these are the rests of a run of
dots; any other illegal token is a character that begins no token. -/
def TokenKind.Matches (text : List Char) : TokenKind → Prop
  | .illegal => text = ['.'] ∨ text = ['.', '.']
  | .endOfText => False
  | .integer => text ≠ [] ∧ ∀ c ∈ text, c.isDigit = true
  | .word => text ≠ [] ∧ (∀ c ∈ text, c.isAlpha = true) ∧
      ∀ c ∈ text, text.length = 1 → Letter.ofChar? c = none
  | .letter l => ∃ c, text = [c] ∧ Letter.ofChar? c = some l
  | .plus => text = ['+']
  | .minus => text = ['-']
  | .times => text = ['*']
  | .slash => text = ['/']
  | .relation r => text = r.symbol.toList
  | .leftParen => text = ['(']
  | .rightParen => text = [')']
  | .leftBracket => text = ['[']
  | .rightBracket => text = [']']
  | .comma => text = [',']
  | .ellipsis => text = ['.', '.', '.']

namespace Lexeme

/-- The kind matches what was cut off, and no kind matches more. A single character is cut off where
no kind matches anything. -/
structure IsLongest (lexeme : Lexeme) : Prop where
  nonempty : lexeme.text ≠ []
  cut : lexeme.kind.Matches lexeme.text ∨
    lexeme.kind = .illegal ∧ lexeme.text.length = 1 ∧ ∀ kind, ¬ TokenKind.Matches lexeme.text kind
  longest : ∀ kind text, TokenKind.Matches text kind → text <+: lexeme.text ++ lexeme.rest →
    text.length ≤ lexeme.text.length

def symbols : List (List Char) :=
  [['+'], ['-'], ['*'], ['/'], ['='], ['<'], ['>'], ['<', '>'], ['<', '='], ['>', '='],
    ['('], [')'], ['['], [']'], [','], ['.'], ['.', '.'], ['.', '.', '.']]

theorem symbols_special {text : List Char} (member : text ∈ symbols) :
    ∀ c ∈ text, c.isDigit = false ∧ c.isAlpha = false := by
  have special : symbols.all (·.all fun c => !c.isDigit && !c.isAlpha) = true := rfl
  intro c inText
  have both := List.all_eq_true.mp (List.all_eq_true.mp special text member) c inText
  simpa using both

theorem symbols_dots {text : List Char} (member : text ∈ symbols) (dot : '.' ∈ text) :
    ∀ c ∈ text, c = '.' := by
  have dots : symbols.all (fun text => !text.contains '.' || text.all (· == '.')) = true := rfl
  have whole := List.all_eq_true.mp dots text member
  simpa [dot] using whole

theorem isAlpha_of_ofChar? {c : Char} {letter : Letter} (found : Letter.ofChar? c = some letter) :
    c.isAlpha = true := by
  unfold Letter.ofChar? at found
  split at found <;> first | rfl | cases found

theorem matches_cases {kind : TokenKind} {text : List Char} (fits : kind.Matches text) :
    text ≠ [] ∧ ((∀ c ∈ text, c.isDigit = true) ∨ (∀ c ∈ text, c.isAlpha = true) ∨
      text ∈ symbols) := by
  cases kind with
  | integer => exact ⟨fits.1, .inl fits.2⟩
  | word => exact ⟨fits.1, .inr (.inl fits.2.1)⟩
  | letter letter =>
    obtain ⟨c, rfl, found⟩ := fits
    refine ⟨List.cons_ne_nil _ _, .inr (.inl fun x member => ?_)⟩
    rw [List.mem_singleton.mp member]
    exact isAlpha_of_ofChar? found
  | endOfText => exact fits.elim
  | illegal => rcases fits with rfl | rfl <;> exact ⟨List.cons_ne_nil _ _, .inr (.inr (by decide))⟩
  | relation relation =>
    cases relation <;> cases fits <;> exact ⟨List.cons_ne_nil _ _, .inr (.inr (by decide))⟩
  | plus | minus | times | slash | leftParen | rightParen | leftBracket | rightBracket | comma
  | ellipsis => cases fits; exact ⟨List.cons_ne_nil _ _, .inr (.inr (by decide))⟩

theorem matches_cons {kind : TokenKind} {c : Char} {text : List Char}
    (fits : kind.Matches (c :: text)) :
    (c.isDigit = true ∧ ∀ x ∈ text, x.isDigit = true) ∨
      (c.isAlpha = true ∧ ∀ x ∈ text, x.isAlpha = true) ∨
      (c.isDigit = false ∧ c.isAlpha = false ∧ c :: text ∈ symbols) := by
  obtain ⟨-, digits | letters | symbol⟩ := matches_cases fits
  · exact .inl (List.forall_mem_cons.mp digits)
  · exact .inr (.inl (List.forall_mem_cons.mp letters))
  · obtain ⟨noDigit, noAlpha⟩ := symbols_special symbol c List.mem_cons_self
    exact .inr (.inr ⟨noDigit, noAlpha, symbol⟩)

theorem matches_dot {kind : TokenKind} {text : List Char} (fits : kind.Matches ('.' :: text)) :
    kind = .illegal ∧ (text = [] ∨ text = ['.']) ∨ kind = .ellipsis ∧ text = ['.', '.'] := by
  cases kind with
  | illegal =>
    exact .inl ⟨rfl, fits.imp (fun one => (List.cons.inj one).2) fun two => (List.cons.inj two).2⟩
  | ellipsis => exact .inr ⟨rfl, (List.cons.inj fits).2⟩
  | integer => exact absurd (fits.2 _ List.mem_cons_self) (by decide)
  | word => exact absurd (fits.2.1 _ List.mem_cons_self) (by decide)
  | letter letter =>
    obtain ⟨c, same, found⟩ := fits
    cases same
    cases found
  | relation relation => cases relation <;> cases fits
  | endOfText => exact fits.elim
  | plus | minus | times | slash | leftParen | rightParen | leftBracket | rightBracket | comma =>
    cases fits

theorem length_le_takeWhile {p : Char → Bool} {text rest : List Char} (all : ∀ c ∈ text, p c = true)
    (front : text <+: rest) : text.length ≤ (rest.takeWhile p).length := by
  obtain ⟨behind, rfl⟩ := front
  rw [List.takeWhile_append_of_pos all, List.length_append]
  exact Nat.le_add_right _ _

theorem wordKind_matches {letters : List Char} (nonempty : letters ≠ [])
    (alpha : ∀ c ∈ letters, c.isAlpha = true) : (wordKind letters).Matches letters := by
  unfold wordKind
  split
  · rename_i c
    cases found : Letter.ofChar? c with
    | none => exact ⟨nonempty, alpha, fun x member _ => List.mem_singleton.mp member ▸ found⟩
    | some letter => exact ⟨c, rfl, found⟩
  · rename_i several
    refine ⟨nonempty, alpha, fun c _ single => ?_⟩
    obtain ⟨x, rfl⟩ := List.length_eq_one_iff.mp single
    exact absurd rfl (several x)

theorem symbolKind_cut {c : Char} (noDigit : c.isDigit = false) (noAlpha : c.isAlpha = false) :
    (symbolKind c).Matches [c] ∨
      symbolKind c = .illegal ∧ [c].length = 1 ∧ ∀ kind, ¬ TokenKind.Matches [c] kind := by
  unfold symbolKind
  split
  case h_13 =>
    by_cases dot : c = '.'
    · exact .inl (.inl (congrArg (fun x => [x]) dot))
    refine .inr ⟨rfl, rfl, fun kind fits => ?_⟩
    rcases matches_cons fits with ⟨digit, -⟩ | ⟨alpha, -⟩ | ⟨-, -, symbol⟩
    · simp_all
    · simp_all
    · simp_all [symbols]
  all_goals exact .inl rfl

theorem symbol_text_ne_nil (c : Char) (rest : List Char) : (symbol c rest).text ≠ [] := by
  unfold symbol
  split <;> exact List.cons_ne_nil _ _

theorem symbol_longest {c : Char} {text behind : List Char} (member : c :: text ∈ symbols) :
    (c :: text).length ≤ (symbol c (text ++ behind)).text.length := by
  have one := List.length_pos_iff.mpr (symbol_text_ne_nil c (text ++ behind))
  cases text with
  | nil => exact one
  | cons d text =>
    simp only [symbols, List.mem_cons, List.cons.injEq, reduceCtorEq, and_false, List.not_mem_nil,
      or_false, false_or] at member
    rcases member with ⟨rfl, rfl, rfl⟩ | ⟨rfl, rfl, rfl⟩ | ⟨rfl, rfl, rfl⟩ | ⟨rfl, rfl, rfl⟩ |
      ⟨rfl, rfl, rfl⟩
    case inr.inr.inr.inl =>
      simp only [symbol]
      split <;> simp_all
    all_goals exact Nat.le_refl _

theorem symbol_isLongest {c : Char} {rest : List Char} (noDigit : c.isDigit = false)
    (noAlpha : c.isAlpha = false) : (symbol c rest).IsLongest := by
  refine ⟨symbol_text_ne_nil c rest, ?_, ?_⟩
  · unfold symbol
    split
    case h_6 => exact symbolKind_cut noDigit noAlpha
    case h_5 => exact .inl (.inr rfl)
    all_goals exact .inl rfl
  · intro kind text fits front
    rw [symbol_text_append_rest] at front
    cases text with
    | nil => exact Nat.zero_le _
    | cons x text =>
      obtain ⟨behind, same⟩ := front
      cases same
      rcases matches_cons fits with ⟨digit, -⟩ | ⟨alpha, -⟩ | ⟨-, -, member⟩
      · simp [noDigit] at digit
      · simp [noAlpha] at alpha
      · exact symbol_longest member

theorem run_isLongest {p : Char → Bool} {kind : TokenKind} {c : Char} {rest : List Char}
    (inside : p c = true) (fits : kind.Matches (c :: rest.takeWhile p))
    (single : ∀ kind text, TokenKind.Matches (c :: text) kind → ∀ x ∈ text, p x = true) :
    IsLongest ⟨kind, c :: rest.takeWhile p, rest.dropWhile p⟩ := by
  refine ⟨List.cons_ne_nil _ _, .inl fits, fun kind text other front => ?_⟩
  cases text with
  | nil => exact Nat.zero_le _
  | cons x text =>
    rw [List.cons_append, List.takeWhile_append_dropWhile, List.cons_prefix_cons] at front
    obtain ⟨rfl, front⟩ := front
    exact Nat.succ_le_succ (length_le_takeWhile (single kind text other) front)

/-- The scanner cuts off the longest token. -/
theorem first_isLongest (c : Char) (rest : List Char) : (first c rest).IsLongest := by
  have within (p : Char → Bool) (inside : p c = true) : ∀ x ∈ c :: rest.takeWhile p, p x = true :=
    List.forall_mem_cons.mpr ⟨inside, List.all_eq_true.mp List.all_takeWhile⟩
  unfold first
  split
  case isTrue digit =>
    refine run_isLongest digit ⟨List.cons_ne_nil _ _, within _ digit⟩ fun kind text fits => ?_
    rcases matches_cons fits with ⟨-, digits⟩ | ⟨alpha, -⟩ | ⟨noDigit, -, -⟩
    · exact digits
    · simp [not_isDigit_of_isAlpha alpha] at digit
    · simp [noDigit] at digit
  case isFalse noDigit =>
    split
    case isTrue alpha =>
      refine run_isLongest alpha (wordKind_matches (List.cons_ne_nil _ _) (within _ alpha))
        fun kind text fits => ?_
      rcases matches_cons fits with ⟨digit, -⟩ | ⟨-, letters⟩ | ⟨-, noAlpha, -⟩
      · exact absurd digit noDigit
      · exact letters
      · simp [noAlpha] at alpha
    case isFalse noAlpha =>
      exact symbol_isLongest (Bool.eq_false_iff.mpr noDigit) (Bool.eq_false_iff.mpr noAlpha)

theorem kind_eq_of_matches {kind : TokenKind} {c : Char} {text : List Char}
    (fits : kind.Matches (c :: text)) : kind = (first c text).kind := by
  cases kind with
  | integer =>
    have digit := fits.2 c List.mem_cons_self
    rw [first, if_pos digit]
  | word =>
    obtain ⟨-, letters, single⟩ := fits
    obtain ⟨alpha, others⟩ := List.forall_mem_cons.mp letters
    have noDigit : ¬ c.isDigit = true := Bool.eq_false_iff.mp (not_isDigit_of_isAlpha alpha)
    rw [first, if_neg noDigit, if_pos alpha]
    dsimp only
    cases text with
    | nil =>
      have none := single c List.mem_cons_self rfl
      rw [List.takeWhile_nil, wordKind, none]
      rfl
    | cons d text =>
      rw [List.takeWhile_cons_of_pos (others d List.mem_cons_self)]
      rfl
  | letter letter =>
    obtain ⟨x, same, found⟩ := fits
    cases same
    have alpha := isAlpha_of_ofChar? found
    have noDigit : ¬ c.isDigit = true := Bool.eq_false_iff.mp (not_isDigit_of_isAlpha alpha)
    rw [first, if_neg noDigit, if_pos alpha]
    dsimp only
    rw [List.takeWhile_nil, wordKind, found]
    rfl
  | endOfText => exact fits.elim
  | illegal =>
    rcases fits with one | two
    · cases one
      rfl
    · cases two
      rfl
  | relation relation => cases relation <;> cases fits <;> rfl
  | plus | minus | times | slash | leftParen | rightParen | leftBracket | rightBracket | comma
  | ellipsis => cases fits; rfl

namespace IsLongest

theorem length_le {lexeme other : Lexeme} (longest : lexeme.IsLongest) (longest' : other.IsLongest)
    (whole : lexeme.text ++ lexeme.rest = other.text ++ other.rest) :
    lexeme.text.length ≤ other.text.length := by
  rcases longest.cut with fits | ⟨-, single, -⟩
  · apply longest'.longest lexeme.kind lexeme.text fits
    exact ⟨lexeme.rest, whole⟩
  · rw [single]
    exact List.length_pos_iff.mpr longest'.nonempty

theorem unique {lexeme other : Lexeme} (longest : lexeme.IsLongest) (longest' : other.IsLongest)
    (whole : lexeme.text ++ lexeme.rest = other.text ++ other.rest) : lexeme = other := by
  have length : lexeme.text.length = other.text.length :=
    Nat.le_antisymm (longest.length_le longest' whole) (longest'.length_le longest whole.symm)
  obtain ⟨text, rest⟩ := List.append_inj whole length
  obtain ⟨kind, cutOff, behind⟩ := lexeme
  obtain ⟨kind', cutOff', behind'⟩ := other
  dsimp only at text rest
  subst text rest
  have same : kind = kind' := by
    rcases longest.cut with fits | ⟨illegal, -, none⟩
    · rcases longest'.cut with fits' | ⟨-, -, none'⟩
      · obtain ⟨c, more, rfl⟩ := List.exists_cons_of_ne_nil longest.nonempty
        exact (kind_eq_of_matches fits).trans (kind_eq_of_matches fits').symm
      · exact absurd fits (none' kind)
    · rcases longest'.cut with fits' | ⟨illegal', -, -⟩
      · exact absurd fits' (none kind')
      · exact illegal.trans illegal'.symm
  rw [same]

theorem eq_first {lexeme : Lexeme} {c : Char} {rest : List Char} (longest : lexeme.IsLongest)
    (whole : lexeme.text ++ lexeme.rest = c :: rest) : lexeme = first c rest :=
  longest.unique (first_isLongest c rest) (whole.trans (first_text_append_rest c rest).symm)

variable {lexeme : Lexeme} {next : Char} {behind : List Char}

theorem matches_kind (longest : lexeme.IsLongest) (legal : lexeme.kind ≠ .illegal) :
    lexeme.kind.Matches lexeme.text :=
  longest.cut.resolve_right fun single => legal single.1

theorem not_matches (longest : lexeme.IsLongest) (stands : next ∈ lexeme.rest.head?)
    (kind : TokenKind) : ¬ kind.Matches (lexeme.text ++ [next]) := by
  intro fits
  obtain ⟨rest, same⟩ := List.head?_eq_some_iff.mp stands
  have front : lexeme.text ++ [next] <+: lexeme.text ++ lexeme.rest :=
    ⟨rest, by rw [same, List.append_assoc]; rfl⟩
  have bound := longest.longest kind _ fits front
  rw [List.length_append, List.length_singleton] at bound
  omega

theorem not_isDigit (longest : lexeme.IsLongest) (number : lexeme.kind = .integer)
    (stands : next ∈ lexeme.rest.head?) : next.isDigit = false := by
  have fits := longest.matches_kind (by rw [number]; exact nofun)
  rw [number] at fits
  apply Bool.eq_false_iff.mpr
  intro digit
  refine longest.not_matches stands .integer ⟨by simp, fun c member => ?_⟩
  rcases List.mem_append.mp member with within | last
  · exact fits.2 c within
  · rwa [List.mem_singleton.mp last]

theorem not_isAlpha (longest : lexeme.IsLongest)
    (word : lexeme.kind = .word ∨ ∃ letter, lexeme.kind = .letter letter)
    (stands : next ∈ lexeme.rest.head?) : next.isAlpha = false := by
  have letters : ∀ c ∈ lexeme.text, c.isAlpha = true := by
    rcases word with word | ⟨letter, word⟩
    · have fits := longest.matches_kind (by rw [word]; exact nofun)
      rw [word] at fits
      exact fits.2.1
    · have fits := longest.matches_kind (by rw [word]; exact nofun)
      rw [word] at fits
      obtain ⟨c, same, found⟩ := fits
      rw [same]
      exact fun x member => List.mem_singleton.mp member ▸ isAlpha_of_ofChar? found
  apply Bool.eq_false_iff.mpr
  intro alpha
  have several : (lexeme.text ++ [next]).length ≠ 1 := by
    have nonempty := List.length_pos_iff.mpr longest.nonempty
    rw [List.length_append, List.length_singleton]
    omega
  refine longest.not_matches stands .word
    ⟨by simp, fun c member => ?_, fun _ _ one => (several one).elim⟩
  rcases List.mem_append.mp member with within | last
  · exact letters c within
  · rwa [List.mem_singleton.mp last]

theorem not_relation (longest : lexeme.IsLongest) {short : Relation}
    (kind : lexeme.kind = .relation short) (stands : next ∈ lexeme.rest.head?) (long : Relation) :
    long.symbol.toList ≠ short.symbol.toList ++ [next] := by
  intro same
  have fits := longest.matches_kind (by rw [kind]; exact nofun)
  rw [kind] at fits
  refine longest.not_matches stands (.relation long) ?_
  rw [show lexeme.text = _ from fits]
  exact same.symm

theorem illegal_text (longest : lexeme.IsLongest) (illegal : lexeme.kind = .illegal) :
    lexeme.text = ['.', '.'] ∨ lexeme.text.length = 1 := by
  rcases longest.cut with fits | ⟨-, single, -⟩
  · rw [illegal] at fits
    exact fits.symm.imp_right fun one => by rw [one]; rfl
  · exact .inr single

theorem dots_bound (longest : lexeme.IsLongest) (first : lexeme.text.head? = some '.') :
    ∃ k, 1 ≤ k ∧ k ≤ 3 ∧ lexeme.text = List.replicate k '.' ∧
      lexeme.kind = if k = 3 then .ellipsis else .illegal := by
  obtain ⟨rest, text⟩ := List.head?_eq_some_iff.mp first
  rcases longest.cut with fits | ⟨-, single, noKind⟩
  · rw [text] at fits
    rcases matches_dot fits with ⟨kind, none | one⟩ | ⟨kind, two⟩
    · exact ⟨1, by decide, by decide, by rw [text, none]; rfl, kind⟩
    · exact ⟨2, by decide, by decide, by rw [text, one]; rfl, kind⟩
    · exact ⟨3, by decide, by decide, by rw [text, two]; rfl, kind⟩
  · rw [text, List.length_cons] at single
    have none : rest = [] := List.length_eq_zero_iff.mp (Nat.succ.inj single)
    exact absurd (.inl (by rw [text, none])) (noKind .illegal)

theorem eq_dot (longest : lexeme.IsLongest) (dot : '.' ∈ lexeme.text) :
    ∀ c ∈ lexeme.text, c = '.' := by
  rcases longest.cut with fits | ⟨-, single, -⟩
  · obtain ⟨-, digits | letters | symbol⟩ := matches_cases fits
    · exact absurd (digits _ dot) (by decide)
    · exact absurd (letters _ dot) (by decide)
    · exact symbols_dots symbol dot
  · obtain ⟨x, same⟩ := List.length_eq_one_iff.mp single
    rw [same] at dot ⊢
    exact fun c member => (List.mem_singleton.mp member).trans (List.mem_singleton.mp dot).symm

theorem dots_first (longest : lexeme.IsLongest) {front more : List Char}
    (within : lexeme.text = front ++ '.' :: more) (starts : '.' ∉ front.getLast?) : front = [] := by
  apply List.getLast?_eq_none_iff.mp
  apply Option.eq_none_iff_forall_ne_some.mpr
  intro x last
  have dot : '.' ∈ lexeme.text := by
    rw [within]
    exact List.mem_append_right _ List.mem_cons_self
  have inText : x ∈ lexeme.text := by
    rw [within]
    exact List.mem_append_left _ (List.mem_of_getLast? last)
  rw [longest.eq_dot dot x inText] at last
  exact starts last

theorem dots_reached {n k : Nat} (longest : lexeme.IsLongest) (run : 0 < n)
    (same : lexeme.text ++ lexeme.rest = List.replicate n '.' ++ behind)
    (text : lexeme.text = List.replicate k '.') : min 3 n ≤ k := by
  -- Up to three dots are matched by some kind, and no kind matches more than was cut off.
  obtain ⟨dots, fits⟩ : ∃ kind, TokenKind.Matches (List.replicate (min 3 n) '.') kind := by
    obtain one | two | three : min 3 n = 1 ∨ min 3 n = 2 ∨ min 3 n = 3 := by omega
    · exact ⟨.illegal, .inl (by rw [one]; rfl)⟩
    · exact ⟨.illegal, .inr (by rw [two]; rfl)⟩
    · exact ⟨.ellipsis, by rw [three]; rfl⟩
  have front : List.replicate (min 3 n) '.' <+: lexeme.text ++ lexeme.rest := by
    refine ⟨List.replicate (n - min 3 n) '.' ++ behind, ?_⟩
    rw [same, ← List.append_assoc, List.replicate_append_replicate,
      Nat.add_sub_cancel' (Nat.min_le_right 3 n)]
  have bound := longest.longest dots _ fits front
  rwa [text, List.length_replicate, List.length_replicate] at bound

theorem dots (longest : lexeme.IsLongest) {n : Nat} (run : 0 < n)
    (same : lexeme.text ++ lexeme.rest = List.replicate n '.' ++ behind)
    (stops : '.' ∉ behind.head?) :
    lexeme.text = List.replicate (min 3 n) '.' ∧
      lexeme.rest = List.replicate (n - 3) '.' ++ behind ∧
      lexeme.kind = if 3 ≤ n then .ellipsis else .illegal := by
  have first : lexeme.text.head? = some '.' := by
    have first := congrArg List.head? same
    rw [List.head?_append, List.head?_append, List.head?_replicate,
      if_neg (Nat.ne_of_gt run)] at first
    rwa [List.head?_eq_some_head longest.nonempty] at first ⊢
  obtain ⟨k, atLeast, atMost, text, kind⟩ := longest.dots_bound first
  have reaches := longest.dots_reached run same text
  have within : k ≤ n := by
    apply Nat.le_of_not_lt
    intro beyond
    rw [text, show k = n + (k - n - 1 + 1) by omega, ← List.replicate_append_replicate,
      List.append_assoc, List.append_cancel_left_eq] at same
    rw [← same] at stops
    exact stops rfl
  obtain rfl : k = min 3 n := by omega
  refine ⟨text, ?_, ?_⟩
  · have split : n = min 3 n + (n - 3) := by omega
    rw [text, split, ← List.replicate_append_replicate, ← split, List.append_assoc,
      List.append_cancel_left_eq] at same
    exact same
  · have three : min 3 n = 3 ↔ 3 ≤ n := by omega
    simpa only [three] using kind

end IsLongest

end Lexeme

end DiceLanguage
