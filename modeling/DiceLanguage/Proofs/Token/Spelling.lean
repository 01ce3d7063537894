import DiceLanguage.Token.Scan

namespace DiceLanguage

def fuses : Char → Char → Bool
  | '<', '>' | '<', '=' | '>', '=' | '.', '.' => true
  | x, y => x.isDigit && y.isDigit || x.isAlpha && y.isAlpha

/-- No token reaches from the end of the text into the rest. -/
def Apart (text rest : List Char) : Prop :=
  ∀ x ∈ text.getLast?, ∀ y ∈ rest.head?, fuses x y = false

theorem apart_append_left {left right rest : List Char} (nonempty : right ≠ []) :
    Apart (left ++ right) rest ↔ Apart right rest := by
  have last := List.getLast?_eq_some_getLast nonempty
  rw [Apart, Apart, List.getLast?_append, last, Option.some_or]

theorem apart_append_right {text left right : List Char} (nonempty : left ≠ []) :
    Apart text (left ++ right) ↔ Apart text left := by
  have first := List.head?_eq_some_head nonempty
  rw [Apart, Apart, List.head?_append, first, Option.some_or]

theorem apart_nil (text : List Char) : Apart text [] := by
  intro x last y first
  cases first

theorem fuses_digits {x y : Char} (left : x.isDigit = true) (right : y.isDigit = true) :
    fuses x y = true := by
  unfold fuses
  split <;> simp [left, right]

theorem isDigit_of_mem_repr {n : Nat} {c : Char} (member : c ∈ n.repr.toList) :
    c.isDigit = true := by
  rw [Nat.toList_repr] at member
  exact Nat.isDigit_of_mem_toDigits (by decide) (by decide) member

theorem repr_ne_nil (n : Nat) : n.repr.toList ≠ [] := by
  rw [Nat.toList_repr]
  exact Nat.toDigits_ne_nil

theorem fuses_cases {x y : Char} (fused : fuses x y = true) :
    x.isDigit = true ∧ y.isDigit = true ∨ x.isAlpha = true ∧ y.isAlpha = true ∨
      (x = '<' ∨ x = '>') ∧ (y = '>' ∨ y = '=') ∨ x = '.' ∧ y = '.' := by
  unfold fuses at fused
  split at fused
  case h_5 =>
    simp only [Bool.or_eq_true, Bool.and_eq_true] at fused
    exact fused.imp_right .inl
  all_goals simp

theorem fuses_letters {x y : Char} (left : x.isAlpha = true) (right : y.isAlpha = true) :
    fuses x y = true := by
  unfold fuses
  split <;> simp [left, right]

theorem fuses_bracket {c : Char} (bracket : c = '(' ∨ c = ')' ∨ c = '[') (x : Char) :
    fuses c x = false ∧ fuses x c = false := by
  constructor
  all_goals
    apply Bool.eq_false_iff.mpr
    intro fused
    rcases bracket with rfl | rfl | rfl <;> simpa using fuses_cases fused

theorem apart_behind_bracket {c : Char} (bracket : c = '(' ∨ c = ')' ∨ c = '[')
    (text rest : List Char) : Apart (text ++ [c]) rest := by
  rw [apart_append_left (List.cons_ne_nil _ _)]
  intro last isLast first _
  cases isLast
  exact (fuses_bracket bracket first).1

theorem apart_before_bracket {c : Char} (bracket : c = '(' ∨ c = ')' ∨ c = '[')
    (text : List Char) : Apart text [c] := by
  intro last _ first isFirst
  cases isFirst
  exact (fuses_bracket bracket last).2

namespace Position

theorem byteLength_append (left right : List Char) :
    byteLength (left ++ right) = byteLength left + byteLength right := by
  induction left with
  | nil => exact (Nat.zero_add _).symm
  | cons c left ih =>
    change c.utf8Size + byteLength (left ++ right) = c.utf8Size + byteLength left + _
    omega

theorem after_append (start : Position) (left right : List Char) :
    (start.after left).after right = start.after (left ++ right) := by
  simp only [after, List.length_append, byteLength_append, Nat.add_assoc]

end Position

namespace Lexeme

variable {c : Char} {text rest : List Char}

theorem cut_run {p : Char → Bool} (run : ∀ x ∈ c :: text, p x = true)
    (fused : ∀ x y, p x = true → p y = true → fuses x y = true) (apart : Apart (c :: text) rest) :
    (text ++ rest).takeWhile p = text ∧ (text ++ rest).dropWhile p = rest := by
  have within : ∀ x ∈ text, p x = true := fun x member => run x (List.mem_cons_of_mem _ member)
  have stops : rest.takeWhile p = [] ∧ rest.dropWhile p = rest := by
    cases rest with
    | nil => exact ⟨rfl, rfl⟩
    | cons y rest =>
      have last := List.getLast?_eq_some_getLast (List.cons_ne_nil c text)
      have outside : p y = false := by
        apply Bool.eq_false_iff.mpr
        intro inside
        have same := fused _ y (run _ (List.getLast_mem (List.cons_ne_nil c text))) inside
        rw [apart _ last y rfl] at same
        cases same
      simp [outside]
  rw [List.takeWhile_append_of_pos within, List.dropWhile_append_of_pos within, stops.1, stops.2]
  exact ⟨List.append_nil text, rfl⟩

theorem first_digits (digits : ∀ x ∈ c :: text, x.isDigit = true) (apart : Apart (c :: text) rest) :
    first c (text ++ rest) = ⟨.integer, c :: text, rest⟩ := by
  obtain ⟨taken, dropped⟩ := cut_run digits (fun _ _ => fuses_digits) apart
  rw [first, if_pos (digits c List.mem_cons_self), taken, dropped]

theorem not_isDigit_of_isAlpha (alpha : c.isAlpha = true) : c.isDigit = false := by
  apply Bool.eq_false_iff.mpr
  intro digit
  have number : c.toNat ≤ 57 := of_decide_eq_true (Bool.and_eq_true_iff.mp digit).2
  rcases Bool.or_eq_true_iff.mp alpha with upper | lower
  · have letter : 65 ≤ c.toNat := (of_decide_eq_true upper).1
    omega
  · have letter : 97 ≤ c.toNat := of_decide_eq_true (Bool.and_eq_true_iff.mp lower).1
    omega

theorem not_isDigit_of_isGap (gap : Text.isGap c = true) : c.isDigit = false := by
  simp only [Text.isGap, Bool.or_eq_true, decide_eq_true_eq] at gap
  rcases gap with (((rfl | rfl) | rfl) | rfl) | rfl <;> rfl

theorem not_isAlpha_of_isGap (gap : Text.isGap c = true) : c.isAlpha = false := by
  simp only [Text.isGap, Bool.or_eq_true, decide_eq_true_eq] at gap
  rcases gap with (((rfl | rfl) | rfl) | rfl) | rfl <;> rfl

theorem not_isGap_of_isAlpha (alpha : c.isAlpha = true) : Text.isGap c = false := by
  apply Bool.eq_false_iff.mpr
  intro gap
  rw [not_isAlpha_of_isGap gap] at alpha
  cases alpha

theorem first_letters (letters : ∀ x ∈ c :: text, x.isAlpha = true)
    (apart : Apart (c :: text) rest) :
    first c (text ++ rest) = ⟨wordKind (c :: text), c :: text, rest⟩ := by
  obtain ⟨taken, dropped⟩ := cut_run letters (fun _ _ => fuses_letters) apart
  have alpha := letters c List.mem_cons_self
  rw [first, if_neg (by simp [not_isDigit_of_isAlpha alpha]), if_pos alpha]
  simp only [taken, dropped]

theorem first_single (noDigit : c.isDigit = false) (noLetter : c.isAlpha = false)
    (apart : Apart [c] rest) : first c rest = ⟨symbolKind c, [c], rest⟩ := by
  have alone : ∀ y ∈ rest.head?, fuses c y = false := apart c rfl
  rw [first, if_neg (by simp [noDigit]), if_neg (by simp [noLetter])]
  unfold symbol
  split <;> first | rfl | exact absurd (alone _ rfl) (by decide)

end Lexeme

namespace Tokens

theorem scan_nil (start : Position) : (scan start []).body = [] := by
  rw [scan]
  rfl

theorem scan_gap {gap : List Char} (blank : ∀ x ∈ gap, Text.isGap x = true) {c : Char}
    (noGap : Text.isGap c = false) (start : Position) (rest : List Char) :
    (scan start (gap ++ c :: rest)).body =
      ⟨(Lexeme.first c rest).kind, String.ofList (Lexeme.first c rest).text, String.ofList gap,
        (start.after gap).column, (start.after gap).offset⟩ ::
      (scan ((start.after gap).after (Lexeme.first c rest).text)
        (Lexeme.first c rest).rest).body := by
  have taken : (gap ++ c :: rest).takeWhile Text.isGap = gap := by
    rw [List.takeWhile_append_of_pos blank]
    simp [noGap]
  have dropped : (gap ++ c :: rest).dropWhile Text.isGap = c :: rest := by
    rw [List.dropWhile_append_of_pos blank]
    simp [noGap]
  rw [scan.eq_def, taken]
  split
  · rename_i empty
    rw [dropped] at empty
    cases empty
  · rename_i c' rest' same
    rw [dropped] at same
    cases same
    rfl

end Tokens

/-- Unless a token reaches out of the text, it is cut into tokens of the form. -/
def Spells (text : List Char) (form : List Token → Prop) : Prop :=
  ∀ start rest, Apart text rest → ∃ tokens, form tokens ∧
    (Tokens.scan start (text ++ rest)).body = tokens ++ (Tokens.scan (start.after text) rest).body

def Single (kind : TokenKind) (literal : List Char) (tokens : List Token) : Prop :=
  ∃ token, tokens = [token] ∧ token.kind = kind ∧ token.literal = String.ofList literal ∧
    token.gap = ""

namespace Spells

variable {text left right : List Char} {form form' : List Token → Prop}

theorem weaken (spells : Spells text form) (weaker : ∀ tokens, form tokens → form' tokens) :
    Spells text form' := by
  intro start rest apart
  obtain ⟨tokens, formed, cut⟩ := spells start rest apart
  exact ⟨tokens, weaker tokens formed, cut⟩

theorem append (first : Spells left form) (second : Spells right form') (apart : Apart left right)
    (nonempty : right ≠ []) :
    Spells (left ++ right)
      (fun tokens => ∃ before behind, tokens = before ++ behind ∧ form before ∧ form' behind) := by
  intro start rest apartRest
  obtain ⟨before, formed, cut⟩ := first start (right ++ rest) ((apart_append_right nonempty).mpr apart)
  obtain ⟨behind, formed', cut'⟩ :=
    second (start.after left) rest ((apart_append_left nonempty).mp apartRest)
  refine ⟨before ++ behind, ⟨before, behind, rfl, formed, formed'⟩, ?_⟩
  rw [List.append_assoc, cut, cut', Position.after_append, List.append_assoc]

theorem body_ofText {text : String} (spells : Spells text.toList form) :
    form (Tokens.ofText text).body := by
  obtain ⟨tokens, formed, cut⟩ := spells {} [] (apart_nil _)
  rw [List.append_nil, Tokens.scan_nil, List.append_nil] at cut
  rw [Tokens.ofText, cut]
  exact formed

theorem single {c : Char} {kind : TokenKind} (noGap : Text.isGap c = false)
    (cut : ∀ rest, Apart (c :: text) rest →
      Lexeme.first c (text ++ rest) = ⟨kind, c :: text, rest⟩) :
    Spells (c :: text) (Single kind (c :: text)) := by
  intro start rest apart
  refine ⟨_, ⟨⟨kind, String.ofList (c :: text), "", start.column, start.offset⟩, rfl, rfl, rfl, rfl⟩,
    ?_⟩
  have first := Tokens.scan_gap (List.forall_mem_nil _) noGap start (text ++ rest)
  rw [cut rest apart] at first
  exact first

theorem digits {c : Char} (all : ∀ x ∈ c :: text, x.isDigit = true) :
    Spells (c :: text) (Single .integer (c :: text)) := by
  have noGap : Text.isGap c = false := by
    apply Bool.eq_false_iff.mpr
    intro gap
    have digit := all c List.mem_cons_self
    rw [Lexeme.not_isDigit_of_isGap gap] at digit
    cases digit
  exact single noGap fun _ => Lexeme.first_digits all

theorem letters {c : Char} (all : (c :: text).all Char.isAlpha = true) :
    Spells (c :: text) (Single (Lexeme.wordKind (c :: text)) (c :: text)) := by
  have alphas := List.all_eq_true.mp all
  have noGap := Lexeme.not_isGap_of_isAlpha (alphas c List.mem_cons_self)
  exact single noGap fun _ => Lexeme.first_letters alphas

theorem symbol {c : Char} (noDigit : c.isDigit = false) (noLetter : c.isAlpha = false)
    (noGap : Text.isGap c = false) : Spells [c] (Single (Lexeme.symbolKind c) [c]) :=
  single noGap fun _ => Lexeme.first_single noDigit noLetter

theorem relation (relation : Relation) :
    Spells relation.symbol.toList (Single (.relation relation) relation.symbol.toList) := by
  cases relation with
  | equal => exact symbol (by decide) (by decide) (by decide)
  | less => exact symbol (by decide) (by decide) (by decide)
  | greater => exact symbol (by decide) (by decide) (by decide)
  | notEqual | atMost | atLeast => exact single (by decide) fun _ _ => rfl

theorem dots : Spells "...".toList (Single .ellipsis "...".toList) :=
  single (by decide) fun _ _ => rfl

theorem letter (letter : Letter) :
    Spells letter.symbol.toList (Single (.letter letter) letter.symbol.toList) := by
  cases letter <;> exact letters rfl

theorem number (n : Nat) : Spells n.repr.toList (Single .integer n.repr.toList) := by
  obtain ⟨c, text, same⟩ := List.exists_cons_of_ne_nil (repr_ne_nil n)
  rw [same]
  exact digits fun x member => isDigit_of_mem_repr (same ▸ member)

end Spells

end DiceLanguage
