import DiceLanguage.Node.Print
import DiceLanguage.Proofs.Node.Arithmetic
import DiceLanguage.Proofs.Token.Spelling

namespace DiceLanguage

namespace Grammar

def Rule.rank : Rule → Nat
  | sum => 0
  | product => 1
  | signed => 2
  | rolls => 3
  | operand => 4

theorem Derives.widen {wide narrow : Rule} {tokens : List Token} {node : Node}
    (within : wide.rank ≤ narrow.rank) (derives : Derives narrow tokens node) :
    Derives wide tokens node := by
  have rolls (single : Derives .operand tokens node) : Derives .rolls tokens node := .operand single
  have signed (unsigned : Derives .rolls tokens node) : Derives .signed tokens node :=
    .rolls unsigned
  have product (factor : Derives .signed tokens node) : Derives .product tokens node :=
    .signed factor
  have sum (term : Derives .product tokens node) : Derives .sum tokens node := .product term
  cases narrow with
  | sum => cases wide with
    | sum => exact derives
    | _ => cases Nat.not_succ_le_zero _ within
  | product => cases wide with
    | sum => exact sum derives
    | product => exact derives
    | _ => exact absurd within (by decide)
  | signed => cases wide with
    | sum => exact sum (product derives)
    | product => exact product derives
    | signed => exact derives
    | _ => exact absurd within (by decide)
  | rolls => cases wide with
    | sum => exact sum (product (signed derives))
    | product => exact product (signed derives)
    | signed => exact signed derives
    | rolls => exact derives
    | operand => exact absurd within (by decide)
  | operand => cases wide with
    | sum => exact sum (product (signed (rolls derives)))
    | product => exact product (signed (rolls derives))
    | signed => exact signed (rolls derives)
    | rolls => exact rolls derives
    | operand => exact derives

def leads (c : Char) : Bool := c.isDigit || c == '-' || c == '(' || c == '['

/-- A character that an expression of the rule ends with. A rounding letter ends only a product. -/
def Rule.trails (rule : Rule) (c : Char) : Bool :=
  c.isDigit || c == ')' || c == ']' || decide (rule.rank ≤ 1) && (c == 'R' || c == 'U')

theorem leads_cases {c : Char} (begins : leads c = true) :
    c.isDigit = true ∨ c = '-' ∨ c = '(' ∨ c = '[' := by
  simpa [leads, or_assoc] using begins

theorem Rule.trails_cases {rule : Rule} {c : Char} (ends : rule.trails c = true) :
    c.isDigit = true ∨ c = ')' ∨ c = ']' ∨ rule.rank ≤ 1 ∧ (c = 'R' ∨ c = 'U') := by
  simpa [Rule.trails, or_assoc] using ends

theorem fuses_leads {x y : Char} (noDigit : x.isDigit = false) (begins : leads y = true) :
    fuses x y = false := by
  apply Bool.eq_false_iff.mpr
  intro fused
  rcases fuses_cases fused with ⟨digit, -⟩ | ⟨-, letter⟩ | ⟨-, rfl | rfl⟩ | ⟨-, rfl⟩
  · simp [noDigit] at digit
  · rcases leads_cases begins with digit | rfl | rfl | rfl
    · simp [Lexeme.not_isDigit_of_isAlpha letter] at digit
    all_goals cases letter
  all_goals revert begins; decide

theorem fuses_trails {rule : Rule} {x y : Char} (ends : rule.trails x = true)
    (noDigit : y.isDigit = false) (noLetter : y.isAlpha = false ∨ 1 < rule.rank) :
    fuses x y = false := by
  apply Bool.eq_false_iff.mpr
  intro fused
  have last := Rule.trails_cases ends
  rcases fuses_cases fused with ⟨-, digit⟩ | ⟨letter, letter'⟩ | ⟨rfl | rfl, -⟩ | ⟨rfl, -⟩
  · simp [noDigit] at digit
  · rcases last with digit | rfl | rfl | ⟨wide, -⟩
    · simp [Lexeme.not_isDigit_of_isAlpha letter] at digit
    · cases letter
    · cases letter
    · rcases noLetter with noLetter | narrow
      · simp [noLetter] at letter'
      · omega
  all_goals revert last; simp

theorem Rule.trails_widen {wide narrow : Rule} (within : wide.rank ≤ narrow.rank) {c : Char}
    (ends : narrow.trails c = true) : wide.trails c = true := by
  rcases Rule.trails_cases ends with digit | rfl | rfl | ⟨bound, rfl | rfl⟩
  · simp [trails, digit]
  · rfl
  · rfl
  all_goals simp [trails, Nat.le_trans within bound]

/-- The text is an expression of the rule, which stands for the node. -/
structure Writes (rule : Rule) (text : List Char) (node : Node) : Prop where
  begins : ∃ c rest, text = c :: rest ∧ leads c = true
  ends : ∃ front c, text = front ++ [c] ∧ rule.trails c = true
  spells : Spells text (Derives rule · node)

namespace Writes

variable {rule rule' : Rule} {text left right : List Char} {x y z : Node}

theorem nonempty (written : Writes rule text x) : text ≠ [] := by
  obtain ⟨c, rest, rfl, -⟩ := written.begins
  exact List.cons_ne_nil c rest

theorem widen {narrow : Rule} (written : Writes narrow text x) (within : rule.rank ≤ narrow.rank) :
    Writes rule text x := by
  obtain ⟨front, c, same, ends⟩ := written.ends
  exact ⟨written.begins, ⟨front, c, same, Rule.trails_widen within ends⟩,
    written.spells.weaken fun _ => Derives.widen within⟩

theorem apart_before (written : Writes rule text x) {front : List Char}
    (noDigit : front.getLast?.any Char.isDigit = false) : Apart front text := by
  obtain ⟨d, tail, rfl, begins⟩ := written.begins
  intro last same first same'
  cases same'
  rw [same] at noDigit
  exact fuses_leads noDigit begins

theorem apart_behind (written : Writes rule text x) (rest : List Char) {c : Char}
    (noDigit : c.isDigit = false) (noLetter : c.isAlpha = false ∨ 1 < rule.rank) :
    Apart text (c :: rest) := by
  obtain ⟨front, d, rfl, ends⟩ := written.ends
  intro last same first same'
  rw [List.getLast?_concat] at same
  cases same
  cases same'
  exact fuses_trails ends noDigit noLetter

theorem spells_infix (first : Writes rule left x) (second : Writes rule' right y) {c : Char}
    {kind : TokenKind} (sign : Spells [c] (Single kind [c])) (noDigit : c.isDigit = false)
    (noLetter : c.isAlpha = false ∨ 1 < rule.rank) :
    Spells (left ++ c :: right) (fun tokens => ∃ before token behind,
      tokens = before ++ token :: behind ∧ Derives rule before x ∧ token.kind = kind ∧
        Derives rule' behind y) := by
  have tail := sign.append second.spells (second.apart_before noDigit) second.nonempty
  have whole := first.spells.append tail (first.apart_behind right noDigit noLetter)
    (List.cons_ne_nil c right)
  apply whole.weaken
  intro tokens formed
  obtain ⟨before, _, rfl, derives, _, behind, rfl, ⟨token, rfl, same, -⟩, derives'⟩ := formed
  exact ⟨before, token, behind, rfl, derives, same, derives'⟩

theorem spells_between (inner : Writes .sum text x) {a b : Char} {opens closes : TokenKind}
    (opening : Spells [a] (Single opens [a])) (closing : Spells [b] (Single closes [b]))
    (noDigit : a.isDigit = false) (noDigit' : b.isDigit = false) (noLetter : b.isAlpha = false) :
    Spells (a :: (text ++ [b])) (fun tokens => ∃ token middle token',
      tokens = token :: (middle ++ [token']) ∧ token.kind = opens ∧ Derives .sum middle x ∧
        token'.kind = closes) := by
  have tail := inner.spells.append closing (inner.apart_behind [] noDigit' (.inl noLetter))
    (List.cons_ne_nil b [])
  have apart : Apart [a] (text ++ [b]) :=
    (apart_append_right inner.nonempty).mpr (inner.apart_before noDigit)
  have whole := opening.append tail apart (by simp)
  apply whole.weaken
  intro tokens formed
  obtain ⟨_, _, rfl, ⟨token, rfl, same, -⟩, middle, _, rfl, derives, token', rfl, same', -⟩ := formed
  exact ⟨token, middle, token', rfl, same, derives, same'⟩

theorem number {n : Nat} (fits : Fits n) : Writes .operand n.repr.toList (.int n) := by
  have value : Nat.ofDigitChars 10 n.repr.toList 0 = n := by
    rw [Nat.toList_repr]
    exact Nat.ofDigitChars_ten_toDigits
  have digit := @isDigit_of_mem_repr n
  constructor
  · obtain ⟨c, rest, same⟩ := List.exists_cons_of_ne_nil (repr_ne_nil n)
    exact ⟨c, rest, same, by simp [leads, digit (same ▸ List.mem_cons_self)]⟩
  · refine ⟨_, _, (List.dropLast_concat_getLast (repr_ne_nil n)).symm, ?_⟩
    rw [Rule.trails, digit (List.getLast_mem (repr_ne_nil n))]
    rfl
  · apply (Spells.number n).weaken
    intro tokens single
    obtain ⟨token, rfl, integer, literal, -⟩ := single
    have same : Nat.ofDigitChars 10 token.literal.toList 0 = n := by
      rw [literal, String.toList_ofList, value]
    have single := Derives.integer integer (by rw [same]; exact fits)
    rwa [same] at single

theorem enclosed (inner : Writes .sum text x) : Writes .operand ('(' :: (text ++ [')'])) x := by
  refine ⟨⟨_, _, rfl, rfl⟩, ⟨'(' :: text, ')', rfl, rfl⟩, ?_⟩
  apply (inner.spells_between (.symbol rfl rfl rfl) (.symbol rfl rfl rfl) rfl rfl rfl).weaken
  intro tokens formed
  obtain ⟨opening, middle, closing, rfl, opens, derives, closes⟩ := formed
  exact .enclosed opens derives closes

theorem random (least : Writes .sum left x) (greatest : Writes .sum right y) :
    Writes .operand ('[' :: (left ++ "...".toList ++ (right ++ [']']))) (.random x y) := by
  refine ⟨⟨_, _, rfl, rfl⟩, ⟨'[' :: (left ++ "...".toList ++ right), ']', by simp, rfl⟩, ?_⟩
  have closing : Spells [']'] (Single .rightBracket [']']) := .symbol rfl rfl rfl
  have opening : Spells ['['] (Single .leftBracket ['[']) := .symbol rfl rfl rfl
  have second := greatest.spells.append closing (greatest.apart_behind [] rfl (.inl rfl)) (by simp)
  have dotted := Spells.dots.append second
    ((apart_append_right greatest.nonempty).mpr (greatest.apart_before rfl)) (by simp)
  have first := least.spells.append dotted (least.apart_behind _ rfl (.inl rfl)) (by simp)
  have whole := opening.append first
    ((apart_append_right least.nonempty).mpr (least.apart_before rfl)) (by simp)
  rw [List.append_assoc]
  apply whole.weaken
  intro tokens formed
  obtain ⟨_, _, rfl, ⟨opening, rfl, opens, -⟩, before, _, rfl, derives, _, _, rfl,
    ⟨dots, rfl, between, -⟩, behind, _, rfl, derives', closing, rfl, closes, -⟩ := formed
  exact .random opens derives between derives' closes

theorem neg (operand : Writes .signed text x) : Writes .signed ('-' :: text) (.neg x) := by
  obtain ⟨front, c, same, ends⟩ := operand.ends
  refine ⟨⟨_, _, rfl, rfl⟩, ⟨'-' :: front, c, by rw [same]; rfl, ends⟩, ?_⟩
  have sign : Spells ['-'] (Single .minus ['-']) := .symbol rfl rfl rfl
  apply (sign.append operand.spells (operand.apart_before rfl) operand.nonempty).weaken
  intro tokens formed
  obtain ⟨_, rest, rfl, ⟨token, rfl, minus, -⟩, derives⟩ := formed
  exact .neg minus derives

theorem begins_infix (first : Writes rule left x) (c : Char) (right : List Char) :
    ∃ d rest, left ++ c :: right = d :: rest ∧ leads d = true := by
  obtain ⟨d, rest, rfl, begins⟩ := first.begins
  exact ⟨d, rest ++ c :: right, rfl, begins⟩

theorem ends_infix (second : Writes rule right y) (left : List Char) (c : Char) {wide : Rule}
    (within : wide.rank ≤ rule.rank) :
    ∃ front d, left ++ c :: right = front ++ [d] ∧ wide.trails d = true := by
  obtain ⟨front, d, rfl, ends⟩ := second.ends
  exact ⟨left ++ c :: front, d, by simp, Rule.trails_widen within ends⟩

theorem join {c : Char} {kind : TokenKind} {op : BinaryOp} (sign : Spells [c] (Single kind [c]))
    (noDigit : c.isDigit = false) (noLetter : c.isAlpha = false) (joins : sumOp? kind = some op)
    (earlier : Writes .sum left x) (term : Writes .product right y) :
    Writes .sum (left ++ c :: right) (.binary op x y) := by
  refine ⟨earlier.begins_infix c right, term.ends_infix left c (by decide), ?_⟩
  apply (earlier.spells_infix term sign noDigit (.inl noLetter)).weaken
  intro tokens formed
  obtain ⟨before, token, behind, rfl, derives, same, derives'⟩ := formed
  exact .join derives (by rw [same, joins]) derives'

theorem add (earlier : Writes .sum left x) (term : Writes .product right y) :
    Writes .sum (left ++ '+' :: right) (.binary .add x y) :=
  join (.symbol rfl rfl rfl) rfl rfl rfl earlier term

theorem subtract (earlier : Writes .sum left x) (term : Writes .product right y) :
    Writes .sum (left ++ '-' :: right) (.binary .subtract x y) :=
  join (.symbol rfl rfl rfl) rfl rfl rfl earlier term

theorem multiply (earlier : Writes .product left x) (factor : Writes .signed right y) :
    Writes .product (left ++ '*' :: right) (.binary .multiply x y) := by
  refine ⟨earlier.begins_infix '*' right, factor.ends_infix left '*' (by decide), ?_⟩
  apply (earlier.spells_infix factor (.symbol rfl rfl rfl) rfl (.inl rfl)).weaken
  intro tokens formed
  obtain ⟨before, sign, behind, rfl, derives, same, derives'⟩ := formed
  exact .multiply derives same derives'

theorem spells_quotient (earlier : Writes .product left x) (divisor : Writes .signed right y) :
    Spells (left ++ '/' :: right) (fun tokens => ∃ before sign behind,
      tokens = before ++ sign :: behind ∧ Derives .product before x ∧ sign.kind = .slash ∧
        Derives .signed behind y) :=
  earlier.spells_infix divisor (.symbol rfl rfl rfl) rfl (.inl rfl)

theorem spells_rounded (earlier : Writes .product left x) (divisor : Writes .signed right y)
    {rounding : Rounding} (letter : Letter)
    (rounds : ∀ mark : Token, mark.kind = .letter letter → Suffix rounding [mark]) :
    Spells (left ++ '/' :: (right ++ letter.symbol.toList))
      (Derives .product · (.binary (.divide rounding) x y)) := by
  have apart : Apart (left ++ '/' :: right) letter.symbol.toList := by
    rw [apart_append_left (List.cons_ne_nil _ _), ← List.singleton_append,
      apart_append_left divisor.nonempty]
    cases letter <;> exact divisor.apart_behind [] rfl (.inr (by decide))
  have nonempty : letter.symbol.toList ≠ [] := by cases letter <;> exact List.cons_ne_nil _ _
  have whole := (spells_quotient earlier divisor).append (.letter letter) apart nonempty
  rw [List.append_assoc, List.cons_append] at whole
  apply whole.weaken
  intro tokens formed
  obtain ⟨_, _, rfl, ⟨before, sign, behind, rfl, derives, same, derives'⟩, mark, rfl, marks, -⟩ :=
    formed
  simpa using derives.divide same derives' (rounds mark marks)

theorem divide (earlier : Writes .product left x) (divisor : Writes .signed right y)
    (rounding : Rounding) :
    Writes .product (left ++ '/' :: (right ++ rounding.suffix.toList))
      (.binary (.divide rounding) x y) := by
  refine ⟨earlier.begins_infix '/' _, ?_, ?_⟩
  · cases rounding with
    | down => simpa [Rounding.suffix] using divisor.ends_infix left '/' (by decide)
    | nearest => exact ⟨left ++ '/' :: right, 'R', by simp [Rounding.suffix], rfl⟩
    | up => exact ⟨left ++ '/' :: right, 'U', by simp [Rounding.suffix], rfl⟩
  · cases rounding with
    | down =>
      simp only [Rounding.suffix, String.toList_empty, List.append_nil]
      apply (spells_quotient earlier divisor).weaken
      intro tokens formed
      obtain ⟨before, sign, behind, rfl, derives, same, derives'⟩ := formed
      simpa using derives.divide same derives' .down
    | nearest => exact spells_rounded earlier divisor .r fun _ => .nearest
    | up => exact spells_rounded earlier divisor .u fun _ => .up

theorem spells_roll (kind : RollKind) (count : Writes .rolls left x)
    (sides : Writes .operand right y) :
    Spells (left ++ (kind.letter.symbol.toList ++ right)) (fun tokens => ∃ before token behind,
      tokens = before ++ token :: behind ∧ Derives .rolls before x ∧
        token.kind = .letter kind.letter ∧ Derives .operand behind y) := by
  have letter := Spells.letter kind.letter
  cases kind <;> exact count.spells_infix sides letter rfl (.inr (by decide))

theorem roll (kind : RollKind) (count : Writes .rolls left x) (sides : Writes .operand right y) :
    Writes .rolls (left ++ (kind.letter.symbol.toList ++ right)) (.roll kind x y) := by
  constructor
  · cases kind <;> exact count.begins_infix _ right
  · cases kind <;> exact sides.ends_infix left _ (by decide)
  · apply (spells_roll kind count sides).weaken
    intro tokens formed
    obtain ⟨before, token, behind, rfl, derives, family, derives'⟩ := formed
    exact .roll derives family derives'

theorem thresholdRoll {limit : List Char} {kind : RollKind} (allowed : kind.takesThreshold = true)
    (count : Writes .rolls left x) (sides : Writes .operand right y) (inner : Writes .sum limit z) :
    Writes .rolls (left ++ (kind.letter.symbol.toList ++ right) ++ '[' :: (limit ++ [']']))
      (.thresholdRoll kind x y z) := by
  have written := roll kind count sides
  have bracket : Spells ('[' :: (limit ++ [']'])) _ :=
    inner.spells_between (.symbol rfl rfl rfl) (.symbol rfl rfl rfl) rfl rfl rfl
  refine ⟨written.begins_infix '[' _, ⟨left ++ (kind.letter.symbol.toList ++ right) ++ '[' :: limit,
    ']', by simp, rfl⟩, ?_⟩
  have whole := (spells_roll kind count sides).append bracket
    (written.apart_behind _ rfl (.inl rfl)) (List.cons_ne_nil _ _)
  apply whole.weaken
  intro tokens formed
  obtain ⟨_, _, rfl, ⟨before, token, behind, rfl, derives, family, derives'⟩,
    opening, middle, closing, rfl, opens, limited, closes⟩ := formed
  simpa using Derives.thresholdRoll derives family derives' allowed opens limited closes

end Writes

end Grammar

open Grammar

namespace BinaryOp

def rule (op : BinaryOp) : Rule := if op.precedence = .multiplicative then .product else .sum

def sideRule (op : BinaryOp) (side : Side) : Rule :=
  match op.precedence, side with
  | .additive, .right => .product
  | .multiplicative, .left => .product
  | .multiplicative, .right => .signed
  | _, _ => .sum

end BinaryOp

namespace Node

def rule : Node → Rule
  | int x => if x < 0 then .signed else .operand
  | neg _ => .signed
  | binary op _ _ => op.rule
  | random .. | rolled _ => .operand
  | roll .. | thresholdRoll .. => .rolls

theorem rule_rank (x : Node) : 2 ≤ x.rule.rank ∨ ∃ op l r, x = binary op l r := by
  cases x with
  | int x =>
    rw [rule]
    split <;> exact .inl (by decide)
  | binary op l r => exact .inr ⟨op, l, r, rfl⟩
  | _ => exact .inl (Nat.le_of_ble_eq_true rfl)

theorem sideRule_rank_le (op : BinaryOp) (side : Side) (edge : Bool) {x : Node}
    (bare : op.encloses side edge x = false) : (op.sideRule side).rank ≤ x.rule.rank := by
  have atMost : (op.sideRule side).rank ≤ 2 := by
    unfold BinaryOp.sideRule
    split <;> decide
  rcases x.rule_rank with narrow | ⟨op', l, r, rfl⟩
  · exact Nat.le_trans atMost narrow
  -- Both are operations: all pairs of them on both sides are compared by their precedences.
  · have tight : (decide (op'.precedence.rank < op.precedence.rank) ||
        op'.precedence == op.precedence && !op.associates side) = false := bare
    revert tight
    cases op <;> cases op' <;> cases side <;>
      simp [rule, BinaryOp.rule, BinaryOp.sideRule, BinaryOp.precedence, BinaryOp.associates,
        Precedence.rank, Rule.rank]

variable {rule : Rule} {x z : Node} {text : String}

theorem writes_enclosed (wrap : Bool) (written : Writes x.rule text.toList z)
    (bare : wrap = false → rule.rank ≤ x.rule.rank) :
    Writes rule (enclosed wrap text).toList z := by
  cases wrap with
  | false => exact written.widen (bare rfl)
  | true =>
    have inner : Writes .sum text.toList z := written.widen (Nat.zero_le _)
    have same : (enclosed true text).toList = '(' :: (text.toList ++ [')']) := by
      simp [enclosed]
    rw [same]
    exact inner.enclosed.widen (by cases rule <;> decide)

theorem writes_number {x : Int} (fits : 0 ≤ x ∧ x ≤ maxInt) :
    Writes .operand x.natAbs.repr.toList (.int x) := by
  have same : (x.natAbs : Int) = x := Int.natAbs_of_nonneg fits.1
  have bound : Fits x.natAbs := ⟨Int.le_trans (by decide) (Int.natCast_nonneg _), by rw [same]; exact fits.2⟩
  have written := Writes.number bound
  rwa [same] at written

theorem writes_int {x : Int} (fits : -maxInt ≤ x ∧ x ≤ maxInt) :
    Writes (int x).rule (Text.decimal x).toList (int x).normal := by
  rw [rule, normal, Text.decimal]
  split
  · have bound : 0 ≤ -x ∧ -x ≤ maxInt := by omega
    have operand : Writes .signed (-x).natAbs.repr.toList (int (-x)) :=
      (writes_number bound).widen (by decide)
    simpa using operand.neg
  · exact writes_number (by omega)

theorem writes_negated (written : Writes x.rule text.toList z) :
    Writes .signed (enclosed (!x.negatesBare) text).toList z := by
  apply writes_enclosed _ written
  intro bare
  cases x with
  | int x => rw [rule]; split <;> decide
  | neg | binary => cases bare
  | _ => exact Nat.le_of_ble_eq_true rfl

theorem writes_binary {op : BinaryOp} (arithmetic : op.precedence ≠ .compare) {x y : Node}
    {left right : List Char} (first : Writes (op.sideRule .left) left x)
    (second : Writes (op.sideRule .right) right y) :
    Writes op.rule (left ++ (op.symbol.toList ++ (right ++ op.suffix.toList))) (binary op x y) := by
  unfold BinaryOp.rule
  cases op with
  | add => simpa [BinaryOp.symbol, BinaryOp.suffix, BinaryOp.precedence] using first.add second
  | subtract =>
    simpa [BinaryOp.symbol, BinaryOp.suffix, BinaryOp.precedence] using first.subtract second
  | multiply =>
    simpa [BinaryOp.symbol, BinaryOp.suffix, BinaryOp.precedence] using first.multiply second
  | divide rounding =>
    simpa [BinaryOp.symbol, BinaryOp.suffix, BinaryOp.precedence] using
      first.divide second rounding
  | compare => exact absurd rfl arithmetic

theorem writes_count (written : Writes x.rule text.toList z) :
    Writes .rolls (enclosed (!x.rollsBare .left) text).toList z := by
  apply writes_enclosed _ written
  intro bare
  cases x with
  | int x =>
    have positive : ¬ x < 0 := by simpa [rollsBare] using bare
    rw [rule, if_neg positive]
    decide
  | neg | binary => cases bare
  | _ => exact Nat.le_of_ble_eq_true rfl

theorem writes_sides (written : Writes x.rule text.toList z) :
    Writes .operand (enclosed (!x.rollsBare .right) text).toList z := by
  apply writes_enclosed _ written
  intro bare
  cases x with
  | int x =>
    have positive : ¬ x < 0 := by simpa [rollsBare] using bare
    exact Nat.le_of_eq (by rw [rule, if_neg positive])
  | random | rolled => exact Nat.le_refl _
  | _ => cases bare

theorem writes_printAt {node : Node} (arithmetic : node.IsArithmetic (-maxInt)) (edge : Bool) :
    Writes node.rule (node.printAt edge).toList node.normal := by
  induction node generalizing edge with
  | int x => exact writes_int arithmetic
  | neg x ih => simpa [printAt, rule, normal] using (writes_negated (ih arithmetic true)).neg
  | binary op x y ihx ihy =>
    have left := writes_enclosed _ (ihx arithmetic.2.1 (op.encloses .left edge x || edge))
      (sideRule_rank_le op .left edge)
    have right := writes_enclosed _ (ihy arithmetic.2.2 (op.encloses .right false y))
      (sideRule_rank_le op .right false)
    simpa [printAt, rule, normal] using writes_binary arithmetic.1 left right
  | random x y ihx ihy =>
    have least : Writes .sum _ _ := (ihx arithmetic.1 true).widen (Nat.zero_le _)
    have greatest : Writes .sum _ _ := (ihy arithmetic.2 true).widen (Nat.zero_le _)
    simpa [printAt, rule, normal] using least.random greatest
  | roll kind x y ihx ihy =>
    have count := writes_count (ihx arithmetic.2.1 true)
    have sides := writes_sides (ihy arithmetic.2.2 true)
    simpa [printAt, rule, normal] using Writes.roll kind count sides
  | thresholdRoll | rolled => exact arithmetic.elim

theorem writes_plain {node : Node} (plain : node.IsPlain) (edge : Bool) :
    Writes node.rule (node.printAt edge).toList node := by
  have written := writes_printAt (isArithmetic_of_plain plain) edge
  rwa [normal_of_plain plain] at written

end Node

end DiceLanguage
