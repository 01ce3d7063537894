import DiceLanguage.Proofs.Grammar.Language
import DiceLanguage.Proofs.Print.Enclosed
import DiceLanguage.Proofs.Print.Parentheses

namespace DiceLanguage

open Grammar Tally

theorem BinaryOp.rule_rank_le (op : BinaryOp) : op.rule.rank ≤ 1 := by
  unfold rule
  split <;> decide

namespace Tally

variable {f g rest : Tally} {j k : Nat}

theorem ofText_opening (slot : Slot) : ofText slot.opening rest = opened slot.wrap.toNat rest := by
  unfold Slot.opening
  cases slot.wrap <;> rfl

theorem ofText_closing (slot : Slot) : ofText slot.closing rest = rest := by
  unfold Slot.closing
  cases slot.wrap <;> rfl

theorem ofText_enclosed (wrap : Bool) (text : String) :
    ofText (enclosed wrap text).toList rest = opened wrap.toNat (ofText text.toList rest) := by
  cases wrap with
  | false => rfl
  | true =>
    have whole : (enclosed true text).toList = '(' :: (text.toList ++ [')']) := by simp [enclosed]
    rw [whole, ofText_cons, ofText_append]
    rfl

theorem ofText_symbol {op : BinaryOp} (arithmetic : op.precedence ≠ .compare) :
    ofText op.symbol.toList rest = sign rest := by
  cases op with
  | compare => exact absurd rfl arithmetic
  | add | subtract | multiply | divide => simp [BinaryOp.symbol, ofChar, isSign, Text.isGap]

theorem ofText_minus : ofText "-".toList rest = sign rest := by
  simp [ofChar, isSign, Text.isGap]

theorem ofText_kind (kind : RollKind) : ofText kind.letter.symbol.toList rest = sign rest := by
  cases kind <;> simp [RollKind.letter, Letter.symbol, ofChar, isSign, Text.isGap]

theorem ofText_dots : ofText "...".toList rest = sign (sign (sign rest)) := by
  simp [ofChar, isSign, Text.isGap]

theorem AtMost.behind_sign (atMost : AtMost (sign f j) (sign g k)) : AtMost (f 0) (g 0) := by
  cases atMost with
  | cons _ behind => exact behind

theorem AtMost.head_le {counts others : List Nat} (atMost : AtMost counts others)
    (first : counts.head? = some j) (second : others.head? = some k) : j ≤ k := by
  cases atMost with
  | nil => cases first
  | cons le _ =>
    cases first
    cases second
    exact le

theorem AtMost.behind_text {text : List Char}
    (atMost : AtMost (ofText text f j) (ofText text g k)) :
    ∃ j' k', AtMost (f j') (g k') := by
  induction text generalizing j k with
  | nil => exact ⟨j, k, atMost⟩
  | cons c text ih =>
    rw [ofText_cons, ofText_cons, ofChar, ofChar] at atMost
    split at atMost
    · exact ih atMost
    split at atMost
    · exact ih atMost.behind_sign
    · exact ih atMost

def Opens (n : Nat) (f : Tally → Tally) : Prop :=
  ∀ rest k, (f rest k).head? = some (k + n)

theorem Opens.opened {f : Tally → Tally} {n : Nat} (opens : Opens n f) (m : Nat) :
    Opens (m + n) fun rest => opened m (f rest) := by
  intro rest k
  rw [← Nat.add_assoc]
  exact opens rest (k + m)

end Tally

namespace Node

def IsOperation : Node → Prop
  | binary .. | roll .. | thresholdRoll .. => True
  | int _ | neg _ | random .. | rolled _ => False

variable {node part x y : Node} {v : Int} {edge : Bool} {slot : Slot} {f g : Tally} {j k : Nat}

theorem rank_lt_of_encloses {op : BinaryOp} (arithmetic : op.precedence ≠ .compare) {side : Side}
    (plain : x.IsPlain) (positive : x.isNegative = false) (wrap : op.encloses side edge x = true) :
    x.rule.rank < (op.sideRule side).rank := by
  have loose : (decide (x.precedence.rank < op.precedence.rank) ||
      x.precedence == op.precedence && !op.associates side) = true := by
    rwa [BinaryOp.encloses, if_neg (by simp [positive])] at wrap
  have refuted (strong : 3 ≤ x.precedence.rank) : x.rule.rank < (op.sideRule side).rank := by
    exfalso
    have weak : op.precedence.rank ≤ 2 := by cases op <;> exact Nat.le_of_ble_eq_true rfl
    simp only [Bool.or_eq_true, Bool.and_eq_true, decide_eq_true_eq, beq_iff_eq] at loose
    rcases loose with lower | ⟨same, -⟩
    · omega
    · rw [same] at strong
      omega
  cases x with
  | binary op' l r =>
    have arithmetic' := plain.1
    revert loose arithmetic arithmetic'
    cases op <;> cases op' <;> cases side <;>
      simp [rule, precedence, BinaryOp.rule, BinaryOp.sideRule, BinaryOp.precedence,
        BinaryOp.associates, Precedence.rank, Rule.rank]
  | neg => cases positive
  | thresholdRoll | rolled => exact plain.elim
  | int | random | roll => exact refuted (Nat.le_of_ble_eq_true rfl)

theorem Holds.pairs_of_wrap (holds : node.Holds edge slot x) (plain : node.IsPlain)
    (positive : x.isNegative = false) (wrap : slot.wrap = true) : x.pairs slot.rule = 1 := by
  apply if_pos
  have inner := holds.plain plain
  cases holds with
  | left | right => exact rank_lt_of_encloses plain.1 inner positive wrap
  | least | greatest => cases wrap
  | operand | count | sides =>
    cases x with
    | int v => simp [negatesBare, rollsBare, inner.1] at wrap
    | neg => cases positive
    | binary op l r => exact Nat.lt_of_le_of_lt op.rule_rank_le (Nat.le_of_ble_eq_true rfl)
    | random | rolled => cases wrap
    | roll | thresholdRoll =>
      first | exact absurd wrap Bool.false_ne_true | exact Nat.le_of_ble_eq_true rfl

theorem ofText_int (plain : (int v).IsPlain) : ofText ((int v).printAt edge).toList f = f := by
  rw [printAt, Text.decimal, if_neg (Int.not_lt.mpr plain.1)]
  exact ofText_digits fun c member => isDigit_of_mem_repr member

theorem behind_text (plain : x.IsPlain)
    (atMost : AtMost (x.needs f j) (ofText (x.printAt edge).toList g k)) :
    ∃ j' k', AtMost (f j') (g k') := by
  induction x generalizing edge f g j k with
  | int v =>
    rw [ofText_int plain] at atMost
    exact ⟨j, k, atMost⟩
  | neg x ih =>
    simp only [printAt, String.toList_append, ofText_append, ofText_enclosed, needs,
      ofText_minus] at atMost
    exact ih plain atMost.behind_sign
  | binary op x y ihx ihy =>
    simp only [printAt, String.toList_append, ofText_append, ofText_enclosed, needs,
      ofText_symbol plain.1] at atMost
    obtain ⟨_, _, behindLeft⟩ := ihx plain.2.1 atMost
    obtain ⟨_, _, behindRight⟩ := ihy plain.2.2 behindLeft.behind_sign
    exact behindRight.behind_text
  | random x y ihx ihy =>
    simp only [printAt, String.toList_append, ofText_append, needs] at atMost
    obtain ⟨_, _, behindLeast⟩ := ihx plain.1 (AtMost.behind_sign atMost)
    obtain ⟨_, _, behindDots⟩ := behindLeast.behind_text
    obtain ⟨_, _, behindGreatest⟩ := ihy plain.2 behindDots
    exact ⟨0, 0, AtMost.behind_sign behindGreatest⟩
  | roll kind x y ihx ihy =>
    simp only [printAt, String.toList_append, ofText_append, ofText_enclosed, needs,
      ofText_kind] at atMost
    obtain ⟨_, _, behindCount⟩ := ihx plain.2.1 atMost
    exact ihy plain.2.2 behindCount.behind_sign
  | thresholdRoll | rolled => exact plain.elim

theorem Holds.reaches (holds : node.Holds edge slot x) (plain : node.IsPlain)
    (regular : node.isNegative = false → k ≤ j) (inner : Tally → Tally)
    (atMost : AtMost (node.needs f j) (ofText slot.before (inner (ofText slot.after g)) k)) :
    ∃ f' g' j' k', k' ≤ j' ∧ AtMost (x.needs f' (j' + x.pairs slot.rule)) (inner g' k') := by
  cases holds with
  | operand => exact ⟨_, _, 0, 0, Nat.le_refl 0, AtMost.behind_sign atMost⟩
  | left | count => exact ⟨_, _, j, k, regular rfl, atMost⟩
  | right op x y =>
    simp only [ofText_append, ofText_enclosed, needs, ofText_symbol plain.1] at atMost
    obtain ⟨_, _, behindLeft⟩ := behind_text plain.2.1 atMost
    exact ⟨_, _, 0, 0, Nat.le_refl 0, behindLeft.behind_sign⟩
  | least => exact ⟨_, _, 0, 0, Nat.le_refl 0, AtMost.behind_sign atMost⟩
  | greatest x y =>
    simp only [ofText_append, ofText_cons, needs, ofText_dots] at atMost
    obtain ⟨_, _, behindLeast⟩ := behind_text plain.1 (AtMost.behind_sign atMost)
    exact ⟨_, _, 0, 0, Nat.le_refl 0, behindLeast.behind_sign.behind_sign.behind_sign⟩
  | sides kind x y =>
    simp only [ofText_append, ofText_enclosed, needs, ofText_kind] at atMost
    obtain ⟨_, _, behindCount⟩ := behind_text plain.2.1 atMost
    exact ⟨_, _, 0, 0, Nat.le_refl 0, behindCount.behind_sign⟩

theorem wrap_le_pairs {wrap : Bool} {rule : Rule} (needed : wrap = true → x.pairs rule = 1) :
    wrap.toNat ≤ x.pairs rule := by
  cases wrap with
  | false => exact Nat.zero_le _
  | true => exact Nat.le_of_eq (needed rfl).symm

theorem wrap_left_le {op : BinaryOp} (plain : (binary op x y).IsPlain) :
    (op.encloses .left true x).toNat ≤ x.pairs (op.sideRule .left) := by
  apply wrap_le_pairs
  intro wrap
  cases positive : x.isNegative with
  | false => exact (Holds.left op x y true).pairs_of_wrap plain positive wrap
  | true =>
    have bare : op.encloses .left true x = false := by
      rw [BinaryOp.encloses, if_pos positive]
      cases op with
      | compare => exact absurd rfl plain.1
      | _ => rfl
    rw [bare] at wrap
    cases wrap

theorem wrap_count_le {kind : RollKind} (plain : (roll kind x y).IsPlain) :
    (!x.rollsBare .left).toNat ≤ x.pairs .rolls := by
  apply wrap_le_pairs
  intro wrap
  cases x with
  | neg => rfl
  | int v => simp [rollsBare, plain.2.1.1] at wrap
  | binary => exact (Holds.count kind _ y true).pairs_of_wrap plain rfl wrap
  | _ => cases wrap

theorem first_sign_operand {p w : Nat} (plain : x.IsPlain) (within : w ≤ p)
    (inner : (∀ v, x ≠ int v) →
      ∃ m n, n ≤ m ∧ Opens m x.needs ∧ Opens n (ofText (x.printAt true).toList)) :
    ∃ m n, n ≤ m ∧ Opens m (fun rest => opened p (x.needs (sign rest))) ∧
      Opens n (fun rest => opened w (ofText (x.printAt true).toList (sign rest))) := by
  by_cases noInt : ∀ v, x ≠ int v
  · obtain ⟨m, n, le, needed, written⟩ := inner noInt
    exact ⟨p + m, w + n, Nat.add_le_add within le, fun rest => needed.opened p (sign rest),
      fun rest => written.opened w (sign rest)⟩
  · simp only [not_forall, not_not] at noInt
    obtain ⟨v, rfl⟩ := noInt
    rw [show ofText ((int v).printAt true).toList = id from funext fun _ => ofText_int plain]
    exact ⟨p, w, within, fun _ _ => rfl, fun _ _ => rfl⟩

theorem first_sign (plain : x.IsPlain) (noInt : ∀ v, x ≠ int v) :
    ∃ m n, n ≤ m ∧ Opens m x.needs ∧ Opens n (ofText (x.printAt true).toList) := by
  induction x with
  | int v => exact absurd rfl (noInt v)
  | neg x =>
    simp only [printAt, String.toList_append]
    exact ⟨0, 0, Nat.le_refl 0, fun _ _ => rfl, fun _ _ => rfl⟩
  | binary op x y ihx =>
    obtain ⟨m, n, le, needed, written⟩ :=
      first_sign_operand plain.2.1 (wrap_left_le plain) (ihx plain.2.1)
    refine ⟨m, n, le, fun _ => ?_, fun _ => ?_⟩
    · simp only [needs, ofText_symbol plain.1]
      exact needed _
    · simp only [printAt, String.toList_append, ofText_append, ofText_enclosed,
        ofText_symbol plain.1, Bool.or_true]
      exact written _
  | random x y =>
    simp only [printAt, String.toList_append]
    exact ⟨0, 0, Nat.le_refl 0, fun _ _ => rfl, fun _ _ => rfl⟩
  | roll kind x y ihx =>
    obtain ⟨m, n, le, needed, written⟩ :=
      first_sign_operand plain.2.1 (wrap_count_le plain) (ihx plain.2.1)
    refine ⟨m, n, le, fun _ => needed _, fun _ => ?_⟩
    simp only [printAt, String.toList_append, ofText_append, ofText_enclosed, ofText_kind]
    exact written _
  | thresholdRoll | rolled => exact plain.elim

/-- Without the pair, the text has not all the parentheses that the tree needs. -/
theorem Encloses.lacks {before after : List Char} (encloses : node.Encloses edge before part after)
    (plain : node.IsPlain) (operation : part.IsOperation)
    (regular : node.isNegative = false → k ≤ j) :
    ¬ AtMost (node.needs f j)
      (ofText before (ofText (part.printAt true).toList (ofText after g)) k) := by
  -- By induction on the way to the part. A sign of its own in front of a tree on this way may have
  -- parentheses before it that are not needed, but the pair stands behind that sign.
  intro atMost
  induction encloses generalizing f g j k with
  | @here node part edge slot holds wrap =>
    obtain ⟨f', g', j', k', le, inner⟩ := holds.reaches plain regular _ atMost
    have positive : part.isNegative = false := by
      cases part <;> first | rfl | exact operation.elim
    have noInt : ∀ v, part ≠ int v := by
      rintro v rfl
      exact operation
    obtain ⟨m, n, fewer, needed, written⟩ := first_sign (holds.plain plain) noInt
    have last := inner.head_le (needed f' _) (written g' k')
    rw [holds.pairs_of_wrap plain positive wrap] at last
    omega
  | @inside node x part edge slot before after holds inner ih =>
    simp only [ofText_append, ofText_opening, ofText_closing] at atMost
    obtain ⟨f', g', j', k', le, reached⟩ := holds.reaches plain regular
      (fun rest => opened slot.wrap.toNat
        (ofText before (ofText (part.printAt true).toList (ofText after rest)))) atMost
    refine ih (holds.plain plain) operation (fun positive => ?_) reached
    cases wrap : slot.wrap with
    | false => exact Nat.le_trans le (Nat.le_add_right j' _)
    | true =>
      rw [holds.pairs_of_wrap plain positive wrap]
      exact Nat.add_le_add_right le 1

theorem lacks_without_pair {before after : List Char} (plain : node.IsPlain)
    (partPlain : part.IsPlain) (operation : part.IsOperation)
    (pair : node.print.toList = before ++ '(' :: (part.print.toList ++ ')' :: after)) (k : Nat) :
    ¬ AtMost (node.needs last k) (ofText (before ++ (part.print.toList ++ after)) last k) := by
  obtain ⟨part', after', encloses, same⟩ := encloses_of_paren plain pair
  obtain rfl := eq_of_print_closed partPlain (encloses.plain plain) same
  obtain rfl : after = after' := (List.cons.inj (List.append_cancel_left same)).2
  rw [ofText_append, ofText_append]
  exact encloses.lacks plain operation fun _ => Nat.le_refl k

theorem leads_without_pair {before after : List Char} (plain : node.IsPlain)
    (partPlain : part.IsPlain)
    (pair : node.print.toList = before ++ '(' :: (part.print.toList ++ ')' :: after)) :
    ∃ c rest, before ++ (part.print.toList ++ after) = c :: rest ∧ leads c = true := by
  cases before with
  | nil =>
    obtain ⟨c, rest, same, begins⟩ := (writes_plain partPlain true).begins
    exact ⟨c, rest ++ after, by rw [print, same]; rfl, begins⟩
  | cons c before =>
    obtain ⟨d, rest, same, begins⟩ := (writes_plain plain true).begins
    rw [print, same] at pair
    obtain ⟨rfl, -⟩ := List.cons.inj pair
    exact ⟨d, _, rfl, begins⟩

end Node

namespace Grammar

variable {tokens : List Token} {node : Node} {secret : Bool} {text : String}

theorem Derives.atMost (derives : Derives .sum tokens node)
    (spelled : ∀ token ∈ tokens, Spelled token) (k : Nat) :
    AtMost (node.needs last k) (ofTokens tokens last k) :=
  derives.needs_below spelled Below.last (Nat.zero_le _) k k (Nat.le_refl k)

theorem first_leads {c : Char} (begins : leads c = true) (rest : List Char) (letter : Letter) :
    Text.isGap c = false ∧ (Lexeme.first c rest).kind ≠ .letter letter := by
  rcases leads_cases begins with digit | rfl | rfl | rfl
  · constructor
    · apply Bool.eq_false_iff.mpr
      intro gap
      rw [Lexeme.not_isDigit_of_isGap gap] at digit
      cases digit
    · rw [Lexeme.first, if_pos digit]
      exact TokenKind.noConfusion
  all_goals exact ⟨rfl, TokenKind.noConfusion⟩

theorem Marks.absent {marks : List Token} (marked : Marks secret marks) {c : Char}
    {rest : List Char} (whole : text.toList = c :: rest) (begins : leads c = true)
    (cut : (Tokens.ofText text).body = marks ++ tokens) : marks = [] := by
  cases marked with
  | none => rfl
  | @secret mark letter =>
    obtain ⟨noGap, other⟩ := first_leads begins rest .s
    have scanned := Tokens.scan_gap (List.forall_mem_nil _) noGap {} rest
    rw [Tokens.ofText, whole, ← List.nil_append (c :: rest), scanned] at cut
    obtain ⟨rfl, -⟩ := List.cons.inj cut
    exact absurd letter other

theorem derives_of_sum (parsed : Statement.parse text = .ok ⟨.sum node, secret⟩) :
    ∃ marks tokens, (Tokens.ofText text).body = marks ++ tokens ∧ Marks secret marks ∧
      Derives .sum tokens node := by
  obtain ⟨read, -⟩ := statement_ok.mp parsed
  obtain ⟨expr, check, ⟨marks, used, behind, cut, marked, derives, checks⟩, accepted⟩ :=
    rolls_of_parse parsed (shape_of_command read).symm
  cases (Command.ofExpression_made accepted).2 with
  | sum unlisted absent dice =>
    subst absent
    cases checks
    rw [List.append_nil] at cut
    exact ⟨marks, used, cut, marked, derives⟩

theorem body_calculation (text : List Char) :
    ∃ head opening place, (Tokens.scan {} ('C' :: '(' :: text)).body =
        head :: opening :: (Tokens.scan place text).body ∧
      CalculationHead false head ∧ opening.kind = .leftParen := by
  have letter : Spells ['C'] (Single (.letter .c) ['C']) := .letters rfl
  have bracket : Spells ['('] (Single .leftParen ['(']) := .symbol rfl rfl rfl
  obtain ⟨_, ⟨_, _, rfl, ⟨head, rfl, heads, -⟩, opening, rfl, opens, -⟩, cut⟩ :=
    (letter.append bracket (apart_before_bracket (.inl rfl) _) (List.cons_ne_nil _ _)) {} text
      (apart_behind_bracket (.inl rfl) _ text)
  exact ⟨head, opening, _, cut, heads, opens⟩

theorem derives_of_calculation
    (parsed : Statement.parse ("C(" ++ text ++ ")") = .ok ⟨.calculation node, secret⟩) :
    ∃ place inner closing, (Tokens.scan place (text.toList ++ [')'])).body = inner ++ [closing] ∧
      Derives .sum inner node ∧ closing.kind = .rightParen := by
  have whole : ("C(" ++ text ++ ")").toList = 'C' :: '(' :: (text.toList ++ [')']) := by simp
  obtain ⟨head, opening, place, scanned, heads, opens⟩ := body_calculation (text.toList ++ [')'])
  obtain ⟨read, -⟩ := statement_ok.mp parsed
  rw [Tokens.ofText, whole, scanned, lead_calculation heads opens] at read
  obtain ⟨inner, closing, expr, cut, derives, -, closes, same⟩ := calculation_sound read
  cases same
  exact ⟨place, inner, closing, cut, derives, closes⟩

end Grammar

namespace Statement

variable {node part : Node} {before after : String}

/-- Every pair of parentheses around an operation is needed: without it the text stands for another
expression or for none. The parts of a plain tree are plain, so the pair may stand around any. -/
theorem parse_without_pair (plain : node.IsPlain) (partPlain : part.IsPlain)
    (operation : part.IsOperation)
    (pair : node.print = before ++ "(" ++ part.print ++ ")" ++ after) (secret : Bool) :
    parse (before ++ part.print ++ after) ≠ .ok ⟨.sum node, secret⟩ ∧
      parse ("C(" ++ (before ++ part.print ++ after) ++ ")") ≠
        .ok ⟨.calculation node, secret⟩ := by
  have pair : node.print.toList =
      before.toList ++ '(' :: (part.print.toList ++ ')' :: after.toList) := by
    rw [pair]
    simp
  have whole : (before ++ part.print ++ after).toList =
      before.toList ++ (part.print.toList ++ after.toList) := by simp
  have lacks := Node.lacks_without_pair plain partPlain operation pair 0
  obtain ⟨c, rest, starts, begins⟩ := Node.leads_without_pair plain partPlain pair
  rw [← whole] at lacks starts
  constructor
  · intro parsed
    obtain ⟨marks, tokens, cut, marked, derives⟩ := derives_of_sum parsed
    rw [marked.absent starts begins cut, List.nil_append] at cut
    apply lacks
    rw [← ofTokens_scan {}, ← Tokens.ofText, cut]
    exact derives.atMost (cut ▸ spelled_of_scan {} _) 0
  · intro parsed
    obtain ⟨place, inner, closing, cut, derives, closes⟩ := derives_of_calculation parsed
    have spelled := spelled_of_scan place ((before ++ part.print ++ after).toList ++ [')'])
    have tally : ofText ((before ++ part.print ++ after).toList ++ [')']) last = _ :=
      (ofTokens_scan place _).symm
    rw [cut] at tally spelled
    obtain ⟨inside, atClosing⟩ := List.forall_mem_append.mp spelled
    apply lacks
    rw [ofText_append, ofTokens_append, ofTokens_cons,
      ofText_fixed (atClosing closing List.mem_cons_self) closes rfl] at tally
    have same : ofText (before ++ part.print ++ after).toList last = ofTokens inner last := tally
    rw [same]
    exact derives.atMost inside 0

theorem parse_without_pair_right :
    let sum : Node := .binary .add (.int 1) (.int 2)
    parse "(1+2)*2D3D6" ≠
        .ok ⟨.sum (.binary .multiply sum (.roll .sum (.int 2) (.roll .sum (.int 3) (.int 6)))),
          false⟩ ∧
      parse "C(1+2*3)" ≠ .ok ⟨.calculation (.binary .multiply sum (.int 3)), false⟩ := by
  intro sum
  let dice : Node := .roll .sum (.int 3) (.int 6)
  have rolls : (Node.binary .multiply sum (.roll .sum (.int 2) dice)).print =
      "(1+2)*2D" ++ "(" ++ dice.print ++ ")" ++ "" := by decide +kernel
  have product : (Node.binary .multiply sum (.int 3)).print =
      "" ++ "(" ++ sum.print ++ ")" ++ "*3" := by decide +kernel
  constructor
  · exact (parse_without_pair (by decide) (by decide) (by exact trivial) rolls false).1
  · exact (parse_without_pair (by decide) (by decide) (by exact trivial) product false).2

end Statement

end DiceLanguage
