import DiceLanguage.Proofs.Evaluation.Passes
import DiceLanguage.Proofs.Node.Written

namespace DiceLanguage

namespace Text

/-- The characters outside of brackets. The flag says that a bracket is open. -/
def outside : Bool → List Char → List Char
  | _, [] => []
  | true, c :: rest => outside (c != ']') rest
  | false, c :: rest => if c = '[' then outside true rest else c :: outside false rest

def unbracketed (text : String) : String := String.ofList (outside false text.toList)

def Bares (text bare : List Char) : Prop :=
  ∀ rest, outside false (text ++ rest) = bare ++ outside false rest

namespace Bares

variable {text bare text' bare' : List Char}

theorem append (first : Bares text bare) (second : Bares text' bare') :
    Bares (text ++ text') (bare ++ bare') := by
  intro rest
  rw [List.append_assoc, first, second, List.append_assoc]

theorem of_free (free : '[' ∉ text) : Bares text text := by
  intro rest
  induction text with
  | nil => rfl
  | cons c text ih =>
    rw [List.mem_cons, not_or] at free
    rw [List.cons_append, outside, if_neg (Ne.symm free.1), ih free.2]
    rfl

theorem bracketed (free : ']' ∉ text) : Bares ('[' :: (text ++ [']'])) [] := by
  intro rest
  have closes : outside true (text ++ [']'] ++ rest) = outside false rest := by
    induction text with
    | nil => rfl
    | cons c text ih =>
      rw [List.mem_cons, not_or] at free
      have differs : (c != ']') = true := bne_iff_ne.mpr (Ne.symm free.1)
      rw [List.cons_append, List.cons_append, outside, differs]
      exact ih free.2
  rw [List.cons_append, outside, if_pos rfl, closes]
  rfl

theorem enclosed {text bare : String} (bares : Bares text.toList bare.toList) (wrap : Bool) :
    Bares (enclosed wrap text).toList (enclosed wrap bare).toList := by
  cases wrap with
  | false => exact bares
  | true =>
    have opens : Bares ['('] ['('] := .of_free (by decide)
    have closes : Bares [')'] [')'] := .of_free (by decide)
    simpa [DiceLanguage.enclosed] using (opens.append bares).append closes

theorem unbracketed_eq {text bare : String} (bares : Bares text.toList bare.toList) :
    unbracketed text = bare := by
  have whole := bares []
  rw [List.append_nil, outside, List.append_nil] at whole
  rw [unbracketed, whole, String.ofList_toList]

end Bares

theorem mem_decimal {x : Int} {c : Char} (member : c ∈ (decimal x).toList) :
    c = '-' ∨ c.isDigit = true := by
  unfold decimal at member
  split at member
  · rw [String.toList_append] at member
    rcases List.mem_append.mp member with sign | digit
    · exact .inl (List.mem_singleton.mp sign)
    · exact .inr (isDigit_of_mem_repr digit)
  · exact .inr (isDigit_of_mem_repr member)

theorem bares_decimal (x : Int) : Bares (decimal x).toList (decimal x).toList := by
  apply Bares.of_free
  intro member
  rcases mem_decimal member with sign | digit
  · cases sign
  · cases digit

end Text

theorem Die.mem_faces {dice : List Die} {c : Char} (member : c ∈ (faces dice).toList) :
    c = ',' ∨ c = '-' ∨ c.isDigit = true := by
  unfold faces at member
  induction dice with
  | nil => cases member
  | cons die dice ih =>
    cases dice with
    | nil => exact .inr (Text.mem_decimal member)
    | cons next dice =>
      rw [List.map_cons, List.map_cons, String.intercalate_cons_cons, String.toList_append,
        String.toList_append] at member
      rcases List.mem_append.mp member with front | rest
      · rcases List.mem_append.mp front with face | comma
        · exact .inr (Text.mem_decimal face)
        · exact .inl (List.mem_singleton.mp comma)
      · exact ih rest

theorem Die.bares_faces (dice : List Die) :
    Text.Bares ('[' :: ((faces dice).toList ++ [']'])) [] := by
  apply Text.Bares.bracketed
  intro member
  rcases mem_faces member with comma | sign | digit
  · cases comma
  · cases sign
  · cases digit

def Positive (_ : Int) (die : Die) : Prop := 1 ≤ die.value

theorem Die.total_nonneg {dice : List Die} (positive : ∀ die ∈ dice, 1 ≤ die.value) :
    0 ≤ total dice := by
  induction dice with
  | nil => exact Int.le_refl 0
  | cons die dice ih =>
    obtain ⟨first, others⟩ := List.forall_mem_cons.mp positive
    have rest := ih others
    rw [total, List.map_cons, List.sum_cons]
    unfold total at rest
    omega

theorem Die.sum_positive {dice : List Die} (positive : ∀ die ∈ dice, ∃ sides, Positive sides die) :
    0 ≤ sum dice ∧ sum dice ≤ maxInt := by
  have least : ∀ die ∈ dice, 1 ≤ die.value := by
    intro die member
    obtain ⟨sides, shows⟩ := positive die member
    exact shows
  have total := total_nonneg least
  rw [sum_eq least]
  unfold saturate minInt maxInt
  omega

namespace Node

/-- The expression in which sums stand in place of fallen dice. -/
def summed : Node → Node
  | rolled dice => int (Die.sum dice)
  | neg x => neg x.summed
  | binary op x y => binary op x.summed y.summed
  | node => node

/-- The integers that the random numbers of an expression have given way to. -/
def picks : Node → Node → List Int
  | neg x, neg x' => x.picks x'
  | binary _ x y, binary _ x' y' => x.picks x' ++ y.picks y'
  | random .., int x => [x]
  | _, _ => []

variable {node fallen : Node}

theorem intValue_summed (fallen : Node) : fallen.summed.intValue = fallen.intValue := by
  induction fallen with
  | int | random | roll | thresholdRoll | rolled => rfl
  | neg x ih => rw [summed, intValue_neg, intValue_neg, ih]
  | binary op x y ihx ihy => rw [summed, intValue_binary, intValue_binary, ihx, ihy]

theorem intValue_normal {least : Int} (arithmetic : node.IsArithmetic least) (bound : minInt < least) :
    node.normal.intValue = node.intValue := by
  induction node with
  | int x =>
    rw [normal]
    split
    · have fits : Fits (- -x) := by
        have within := arithmetic.1
        unfold Fits maxInt
        omega
      rw [intValue_neg]
      exact (exactly_ok.mpr ⟨fits, rfl⟩).trans (by rw [Int.neg_neg]; rfl)
    · rfl
  | neg x ih => rw [normal, intValue_neg, intValue_neg, ih arithmetic]
  | binary op x y ihx ihy =>
    rw [normal, intValue_binary, intValue_binary, ihx arithmetic.2.1, ihy arithmetic.2.2]
  | random | roll | thresholdRoll => rfl
  | rolled => exact arithmetic.elim

theorem isVariable_summed {good : Int → Die → Prop} (resolves : node.Resolves good fallen) :
    fallen.summed.isVariable = false := by
  induction resolves with
  | int | random | roll => rfl
  | neg operand ih => exact ih
  | binary op left right ihLeft ihRight => exact Bool.or_eq_false_iff.mpr ⟨ihLeft, ihRight⟩

theorem isArithmetic_summed (resolves : node.Resolves Positive fallen) (plain : node.IsPlain)
    (picked : minInt ∉ node.picks fallen) : fallen.summed.IsArithmetic (-maxInt) := by
  unfold IsPlain at plain
  induction resolves with
  | int x => exact ⟨Int.le_trans (by decide) plain.1, plain.2⟩
  | neg operand ih => exact ih plain picked
  | binary op left right ihLeft ihRight =>
    rw [picks, List.mem_append, not_or] at picked
    exact ⟨plain.1, ihLeft plain.2.1 picked.1, ihRight plain.2.2 picked.2⟩
  | @random least greatest x fits =>
    have other : minInt ≠ x := fun same => picked (List.mem_singleton.mpr same)
    unfold Fits minInt maxInt at fits
    unfold minInt at other
    change -maxInt ≤ x ∧ x ≤ maxInt
    unfold maxInt
    omega
  | roll kind count sides positive =>
    have bounds := Die.sum_positive positive
    exact ⟨Int.le_trans (by decide) bounds.1, bounds.2⟩

structure Alike (x y : Node) : Prop where
  negative : x.isNegative = y.isNegative
  precedence : x.precedence = y.precedence
  bare : x.negatesBare = y.negatesBare

theorem Alike.encloses {x y : Node} (alike : Alike x y) (op : BinaryOp) (side : Side) (edge : Bool) :
    op.encloses side edge x = op.encloses side edge y := by
  unfold BinaryOp.encloses
  rw [alike.negative, alike.precedence]

theorem Resolves.alike (resolves : node.Resolves Positive fallen) : Alike fallen fallen.summed := by
  cases resolves with
  | int | random | neg | binary => exact ⟨rfl, rfl, rfl⟩
  | @roll kind count sides dice positive =>
    have bounds := Die.sum_positive positive
    refine ⟨?_, rfl, ?_⟩
    · change false = decide (Die.sum dice < 0)
      exact (decide_eq_false (Int.not_lt.mpr bounds.1)).symm
    · change true = decide (0 ≤ Die.sum dice)
      exact (decide_eq_true bounds.1).symm

theorem bares_symbol (op : BinaryOp) : Text.Bares op.symbol.toList op.symbol.toList := by
  apply Text.Bares.of_free
  cases op with
  | compare relation => cases relation <;> decide
  | add | subtract | multiply => decide
  | divide rounding => cases rounding <;> decide

theorem bares_suffix (op : BinaryOp) : Text.Bares op.suffix.toList op.suffix.toList := by
  apply Text.Bares.of_free
  cases op with
  | divide rounding => cases rounding <;> decide
  | add | subtract | multiply => decide
  | compare relation => cases relation <;> decide

theorem Resolves.bares_printAt (resolves : node.Resolves Positive fallen) (edge : Bool) :
    Text.Bares (fallen.printAt edge).toList (fallen.summed.printAt edge).toList := by
  induction resolves generalizing edge with
  | int x | random _ _ _ => exact Text.bares_decimal _
  | @roll kind count sides dice positive =>
    have whole := (Text.bares_decimal (Die.sum dice)).append (Die.bares_faces dice)
    simpa [printAt, summed] using whole
  | @neg x x' operand ih =>
    have minus : Text.Bares ['-'] ['-'] := .of_free (by decide)
    have whole := minus.append ((ih true).enclosed (!x'.negatesBare))
    simp only [printAt, summed, ← operand.alike.bare]
    simpa using whole
  | @binary op x y x' y' left right ihLeft ihRight =>
    have first := (ihLeft (op.encloses .left edge x' || edge)).enclosed (op.encloses .left edge x')
    have second := (ihRight (op.encloses .right false y')).enclosed (op.encloses .right false y')
    have whole := ((first.append (bares_symbol op)).append second).append (bares_suffix op)
    simp only [printAt, summed, ← left.alike.encloses, ← right.alike.encloses]
    simpa using whole

end Node

end DiceLanguage
