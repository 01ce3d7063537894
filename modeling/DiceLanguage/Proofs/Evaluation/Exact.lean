import DiceLanguage.Evaluation.Expression
import DiceLanguage.Proofs.Evaluation.Course
import DiceLanguage.Proofs.Grammar.Outcome
import DiceLanguage.Proofs.Node.Arithmetic
import Mathlib.Algebra.Ring.Int.Defs

namespace DiceLanguage

open Grammar (bind_ok)

structure Fair (sides : Int) (die : Die) : Prop where
  asked : die.sides = sides
  least : 1 ≤ die.value
  greatest : die.value ≤ sides

instance (sides : Int) (die : Die) : Decidable (Fair sides die) :=
  decidable_of_iff (die.sides = sides ∧ 1 ≤ die.value ∧ die.value ≤ sides)
    ⟨fun ⟨asked, least, greatest⟩ => ⟨asked, least, greatest⟩,
      fun fair => ⟨fair.asked, fair.least, fair.greatest⟩⟩

theorem Fair.wrap_pred {sides : Int} {die : Die} (fair : Fair sides die) (fits : Fits sides) :
    wrap (die.value - 1) = die.value - 1 := by
  have least := fair.least
  have greatest := fair.greatest
  apply wrap_of_fits
  unfold Fits minInt at *
  omega

namespace Die

def total (dice : List Die) : Int := (dice.map (·.value)).sum

theorem foldl_saturate {start : Int} {dice : List Die} (positive : ∀ die ∈ dice, 1 ≤ die.value)
    (least : 0 ≤ start) :
    dice.foldl (fun sum die => saturate (sum + die.value)) (saturate start) =
      saturate (start + total dice) := by
  induction dice generalizing start with
  | nil => simp [total]
  | cons die dice ih =>
    obtain ⟨first, others⟩ := List.forall_mem_cons.mp positive
    -- A sum that has reached the greatest integer stays there.
    have same : saturate (saturate start + die.value) = saturate (start + die.value) := by
      unfold saturate minInt maxInt
      omega
    rw [List.foldl_cons, same, ih others (by omega), total, total, List.map_cons, List.sum_cons,
      Int.add_assoc]

/-- No die is negative, so it is the same to saturate once at the end. -/
theorem sum_eq {dice : List Die} (positive : ∀ die ∈ dice, 1 ≤ die.value) :
    sum dice = saturate (total dice) := by
  have folded := foldl_saturate positive (Int.le_refl 0)
  rwa [Int.zero_add] at folded

theorem sum_of_fair {dice : List Die} {sides : Int} (fair : ∀ die ∈ dice, Fair sides die) :
    sum dice = saturate (total dice) :=
  sum_eq fun die member => (fair die member).least

end Die

def BinaryOp.exact (op : BinaryOp) (x y : Int) : Option Int :=
  match op with
  | add => some (x + y)
  | subtract => some (x - y)
  | multiply => some (x * y)
  | divide rounding => if y = 0 then none else some (rounding.quotient x y)
  | compare _ => none

/-- The expression comes to a value, where the dice of its arguments fall before its own. `cap` is
what becomes of the sum of the dice of a roll, and every integer on the way is `within` a range. -/
inductive Node.Comes (cap : Int → Int) (within : Int → Prop) :
    Node → List Die → List Die → Int → Prop where
  | int (x : Int) : Comes cap within (.int x) [] [] x
  | neg {x : Node} {inner own : List Die} {v : Int} (operand : Comes cap within x inner own v)
    (fits : within (-v)) : Comes cap within (.neg x) inner own (-v)
  | binary {op : BinaryOp} {x y : Node} {inner inner' own own' : List Die} {v w result : Int}
    (left : Comes cap within x inner own v) (right : Comes cap within y inner' own' w)
    (applied : op.exact v w = some result) (fits : within result) :
    Comes cap within (.binary op x y) (inner ++ inner') (own ++ own') result
  | roll {x y : Node} {inner inner' own own' dice : List Die} {sides : Int}
    (count : Comes cap within x inner own dice.length) (size : Comes cap within y inner' own' sides)
    (nonempty : dice ≠ []) (fair : ∀ die ∈ dice, Fair sides die)
    (fits : within (cap (Die.total dice))) :
    Comes cap within (.roll .sum x y) ((inner ++ own) ++ (inner' ++ own')) dice
      (cap (Die.total dice))
  | random {x y : Node} {inner inner' own own' : List Die} {least greatest : Int} {die : Die}
    (lower : Comes cap within x inner own least) (upper : Comes cap within y inner' own' greatest)
    (size : within (greatest - least + 1)) (fair : Fair (greatest - least + 1) die)
    (fits : within (least + (die.value - 1))) :
    Comes cap within (.random x y) ((inner ++ own) ++ (inner' ++ own')) [die]
      (least + (die.value - 1))

def Node.Totals (cap : Int → Int) (within : Int → Prop) (node : Node) (dice : List Die)
    (value : Int) : Prop :=
  ∃ inner own, dice = inner ++ own ∧ node.Comes cap within inner own value

variable {α β : Type} {within : Int → Prop} {x y v w : Int}

theorem exactly_ok : exactly x = .ok y ↔ Fits x ∧ y = x := by
  unfold exactly checked
  by_cases fits : Fits x <;> simp [fits, eq_comm]

theorem exactly_overflow (beyond : ¬ Fits x) : exactly x = .error .overflow := by
  rw [exactly, checked_eq_none_iff.mpr beyond]

theorem exactly_error {error : EvalError} (failed : exactly x = .error error) :
    error = .overflow ∧ ¬ Fits x := by
  by_cases fits : Fits x
  · rw [exactly_ok.mpr ⟨fits, rfl⟩] at failed
    cases failed
  · rw [exactly_overflow fits] at failed
    cases failed
    exact ⟨rfl, fits⟩

/-- The result is the value; only where some integer within the range does not fit it may be an
overflow instead. -/
def Gets (within : Int → Prop) (result : Except EvalError α) (value : α) : Prop :=
  result = .ok value ∨ (∃ x, within x ∧ ¬ Fits x) ∧ result = .error .overflow

def Attains (within : Int → Prop) (evaluation : Evaluation α) (dice : List Die)
    (property : α → Prop) : Prop :=
  (∃ value, evaluation.Course Fair dice (.ok value) ∧ property value) ∨
    (∃ x, within x ∧ ¬ Fits x) ∧
      ∃ used rest, dice = used ++ rest ∧ evaluation.Course Fair used (.error .overflow)

namespace Gets

theorem ok (value : α) : Gets within (.ok value) value := .inl rfl

theorem exactly (fits : within x) : Gets within (exactly x) x := by
  by_cases inside : Fits x
  · exact .inl (exactly_ok.mpr ⟨inside, rfl⟩)
  · exact .inr ⟨⟨x, fits, inside⟩, exactly_overflow inside⟩

theorem bind {first : Except EvalError α} {next : α → Except EvalError β} {a : α} {b : β}
    (gets : Gets within first a) (rest : Gets within (next a) b) :
    Gets within (first >>= next) b := by
  obtain same | ⟨beyond, same⟩ := gets
  · rwa [same]
  · rw [same]
    exact .inr ⟨beyond, rfl⟩

end Gets

namespace Attains

variable {evaluation : Evaluation α} {dice later : List Die} {property : α → Prop}

theorem done {value : α} (holds : property value) : Attains within (pure value) [] property :=
  .inl ⟨value, .done value, holds⟩

theorem of_pure {value : α} (attains : Attains within (pure value) [] property) : property value := by
  obtain ⟨reached, course, holds⟩ | ⟨-, used, _, _, course⟩ := attains
  · cases course
    exact holds
  · cases course

theorem bind {next : α → Evaluation β} {property' : β → Prop}
    (first : Attains within evaluation dice property)
    (rest : ∀ value, property value → Attains within (next value) later property') :
    Attains within (evaluation >>= next) (dice ++ later) property' := by
  obtain ⟨value, course, holds⟩ | ⟨beyond, used, left, same, course⟩ := first
  · obtain ⟨last, course', holds'⟩ | ⟨beyond, used, left, same, course'⟩ := rest value holds
    · exact .inl ⟨last, course.bind course', holds'⟩
    · refine .inr ⟨beyond, dice ++ used, left, ?_, course.bind course'⟩
      rw [same, List.append_assoc]
  · refine .inr ⟨beyond, used, left ++ later, ?_, course.bind_error⟩
    rw [same, List.append_assoc]

theorem bind_nil {next : α → Evaluation β} {property' : β → Prop}
    (first : Attains within evaluation dice property)
    (rest : ∀ value, property value → Attains within (next value) [] property') :
    Attains within (evaluation >>= next) dice property' := by
  have whole := first.bind rest
  rwa [List.append_nil] at whole

section Value

variable {value : α} {next : α → Evaluation β} {property' : β → Prop}

theorem bind_value (first : Attains within evaluation dice (· = value))
    (rest : Attains within (next value) later property') :
    Attains within (evaluation >>= next) (dice ++ later) property' := by
  refine first.bind fun reached same => ?_
  rwa [same]

theorem nil_bind_value (first : Attains within evaluation [] (· = value))
    (rest : Attains within (next value) dice property') :
    Attains within (evaluation >>= next) dice property' :=
  first.bind_value rest

theorem bind_value_nil (first : Attains within evaluation dice (· = value))
    (rest : Attains within (next value) [] property') :
    Attains within (evaluation >>= next) dice property' := by
  have whole := first.bind_value rest
  rwa [List.append_nil] at whole

end Value

theorem ofExcept {result : Except EvalError α} {value : α} (gets : Gets within result value)
    (holds : property value) : Attains within (Evaluation.ofExcept result) [] property := by
  obtain same | ⟨beyond, same⟩ := gets
  · exact .inl ⟨value, Evaluation.course_ofExcept.mpr ⟨rfl, same.symm⟩, holds⟩
  · exact .inr ⟨beyond, [], [], rfl, Evaluation.course_ofExcept.mpr ⟨rfl, same.symm⟩⟩

theorem ofThrow {throw : Throw α} {record : α → List Die} {value : α}
    (yields : throw.Yields Fair dice value) (holds : property value) :
    Attains within (Evaluation.ofThrow throw record) dice property :=
  .inl ⟨value, Evaluation.course_ofThrow.mpr yields, holds⟩

theorem imp {property' : α → Prop} (attains : Attains within evaluation dice property)
    (weaker : ∀ value, property value → property' value) :
    Attains within evaluation dice property' := by
  obtain ⟨value, course, holds⟩ | beyond := attains
  · exact .inl ⟨value, course, weaker value holds⟩
  · exact .inr beyond

theorem of_course {used rest : List Die} {reached : Except EvalError α}
    (attains : Attains within evaluation dice property)
    (course : evaluation.Course Fair used reached) (cut : dice = used ++ rest) :
    (∃ value, reached = .ok value ∧ used = dice ∧ property value) ∨
      (∃ x, within x ∧ ¬ Fits x) ∧ reached = .error .overflow := by
  obtain ⟨value, known, holds⟩ | ⟨beyond, used', rest', cut', known⟩ := attains
  · have whole : used ++ rest = dice ++ [] := by rw [List.append_nil, cut]
    obtain ⟨same, rfl⟩ := course.unique known whole
    exact .inl ⟨value, rfl, same, holds⟩
  · obtain ⟨-, rfl⟩ := course.unique known (cut.symm.trans cut')
    exact .inr ⟨beyond, rfl⟩

end Attains

theorem Value.asInt_integer (result : Except EvalError Int) :
    (Value.integer <$> result) >>= Value.asInt = result := by
  cases result <;> rfl

theorem BinaryOp.apply_eq {op : BinaryOp} (arithmetic : op.precedence ≠ .compare) (x y : Int) :
    op.apply x y >>= Value.asInt = ((op.exact x y).elim (.error .divisionByZero) exactly) := by
  cases op with
  | add | subtract | multiply => exact Value.asInt_integer _
  | divide rounding =>
    by_cases zero : y = 0
    · simp only [apply, exact, zero]
      rfl
    · simp only [apply, exact, zero, Rounding.divide, if_false, Option.elim_some, exactly]
      cases checked (rounding.quotient x y) <;> rfl
  | compare => exact absurd rfl arithmetic

theorem BinaryOp.arithmetic_of_exact {op : BinaryOp} {result : Int}
    (applied : op.exact v w = some result) : op.precedence ≠ .compare := by
  cases op <;> first | cases applied; done | nofun

namespace Node

variable {node settled fallen : Node} {inner own : List Die} {cap : Int → Int}

theorem settleArguments_constant (constant : node.isVariable = false) :
    node.settleArguments = pure node := by
  induction node with
  | int | rolled => rfl
  | neg x ih => rw [settleArguments, ih constant]; rfl
  | binary op x y ihx ihy =>
    have parts := constant_parts constant
    rw [settleArguments, ihx parts.1, ihy parts.2]; rfl
  | random | roll | thresholdRoll => cases constant

theorem rollDice_constant (constant : node.isVariable = false) : node.rollDice = pure node := by
  induction node with
  | int | rolled => rfl
  | neg x ih => rw [rollDice, ih constant]; rfl
  | binary op x y ihx ihy =>
    have parts := constant_parts constant
    rw [rollDice, ihx parts.1, ihy parts.2]; rfl
  | random | roll | thresholdRoll => cases constant

theorem evaluate_constant (constant : node.isVariable = false) :
    node.evaluate = Evaluation.ofExcept node.intValue := by
  unfold evaluate conclude
  rw [settleArguments_constant constant, pure_bind, rollDice_constant constant, pure_bind]

theorem settled_of_variable (depends : node.isVariable = true) :
    node.settled = node.evaluate >>= fun v => pure (int v) := by
  unfold Node.settled settle evaluate
  rw [if_pos depends, bind_assoc]

theorem settle_of_constant (constant : node.isVariable = false) (resolved : Evaluation Node) :
    node.settle resolved = pure node := if_neg (Bool.eq_false_iff.mp constant)

theorem course_settled {good : Int → Die → Prop} {argument : Node} {dice : List Die}
    (course : node.settled.Course good dice (.ok argument)) :
    (node.isVariable = true ∧ ∃ v, node.evaluate.Course good dice (.ok v) ∧ argument = int v) ∨
      node.isVariable = false ∧ dice = [] ∧ node = argument := by
  cases varies : node.isVariable with
  | true =>
    rw [settled_of_variable varies] at course
    exact .inl ⟨rfl, Evaluation.course_bind_pure.mp course⟩
  | false =>
    rw [Node.settled, settle_of_constant varies] at course
    obtain ⟨empty, same⟩ := Evaluation.course_pure.mp course
    exact .inr ⟨rfl, empty, (Except.ok.inj same).symm⟩

theorem Comes.constant (comes : node.Comes cap within inner own v)
    (constant : node.isVariable = false) : inner = [] ∧ own = [] := by
  induction comes with
  | int => exact ⟨rfl, rfl⟩
  | neg operand fits ih => exact ih constant
  | binary left right applied fits ihLeft ihRight =>
    have parts := constant_parts constant
    obtain ⟨rfl, rfl⟩ := ihLeft parts.1
    obtain ⟨rfl, rfl⟩ := ihRight parts.2
    exact ⟨rfl, rfl⟩
  | roll | random => cases constant

theorem intValue_neg (x : Node) : (neg x).intValue = x.intValue >>= fun v => exactly (-v) := by
  unfold intValue
  rw [value]
  cases x.value >>= Value.asInt with
  | error => rfl
  | ok v => exact Value.asInt_integer (exactly (-v))

theorem intValue_binary (op : BinaryOp) (x y : Node) : (binary op x y).intValue =
    x.intValue >>= fun v => y.intValue >>= fun w => op.apply v w >>= Value.asInt := by
  unfold intValue
  rw [value]
  simp only [bind_assoc]

theorem attains_settled (comes : node.Comes cap within inner own v)
    (passes : Attains within node.settleArguments inner fun settled =>
      Attains within settled.rollDice own fun fallen => Gets within fallen.intValue v) :
    Attains within node.settled (inner ++ own) fun argument => Gets within argument.intValue v := by
  unfold Node.settled settle
  split
  · refine passes.bind fun settled rolls => ?_
    refine .bind_value_nil (rolls.bind_nil fun fallen gets => .ofExcept gets rfl) ?_
    exact .done (.ok v)
  · -- A constant argument is left alone, and both passes would leave it alone as well.
    rename_i fixed
    have constant : node.isVariable = false := Bool.eq_false_iff.mpr fixed
    obtain ⟨rfl, rfl⟩ := comes.constant constant
    rw [settleArguments_constant constant] at passes
    have rolls := passes.of_pure
    rw [rollDice_constant constant] at rolls
    exact .done rolls.of_pure

theorem attains_rollSum {x y : Node} {dice : List Die} {sides : Int}
    (count : Gets within x.intValue dice.length) (size : Gets within y.intValue sides)
    (nonempty : dice ≠ []) (fair : ∀ die ∈ dice, Fair sides die) :
    Attains within (rollSum x y) dice (· = .rolled dice) := by
  have sided : 1 ≤ sides := by
    obtain ⟨die, member⟩ := List.exists_mem_of_ne_nil dice nonempty
    exact Int.le_trans (fair die member).least (fair die member).greatest
  have yields : (Throw.group ⟨dice.length, sides⟩).Yields Fair dice dice :=
    Throw.yields_group.mpr ⟨rfl, rfl, nonempty, sided, fair⟩
  refine .nil_bind_value (.ofExcept count rfl) ?_
  refine .nil_bind_value (.ofExcept size rfl) ?_
  refine .bind_value_nil (.ofThrow yields rfl) ?_
  exact .done rfl

theorem attains_randomNumber {least greatest : Int} {die : Die}
    (size : within (greatest - least + 1)) (fair : Fair (greatest - least + 1) die)
    (fits : within (least + (die.value - 1))) :
    Attains within (randomNumber least greatest) [die] (· = least + (die.value - 1)) := by
  have sided : 1 ≤ greatest - least + 1 := Int.le_trans fair.least fair.greatest
  have yields : (Throw.die (greatest - least + 1)).Yields Fair [die] die :=
    Throw.yields_die.mpr ⟨rfl, sided, fair⟩
  unfold randomNumber
  rw [if_neg (by omega)]
  by_cases inside : Fits (greatest - least + 1)
  · refine .nil_bind_value (.ofExcept (.exactly size) rfl) ?_
    refine .bind_value_nil (.ofThrow yields rfl) ?_
    rw [fair.wrap_pred inside]
    exact .ofExcept (.exactly fits) rfl
  · -- There is no die of so many sides, and none is rolled.
    rw [exactly_overflow inside]
    exact .inr ⟨⟨_, size, inside⟩, [], [die], rfl, .fail .overflow⟩

theorem Comes.attains (comes : node.Comes saturate within inner own v) :
    Attains within node.settleArguments inner fun settled =>
      Attains within settled.rollDice own fun fallen => Gets within fallen.intValue v := by
  -- What the second pass attains is the property of the first, so one induction carries both.
  induction comes with
  | int x => exact .done (.done (.ok x))
  | neg operand fits ih =>
    refine ih.bind_nil fun settled rolls => .done ?_
    refine rolls.bind_nil fun fallen gets => .done ?_
    rw [intValue_neg]
    exact gets.bind (.exactly fits)
  | binary left right applied fits ihLeft ihRight =>
    refine ihLeft.bind fun settledLeft rollsLeft => ?_
    refine ihRight.bind_nil fun settledRight rollsRight => .done ?_
    refine rollsLeft.bind fun fallenLeft getsLeft => ?_
    refine rollsRight.bind_nil fun fallenRight getsRight => .done ?_
    rw [intValue_binary]
    refine getsLeft.bind (getsRight.bind ?_)
    rw [BinaryOp.apply_eq (BinaryOp.arithmetic_of_exact applied), applied]
    exact .exactly fits
  | roll count size nonempty fair fits ihCount ihSize =>
    refine (attains_settled count ihCount).bind fun countNode getsCount => ?_
    refine (attains_settled size ihSize).bind_nil fun sizeNode getsSize => .done ?_
    refine (attains_rollSum getsCount getsSize nonempty fair).imp fun fallen same => ?_
    rw [same, ← Die.sum_of_fair fair]
    exact .ok _
  | random lower upper size fair fits ihLower ihUpper =>
    refine (attains_settled lower ihLower).bind fun lowerNode getsLower => ?_
    refine (attains_settled upper ihUpper).bind_nil fun upperNode getsUpper => .done ?_
    refine .nil_bind_value (.ofExcept getsLower rfl) ?_
    refine .nil_bind_value (.ofExcept getsUpper rfl) ?_
    refine (attains_randomNumber size fair fits).bind_value_nil ?_
    exact .done (.ok _)

theorem totals_of_settled {argument : Node} {dice : List Die}
    (passes : ∀ {inner own settled fallen v}, node.settleArguments.Course Fair inner (.ok settled) →
      settled.rollDice.Course Fair own (.ok fallen) → fallen.intValue = .ok v →
      node.Comes cap within inner own v)
    (course : node.settled.Course Fair dice (.ok argument)) (value : argument.intValue = .ok v) :
    node.Totals cap within dice v := by
  obtain ⟨-, reached, evaluated, rfl⟩ | ⟨constant, rfl, rfl⟩ := course_settled course
  · obtain ⟨inner, settled, own, rfl, settling, concluding⟩ := Evaluation.course_bind.mp evaluated
    obtain ⟨fallen, rolling, same⟩ := Evaluation.course_bind_ofExcept.mp concluding
    cases value
    exact ⟨inner, own, rfl, passes settling rolling same⟩
  · have settling : node.settleArguments.Course Fair [] (.ok node) := by
      rw [settleArguments_constant constant]
      exact .done node
    have rolling : node.rollDice.Course Fair [] (.ok node) := by
      rw [rollDice_constant constant]
      exact .done node
    exact ⟨[], [], rfl, passes settling rolling value⟩

theorem Comes.of_course {least : Int} (plain : node.IsArithmetic least)
    (settling : node.settleArguments.Course Fair inner (.ok settled))
    (rolling : settled.rollDice.Course Fair own (.ok fallen)) (value : fallen.intValue = .ok v) :
    node.Comes saturate Fits inner own v := by
  induction node generalizing inner own settled fallen v with
  | int x =>
    cases settling
    cases rolling
    cases value
    exact .int x
  | neg x ih =>
    obtain ⟨settled', settling', rfl⟩ := Evaluation.course_bind_pure.mp settling
    obtain ⟨fallen', rolling', rfl⟩ := Evaluation.course_bind_pure.mp rolling
    rw [intValue_neg] at value
    obtain ⟨operand, computed, last⟩ := bind_ok value
    obtain ⟨fits, rfl⟩ := exactly_ok.mp last
    exact .neg (ih plain settling' rolling' computed) fits
  | binary op x y ihx ihy =>
    obtain ⟨_, settledLeft, _, rfl, settlingLeft, settling⟩ := Evaluation.course_bind.mp settling
    obtain ⟨settledRight, settlingRight, rfl⟩ := Evaluation.course_bind_pure.mp settling
    obtain ⟨_, fallenLeft, _, rfl, rollingLeft, rolling⟩ := Evaluation.course_bind.mp rolling
    obtain ⟨fallenRight, rollingRight, rfl⟩ := Evaluation.course_bind_pure.mp rolling
    rw [intValue_binary] at value
    obtain ⟨left, computedLeft, value⟩ := bind_ok value
    obtain ⟨right, computedRight, last⟩ := bind_ok value
    rw [BinaryOp.apply_eq plain.1] at last
    cases applied : op.exact left right with
    | none => rw [applied] at last; cases last
    | some result =>
      rw [applied] at last
      obtain ⟨fits, rfl⟩ := exactly_ok.mp last
      exact .binary (ihx plain.2.1 settlingLeft rollingLeft computedLeft)
        (ihy plain.2.2 settlingRight rollingRight computedRight) applied fits
  | random x y ihx ihy =>
    obtain ⟨_, lowerNode, _, rfl, settlingLower, settling⟩ := Evaluation.course_bind.mp settling
    obtain ⟨upperNode, settlingUpper, rfl⟩ := Evaluation.course_bind_pure.mp settling
    obtain ⟨lower, computedLower, rolling⟩ := Evaluation.course_ofExcept_bind.mp rolling
    obtain ⟨upper, computedUpper, rolling⟩ := Evaluation.course_ofExcept_bind.mp rolling
    obtain ⟨picked, picking, rfl⟩ := Evaluation.course_bind_pure.mp rolling
    cases value
    unfold randomNumber at picking
    split at picking
    · cases picking
    obtain ⟨size, computed, picking⟩ := Evaluation.course_ofExcept_bind.mp picking
    obtain ⟨inside, rfl⟩ := exactly_ok.mp computed
    obtain ⟨die, thrown, last⟩ := Evaluation.course_bind_ofExcept.mp picking
    obtain ⟨rfl, sided, fair⟩ := Throw.yields_die.mp (Evaluation.course_ofThrow.mp thrown)
    rw [fair.wrap_pred inside] at last
    obtain ⟨fits, rfl⟩ := exactly_ok.mp last
    obtain ⟨_, _, rfl, comesLower⟩ := totals_of_settled (ihx plain.1) settlingLower computedLower
    obtain ⟨_, _, rfl, comesUpper⟩ := totals_of_settled (ihy plain.2) settlingUpper computedUpper
    exact .random comesLower comesUpper inside fair fits
  | roll kind x y ihx ihy =>
    obtain ⟨rfl, plainCount, plainSize⟩ := plain
    obtain ⟨_, countNode, _, rfl, settlingCount, settling⟩ := Evaluation.course_bind.mp settling
    obtain ⟨sizeNode, settlingSize, rfl⟩ := Evaluation.course_bind_pure.mp settling
    obtain ⟨count, computedCount, rolling⟩ := Evaluation.course_ofExcept_bind.mp rolling
    obtain ⟨size, computedSize, rolling⟩ := Evaluation.course_ofExcept_bind.mp rolling
    obtain ⟨dice, thrown, rfl⟩ := Evaluation.course_bind_pure.mp rolling
    obtain ⟨rfl, counted, nonempty, sided, fair⟩ :=
      Throw.yields_group.mp (Evaluation.course_ofThrow.mp thrown)
    cases counted
    cases value
    obtain ⟨_, _, rfl, comesCount⟩ := totals_of_settled (ihx plainCount) settlingCount computedCount
    obtain ⟨_, _, rfl, comesSize⟩ := totals_of_settled (ihy plainSize) settlingSize computedSize
    rw [Die.sum_of_fair fair]
    exact .roll comesCount comesSize nonempty fair (fits_saturate _)
  | thresholdRoll | rolled => exact plain.elim

namespace Totals

variable {dice : List Die}

theorem attains_settled (totals : node.Totals saturate within dice v) :
    Attains within node.settled dice fun argument => Gets within argument.intValue v := by
  obtain ⟨inner, own, rfl, comes⟩ := totals
  exact Node.attains_settled comes comes.attains

theorem attains_resolve (totals : node.Totals saturate within dice v) :
    Attains within node.resolve dice fun fallen => Gets within fallen.intValue v := by
  obtain ⟨inner, own, rfl, comes⟩ := totals
  exact comes.attains.bind fun settled rolls => rolls

theorem attains_evaluate (totals : node.Totals saturate within dice v) :
    Attains within node.evaluate dice (· = v) := by
  obtain ⟨inner, own, rfl, comes⟩ := totals
  refine comes.attains.bind fun settled rolls => ?_
  exact rolls.bind_nil fun fallen gets => .ofExcept gets rfl

theorem of_settled {least : Int} {argument : Node} (plain : node.IsArithmetic least)
    (course : node.settled.Course Fair dice (.ok argument)) (value : argument.intValue = .ok v) :
    node.Totals saturate Fits dice v :=
  totals_of_settled (Comes.of_course plain) course value

theorem of_resolve {least : Int} (plain : node.IsArithmetic least)
    (course : node.resolve.Course Fair dice (.ok fallen)) (value : fallen.intValue = .ok v) :
    node.Totals saturate Fits dice v := by
  obtain ⟨inner, settled, own, rfl, settling, rolling⟩ := Evaluation.course_bind.mp course
  exact ⟨inner, own, rfl, .of_course plain settling rolling value⟩

theorem of_evaluate {least : Int} (plain : node.IsArithmetic least)
    (course : node.evaluate.Course Fair dice (.ok v)) : node.Totals saturate Fits dice v := by
  obtain ⟨inner, settled, own, rfl, settling, concluding⟩ := Evaluation.course_bind.mp course
  obtain ⟨fallen, rolling, value⟩ := Evaluation.course_bind_ofExcept.mp concluding
  exact ⟨inner, own, rfl, .of_course plain settling rolling value⟩

end Totals

theorem Comes.weaken {cap' : Int → Int} {within' : Int → Prop}
    (comes : node.Comes cap within inner own v) (weaker : ∀ x, within x → within' x)
    (same : ∀ x, within (cap x) → cap' x = cap x) : node.Comes cap' within' inner own v := by
  induction comes with
  | int x => exact .int x
  | neg operand fits ih => exact .neg ih (weaker _ fits)
  | binary left right applied fits ihLeft ihRight =>
    exact .binary ihLeft ihRight applied (weaker _ fits)
  | roll count size nonempty fair fits ihCount ihSize =>
    have kept := same _ fits
    have inside := weaker _ fits
    rw [← kept] at inside ⊢
    exact .roll ihCount ihSize nonempty fair inside
  | random lower upper size fair fits ihLower ihUpper =>
    exact .random ihLower ihUpper (weaker _ size) fair (weaker _ fits)

theorem Totals.weaken {cap' : Int → Int} {within' : Int → Prop} {dice : List Die}
    (totals : node.Totals cap within dice v) (weaker : ∀ x, within x → within' x)
    (same : ∀ x, within (cap x) → cap' x = cap x) : node.Totals cap' within' dice v := by
  obtain ⟨inner, own, cut, comes⟩ := totals
  exact ⟨inner, own, cut, comes.weaken weaker same⟩

end Node

end DiceLanguage
