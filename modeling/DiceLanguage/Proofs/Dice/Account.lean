import DiceLanguage.Proofs.Limit

namespace DiceLanguage

open DiceSource

variable {σ : Type}

theorem Roller.charge_limit {n : Nat} {roller charged : Roller σ}
    (accepted : roller.charge n = .ok charged) : charged.limit = roller.limit := by
  unfold charge at accepted
  split at accepted
  · cases accepted
    rfl
  · split at accepted <;> cases accepted
    rfl

variable [DiceSource σ]

/-- The source gives these dice, one after the other, when it is asked for dice of the sides. -/
inductive DiceSource.Gives (sides : Int) : σ → List Die → σ → Prop where
  | nil (source : σ) : Gives sides source [] source
  | cons {source middle final : σ} {die : Die} {dice : List Die}
    (first : next sides source = (.ok die, middle)) (rest : Gives sides middle dice final) :
    Gives sides source (die :: dice) final

theorem DiceSource.gives_of_draw {sides : Int} {n : Nat} {source final : σ} {dice : List Die}
    (drawn : draw sides n source = (.ok dice, final)) : Gives sides source dice final := by
  induction n generalizing source dice with
  | zero =>
    cases drawn
    exact .nil final
  | succ n ih =>
    obtain ⟨die, rest, middle, first, others, rfl⟩ := draw_succ_ok.mp drawn
    exact .cons first (ih others)

def givenDice (answers : List (Except RollError Die)) : List Die :=
  answers.filterMap Except.toOption

@[simp] theorem givenDice_append (before later : List (Except RollError Die)) :
    givenDice (before ++ later) = givenDice before ++ givenDice later :=
  List.filterMap_append

@[simp] theorem givenDice_map_ok (dice : List Die) : givenDice (dice.map .ok) = dice := by
  rw [givenDice, List.filterMap_map]
  exact List.filterMap_some

/-- What a source answers when `n` dice are wanted of it, of which a refusal is the end. -/
inductive Answered : Nat → Except RollError (List Die) → List (Except RollError Die) → Prop where
  | all (dice : List Die) : Answered dice.length (.ok dice) (dice.map .ok)
  | refused {n : Nat} {before : List Die} (fewer : before.length < n) (error : RollError) :
    Answered n (.error error) (before.map .ok ++ [.error error])

theorem answered_draw (sides : Int) (n : Nat) (observed : Observed σ) :
    ∃ answers, (draw sides n observed).2.answers = observed.answers ++ answers ∧
      Answered n (draw sides n observed).1 answers := by
  induction n generalizing observed with
  | zero => exact ⟨[], (List.append_nil _).symm, .all []⟩
  | succ n ih =>
    have told := Observed.next_answers sides observed
    rcases taken : next sides observed with ⟨error | die, middle⟩
    · rw [taken] at told
      simp only [draw, taken]
      exact ⟨[.error error], told, @Answered.refused (n + 1) [] (Nat.succ_pos n) error⟩
    · rw [taken] at told
      obtain ⟨answers, later, answered⟩ := ih middle
      rw [told, List.append_assoc] at later
      rcases others : draw sides n middle with ⟨result, final⟩
      rw [others] at later answered
      cases answered with
      | all dice =>
        simp only [draw, taken, others]
        exact ⟨_, later, .all (die :: dice)⟩
      | @refused n before fewer error =>
        simp only [draw, taken, others]
        exact ⟨_, later, @Answered.refused (n + 1) (die :: before) (Nat.succ_lt_succ fewer) error⟩

namespace Answered

variable {n : Nat} {result : Except RollError (List Die)} {answers : List (Except RollError Die)}

theorem length_givenDice_le (answered : Answered n result answers) :
    (givenDice answers).length ≤ n := by
  cases answered with
  | all dice => simp
  | refused fewer error =>
    rw [givenDice_append, givenDice_map_ok]
    change (_ ++ []).length ≤ n
    rw [List.append_nil]
    exact Nat.le_of_lt fewer

theorem length_givenDice (answered : Answered n result answers)
    (noError : ∀ error, .error error ∉ answers) : (givenDice answers).length = n := by
  cases answered with
  | all dice => simp
  | refused fewer error => exact absurd (by simp) (noError error)

theorem eq_map_ok {dice : List Die} (answered : Answered n (.ok dice) answers) :
    answers = dice.map .ok := by
  cases answered
  rfl

theorem error_mem {error : RollError} (answered : Answered n (.error error) answers) :
    .error error ∈ answers := by
  cases answered
  simp

end Answered

namespace Roller

inductive Call where
  | limitTo (max : Nat)
  | roll (count sides : Int)
  | rollDie (sides : Int)
deriving DecidableEq, Repr

namespace Call

def make : Call → Roller σ → Except RollError (List Die) × Roller σ
  | limitTo max, roller => (.ok [], roller.limitTo max)
  | roll count sides, roller => roller.roll count sides
  | rollDie sides, roller => ((roller.rollDie sides).1.map ([·]), (roller.rollDie sides).2)

def answers (call : Call) (roller : Roller σ) : List (Except RollError Die) :=
  (call.make roller.observed).2.source.answers

theorem make_rollDie (sides : Int) (roller : Roller σ) :
    (rollDie sides).make roller = (roll 1 sides).make roller := by
  simp only [make, Roller.roll, Roller.rollDie, if_neg (show ¬ (1 : Int) < 1 by decide)]
  by_cases few : sides < 1
  · rw [if_pos few, if_pos few]
    rfl
  · rw [if_neg few, if_neg few]
    rcases accepted : roller.charge 1 with error | charged
    · simp only [Int.toNat_one, accepted]
      rfl
    · simp only [Int.toNat_one, accepted, draw]
      rcases next sides charged.source with ⟨error | die, source⟩ <;> rfl

end Call

theorem roll_cases (roller : Roller σ) (count sides : Int) :
    (∃ error, roller.roll count sides = (.error error, roller) ∧
      (Call.roll count sides).answers roller = []) ∨
    ∃ charged, roller.charge count.toNat = .ok charged ∧
      ∃ source, (roller.roll count sides).2 = { charged with source } ∧
        Answered count.toNat (roller.roll count sides).1 ((Call.roll count sides).answers roller) := by
  unfold Call.answers Call.make Roller.roll
  by_cases few : count < 1
  · simp only [if_pos few]
    exact .inl ⟨_, rfl, rfl⟩
  by_cases none : sides < 1
  · simp only [if_neg few, if_pos none]
    exact .inl ⟨_, rfl, rfl⟩
  simp only [if_neg few, if_neg none]
  have recorded : roller.observed.charge count.toNat =
      (roller.charge count.toNat).map Roller.observed := charge_map _ _ roller
  rcases accepted : roller.charge count.toNat with error | charged
  · rw [recorded, accepted]
    exact .inl ⟨error, rfl, rfl⟩
  · rw [recorded, accepted]
    obtain ⟨answers, told, answered⟩ := answered_draw sides count.toNat charged.observed.source
    -- The source answers the same, whether its answers are recorded or not.
    have same := Observed.mirrors.draw sides count.toNat charged.observed.source
    have alike : (draw sides count.toNat charged.source).1 =
        (draw sides count.toNat charged.observed.source).1 := congrArg Prod.fst same
    rw [← alike] at answered
    have new : (draw sides count.toNat charged.observed.source).2.answers = answers := told
    rw [← new] at answered
    exact .inr ⟨charged, rfl, _, rfl, answered⟩

end Roller

structure Account (σ : Type) where
  roller : Roller σ
  answers : List (Except RollError Die) := []

namespace Account

open Roller (Call)

def after (account : Account σ) (call : Call) : Account σ where
  roller := (call.make account.roller).2
  answers := match call with
    | .limitTo _ => []
    | _ => account.answers ++ call.answers account.roller

def run (source : σ) (calls : List Call) : Account σ :=
  calls.foldl after { roller := { source } }

/-- Under the limit, if there is one, every die given is counted, and nothing else but dice that the
source refused. -/
structure Balanced (account : Account σ) (limit : Nat) : Prop where
  covered : (givenDice account.answers).length ≤ account.roller.rolled
  within : account.roller.rolled ≤ limit
  exact : (∀ error, .error error ∉ account.answers) →
    (givenDice account.answers).length = account.roller.rolled

theorem after_rollDie (account : Account σ) (sides : Int) :
    account.after (.rollDie sides) = account.after (.roll 1 sides) := by
  simp only [after, Call.answers, Call.make_rollDie]

theorem Balanced.roll {account : Account σ} {limit : Nat} (balanced : account.Balanced limit)
    (limited : account.roller.limit = some limit) (count sides : Int) :
    (account.after (.roll count sides)).Balanced limit := by
  rcases Roller.roll_cases account.roller count sides with ⟨error, refused, none⟩ |
    ⟨charged, accepted, source, final, answered⟩
  · have same : account.after (.roll count sides) = account := by
      simp only [after, none, Call.make, refused, List.append_nil]
    rwa [same]
  · obtain ⟨within, rfl⟩ := (Roller.charge_ok limited).mp accepted
    have rolled : (account.after (.roll count sides)).roller.rolled =
        account.roller.rolled + count.toNat := congrArg Roller.rolled final
    have covered := balanced.covered
    have given := answered.length_givenDice_le
    refine ⟨?_, ?_, ?_⟩
    · rw [rolled]
      simp only [after, givenDice_append, List.length_append]
      omega
    · rwa [rolled]
    · intro noError
      have before := balanced.exact fun error member =>
        noError error (List.mem_append_left _ member)
      have later := answered.length_givenDice fun error member =>
        noError error (List.mem_append_right _ member)
      rw [rolled]
      simp only [after, givenDice_append, List.length_append]
      omega

theorem limit_after_roll (account : Account σ) (count sides : Int) :
    (account.after (.roll count sides)).roller.limit = account.roller.limit := by
  change (account.roller.roll count sides).2.limit = account.roller.limit
  rcases Roller.roll_cases account.roller count sides with ⟨error, refused, -⟩ |
    ⟨charged, accepted, source, final, -⟩
  · rw [refused]
  · rw [final, ← Roller.charge_limit accepted]

def IsBalanced (account : Account σ) : Prop :=
  ∀ limit, account.roller.limit = some limit → account.Balanced limit

theorem IsBalanced.after {account : Account σ} (balanced : account.IsBalanced) (call : Call) :
    (account.after call).IsBalanced := by
  have roll (count sides : Int) : (account.after (.roll count sides)).IsBalanced := by
    intro limit limited
    rw [limit_after_roll] at limited
    exact (balanced limit limited).roll limited count sides
  cases call with
  | limitTo max => exact fun limit _ => ⟨Nat.le_refl 0, Nat.zero_le limit, fun _ => rfl⟩
  | roll count sides => exact roll count sides
  | rollDie sides =>
    rw [after_rollDie]
    exact roll 1 sides

theorem isBalanced_foldl {account : Account σ} (balanced : account.IsBalanced)
    (calls : List Call) : (calls.foldl Account.after account).IsBalanced := by
  induction calls generalizing account with
  | nil => exact balanced
  | cons call calls ih => exact ih (balanced.after call)

theorem isBalanced_run (source : σ) (calls : List Call) : (run source calls).IsBalanced :=
  isBalanced_foldl (fun limit limited => by cases limited) calls

end Account

namespace Roller

variable {roller : Roller σ}

/-- The roller has handed out the next dice of its source, and counted them if it is limited. -/
structure Draws (sides : Int) (dice : List Die) (roller final : Roller σ) : Prop where
  gives : Gives sides roller.source dice final.source
  limit : final.limit = roller.limit
  counted : ∀ limit, roller.limit = some limit →
    final.rolled = roller.rolled + dice.length ∧ final.rolled ≤ limit

theorem draws_of_charge {sides : Int} {dice : List Die} {charged : Roller σ} {source : σ}
    (accepted : roller.charge dice.length = .ok charged)
    (given : Gives sides charged.source dice source) :
    Draws sides dice roller { charged with source } := by
  rw [charge_source accepted] at given
  have same : charged.limit = roller.limit := charge_limit accepted
  refine ⟨given, same, ?_⟩
  intro limit limited
  obtain ⟨within, rfl⟩ := (charge_ok limited).mp accepted
  exact ⟨rfl, within⟩

theorem draws_of_roll {count sides : Int} {dice : List Die} {final : Roller σ}
    (rolled : roller.roll count sides = (.ok dice, final)) :
    (dice.length : Int) = count ∧ Draws sides dice roller final := by
  obtain ⟨some, -, charged, source, accepted, drawn, rfl⟩ := roll_ok.mp rolled
  have length := draw_length drawn
  rw [← length] at accepted
  exact ⟨by omega, draws_of_charge accepted (gives_of_draw drawn)⟩

theorem draws_of_rollDie {sides : Int} {die : Die} {final : Roller σ}
    (rolled : roller.rollDie sides = (.ok die, final)) : Draws sides [die] roller final := by
  obtain ⟨-, charged, source, accepted, given, rfl⟩ := rollDie_ok.mp rolled
  exact draws_of_charge accepted (.cons given (.nil source))

theorem answers_of_make {call : Call} {dice : List Die} (made : (call.make roller).1 = .ok dice) :
    call.answers roller = dice.map .ok := by
  have roll (count sides : Int) (made : (roller.roll count sides).1 = .ok dice) :
      (Call.roll count sides).answers roller = dice.map .ok := by
    rcases roll_cases roller count sides with ⟨error, refused, -⟩ |
      ⟨charged, accepted, source, final, answered⟩
    · rw [refused] at made
      cases made
    · rw [made] at answered
      exact answered.eq_map_ok
  cases call with
  | limitTo max =>
    cases made
    rfl
  | roll count sides => exact roll count sides made
  | rollDie sides =>
    simp only [Call.answers, Call.make_rollDie] at made ⊢
    exact roll 1 sides made

theorem make_refused {call : Call} {error : RollError}
    (failed : (call.make roller).1 = .error error)
    (own : .error error ∉ call.answers roller) :
    (call.make roller).2 = roller ∧ call.answers roller = [] := by
  have roll (count sides : Int) (failed : (roller.roll count sides).1 = .error error)
      (own : .error error ∉ (Call.roll count sides).answers roller) :
      (roller.roll count sides).2 = roller ∧ (Call.roll count sides).answers roller = [] := by
    rcases roll_cases roller count sides with ⟨refusal, refused, none⟩ |
      ⟨charged, accepted, source, final, answered⟩
    · exact ⟨by rw [refused], none⟩
    · rw [failed] at answered
      exact absurd answered.error_mem own
  cases call with
  | limitTo max => cases failed
  | roll count sides => exact roll count sides failed own
  | rollDie sides =>
    simp only [Call.answers, Call.make_rollDie] at failed own ⊢
    exact roll 1 sides failed own

/-- After any calls of a new roller: under a limit the dice given since it was set are all counted,
and no more than the limit. A roll that succeeds returns the next dice of the source, which are all
that the source has answered, and counts them. A call that the roller refuses by itself changes
nothing. -/
theorem accounts_for_dice (source : σ) (calls : List Call) :
    let account := Account.run source calls
    (∀ limit, account.roller.limit = some limit →
      (givenDice account.answers).length ≤ account.roller.rolled ∧ account.roller.rolled ≤ limit ∧
        ((∀ error, .error error ∉ account.answers) →
          (givenDice account.answers).length = account.roller.rolled)) ∧
    (∀ count sides dice final, account.roller.roll count sides = (.ok dice, final) →
      (dice.length : Int) = count ∧ Draws sides dice account.roller final) ∧
    (∀ sides die final, account.roller.rollDie sides = (.ok die, final) →
      Draws sides [die] account.roller final) ∧
    (∀ (call : Call) dice, (call.make account.roller).1 = .ok dice →
      call.answers account.roller = dice.map .ok) ∧
    ∀ (call : Call) error, (call.make account.roller).1 = .error error →
      .error error ∉ call.answers account.roller →
        (call.make account.roller).2 = account.roller ∧ call.answers account.roller = [] := by
  intro account
  refine ⟨?_, ?_, ?_, ?_, ?_⟩
  · intro limit limited
    have balanced := Account.isBalanced_run source calls limit limited
    exact ⟨balanced.covered, balanced.within, balanced.exact⟩
  · exact fun count sides dice final rolled => draws_of_roll rolled
  · exact fun sides die final rolled => draws_of_rollDie rolled
  · exact fun call dice made => answers_of_make made
  · exact fun call error failed own => make_refused failed own

theorem accounts_for_dice_refused :
    let calls : List Call := [.limitTo 9, .rollDie 6, .limitTo 5, .roll 1 6, .roll 2 6]
    let account := Account.run (⟨[⟨2, 6⟩, ⟨5, 6⟩, ⟨3, 8⟩, ⟨1, 6⟩]⟩ : Script) calls
    account.roller.limit = some 5 ∧ (givenDice account.answers).length ≤ account.roller.rolled ∧
      account.roller.rolled ≤ 5 ∧
      (account.roller.roll 1 6).1 = .ok [⟨1, 6⟩] ∧
      Draws 6 [⟨1, 6⟩] account.roller (account.roller.roll 1 6).2 ∧
      (account.roller.rollDie 6).1 = .ok ⟨1, 6⟩ ∧
      Draws 6 [⟨1, 6⟩] account.roller (account.roller.rollDie 6).2 ∧
      (account.roller.rollDie 6).2.rolled = 4 ∧
      (Call.rollDie 6).answers account.roller = [.ok ⟨1, 6⟩] ∧
      (account.roller.roll 3 6).1 = .error (.tooManyRolls 5) ∧
      (account.roller.roll 3 6).2 = account.roller := by
  intro calls account
  obtain ⟨balanced, rolls, rollsDie, tells, refuses⟩ := accounts_for_dice
    (⟨[⟨2, 6⟩, ⟨5, 6⟩, ⟨3, 8⟩, ⟨1, 6⟩]⟩ : Script) calls
  obtain ⟨covered, within, -⟩ := balanced 5 rfl
  obtain ⟨-, drawn⟩ := rolls 1 6 [⟨1, 6⟩] _ rfl
  have single := rollsDie 6 ⟨1, 6⟩ _ rfl
  have told := tells (.rollDie 6) [⟨1, 6⟩] rfl
  have counted := (single.counted 5 rfl).1
  have unasked : (Call.roll 3 6).answers account.roller = [] := rfl
  obtain ⟨same, -⟩ := refuses (.roll 3 6) (.tooManyRolls 5) rfl (by rw [unasked]; nofun)
  exact ⟨rfl, covered, within, rfl, drawn, rfl, single, counted, told, rfl, same⟩

end Roller

end DiceLanguage
