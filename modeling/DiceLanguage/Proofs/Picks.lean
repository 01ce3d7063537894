import DiceLanguage.Command.Play
import DiceLanguage.Proofs.Evaluation.Exact
import Mathlib.Order.ConditionallyCompleteLattice.Basic
import Mathlib.Data.Int.ConditionallyCompleteOrder

namespace DiceLanguage

open Evaluation (ofExcept ofThrow)

variable {α : Type}

namespace Evaluation

/-- A single die of these sides is rolled and nothing else; its face decides on the result. -/
def Picks (evaluation : Evaluation α) (sides : Int) (result : Int → Except EvalError α) : Prop :=
  ∀ (σ : Type) [DiceSource σ] (table : Table σ), evaluation.run table =
    match table.roller.rollDie sides with
    | (.error refused, roller) => (.error (.roll refused), { table with roller })
    | (.ok die, roller) => (result die.value, ⟨roller, table.recorded ++ [die]⟩)

def FailsAtOnce (evaluation : Evaluation α) (error : EvalError) : Prop :=
  ∀ (σ : Type) [DiceSource σ] (table : Table σ), evaluation.run table = (.error error, table)

theorem failsAtOnce_fail (error : EvalError) : (fail error : Evaluation α).FailsAtOnce error :=
  fun _ _ _ => rfl

theorem picks_die {sides : Int} {result : Int → Except EvalError α} {next : Die → Evaluation α}
    (same : ∀ die, next die = ofExcept (result die.value)) :
    (ofThrow (Throw.die sides) (fun die => [die]) >>= next).Picks sides result := by
  intro σ _ table
  change (throwing (Throw.die sides) (fun die => [die]) next).run table = _
  rw [run, Throw.die, Throw.run]
  rcases table.roller.rollDie sides with ⟨refused | die, roller⟩
  · rfl
  · simp only [Throw.run, same]
    cases result die.value <;> rfl

variable {evaluation : Evaluation α} {sides : Int} {result : Int → Except EvalError α}

theorem Picks.error (picks : evaluation.Picks sides result)
    (succeeds : ∀ face ∈ Set.Icc 1 sides, ∃ value, result face = .ok value)
    {σ : Type} [DiceSource σ] {table : Table σ}
    (fair : DiceSource.Supplies Fair table.roller.source) {error : EvalError}
    (failed : (evaluation.run table).1 = .error error) : ∃ refused, error = .roll refused := by
  rw [picks σ table] at failed
  rcases rolled : table.roller.rollDie sides with ⟨refused | die, roller⟩
  · rw [rolled] at failed
    cases failed
    exact ⟨refused, rfl⟩
  · rw [rolled] at failed
    obtain ⟨-, charged, source, accepted, given, -⟩ := Roller.rollDie_ok.mp rolled
    rw [Roller.charge_source accepted] at given
    have shown : Fair sides die := fair.given given
    obtain ⟨value, same⟩ := succeeds die.value ⟨shown.least, shown.greatest⟩
    simp only [same] at failed
    cases failed

end Evaluation

variable {least greatest : Int}

theorem Node.evaluate_random (least greatest : Int) :
    (random (int least) (int greatest)).evaluate = randomNumber least greatest := by
  have settled : (random (int least) (int greatest)).settleArguments =
      pure (random (int least) (int greatest)) := rfl
  have rolled : (random (int least) (int greatest)).rollDice =
      randomNumber least greatest >>= fun x => pure (int x) := rfl
  rw [evaluate, settled, pure_bind, conclude, rolled, bind_assoc]
  exact bind_pure (randomNumber least greatest)

theorem randomNumber_reversed (reversed : greatest < least) :
    (randomNumber least greatest).FailsAtOnce (.invalidRange least greatest) := by
  rw [randomNumber, if_pos reversed]
  exact Evaluation.failsAtOnce_fail _

theorem randomNumber_tooLarge (tooLarge : maxInt < greatest - least + 1) :
    (randomNumber least greatest).FailsAtOnce .overflow := by
  have ordered : ¬ greatest < least := by
    unfold maxInt at tooLarge
    omega
  have beyond : ¬ Fits (greatest - least + 1) := by
    unfold Fits
    omega
  rw [randomNumber, if_neg ordered, exactly_overflow beyond]
  exact Evaluation.failsAtOnce_fail _

theorem picks_randomNumber (ordered : least ≤ greatest) (size : greatest - least + 1 ≤ maxInt) :
    (randomNumber least greatest).Picks (greatest - least + 1)
      fun face => exactly (least + wrap (face - 1)) := by
  have fits : Fits (greatest - least + 1) := by
    unfold Fits minInt
    omega
  rw [randomNumber, if_neg (Int.not_lt.mpr ordered), exactly_ok.mpr ⟨fits, rfl⟩]
  exact Evaluation.picks_die fun _ => rfl

theorem exactly_face (lower : Fits least) (upper : Fits greatest)
    (size : greatest - least + 1 ≤ maxInt) {face : Int}
    (shown : face ∈ Set.Icc 1 (greatest - least + 1)) :
    exactly (least + wrap (face - 1)) = .ok (least + face - 1) := by
  obtain ⟨first, last⟩ := shown
  have same : wrap (face - 1) = face - 1 := by
    apply wrap_of_fits
    unfold Fits minInt
    omega
  have fits : Fits (least + (face - 1)) := by
    unfold Fits at *
    omega
  rw [same]
  exact exactly_ok.mpr ⟨fits, by omega⟩

theorem bijOn_faces (lower : Fits least) (upper : Fits greatest)
    (size : greatest - least + 1 ≤ maxInt) :
    Set.BijOn (fun face => exactly (least + wrap (face - 1))) (Set.Icc 1 (greatest - least + 1))
      (Except.ok '' Set.Icc least greatest) := by
  refine ⟨?_, ?_, ?_⟩
  · intro face shown
    refine ⟨least + face - 1, ?_, (exactly_face lower upper size shown).symm⟩
    obtain ⟨first, last⟩ := shown
    constructor <;> omega
  · intro face shown other shown' same
    simp only [exactly_face lower upper size shown, exactly_face lower upper size shown',
      Except.ok.injEq] at same
    omega
  · rintro _ ⟨x, ⟨above, below⟩, rfl⟩
    have shown : x - least + 1 ∈ Set.Icc 1 (greatest - least + 1) := by
      constructor <;> omega
    refine ⟨x - least + 1, shown, ?_⟩
    have same : least + (x - least + 1) - 1 = x := by omega
    simp only [exactly_face lower upper size shown, same]

theorem run_randomNumber_error (lower : Fits least) (upper : Fits greatest) {σ : Type}
    [DiceSource σ] {table : Table σ} (fair : DiceSource.Supplies Fair table.roller.source) :
    (((randomNumber least greatest).run table).1 = .error (.invalidRange least greatest) ↔
      greatest < least) ∧
    (((randomNumber least greatest).run table).1 = .error .overflow ↔
      maxInt < greatest - least + 1) := by
  by_cases reversed : greatest < least
  · have small : ¬ maxInt < greatest - least + 1 := by
      unfold maxInt
      omega
    rw [randomNumber_reversed reversed]
    simp [reversed, small]
  by_cases tooLarge : maxInt < greatest - least + 1
  · rw [randomNumber_tooLarge tooLarge]
    simp [reversed, tooLarge]
  · have size := Int.not_lt.mp tooLarge
    have picks := picks_randomNumber (Int.not_lt.mp reversed) size
    have onlyRefused (error : EvalError)
        (failed : ((randomNumber least greatest).run table).1 = .error error) :
        ∃ refused, error = .roll refused :=
      picks.error (fun face shown => ⟨_, exactly_face lower upper size shown⟩) fair failed
    constructor
    · refine iff_of_false (fun failed => ?_) reversed
      obtain ⟨refused, same⟩ := onlyRefused _ failed
      cases same
    · refine iff_of_false (fun failed => ?_) tooLarge
      obtain ⟨refused, same⟩ := onlyRefused _ failed
      cases same

def Command.itemAt (items : List String) (face : Int) : Except EvalError String :=
  match pick? items face with
  | some item => .ok item
  | none => .error (.invalidRange 1 items.length)

theorem Command.picks_pickItem (items : List String) :
    (pickItem items).Picks items.length (itemAt items) := by
  apply Evaluation.picks_die
  intro die
  unfold itemAt
  cases pick? items die.value <;> rfl

theorem Command.itemAt_face (items : List String) (i : Fin items.length) :
    itemAt items (i + 1) = .ok items[i] := by
  have found : pick? items (i + 1) = some items[i] := by
    have index : ((i : Int) + 1 - 1).toNat = i := by omega
    rw [pick?, if_pos (by omega), index]
    exact List.getElem?_eq_getElem i.isLt
  rw [itemAt, found]

/-- A random number is picked with one die that has a face for each integer between the bounds. It
fails only where the bounds are reversed or the die would have too many sides, and then nothing is
rolled. In the same way an item is chosen with one die that has a face for each item. -/
theorem picks_evenly :
    (∀ least greatest, Fits least → Fits greatest →
      let evaluation := (Node.random (.int least) (.int greatest)).evaluate
      let size := greatest - least + 1
      (greatest < least → evaluation.FailsAtOnce (.invalidRange least greatest)) ∧
      (maxInt < size → evaluation.FailsAtOnce .overflow) ∧
      (least ≤ greatest → size ≤ maxInt → ∃ result, evaluation.Picks size result ∧
        (∀ face ∈ Set.Icc 1 size, result face = .ok (least + face - 1)) ∧
        Set.BijOn result (Set.Icc 1 size) (Except.ok '' Set.Icc least greatest)) ∧
      ∀ (σ : Type) [DiceSource σ] (table : Table σ),
        DiceSource.Supplies Fair table.roller.source →
          ((evaluation.run table).1 = .error (.invalidRange least greatest) ↔ greatest < least) ∧
          ((evaluation.run table).1 = .error .overflow ↔ maxInt < size)) ∧
    ∀ items : List String, items ≠ [] → ∃ result,
      (Command.pickItem items).Picks items.length result ∧
        ∀ i : Fin items.length, result (i + 1) = .ok items[i] := by
  constructor
  · intro least greatest lower upper evaluation size
    have same : evaluation = randomNumber least greatest := Node.evaluate_random least greatest
    rw [same]
    refine ⟨randomNumber_reversed, randomNumber_tooLarge, ?_, ?_⟩
    · intro ordered bounded
      exact ⟨_, picks_randomNumber ordered bounded, fun face => exactly_face lower upper bounded,
        bijOn_faces lower upper bounded⟩
    · exact fun σ _ table fair => run_randomNumber_error lower upper fair
  · intro items _
    exact ⟨_, Command.picks_pickItem items, Command.itemAt_face items⟩

theorem picks_evenly_limits :
    (∃ result, (Node.random (.int minInt) (.int (-2))).evaluate.Picks maxInt result ∧
      result maxInt = .ok (-2)) ∧
    (Node.random (.int minInt) (.int (-1))).evaluate.FailsAtOnce .overflow ∧
    ∃ result, (Command.pickItem ["a", "b"]).Picks 2 result ∧ result 2 = .ok "b" := by
  obtain ⟨picksNumber, picksItem⟩ := picks_evenly
  obtain ⟨-, -, picks, -⟩ := picksNumber minInt (-2) (by decide) (by decide)
  obtain ⟨-, tooLarge, -⟩ := picksNumber minInt (-1) (by decide) (by decide)
  obtain ⟨result, picked, faces, -⟩ := picks (by decide) (by decide)
  obtain ⟨chosen, chooses, items⟩ := picksItem ["a", "b"] (by decide)
  exact ⟨⟨result, picked, faces maxInt ⟨by decide, by decide⟩⟩, tooLarge (by decide),
    chosen, chooses, items 1⟩

end DiceLanguage
