import DiceLanguage.Evaluation
import DiceLanguage.Proofs.Dice.Supply

namespace DiceLanguage

variable {σ τ : Type}

namespace Roller

def map (view : τ → σ) (roller : Roller τ) : Roller σ :=
  ⟨view roller.source, roller.limit, roller.rolled⟩

@[simp] theorem map_source (view : τ → σ) (roller : Roller τ) :
    (roller.map view).source = view roller.source := rfl

theorem charge_source {count : Nat} {roller charged : Roller σ}
    (accepted : roller.charge count = .ok charged) : charged.source = roller.source := by
  unfold charge at accepted
  split at accepted
  · cases accepted; rfl
  · split at accepted <;> cases accepted
    rfl

theorem charge_map (view : τ → σ) (count : Nat) (roller : Roller τ) :
    (roller.map view).charge count = (roller.charge count).map (Roller.map view) := by
  obtain ⟨source, limit, rolled⟩ := roller
  cases limit with
  | none => rfl
  | some max =>
    by_cases within : rolled + count ≤ max <;> simp only [charge, map, within] <;> rfl

variable [DiceSource σ] [DiceSource τ]

theorem rollDie_ok {sides : Int} {roller final : Roller σ} {die : Die} :
    roller.rollDie sides = (.ok die, final) ↔
      ¬ sides < 1 ∧ ∃ charged source, roller.charge 1 = .ok charged ∧
        DiceSource.next sides charged.source = (.ok die, source) ∧
        final = { charged with source } := by
  unfold rollDie
  split
  · simp [*]
  · rcases accepted : roller.charge 1 with error | charged
    · simp
    · rcases taken : DiceSource.next sides charged.source with ⟨answer, source⟩
      simp only [taken]
      constructor
      · intro same
        cases same
        exact ⟨by assumption, charged, source, rfl, taken, rfl⟩
      · intro parts
        obtain ⟨_, charged', source', same, taken', left⟩ := parts
        cases same
        rw [taken] at taken'
        cases taken'
        rw [left]

theorem roll_ok {count sides : Int} {roller final : Roller σ} {dice : List Die} :
    roller.roll count sides = (.ok dice, final) ↔
      ¬ count < 1 ∧ ¬ sides < 1 ∧ ∃ charged source, roller.charge count.toNat = .ok charged ∧
        DiceSource.draw sides count.toNat charged.source = (.ok dice, source) ∧
        final = { charged with source } := by
  unfold roll
  split
  · simp [*]
  · split
    · simp [*]
    · rcases accepted : roller.charge count.toNat with error | charged
      · simp
      · rcases taken : DiceSource.draw sides count.toNat charged.source with ⟨answer, source⟩
        simp only [taken]
        constructor
        · intro same
          cases same
          exact ⟨by assumption, by assumption, charged, source, rfl, taken, rfl⟩
        · intro parts
          obtain ⟨_, _, charged', source', same, taken', left⟩ := parts
          cases same
          rw [taken] at taken'
          cases taken'
          rw [left]

end Roller

namespace Throw

variable [DiceSource σ] {α : Type} {roller final : Roller σ} {result : α} {dice : List Die}

theorem run_one_ok {sides : Int} {next : Die → Throw α} :
    (one sides next).run roller = (.ok (result, dice), final) ↔
      ∃ die later middle, roller.rollDie sides = (.ok die, middle) ∧
        (next die).run middle = (.ok (result, later), final) ∧ dice = die :: later := by
  rw [run]
  rcases rolled : roller.rollDie sides with ⟨error | die, middle⟩
  · simp
  · rcases ran : (next die).run middle with ⟨error | ⟨reached, later⟩, last⟩
    · simp only [ran]
      constructor
      · intro same
        cases same
      · intro parts
        obtain ⟨_, _, _, first, others, _⟩ := parts
        cases first
        rw [ran] at others
        cases others
    · simp only [ran]
      constructor
      · intro same
        cases same
        exact ⟨die, later, middle, rfl, ran, rfl⟩
      · intro parts
        obtain ⟨die', later', middle', first, others, same⟩ := parts
        cases first
        rw [ran] at others
        cases others
        rw [same]

theorem run_many_ok {count sides : Int} {next : List Die → Throw α} :
    (many count sides next).run roller = (.ok (result, dice), final) ↔
      ∃ fallen later middle, roller.roll count sides = (.ok fallen, middle) ∧
        (next fallen).run middle = (.ok (result, later), final) ∧ dice = fallen ++ later := by
  rw [run]
  rcases rolled : roller.roll count sides with ⟨error | fallen, middle⟩
  · simp
  · rcases ran : (next fallen).run middle with ⟨error | ⟨reached, later⟩, last⟩
    · simp only [ran]
      constructor
      · intro same
        cases same
      · intro parts
        obtain ⟨_, _, _, first, others, _⟩ := parts
        cases first
        rw [ran] at others
        cases others
    · simp only [ran]
      constructor
      · intro same
        cases same
        exact ⟨fallen, later, middle, rfl, ran, rfl⟩
      · intro parts
        obtain ⟨fallen', later', middle', first, others, same⟩ := parts
        cases first
        rw [ran] at others
        cases others
        rw [same]

theorem run_one_error {sides : Int} {next : Die → Throw α} {error : RollError} :
    ((one sides next).run roller).1 = .error error ↔
      (roller.rollDie sides).1 = .error error ∨
        ∃ die middle, roller.rollDie sides = (.ok die, middle) ∧
          ((next die).run middle).1 = .error error := by
  rw [run]
  rcases rolled : roller.rollDie sides with ⟨refused | die, middle⟩
  · simp
  · rcases ran : (next die).run middle with ⟨refused | ⟨reached, later⟩, last⟩ <;> simp [ran, and_assoc]

theorem run_many_error {count sides : Int} {next : List Die → Throw α} {error : RollError} :
    ((many count sides next).run roller).1 = .error error ↔
      (roller.roll count sides).1 = .error error ∨
        ∃ fallen middle, roller.roll count sides = (.ok fallen, middle) ∧
          ((next fallen).run middle).1 = .error error := by
  rw [run]
  rcases rolled : roller.roll count sides with ⟨refused | fallen, middle⟩
  · simp
  · rcases ran : (next fallen).run middle with ⟨refused | ⟨reached, later⟩, last⟩ <;> simp [ran, and_assoc]

end Throw

theorem Evaluation.run_throwing_error [DiceSource σ] {α β : Type} {throw : Throw β}
    {record : β → List Die} {next : β → Evaluation α} {table : Table σ} {error : EvalError} :
    ((throwing throw record next).run table).1 = .error error ↔
      (∃ refused, (throw.run table.roller).1 = .error refused ∧ error = .roll refused) ∨
        ∃ result dice roller, throw.run table.roller = (.ok (result, dice), roller) ∧
          ((next result).run ⟨roller, table.recorded ++ record result⟩).1 = .error error := by
  rw [run]
  rcases thrown : throw.run table.roller with ⟨refused | ⟨result, dice⟩, roller⟩
  · simp [eq_comm]
  · constructor
    · intro ran
      exact .inr ⟨result, dice, roller, rfl, ran⟩
    · intro parts
      obtain ⟨_, first, _⟩ | ⟨_, _, _, same, ran⟩ := parts
      · cases first
      · cases same
        exact ran

theorem Evaluation.run_throwing_ok [DiceSource σ] {α β : Type} {throw : Throw β}
    {record : β → List Die} {next : β → Evaluation α} {table final : Table σ} {value : α} :
    (throwing throw record next).run table = (.ok value, final) ↔
      ∃ result dice roller, throw.run table.roller = (.ok (result, dice), roller) ∧
        (next result).run ⟨roller, table.recorded ++ record result⟩ = (.ok value, final) := by
  rw [run]
  rcases thrown : throw.run table.roller with ⟨error | ⟨result, dice⟩, roller⟩
  · simp
  · constructor
    · intro ran
      exact ⟨result, dice, roller, rfl, ran⟩
    · intro parts
      obtain ⟨result', dice', roller', same, ran⟩ := parts
      cases same
      exact ran

def Table.map (view : τ → σ) (table : Table τ) : Table σ :=
  ⟨table.roller.map view, table.recorded⟩

variable [DiceSource σ] [DiceSource τ]

/-- A source answers as another one does, whose state it holds in its own. -/
def Mirrors (view : τ → σ) : Prop :=
  ∀ sides (state : τ), DiceSource.next sides (view state) =
    ((DiceSource.next sides state).1, view (DiceSource.next sides state).2)

namespace Mirrors

variable {view : τ → σ} {α : Type}

theorem draw (same : Mirrors view) (sides : Int) (n : Nat) (state : τ) :
    DiceSource.draw sides n (view state) =
      ((DiceSource.draw sides n state).1, view (DiceSource.draw sides n state).2) := by
  induction n generalizing state with
  | zero => rfl
  | succ n ih =>
    simp only [DiceSource.draw, same sides state]
    rcases DiceSource.next sides state with ⟨error | die, middle⟩
    · rfl
    · simp only [ih middle]
      rcases DiceSource.draw sides n middle with ⟨error | dice, last⟩ <;> rfl

theorem rollDie (same : Mirrors view) (sides : Int) (roller : Roller τ) :
    (roller.map view).rollDie sides =
      ((roller.rollDie sides).1, (roller.rollDie sides).2.map view) := by
  unfold Roller.rollDie
  split
  · rfl
  · rw [Roller.charge_map]
    rcases roller.charge 1 with error | charged
    · rfl
    · simp only [Except.map, Roller.map_source, same sides charged.source]
      rfl

theorem roll (same : Mirrors view) (count sides : Int) (roller : Roller τ) :
    (roller.map view).roll count sides =
      ((roller.roll count sides).1, (roller.roll count sides).2.map view) := by
  unfold Roller.roll
  split
  · rfl
  · split
    · rfl
    · rw [Roller.charge_map]
      rcases roller.charge count.toNat with error | charged
      · rfl
      · simp only [Except.map, Roller.map_source, same.draw]
        rfl

theorem runThrow (same : Mirrors view) (throw : Throw α) (roller : Roller τ) :
    throw.run (roller.map view) =
      ((throw.run roller).1, (throw.run roller).2.map view) := by
  induction throw generalizing roller with
  | done | refuse => rfl
  | one sides next ih =>
    simp only [Throw.run, same.rollDie]
    rcases roller.rollDie sides with ⟨error | die, roller⟩
    · rfl
    · simp only [ih]
      rcases (next die).run roller with ⟨error | ⟨result, dice⟩, roller⟩ <;> rfl
  | many count sides next ih =>
    simp only [Throw.run, same.roll]
    rcases roller.roll count sides with ⟨error | dice, roller⟩
    · rfl
    · simp only [ih]
      rcases (next dice).run roller with ⟨error | ⟨result, later⟩, roller⟩ <;> rfl

theorem run (same : Mirrors view) (evaluation : Evaluation α) (table : Table τ) :
    evaluation.run (table.map view) =
      ((evaluation.run table).1, (evaluation.run table).2.map view) := by
  induction evaluation generalizing table with
  | done | fail => rfl
  | throwing throw record next ih =>
    simp only [Evaluation.run, Table.map, same.runThrow]
    rcases throw.run table.roller with ⟨error | ⟨result, dice⟩, roller⟩
    · rfl
    · exact ih result ⟨roller, table.recorded ++ record result⟩

end Mirrors

structure Observed (σ : Type) where
  source : σ
  answers : List (Except RollError Die) := []

instance : DiceSource (Observed σ) where
  next sides observed :=
    let (answer, source) := DiceSource.next sides observed.source
    (answer, ⟨source, observed.answers ++ [answer]⟩)

def Roller.observed (roller : Roller σ) : Roller (Observed σ) :=
  roller.map fun source => { source }

namespace Observed

open DiceSource (Becomes Supplies)

theorem mirrors : Mirrors (Observed.source : Observed σ → σ) := fun _ _ => rfl

theorem becomes_source {observed later : Observed σ} (becomes : Becomes observed later) :
    Becomes observed.source later.source := by
  induction becomes with
  | refl => exact .refl _
  | next sides rest ih => exact .next sides ih

theorem supplies {good : Int → Die → Prop} {observed : Observed σ}
    (promise : Supplies good observed.source) : Supplies good observed :=
  fun _ becomes => promise _ (becomes_source becomes)

theorem next_answers (sides : Int) (observed : Observed σ) :
    (DiceSource.next sides observed).2.answers =
      observed.answers ++ [(DiceSource.next sides observed).1] := rfl

theorem draw_answers {sides : Int} {n : Nat} {observed final : Observed σ} {dice : List Die}
    (drawn : DiceSource.draw sides n observed = (.ok dice, final)) :
    final.answers = observed.answers ++ dice.map .ok := by
  induction n generalizing observed dice with
  | zero => cases drawn; simp
  | succ n ih =>
    obtain ⟨die, rest, middle, first, others, rfl⟩ := DiceSource.draw_succ_ok.mp drawn
    have told := next_answers sides observed
    rw [first] at told
    rw [ih others, told, List.append_assoc, List.map_cons, List.singleton_append]

variable {α : Type}

theorem runThrow_answers {throw : Throw α} {roller final : Roller (Observed σ)} {result : α}
    {dice : List Die} (ran : throw.run roller = (.ok (result, dice), final)) :
    final.source.answers = roller.source.answers ++ dice.map .ok := by
  induction throw generalizing roller dice with
  | done => cases ran; simp
  | refuse => cases ran
  | one sides next ih =>
    obtain ⟨die, later, middle, rolled, ran, rfl⟩ := Throw.run_one_ok.mp ran
    obtain ⟨-, charged, source, accepted, taken, rfl⟩ := Roller.rollDie_ok.mp rolled
    have told := next_answers sides charged.source
    rw [taken] at told
    rw [ih die ran, told, Roller.charge_source accepted, List.append_assoc, List.map_cons,
      List.singleton_append]
  | many count sides next ih =>
    obtain ⟨fallen, later, middle, rolled, ran, rfl⟩ := Throw.run_many_ok.mp ran
    obtain ⟨-, -, charged, source, accepted, taken, rfl⟩ := Roller.roll_ok.mp rolled
    rw [ih fallen ran, draw_answers taken, Roller.charge_source accepted, List.append_assoc,
      List.map_append]

theorem runThrow_ok {throw : Throw α} {roller final : Roller σ} {result : α} {dice : List Die}
    (ran : throw.run roller = (.ok (result, dice), final)) :
    ∃ last : Roller (Observed σ), throw.run roller.observed = (.ok (result, dice), last) ∧
      last.source.answers = dice.map .ok := by
  have mirrored := mirrors.runThrow throw roller.observed
  change throw.run roller = _ at mirrored
  rw [ran] at mirrored
  rcases observed : throw.run roller.observed with ⟨answer, last⟩
  rw [observed] at mirrored
  cases mirrored
  exact ⟨last, rfl, runThrow_answers observed⟩

end Observed

end DiceLanguage
