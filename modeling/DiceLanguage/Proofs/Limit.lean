import DiceLanguage.Proofs.Replay

namespace DiceLanguage

open DiceSource

variable {σ α : Type}

namespace Roller

def withLimit (limit : Nat) (roller : Roller σ) : Roller σ := { roller with limit := some limit }

theorem withLimit_self {limit : Nat} {roller : Roller σ} (limited : roller.limit = some limit) :
    roller.withLimit limit = roller := by
  obtain ⟨source, _, rolled⟩ := roller
  cases limited
  rfl

theorem charge_ok {count limit : Nat} {roller charged : Roller σ}
    (limited : roller.limit = some limit) :
    roller.charge count = .ok charged ↔
      roller.rolled + count ≤ limit ∧ charged = { roller with rolled := roller.rolled + count } := by
  unfold charge
  rw [limited]
  simp only
  split
  · simp [*, eq_comm]
  · simp [*]

/-- A request for dice that leads from one roller to another and counts `count` dice on the way.
Under another limit it succeeds just the same as long as these dice keep to it, and is refused
otherwise. -/
structure Counts {ε : Type} (refusal : RollError → ε) (request : Roller σ → Except ε α × Roller σ)
    (roller final : Roller σ) (value : α) (count : Nat) : Prop where
  limit : final.limit = roller.limit
  counted : final.rolled = roller.rolled + count
  enough : ∀ limit, final.rolled ≤ limit →
    request (roller.withLimit limit) = (.ok value, final.withLimit limit)
  short : ∀ limit, roller.rolled ≤ limit → limit < final.rolled →
    (request (roller.withLimit limit)).1 = .error (refusal (.tooManyRolls limit))

theorem Counts.andThen {ε : Type} {refusal : RollError → ε} {β γ : Type} {roller middle final : Roller σ}
    {part : Roller σ → Except RollError β × Roller σ} {rest : Roller σ → Except ε γ × Roller σ}
    {whole : Roller σ → Except ε α × Roller σ} {x : β} {y : γ} {value : α} {n m : Nat}
    (first : Counts id part roller middle x n) (second : Counts refusal rest middle final y m)
    (both : ∀ r s t, part r = (.ok x, s) → rest s = (.ok y, t) → whole r = (.ok value, t))
    (refused : ∀ r e, (part r).1 = .error e → (whole r).1 = .error (refusal e))
    (refusedThen : ∀ r s e, part r = (.ok x, s) → (rest s).1 = .error e →
      (whole r).1 = .error e) :
    Counts refusal whole roller final value (n + m) := by
  have counted := first.counted
  have counted' := second.counted
  refine ⟨second.limit.trans first.limit, by omega, ?_, ?_⟩
  · intro limit within
    exact both _ _ _ (first.enough limit (by omega)) (second.enough limit within)
  · intro limit within passed
    -- The limit is passed either in the second request or before it is made.
    by_cases enough : middle.rolled ≤ limit
    · exact refusedThen _ _ _ (first.enough limit enough) (second.short limit enough passed)
    · exact refused _ _ (first.short limit within (Nat.not_le.mp enough))

theorem Counts.within {ε : Type} {refusal : RollError → ε}
    {request : Roller σ → Except ε α × Roller σ} {roller final : Roller σ} {value : α}
    {count limit : Nat} (counts : Counts refusal request roller final value count)
    (limited : roller.limit = some limit) (start : roller.rolled ≤ limit)
    (ran : request roller = (.ok value, final)) : final.rolled ≤ limit := by
  refine Nat.le_of_not_lt fun passed => ?_
  have refused := counts.short limit start passed
  rw [withLimit_self limited, ran] at refused
  cases refused

variable {limit : Nat} {roller final : Roller σ}

theorem charge_counts {count : Nat} {charged : Roller σ} (limited : roller.limit = some limit)
    (accepted : roller.charge count = .ok charged) :
    charged.limit = roller.limit ∧ charged.rolled = roller.rolled + count ∧
      (∀ other, charged.rolled ≤ other →
        (roller.withLimit other).charge count = .ok (charged.withLimit other)) ∧
      ∀ other, other < charged.rolled →
        (roller.withLimit other).charge count = .error (.tooManyRolls other) := by
  obtain ⟨-, rfl⟩ := (charge_ok limited).mp accepted
  refine ⟨rfl, rfl, ?_, ?_⟩
  · intro other within
    exact (charge_ok rfl).mpr ⟨within, rfl⟩
  · intro other passed
    have beyond : ¬ roller.rolled + count ≤ other := Nat.not_le.mpr passed
    exact if_neg beyond

variable [DiceSource σ]

theorem rollDie_counts {sides : Int} {die : Die} (limited : roller.limit = some limit)
    (rolled : roller.rollDie sides = (.ok die, final)) :
    Counts id (rollDie sides) roller final die 1 := by
  obtain ⟨positive, charged, source, accepted, taken, rfl⟩ := rollDie_ok.mp rolled
  obtain ⟨same, counted, enough, short⟩ := charge_counts limited accepted
  refine ⟨same, counted, ?_, ?_⟩
  · intro other within
    exact rollDie_ok.mpr ⟨positive, _, _, enough other within, taken, rfl⟩
  · intro other _ passed
    simp only [rollDie, if_neg positive, short other passed, id_eq]

theorem roll_counts {count sides : Int} {dice : List Die} (limited : roller.limit = some limit)
    (rolled : roller.roll count sides = (.ok dice, final)) :
    Counts id (roll count sides) roller final dice dice.length := by
  obtain ⟨some, positive, charged, source, accepted, taken, rfl⟩ := roll_ok.mp rolled
  obtain ⟨same, counted, enough, short⟩ := charge_counts limited accepted
  refine ⟨same, by rw [draw_length taken]; exact counted, ?_, ?_⟩
  · intro other within
    exact roll_ok.mpr ⟨some, positive, _, _, enough other within, taken, rfl⟩
  · intro other _ passed
    simp only [roll, if_neg some, if_neg positive, short other passed, id_eq]

end Roller

open Roller (Counts)

variable [DiceSource σ]

theorem Throw.run_counts {throw : Throw α} {limit : Nat} {roller final : Roller σ} {result : α}
    {dice : List Die} (limited : roller.limit = some limit)
    (ran : throw.run roller = (.ok (result, dice), final)) :
    Counts id throw.run roller final (result, dice) dice.length := by
  induction throw generalizing roller dice with
  | done =>
    cases ran
    exact ⟨rfl, rfl, fun _ _ => rfl, fun other within passed => absurd within (Nat.not_le.mpr passed)⟩
  | refuse => cases ran
  | one sides next ih =>
    obtain ⟨die, later, middle, rolled, went, rfl⟩ := run_one_ok.mp ran
    have first := Roller.rollDie_counts limited rolled
    have others := ih die (first.limit.trans limited) went
    rw [List.length_cons, Nat.add_comm]
    refine first.andThen others ?_ ?_ ?_
    · exact fun r s t rolled went => run_one_ok.mpr ⟨die, later, s, rolled, went, rfl⟩
    · exact fun r e refused => run_one_error.mpr (.inl refused)
    · exact fun r s e rolled refused => run_one_error.mpr (.inr ⟨die, s, rolled, refused⟩)
  | many count sides next ih =>
    obtain ⟨fallen, later, middle, rolled, went, rfl⟩ := run_many_ok.mp ran
    have first := Roller.roll_counts limited rolled
    have others := ih fallen (first.limit.trans limited) went
    rw [List.length_append]
    refine first.andThen others ?_ ?_ ?_
    · exact fun r s t rolled went => run_many_ok.mpr ⟨fallen, later, s, rolled, went, rfl⟩
    · exact fun r e refused => run_many_error.mpr (.inl refused)
    · exact fun r s e rolled refused => run_many_error.mpr (.inr ⟨fallen, s, rolled, refused⟩)

namespace Evaluation

def request (before : List Die) (evaluation : Evaluation α) (roller : Roller σ) :
    Except EvalError (α × List Die) × Roller σ :=
  match evaluation.run ⟨roller, before⟩ with
  | (.error e, table) => (.error e, table.roller)
  | (.ok value, table) => (.ok (value, table.recorded), table.roller)

variable {before recorded : List Die} {evaluation : Evaluation α} {roller final : Roller σ}
  {value : α}

theorem request_ok : evaluation.request before roller = (.ok (value, recorded), final) ↔
    evaluation.run ⟨roller, before⟩ = (.ok value, ⟨final, recorded⟩) := by
  unfold request
  rcases evaluation.run ⟨roller, before⟩ with ⟨error | reached, ⟨last, dice⟩⟩
  · simp
  · simp only [Prod.mk.injEq, Except.ok.injEq, Table.mk.injEq]
    exact and_right_comm.trans and_assoc

theorem request_error {error : EvalError} : (evaluation.request before roller).1 = .error error ↔
    (evaluation.run ⟨roller, before⟩).1 = .error error := by
  unfold request
  rcases evaluation.run ⟨roller, before⟩ with ⟨refused | reached, ⟨last, dice⟩⟩ <;> simp

theorem run_counts {limit : Nat} (records : evaluation.Records)
    (limited : roller.limit = some limit)
    (ran : evaluation.run ⟨roller, before⟩ = (.ok value, ⟨final, recorded⟩)) :
    ∃ dice, recorded = before ++ dice ∧
      Counts .roll (evaluation.request before) roller final (value, recorded) dice.length := by
  induction evaluation generalizing roller before with
  | done =>
    cases ran
    refine ⟨[], (List.append_nil _).symm, rfl, rfl, fun _ _ => rfl, ?_⟩
    exact fun other within passed => absurd within (Nat.not_le.mpr passed)
  | fail => cases ran
  | throwing throw record next ih =>
    obtain ⟨result, fallen, middle, thrown, went⟩ := run_throwing_ok.mp ran
    obtain ⟨told, later⟩ := records.of_thrown thrown
    have first := Throw.run_counts limited thrown
    obtain ⟨dice, same, others⟩ := ih result later (first.limit.trans limited) went
    refine ⟨fallen ++ dice, by rw [same, told, List.append_assoc], ?_⟩
    rw [List.length_append]
    refine first.andThen others ?_ ?_ ?_
    · exact fun r s t thrown went =>
        request_ok.mpr (run_throwing_ok.mpr ⟨result, fallen, s, thrown, request_ok.mp went⟩)
    · exact fun r e refused => request_error.mpr (run_throwing_error.mpr (.inl ⟨e, refused, rfl⟩))
    · exact fun r s e thrown refused => request_error.mpr
        (run_throwing_error.mpr (.inr ⟨result, fallen, s, thrown, request_error.mp refused⟩))

end Evaluation

/-- A limited roller has asked its source for no more dice than it has counted, and it has counted
no more than its limit. -/
structure Roller.Keeps (limit : Nat) (roller : Roller (Observed σ)) : Prop where
  limited : roller.limit = some limit
  asked : roller.source.answers.length ≤ roller.rolled
  counted : roller.rolled ≤ limit

namespace Roller.Keeps

variable {limit : Nat} {roller : Roller (Observed σ)}

theorem draw_answers_length (sides : Int) (n : Nat) (observed : Observed σ) :
    (draw sides n observed).2.answers.length ≤ observed.answers.length + n := by
  induction n generalizing observed with
  | zero => exact Nat.le_refl _
  | succ n ih =>
    have told := Observed.next_answers sides observed
    rcases taken : next sides observed with ⟨error | die, middle⟩
    · have one : middle.answers = observed.answers ++ [.error error] := by rwa [taken] at told
      simp [draw, taken, one]
    · have one : middle.answers = observed.answers ++ [.ok die] := by rwa [taken] at told
      have later := ih middle
      rw [one, List.length_append, List.length_singleton] at later
      rcases others : draw sides n middle with ⟨error | dice, last⟩
      · rw [others] at later
        simp only [draw, taken, others] at later ⊢
        omega
      · rw [others] at later
        simp only [draw, taken, others] at later ⊢
        omega

theorem rollDie (keeps : roller.Keeps limit) (sides : Int) :
    (roller.rollDie sides).2.Keeps limit := by
  unfold Roller.rollDie
  split
  · exact keeps
  · rcases accepted : roller.charge 1 with error | charged
    · exact keeps
    · obtain ⟨within, rfl⟩ := (charge_ok keeps.limited).mp accepted
      have told := congrArg List.length (Observed.next_answers sides roller.source)
      rw [List.length_append, List.length_singleton] at told
      refine ⟨keeps.limited, ?_, within⟩
      change (next sides roller.source).2.answers.length ≤ roller.rolled + 1
      have asked := keeps.asked
      omega

theorem roll (keeps : roller.Keeps limit) (count sides : Int) :
    (roller.roll count sides).2.Keeps limit := by
  unfold Roller.roll
  split
  · exact keeps
  · split
    · exact keeps
    · rcases accepted : roller.charge count.toNat with error | charged
      · exact keeps
      · obtain ⟨within, rfl⟩ := (charge_ok keeps.limited).mp accepted
        have told := draw_answers_length sides count.toNat roller.source
        refine ⟨keeps.limited, ?_, within⟩
        change (draw sides count.toNat roller.source).2.answers.length ≤
          roller.rolled + count.toNat
        have asked := keeps.asked
        omega

theorem runThrow (keeps : roller.Keeps limit) (throw : Throw α) :
    (throw.run roller).2.Keeps limit := by
  induction throw generalizing roller with
  | done | refuse => exact keeps
  | one sides next ih =>
    have kept := keeps.rollDie sides
    rcases rolled : roller.rollDie sides with ⟨error | die, middle⟩
    · rw [rolled] at kept
      simpa only [Throw.run, rolled] using kept
    · rw [rolled] at kept
      have last := ih die kept
      rcases ran : (next die).run middle with ⟨error | ⟨result, dice⟩, final⟩ <;>
        simpa only [Throw.run, rolled, ran] using last
  | many count sides next ih =>
    have kept := keeps.roll count sides
    rcases rolled : roller.roll count sides with ⟨error | fallen, middle⟩
    · rw [rolled] at kept
      simpa only [Throw.run, rolled] using kept
    · rw [rolled] at kept
      have last := ih fallen kept
      rcases ran : (next fallen).run middle with ⟨error | ⟨result, dice⟩, final⟩ <;>
        simpa only [Throw.run, rolled, ran] using last

theorem run {table : Table (Observed σ)} (keeps : table.roller.Keeps limit)
    (evaluation : Evaluation α) : (evaluation.run table).2.roller.Keeps limit := by
  induction evaluation generalizing table with
  | done | fail => exact keeps
  | throwing throw record next ih =>
    have kept := keeps.runThrow throw
    rcases thrown : throw.run table.roller with ⟨error | ⟨result, dice⟩, middle⟩
    · rw [thrown] at kept
      simpa only [Evaluation.run, thrown] using kept
    · rw [thrown] at kept
      simpa only [Evaluation.run, thrown] using
        @ih result ⟨middle, table.recorded ++ record result⟩ kept

end Roller.Keeps

namespace Statement

variable {statement : Statement} {settings : Settings} {roller final : Roller σ} {report : Report}

theorem execute_answers (statement : Statement) (settings : Settings) (roller : Roller σ) :
    ∃ last : Roller (Observed σ),
      statement.execute settings roller.observed = ((statement.execute settings roller).1, last) ∧
        last.map Observed.source = (statement.execute settings roller).2 ∧
        last.source.answers.length ≤ settings.maxDice := by
  -- The record does not change what the source answers.
  have mirrored := Observed.mirrors.execute statement settings roller.observed
  change statement.execute settings roller = _ at mirrored
  have start : (Table.mk (roller.observed.limitTo settings.maxDice) []).roller.Keeps
    settings.maxDice := ⟨rfl, Nat.le_refl 0, Nat.zero_le _⟩
  have kept := start.run (statement.command.play settings.maxRerolls)
  rw [← execute_roller] at kept
  exact ⟨(statement.execute settings roller.observed).2, by rw [mirrored], by rw [mirrored],
    Nat.le_trans kept.asked kept.counted⟩

theorem execute_limit (executed : statement.execute settings roller = (.ok report, final)) :
    final.rolled = report.rolledDice.length ∧ report.rolledDice.length ≤ settings.maxDice ∧
      (∀ maxDice, report.rolledDice.length ≤ maxDice →
        statement.execute { settings with maxDice } roller =
          (.ok report, { final with limit := some maxDice })) ∧
      ∀ maxDice, maxDice < report.rolledDice.length →
        (statement.execute { settings with maxDice } roller).1 =
          .error (.roll (.tooManyRolls maxDice)) := by
  obtain ⟨outcome, recorded, ran, rfl⟩ := execute_ok.mp executed
  have limited : (roller.limitTo settings.maxDice).limit = some settings.maxDice := rfl
  have records := statement.command.records_play settings.maxRerolls
  obtain ⟨dice, same, counts⟩ := Evaluation.run_counts records limited ran
  change recorded = dice at same
  subst same
  have counted : final.rolled = recorded.length := counts.counted.trans (Nat.zero_add _)
  have within := counts.within limited (Nat.zero_le _) (Evaluation.request_ok.mpr ran)
  rw [counted] at within
  refine ⟨counted, within, ?_, ?_⟩
  · intro maxDice enough
    have again := counts.enough maxDice (Nat.le_trans (Nat.le_of_eq counted) enough)
    exact execute_ok.mpr ⟨outcome, recorded, Evaluation.request_ok.mp again, rfl⟩
  · intro maxDice passed
    have refused := counts.short maxDice (Nat.zero_le _) (Nat.lt_of_lt_of_eq passed counted.symm)
    exact execute_error.mpr (Evaluation.request_error.mp refused)

/-- A command asks its source for no more dice than its limit allows. If it succeeds, then it has
counted the dice it recorded, and under any other limit it succeeds in the same way or is refused for
that limit, as these dice keep to it or not. -/
theorem execute_within_limit (statement : Statement) (settings : Settings) (roller : Roller σ) :
    (∃ last : Roller (Observed σ),
      statement.execute settings roller.observed = ((statement.execute settings roller).1, last) ∧
        last.map Observed.source = (statement.execute settings roller).2 ∧
        last.source.answers.length ≤ settings.maxDice) ∧
    ∀ (report : Report) (final : Roller σ),
      statement.execute settings roller = (.ok report, final) →
        final.rolled = report.rolledDice.length ∧ report.rolledDice.length ≤ settings.maxDice ∧
          (∀ maxDice, report.rolledDice.length ≤ maxDice →
            statement.execute { settings with maxDice } roller =
              (.ok report, { final with limit := some maxDice })) ∧
          ∀ maxDice, maxDice < report.rolledDice.length →
            (statement.execute { settings with maxDice } roller).1 =
              .error (.roll (.tooManyRolls maxDice)) :=
  ⟨execute_answers statement settings roller, fun _ _ executed => execute_limit executed⟩

theorem execute_within_limit_chains :
    let statement : Statement :=
      ⟨.compound ⟨⟨.compound, .random (.int 1) (.int 3), .int 6, none⟩, []⟩ (some (.int 6)) none none,
        false⟩
    let roller : Roller Cycle := { source := { faces := [2, 6, 6, 1, 3] } }
    ∃ report final, statement.execute {} roller = (.ok report, final) ∧
      report.rolledDice.length = 5 ∧
      statement.execute { maxDice := 5 } roller = (.ok report, { final with limit := some 5 }) ∧
      (statement.execute { maxDice := 4 } roller).1 = .error (.roll (.tooManyRolls 4)) := by
  intro statement roller
  have answered : (statement.execute {} roller).1.toOption.map (·.rolledDice.length) = some 5 := by
    decide +kernel
  rcases executed : statement.execute {} roller with ⟨error | report, final⟩
  · rw [executed] at answered
    cases answered
  · rw [executed] at answered
    have five : report.rolledDice.length = 5 := Option.some.inj answered
    obtain ⟨-, -, enough, short⟩ :=
      (execute_within_limit statement {} roller).2 report final executed
    exact ⟨report, final, rfl, five, enough 5 (Nat.le_of_eq five),
      short 4 (Nat.lt_of_lt_of_eq (by decide) five.symm)⟩

end Statement

end DiceLanguage
