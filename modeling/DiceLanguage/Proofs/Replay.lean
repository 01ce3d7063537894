import DiceLanguage.Dice.Cycle
import DiceLanguage.Proofs.Evaluation.Records

namespace DiceLanguage

open DiceSource

namespace Script

theorem next_head {sides : Int} {die : Die} (rest : List Die) (fits : die.sides = sides) :
    DiceSource.next sides (⟨die :: rest⟩ : Script) = (.ok die, ⟨rest⟩) := by
  change Script.next sides ⟨die :: rest⟩ = (.ok die, ⟨rest⟩)
  simp only [Script.next, fits, ↓reduceIte]

theorem draw_all {sides : Int} {dice : List Die} (rest : List Die)
    (fit : ∀ die ∈ dice, die.sides = sides) :
    draw sides dice.length (⟨dice ++ rest⟩ : Script) = (.ok dice, ⟨rest⟩) := by
  induction dice with
  | nil => rfl
  | cons die dice ih =>
    have first := next_head (dice ++ rest) (fit die (by simp))
    have others := ih fun die member => fit die (by simp [member])
    simp only [List.length_cons, List.cons_append, draw, first, others]

end Script

variable {σ α : Type}

namespace Roller

def scripted (dice : List Die) (roller : Roller σ) : Roller Script :=
  roller.map fun _ => ⟨dice⟩

theorem charge_scripted {count : Nat} {roller charged : Roller σ}
    (accepted : roller.charge count = .ok charged) (dice : List Die) :
    (roller.scripted dice).charge count = .ok (charged.scripted dice) := by
  unfold scripted
  rw [charge_map, accepted]
  rfl

variable [DiceSource σ]

theorem rollDie_scripted {sides : Int} {roller final : Roller σ} {die : Die}
    (honest : Honest roller.source) (rolled : roller.rollDie sides = (.ok die, final))
    (rest : List Die) :
    (roller.scripted (die :: rest)).rollDie sides = (.ok die, final.scripted rest) ∧
      Honest final.source := by
  obtain ⟨positive, charged, source, accepted, taken, rfl⟩ := rollDie_ok.mp rolled
  rw [charge_source accepted] at taken
  have fits : die.sides = sides := honest.given taken
  constructor
  · exact rollDie_ok.mpr ⟨positive, charged.scripted (die :: rest), ⟨rest⟩,
      charge_scripted accepted _, Script.next_head rest fits, rfl⟩
  · exact honest.later taken

theorem roll_scripted {count sides : Int} {roller final : Roller σ} {dice : List Die}
    (honest : Honest roller.source) (rolled : roller.roll count sides = (.ok dice, final))
    (rest : List Die) :
    (roller.scripted (dice ++ rest)).roll count sides = (.ok dice, final.scripted rest) ∧
      Honest final.source := by
  obtain ⟨some, positive, charged, source, accepted, taken, rfl⟩ := roll_ok.mp rolled
  rw [charge_source accepted] at taken
  have fit := honest.draw taken
  have again := Script.draw_all rest fit.1
  rw [draw_length taken] at again
  constructor
  · exact roll_ok.mpr ⟨some, positive, charged.scripted (dice ++ rest), ⟨rest⟩,
      charge_scripted accepted _, again, rfl⟩
  · exact fit.2

end Roller

variable [DiceSource σ]

theorem Throw.run_scripted {throw : Throw α} {roller final : Roller σ} {result : α}
    {dice : List Die} (honest : Honest roller.source)
    (ran : throw.run roller = (.ok (result, dice), final)) (rest : List Die) :
    throw.run (roller.scripted (dice ++ rest)) = (.ok (result, dice), final.scripted rest) ∧
      Honest final.source := by
  induction throw generalizing roller dice rest with
  | done => cases ran; exact ⟨rfl, honest⟩
  | refuse => cases ran
  | one sides next ih =>
    obtain ⟨die, later, middle, rolled, went, rfl⟩ := run_one_ok.mp ran
    have first := Roller.rollDie_scripted honest rolled (later ++ rest)
    have others := ih die first.2 went rest
    constructor
    · simp only [List.cons_append, run, first.1, others.1]
    · exact others.2
  | many count sides next ih =>
    obtain ⟨fallen, later, middle, rolled, went, rfl⟩ := run_many_ok.mp ran
    have first := Roller.roll_scripted honest rolled (later ++ rest)
    have others := ih fallen first.2 went rest
    constructor
    · simp only [List.append_assoc, run, first.1, others.1]
    · exact others.2

/-- The dice that an evaluation has added to the record, played back, lead to the same value and are
recorded again. -/
theorem Evaluation.run_scripted {evaluation : Evaluation α} {table final : Table σ} {value : α}
    (records : evaluation.Records) (honest : Honest table.roller.source)
    (ran : evaluation.run table = (.ok value, final)) :
    ∃ dice, final.recorded = table.recorded ++ dice ∧ ∀ before rest,
      evaluation.run ⟨table.roller.scripted (dice ++ rest), before⟩ =
        (.ok value, ⟨final.roller.scripted rest, before ++ dice⟩) := by
  induction evaluation generalizing table with
  | done =>
    cases ran
    refine ⟨[], by simp, ?_⟩
    intro before rest
    simp only [Evaluation.run, List.nil_append, List.append_nil]
  | fail => cases ran
  | throwing throw record next ih =>
    obtain ⟨result, fallen, roller, thrown, ran⟩ := run_throwing_ok.mp ran
    obtain ⟨told, later⟩ := records.of_thrown thrown
    have kept := (Throw.run_scripted honest thrown []).2
    obtain ⟨dice, recorded, again⟩ := ih result later kept ran
    refine ⟨fallen ++ dice, by simp [recorded, told], ?_⟩
    intro before rest
    have first := (Throw.run_scripted honest thrown (dice ++ rest)).1
    simp only [run, List.append_assoc, first, told, again]

theorem Mirrors.execute {τ : Type} [DiceSource τ] {view : τ → σ} (same : Mirrors view)
    (statement : Statement) (settings : Settings) (roller : Roller τ) :
    statement.execute settings (roller.map view) =
      ((statement.execute settings roller).1, (statement.execute settings roller).2.map view) := by
  have mirrored := same.run (statement.command.play settings.maxRerolls)
    { roller := roller.limitTo settings.maxDice }
  change (statement.command.play settings.maxRerolls).run
    { roller := (roller.map view).limitTo settings.maxDice } = _ at mirrored
  simp only [Statement.execute, mirrored]
  rcases (statement.command.play settings.maxRerolls).run
    { roller := roller.limitTo settings.maxDice } with ⟨error | outcome, last⟩ <;> rfl

namespace Statement

theorem execute_ok {statement : Statement} {settings : Settings} {roller final : Roller σ}
    {report : Report} :
    statement.execute settings roller = (.ok report, final) ↔
      ∃ outcome recorded, (statement.command.play settings.maxRerolls).run
          { roller := roller.limitTo settings.maxDice } = (.ok outcome, ⟨final, recorded⟩) ∧
        report = outcome.report settings statement.secret recorded := by
  simp only [execute]
  rcases (statement.command.play settings.maxRerolls).run
    { roller := roller.limitTo settings.maxDice } with ⟨error | outcome, ⟨last, recorded⟩⟩
  · simp
  · constructor
    · intro same
      cases same
      exact ⟨outcome, recorded, rfl, rfl⟩
    · intro parts
      obtain ⟨outcome', recorded', same, told⟩ := parts
      cases same
      rw [told]

theorem execute_roller (statement : Statement) (settings : Settings) (roller : Roller σ) :
    (statement.execute settings roller).2 = ((statement.command.play settings.maxRerolls).run
      { roller := roller.limitTo settings.maxDice }).2.roller := by
  simp only [execute]
  rcases (statement.command.play settings.maxRerolls).run
    { roller := roller.limitTo settings.maxDice } with ⟨error | outcome, last⟩ <;> rfl

theorem execute_error {statement : Statement} {settings : Settings} {roller : Roller σ}
    {error : EvalError} :
    (statement.execute settings roller).1 = .error error ↔
      ((statement.command.play settings.maxRerolls).run
        { roller := roller.limitTo settings.maxDice }).1 = .error error := by
  simp only [execute]
  rcases (statement.command.play settings.maxRerolls).run
    { roller := roller.limitTo settings.maxDice } with ⟨refused | outcome, last⟩ <;> simp

theorem exists_report {α : Type} {statement : Statement} {settings : Settings} {roller : Roller σ}
    {f : Report → α} {a : α} (answered : (statement.execute settings roller).1.toOption.map f = some a) :
    ∃ report final, statement.execute settings roller = (.ok report, final) ∧ f report = a := by
  rcases executed : statement.execute settings roller with ⟨error | report, final⟩
  · rw [executed] at answered
    cases answered
  · rw [executed] at answered
    exact ⟨report, final, rfl, Option.some.inj answered⟩

theorem execute_scripted {statement : Statement} {settings : Settings} {roller final : Roller σ}
    {report : Report} (honest : Honest roller.source)
    (executed : statement.execute settings roller = (.ok report, final)) (extra : List Die) :
    ∃ last : Roller Script, statement.execute settings
        { source := ⟨report.rolledDice ++ extra⟩ } = (.ok report, last) ∧
      last.source = ⟨extra⟩ := by
  obtain ⟨outcome, recorded, ran, rfl⟩ := execute_ok.mp executed
  have honest' : Honest (roller.limitTo settings.maxDice).source := honest
  have records := statement.command.records_play settings.maxRerolls
  obtain ⟨dice, same, again⟩ := Evaluation.run_scripted records honest' ran
  change recorded = dice at same
  subst same
  exact ⟨final.scripted extra, execute_ok.mpr ⟨outcome, recorded, again [] extra, rfl⟩, rfl⟩

theorem execute_observed {statement : Statement} {settings : Settings} {roller final : Roller σ}
    {report : Report} (executed : statement.execute settings roller = (.ok report, final)) :
    ∃ last : Roller (Observed σ), statement.execute settings roller.observed = (.ok report, last) ∧
      last.source.answers = report.rolledDice.map .ok := by
  obtain ⟨outcome, recorded, ran, rfl⟩ := execute_ok.mp executed
  have records := statement.command.records_play settings.maxRerolls
  obtain ⟨dice, same, ⟨last, recorded'⟩, again, kept, answers⟩ := Observed.run_ok records ran
  change recorded = dice at same
  change recorded' = recorded at kept
  subst same kept
  exact ⟨last, execute_ok.mpr ⟨outcome, recorded', again, rfl⟩, answers⟩

/-- A command that was executed on dice of the sides asked for can be executed again on the dice it
has recorded: it answers with the same report and leaves all dice behind these in the script. The
recorded dice are what the source has answered, each die once and in order. -/
theorem execute_recorded (statement : Statement) (settings : Settings) (roller final : Roller σ)
    (report : Report) (honest : Honest roller.source)
    (executed : statement.execute settings roller = (.ok report, final)) :
    (∀ extra : List Die, ∃ last : Roller Script, statement.execute settings
        { source := ⟨report.rolledDice ++ extra⟩ } = (.ok report, last) ∧
      last.source = ⟨extra⟩) ∧
    ∃ last : Roller (Observed σ), statement.execute settings roller.observed = (.ok report, last) ∧
      last.source.answers = report.rolledDice.map .ok :=
  ⟨execute_scripted honest executed, execute_observed executed⟩

theorem execute_recorded_chains :
    let statement : Statement := ⟨.compound ⟨⟨.compound, .random (.int 1) (.int 3), .int 6, none⟩, []⟩
      (some (.int 6)) (some (.int 1)) none, false⟩
    let roller : Roller Cycle := { source := { faces := [2, 6, 6, 1, 3] } }
    let report : Report :=
      { gameId := "DiceBot"
        fragments := ["([1...3]U6[6]+1)", "13[6,6,1],3+1", "14/17 (max/total)"]
        separator := " ＞ "
        rolledDice := [⟨2, 3⟩, ⟨6, 6⟩, ⟨6, 6⟩, ⟨1, 6⟩, ⟨3, 6⟩]
        verdict := .unspecified
        secret := false }
    Honest roller.source ∧
    statement.execute {} roller = (.ok report, (statement.execute {} roller).2) ∧
    (∀ extra : List Die, ∃ last : Roller Script, statement.execute {}
        { source := ⟨report.rolledDice ++ extra⟩ } = (.ok report, last) ∧
      last.source = ⟨extra⟩) ∧
    ∃ last : Roller (Observed Cycle), statement.execute {} roller.observed = (.ok report, last) ∧
      last.source.answers = report.rolledDice.map .ok := by
  intro statement roller report
  have honest : Honest roller.source := Cycle.honest roller.source
  have executed : statement.execute {} roller = (.ok report, (statement.execute {} roller).2) := by
    have answered : (statement.execute {} roller).1.toOption = some report := by decide +kernel
    generalize statement.execute {} roller = result at answered ⊢
    obtain ⟨error | outcome, last⟩ := result
    · cases answered
    · cases answered
      rfl
  exact ⟨honest, executed, execute_recorded statement {} roller _ report honest executed⟩

end Statement

end DiceLanguage
