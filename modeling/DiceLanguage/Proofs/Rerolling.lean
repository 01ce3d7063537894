import DiceLanguage.Proofs.Chains
import DiceLanguage.Proofs.Successes

namespace DiceLanguage

open DiceSource (Honest)
open Evaluation (ofExcept)
open Grammar (bind_error)

variable {σ : Type} [DiceSource σ]

/-- A way to roll the dice of a list again: the lists of dice that it throws with a threshold, what
these look like, and what is made of them with the modifier. -/
structure Rerolling where
  throw : List DiceGroup → Int → Nat → Throw (List (List Die))
  Shape : List DiceGroup → Int → Nat → List (List Die) → Prop
  text : Int → List (List Die) → String
  values : Int → List (List Die) → List Int
  Adds : Int → List (List Die) → Int → Prop
  flatten : ∀ {groups limit maxRerolls dice lists},
    (throw groups limit maxRerolls).On dice lists → lists.flatten = dice
  shape : ∀ {groups limit maxRerolls dice lists},
    (throw groups limit maxRerolls).Yields (fun sides die => die.sides = sides) dice lists →
      Shape groups limit maxRerolls lists

namespace Rerolling

def waves : Rerolling where
  throw := Throw.waves
  Shape := IsWaves
  text _ waves := Value.wavesText waves
  values _ waves := waves.flatten.map (·.value)
  Adds _ _ _ := False
  flatten := Throw.flatten_waves
  shape := Throw.isWaves_of_yields

def chains : Rerolling where
  throw := Throw.chains
  Shape := IsChains
  text modifier chains := Chains.text ⟨chains, modifier⟩
  values modifier chains := chains.map fun chain => Die.sum chain + modifier
  Adds modifier chains x := (∃ chain ∈ chains, x = Die.sum chain + modifier) ∨
    ∃ front, front <+: chains.map Die.sum ∧ x = modifier + front.sum
  flatten := Throw.flatten_chains
  shape := Throw.isChains_of_yields

structure Tells (rerolling : Rerolling) (heading : String) (prepared : Prepared)
    (lists : List (List Die)) (outcome : Outcome) : Prop where
  shown : outcome.fragments.take 2 = [heading, rerolling.text prepared.modifier lists]
  compared : ∀ relation aim, prepared.target = some (relation, aim) →
    Command.Tells outcome (relation.successes aim (rerolling.values prepared.modifier lists))
  uncompared : prepared.target = none → outcome.verdict = .unspecified

structure Falls (rerolling : Rerolling) (prepared : Prepared) (limit : Int) (maxRerolls : Nat)
    (groups : List DiceGroup) (lists : List (List Die)) (roller last : Roller σ) : Prop where
  asked : prepared.rolls.mapM Roll.group = .ok groups
  thrown : (rerolling.throw groups limit maxRerolls).run roller = (.ok (lists, lists.flatten), last)
  shape : Honest roller.source → rerolling.Shape groups limit maxRerolls lists

/-- What becomes of a list that is rolled with the threshold, once its expressions have led to the
table. -/
inductive Rolls (rerolling : Rerolling) (statement : Statement) (settings : Settings)
    (prepared : Prepared) (limit : Int) (table : Table σ) :
    Except EvalError Report × Roller σ → Prop where
  | unasked {error : EvalError} (asked : prepared.rolls.mapM Roll.group = .error error) :
    Rolls rerolling statement settings prepared limit table (.error error, table.roller)
  | refused {groups : List DiceGroup} {error : RollError} {last : Roller σ}
    (asked : prepared.rolls.mapM Roll.group = .ok groups)
    (thrown : (rerolling.throw groups limit settings.maxRerolls).run table.roller =
      (.error error, last)) :
    Rolls rerolling statement settings prepared limit table (.error (.roll error), last)
  | overflow {groups : List DiceGroup} {lists : List (List Die)} {last : Roller σ} {x : Int}
    (falls : rerolling.Falls prepared limit settings.maxRerolls groups lists table.roller last)
    (added : rerolling.Adds prepared.modifier lists x) (beyond : ¬ Fits x) :
    Rolls rerolling statement settings prepared limit table (.error .overflow, last)
  | told {groups : List DiceGroup} {lists : List (List Die)} {last : Roller σ} {outcome : Outcome}
    (falls : rerolling.Falls prepared limit settings.maxRerolls groups lists table.roller last)
    (tells : rerolling.Tells ("(" ++ statement.command.print ++ ")") prepared lists outcome) :
    Rolls rerolling statement settings prepared limit table
      (.ok (outcome.report settings statement.secret (table.recorded ++ lists.flatten)), last)

end Rerolling

def Evaluation.answer (evaluation : Evaluation Outcome) (settings : Settings) (secret : Bool)
    (table : Table σ) : Except EvalError Report × Roller σ :=
  match evaluation.run table with
  | (.error e, table) => (.error e, table.roller)
  | (.ok outcome, table) => (.ok (outcome.report settings secret table.recorded), table.roller)

theorem Evaluation.answer_bind {α : Type} {first : Evaluation α} {next : α → Evaluation Outcome}
    {settings : Settings} {secret : Bool} {start table : Table σ} {value : α}
    (ran : first.run start = (.ok value, table)) :
    (first >>= next).answer settings secret start = (next value).answer settings secret table := by
  have whole : (first >>= next).run start = (next value).run table := by
    change (first.bind next).run start = _
    rw [run_bind, ran]
  unfold answer
  rw [whole]

theorem exists_error_of_mapM {ε α β : Type} {f : α → Except ε β} {as : List α} {error : ε}
    (failed : as.mapM f = .error error) : ∃ a ∈ as, f a = .error error := by
  induction as with
  | nil => cases failed
  | cons a as ih =>
    rw [List.mapM_cons] at failed
    rcases bind_error failed with first | ⟨b, -, later⟩
    · exact ⟨a, List.mem_cons_self, first⟩
    · rcases bind_error later with others | ⟨bs, -, last⟩
      · obtain ⟨other, member, same⟩ := ih others
        exact ⟨other, List.mem_cons_of_mem a member, same⟩
      · cases last

namespace Chains

variable {result : Chains} {error : EvalError}

theorem highest_error (failed : result.highest = .error error) :
    error = .overflow ∧ ∃ x, Rerolling.chains.Adds result.modifier result.chains x ∧ ¬ Fits x := by
  obtain ⟨same, beyond⟩ := exactly_error failed
  refine ⟨same, _, ?_, beyond⟩
  cases top : result.sums.max? with
  | none => exact .inr ⟨[], List.nil_prefix, Int.add_comm _ _⟩
  | some sum =>
    obtain ⟨chain, member, rfl⟩ := List.mem_map.mp (List.max?_mem top)
    exact .inl ⟨chain, member, rfl⟩

theorem foldlM_error {sums : List Int} {start : Int}
    (failed : sums.foldlM (fun total sum => exactly (total + sum)) start = .error error) :
    error = .overflow ∧ ∃ front, front <+: sums ∧ ¬ Fits (start + front.sum) := by
  induction sums generalizing start with
  | nil => cases failed
  | cons sum sums ih =>
    rw [List.foldlM_cons] at failed
    rcases bind_error failed with first | ⟨total, first, later⟩
    · obtain ⟨same, beyond⟩ := exactly_error first
      refine ⟨same, [sum], List.cons_prefix_cons.mpr ⟨rfl, List.nil_prefix⟩, ?_⟩
      rwa [List.sum_singleton]
    · obtain ⟨-, rfl⟩ := exactly_ok.mp first
      obtain ⟨same, front, initial, beyond⟩ := ih later
      refine ⟨same, sum :: front, List.cons_prefix_cons.mpr ⟨rfl, initial⟩, ?_⟩
      rwa [List.sum_cons, ← Int.add_assoc]

theorem total_error (failed : result.total = .error error) :
    error = .overflow ∧ ∃ x, Rerolling.chains.Adds result.modifier result.chains x ∧ ¬ Fits x := by
  obtain ⟨same, front, initial, beyond⟩ := foldlM_error failed
  exact ⟨same, _, .inr ⟨front, initial, rfl⟩, beyond⟩

theorem successes_error {relation : Relation} {aim : Int}
    (failed : result.successes relation aim = .error error) :
    error = .overflow ∧ ∃ x, Rerolling.chains.Adds result.modifier result.chains x ∧ ¬ Fits x := by
  rcases bind_error failed with added | ⟨values, -, last⟩
  · obtain ⟨sum, member, failed⟩ := exists_error_of_mapM added
    obtain ⟨same, beyond⟩ := exactly_error failed
    obtain ⟨chain, inside, rfl⟩ := List.mem_map.mp member
    exact ⟨same, _, .inl ⟨chain, inside, rfl⟩, beyond⟩
  · cases last

end Chains

namespace Rerolling

variable {rerolling : Rerolling} {statement : Statement} {settings : Settings}
  {prepared : Prepared} {limit : Int} {table : Table σ}

theorem rolls_of_throwing {tell : List (List Die) → Evaluation Outcome}
    (tells : ∀ lists,
      (∃ outcome, tell lists = .done outcome ∧
        rerolling.Tells ("(" ++ statement.command.print ++ ")") prepared lists outcome) ∨
      tell lists = .fail .overflow ∧ ∃ x, rerolling.Adds prepared.modifier lists x ∧ ¬ Fits x) :
    rerolling.Rolls statement settings prepared limit table
      ((ofExcept (prepared.rolls.mapM Roll.group) >>= fun groups =>
        Evaluation.throwing (rerolling.throw groups limit settings.maxRerolls) List.flatten tell).answer
          settings statement.secret table) := by
  cases asked : prepared.rolls.mapM Roll.group with
  | error => exact .unasked asked
  | ok groups =>
    change rerolling.Rolls statement settings prepared limit table
      ((Evaluation.throwing (rerolling.throw groups limit settings.maxRerolls) List.flatten tell).answer
        settings statement.secret table)
    unfold Evaluation.answer
    rw [Evaluation.run]
    rcases thrown : (rerolling.throw groups limit settings.maxRerolls).run table.roller with
      ⟨error | ⟨lists, dice⟩, last⟩
    · exact .refused asked thrown
    · -- Whatever the source, the dice drawn are those of the lists, which is what the table records.
      have falls : rerolling.Falls prepared limit settings.maxRerolls groups lists table.roller last := by
        have fallen := (Throw.run_yields (DiceSource.supplies_any table.roller.source) thrown).1
        refine ⟨asked, ?_, fun honest => rerolling.shape (Throw.run_yields honest thrown).1⟩
        rw [thrown, rerolling.flatten fallen]
      obtain ⟨outcome, done, tells⟩ | ⟨failed, x, added, beyond⟩ := tells lists
      · simp only [done, Evaluation.run]
        exact .told falls tells
      · simp only [failed, Evaluation.run]
        exact .overflow falls added beyond

theorem tells_of_target {heading : String} {lists : List (List Die)} {outcome : Outcome}
    {relation : Relation} {aim : Int} (aimed : prepared.target = some (relation, aim))
    (shown : outcome.fragments.take 2 = [heading, rerolling.text prepared.modifier lists])
    (tells : Command.Tells outcome
      (relation.successes aim (rerolling.values prepared.modifier lists))) :
    rerolling.Tells heading prepared lists outcome := by
  refine ⟨shown, ?_, ?_⟩
  · intro relation aim known
    rw [aimed] at known
    cases known
    exact tells
  · intro none
    rw [aimed] at none
    cases none

theorem tells_of_none {heading : String} {lists : List (List Die)} {outcome : Outcome}
    (aimless : prepared.target = none)
    (shown : outcome.fragments.take 2 = [heading, rerolling.text prepared.modifier lists])
    (verdict : outcome.verdict = .unspecified) :
    rerolling.Tells heading prepared lists outcome := by
  refine ⟨shown, ?_, fun _ => verdict⟩
  intro relation aim known
  rw [aimless] at known
  cases known

theorem rolls_throwWaves : waves.Rolls statement settings prepared limit table
    ((Command.throwWaves ("(" ++ statement.command.print ++ ")") settings.maxRerolls prepared
      limit).answer settings statement.secret table) := by
  unfold Command.throwWaves Roll.rollWaves
  rw [bind_assoc]
  apply rolls_of_throwing
  intro lists
  left
  rcases aimed : prepared.target with _ | ⟨relation, aim⟩
  · exact ⟨_, rfl, tells_of_none aimed rfl rfl⟩
  · exact ⟨_, rfl, tells_of_target aimed rfl ⟨rfl, rfl⟩⟩

theorem rolls_throwChains : chains.Rolls statement settings prepared limit table
    ((Command.throwChains ("(" ++ statement.command.print ++ ")") settings.maxRerolls prepared
      limit).answer settings statement.secret table) := by
  unfold Command.throwChains Roll.rollChains
  simp only [bind_assoc, pure_bind]
  apply rolls_of_throwing
  intro lists
  rw [Evaluation.bind]
  rcases aimed : prepared.target with _ | ⟨relation, aim⟩
  · cases top : Chains.highest ⟨lists, prepared.modifier⟩ with
    | error =>
      obtain ⟨rfl, beyond⟩ := Chains.highest_error top
      exact .inr ⟨rfl, beyond⟩
    | ok highest =>
      cases whole : Chains.total ⟨lists, prepared.modifier⟩ with
      | error =>
        obtain ⟨rfl, beyond⟩ := Chains.total_error whole
        exact .inr ⟨rfl, beyond⟩
      | ok total => exact .inl ⟨_, rfl, tells_of_none aimed rfl rfl⟩
  · dsimp only
    cases counted : Chains.successes ⟨lists, prepared.modifier⟩ relation aim with
    | error =>
      obtain ⟨rfl, beyond⟩ := Chains.successes_error counted
      exact .inr ⟨rfl, beyond⟩
    | ok n =>
      refine .inl ⟨_, rfl, tells_of_target aimed rfl ?_⟩
      rw [Command.successes_ok counted]
      exact ⟨rfl, rfl⟩

end Rerolling

end DiceLanguage
