import DiceLanguage.Proofs.Waves
import Mathlib.Data.List.Forall2

namespace DiceLanguage

open DiceSource (Honest)

structure Compounds (threshold : Int) (limit : Nat) (sides : Int) (chain : List Die) : Prop where
  started : chain ≠ []
  sided : ∀ die ∈ chain, die.sides = sides
  reached : ∀ die ∈ chain.dropLast, threshold ≤ die.value
  bounded : chain.length ≤ max 1 limit
  stops : ∀ last ∈ chain.getLast?, threshold ≤ last.value → chain.length = max 1 limit

/-- There is one chain for each die that the groups ask for, group by group. -/
structure IsChains (groups : List DiceGroup) (threshold : Int) (limit : Nat)
    (chains : List (List Die)) : Prop where
  counted : ∀ group ∈ groups, 1 ≤ group.count
  each : List.Forall₂ (Compounds threshold limit) (DiceGroup.allSides groups) chains

variable {threshold sides : Int} {limit : Nat} {dice : List Die} {groups : List DiceGroup}

theorem Each.forall₂ {α β : Type} {R : α → List Die → β → Prop} {S : α → β → Prop} {as : List α}
    {bs : List β} (each : Each R as dice bs) (weaker : ∀ a ∈ as, ∀ d b, R a d b → S a b) :
    List.Forall₂ S as bs := by
  induction each with
  | nil => exact .nil
  | cons first rest ih =>
    exact .cons (weaker _ List.mem_cons_self _ _ first)
      (ih fun a member => weaker a (List.mem_cons_of_mem _ member))

theorem Extends.compounds {chain : List Die} (grown : Extends threshold (limit - 1) chain)
    (sided : ∀ die ∈ chain, die.sides = sides) : Compounds threshold limit sides chain := by
  obtain ⟨init, last, rfl, reached, bound, full⟩ := grown
  have length : (init ++ [last]).length = init.length + 1 := by simp
  refine ⟨by simp, sided, by simpa using reached, by omega, ?_⟩
  intro final ends high
  rw [List.getLast?_concat, Option.mem_some_iff] at ends
  subst ends
  have whole := full high
  omega

namespace Throw

variable {group : DiceGroup} {chains : List (List Die)}

theorem compounds_of_groupChains
    (yields : (groupChains threshold limit group).Yields (fun sides die => die.sides = sides) dice
      chains) :
    1 ≤ group.count ∧ List.Forall₂ (Compounds threshold limit)
      (List.replicate group.count.toNat group.sides) chains := by
  unfold groupChains at yields
  split at yields
  · cases yields
  · rename_i enough
    rw [yields_times _ group.sides] at yields
    refine ⟨Int.not_lt.mp enough, yields.forall₂ fun sides member own chain thrown => ?_⟩
    rw [List.eq_of_mem_replicate member]
    obtain ⟨-, sided, grown⟩ := grown_of_chain thrown
    exact grown.compounds sided

theorem isChains_of_yields
    (yields : (Throw.chains groups threshold limit).Yields (fun sides die => die.sides = sides) dice
      chains) : IsChains groups threshold limit chains := by
  rw [Throw.chains, yields_bind_pure] at yields
  obtain ⟨parts, yields, rfl⟩ := yields
  rw [Each.mapM_yields] at yields
  have each := yields.forall₂ fun group _ own part grown => compounds_of_groupChains grown
  obtain ⟨counted, each⟩ := (List.forall₂_and_left _ _).mp each
  refine ⟨counted, ?_⟩
  rw [DiceGroup.allSides, List.flatMap_def]
  exact List.rel_flatten (List.forall₂_map_left_iff.mpr each)

variable {σ : Type} [DiceSource σ] {roller final : Roller σ}

/-- A compounding roll on dice of the sides asked for has the chains described, and their dice are
those that the source has answered, in order. -/
theorem isChains_of_run (honest : Honest roller.source)
    (ran : (Throw.chains groups threshold limit).run roller = (.ok (chains, dice), final)) :
    IsChains groups threshold limit chains ∧
      ∃ last : Roller (Observed σ),
        (Throw.chains groups threshold limit).run roller.observed = (.ok (chains, dice), last) ∧
        last.source.answers = chains.flatten.map .ok := by
  have yields := (run_yields honest ran).1
  refine ⟨isChains_of_yields yields, ?_⟩
  rw [flatten_chains yields]
  exact Observed.runThrow_ok ran

theorem isChains_of_run_cut :
    let groups : List DiceGroup := [⟨2, 6⟩, ⟨1, 10⟩]
    let roller : Roller Cycle := { source := { faces := [6, 6, 6, 6, 2, 5] } }
    let chains : List (List Die) := [[⟨6, 6⟩, ⟨6, 6⟩, ⟨6, 6⟩], [⟨6, 6⟩, ⟨2, 6⟩], [⟨5, 10⟩]]
    Honest roller.source ∧
      (Throw.chains groups 6 3).run roller =
        (.ok (chains, chains.flatten), ((Throw.chains groups 6 3).run roller).2) ∧
      IsChains groups 6 3 chains ∧
      ∃ last : Roller (Observed Cycle),
        (Throw.chains groups 6 3).run roller.observed = (.ok (chains, chains.flatten), last) ∧
        last.source.answers = chains.flatten.map .ok := by
  intro groups roller chains
  have honest : Honest roller.source := Cycle.honest roller.source
  have ran : (Throw.chains groups 6 3).run roller =
      (.ok (chains, chains.flatten), ((Throw.chains groups 6 3).run roller).2) := rfl
  exact ⟨honest, ran, isChains_of_run honest ran⟩

end Throw

end DiceLanguage
