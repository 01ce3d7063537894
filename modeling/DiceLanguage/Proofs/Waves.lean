import DiceLanguage.Proofs.Evaluation.Lists
import Mathlib.Data.List.Basic

namespace DiceLanguage

open DiceSource (Honest)

def Die.reached (threshold : Int) (dice : List Die) : List Die :=
  dice.filter (threshold ≤ ·.value)

def DiceGroup.allSides (groups : List DiceGroup) : List Int :=
  groups.flatMap fun group => List.replicate group.count.toNat group.sides

/-- The same sides in another order: equal ones together, where the first of them stood. -/
structure Regrouped (sides regrouped : List Int) : Prop where
  same : regrouped.Perm sides
  ordered : regrouped.Pairwise fun s t => sides.idxOf s ≤ sides.idxOf t

structure IsWaves (groups : List DiceGroup) (threshold : Int) (limit : Nat)
    (waves : List (List Die)) : Prop where
  first : ∃ wave ∈ waves.head?, wave.map (·.sides) = DiceGroup.allSides groups
  /-- Every wave but the last has dice to roll again, and those are the next wave. -/
  next : waves.IsChain fun wave next => Die.reached threshold wave ≠ [] ∧
    Regrouped ((Die.reached threshold wave).map (·.sides)) (next.map (·.sides))
  bounded : waves.length ≤ max 1 limit
  stops : ∀ wave ∈ waves.getLast?, Die.reached threshold wave ≠ [] → waves.length = max 1 limit

section Regroup

variable {sides : List Int}

theorem idxOf_le_of_filter {p : Int → Bool} {s t : Int} (first : p s = true) (second : p t = true)
    (before : (sides.filter p).idxOf s ≤ (sides.filter p).idxOf t) :
    sides.idxOf s ≤ sides.idxOf t := by
  induction sides with
  | nil => exact Nat.le_refl _
  | cons x sides ih =>
    by_cases kept : p x = true
    · rw [List.filter_cons_of_pos kept] at before
      grind
    · rw [List.filter_cons_of_neg kept] at before
      grind

/-- The distinct sides in the order in which they first appear, each as often as it appears. -/
def regroup (sides : List Int) : List Int :=
  sides.eraseDups.flatMap fun s => List.replicate (sides.count s) s

theorem regroup_cons (s : Int) (sides : List Int) :
    regroup (s :: sides) =
      List.replicate (sides.count s + 1) s ++ regroup (sides.filter fun t => !t == s) := by
  rw [regroup, List.eraseDups_cons, List.flatMap_cons, List.count_cons_self]
  congr 1
  apply List.flatMap_congr
  intro t member
  have kept := (List.mem_filter.mp (List.mem_eraseDups.mp member)).2
  have other : s ≠ t := by
    intro same
    simp [same] at kept
  have same : (sides.filter fun t => !t == s).count t = sides.count t :=
    List.count_filter (p := fun t => !t == s) kept
  rw [same, List.count_cons_of_ne other]

theorem regrouped_regroup (sides : List Int) : Regrouped sides (regroup sides) := by
  -- By induction on the length: the sides equal to the first come first, the others behind them.
  induction size : sides.length using Nat.strongRecOn generalizing sides with
  | ind n ih =>
    subst size
    cases sides with
    | nil => exact ⟨.refl [], .nil⟩
    | cons s sides =>
      have shorter : (sides.filter fun t => !t == s).length < (s :: sides).length :=
        Nat.lt_succ_of_le (List.length_filter_le _ _)
      have others := ih _ shorter _ rfl
      have kept : ∀ t ∈ regroup (sides.filter fun t => !t == s), (!t == s) = true :=
        fun t member => (List.mem_filter.mp (others.same.mem_iff.mp member)).2
      rw [regroup_cons]
      constructor
      · have parts := List.filter_append_perm (fun t => t == s) sides
        rw [List.filter_beq] at parts
        exact ((others.same.append_left _).trans parts).cons s
      · rw [List.pairwise_append]
        refine ⟨List.pairwise_replicate.mpr (.inr (Nat.le_refl _)), ?_, ?_⟩
        · refine others.ordered.imp_of_mem fun {t u} member member' before => ?_
          have le := idxOf_le_of_filter (kept t member) (kept u member') before
          grind
        · intro t first u _
          rw [List.eq_of_mem_replicate first, List.idxOf_cons_self]
          exact Nat.zero_le _

end Regroup

theorem DiceGroup.length_allSides {groups : List DiceGroup}
    (counted : ∀ group ∈ groups, 0 ≤ group.count) :
    ((allSides groups).length : Int) = (groups.map (·.count)).sum := by
  induction groups with
  | nil => rfl
  | cons group groups ih =>
    obtain ⟨first, others⟩ := List.forall_mem_cons.mp counted
    rw [allSides, List.flatMap_cons, List.length_append, List.length_replicate, Int.natCast_add,
      Int.toNat_of_nonneg first, List.map_cons, List.sum_cons, ← ih others]
    rfl

namespace Throw

variable {threshold : Int} {wave : List Die}

theorem pending_eq_nil_iff : pending threshold wave = [] ↔ Die.reached threshold wave = [] := by
  rw [pending, Die.reached, List.map_eq_nil_iff]
  cases wave.filter (threshold ≤ ·.value) with
  | nil => exact iff_of_true rfl rfl
  | cons die dice =>
    rw [List.map_cons, List.eraseDups_cons]
    exact iff_of_false (List.cons_ne_nil _ _) (List.cons_ne_nil _ _)

theorem allSides_pending (threshold : Int) (wave : List Die) :
    DiceGroup.allSides (pending threshold wave) =
      regroup ((Die.reached threshold wave).map (·.sides)) := by
  rw [DiceGroup.allSides, pending, regroup, List.flatMap_map]
  rfl

theorem count_pending (threshold : Int) (wave : List Die) :
    ((pending threshold wave).map (·.count)).sum = (Die.reached threshold wave).length := by
  have counted : ∀ group ∈ pending threshold wave, 0 ≤ group.count := by
    intro group member
    obtain ⟨s, -, rfl⟩ := List.mem_map.mp member
    exact Int.natCast_nonneg _
  have same := regrouped_regroup ((Die.reached threshold wave).map (·.sides))
  rw [← DiceGroup.length_allSides counted, allSides_pending, same.same.length_eq, List.length_map]

variable {good : Int → Die → Prop} {groups : List DiceGroup} {dice : List Die}

theorem length_groups {parts : List (List Die)}
    (yields : (Throw.groups groups).Yields good dice parts) :
    (dice.length : Int) = (groups.map (·.count)).sum := by
  rw [Throw.groups, Each.mapM_yields] at yields
  induction yields with
  | nil => rfl
  | cons first rest ih =>
    obtain ⟨rfl, counted, -⟩ := yields_group.mp first
    rw [List.length_append, List.map_cons, List.sum_cons, Int.natCast_add, ih, counted]

theorem sides_groups {parts : List (List Die)}
    (yields : (Throw.groups groups).Yields (fun sides die => die.sides = sides) dice parts) :
    dice.map (·.sides) = DiceGroup.allSides groups := by
  rw [Throw.groups, Each.mapM_yields] at yields
  induction yields with
  | nil => rfl
  | cons first rest ih =>
    obtain ⟨rfl, counted, -, -, sided⟩ := yields_group.mp first
    rw [List.map_append, ih, DiceGroup.allSides, DiceGroup.allSides, List.flatMap_cons]
    congr 1
    refine List.eq_replicate_iff.mpr ⟨?_, ?_⟩
    · rw [List.length_map, ← counted, Int.toNat_natCast]
    · intro s member
      obtain ⟨die, fallen, rfl⟩ := List.mem_map.mp member
      exact sided die fallen

def Fallen (good : Int → Die → Prop) (groups : List DiceGroup) (dice : List Die) : Prop :=
  ∃ parts, (Throw.groups groups).Yields good dice parts

structure Continues (good : Int → Die → Prop) (threshold : Int) (most : Nat)
    (waves : List (List Die)) : Prop where
  goesOn : waves.IsChain fun wave next =>
    pending threshold wave ≠ [] ∧ Fallen good (pending threshold wave) next
  bounded : waves.length ≤ most
  stops : ∀ wave ∈ waves.getLast?, pending threshold wave ≠ [] → waves.length = most

namespace Continues

variable {most : Nat} {next : List Die} {waves : List (List Die)}

theorem single (stops : pending threshold wave ≠ [] → most = 0) :
    Continues good threshold (most + 1) [wave] where
  goesOn := List.IsChain.singleton wave
  bounded := Nat.le_add_left 1 most
  stops := by
    intro last same left
    cases same
    rw [stops left]
    rfl

theorem cons (left : pending threshold wave ≠ []) (fell : Fallen good (pending threshold wave) next)
    (continues : Continues good threshold most (next :: waves)) :
    Continues good threshold (most + 1) (wave :: next :: waves) where
  goesOn := List.isChain_cons_cons.mpr ⟨⟨left, fell⟩, continues.goesOn⟩
  bounded := Nat.succ_le_succ continues.bounded
  stops := by
    intro last same more
    rw [List.getLast?_cons_cons] at same
    exact congrArg (· + 1) (continues.stops last same more)

end Continues

theorem continues_of_extendWaves {budget : Nat} {latest : List Die} {waves : List (List Die)}
    (yields : (extendWaves threshold budget latest []).Yields good dice waves) :
    ∃ later, waves = latest :: later ∧ Continues good threshold (budget + 1) waves := by
  induction budget generalizing latest dice waves with
  | zero =>
    obtain ⟨-, rfl⟩ := yields_pure.mp yields
    exact ⟨[], rfl, .single fun _ => rfl⟩
  | succ budget ih =>
    rw [extendWaves] at yields
    split at yields
    · rename_i nothing
      obtain ⟨-, rfl⟩ := yields_pure.mp yields
      exact ⟨[], rfl, .single fun left => absurd nothing left⟩
    · rename_i left
      obtain ⟨fallen, parts, _, rfl, thrown, rest⟩ := yields_bind.mp yields
      rw [extendWaves_eq, map_eq_pure_bind, yields_bind_pure] at rest
      obtain ⟨waves, rest, rfl⟩ := rest
      obtain ⟨later, rfl, continues⟩ := ih rest
      rw [flatten_groups thrown] at continues ⊢
      exact ⟨fallen :: later, rfl, .cons left ⟨parts, thrown⟩ continues⟩

theorem continues_of_waves {limit : Nat} {waves : List (List Die)}
    (yields : (Throw.waves groups threshold limit).Yields good dice waves) :
    ∃ first later, waves = first :: later ∧ Fallen good groups first ∧
      Continues good threshold (max 1 limit) waves := by
  obtain ⟨first, parts, _, rfl, thrown, rest⟩ := yields_bind.mp yields
  obtain ⟨later, rfl, continues⟩ := continues_of_extendWaves rest
  have most : limit - 1 + 1 = max 1 limit := by omega
  rw [most] at continues
  rw [flatten_groups thrown] at continues ⊢
  exact ⟨first, later, rfl, ⟨parts, thrown⟩, continues⟩

theorem isWaves_of_yields {limit : Nat} {waves : List (List Die)}
    (yields : (Throw.waves groups threshold limit).Yields (fun sides die => die.sides = sides) dice
      waves) : IsWaves groups threshold limit waves := by
  obtain ⟨first, later, rfl, ⟨parts, fell⟩, continues⟩ := continues_of_waves yields
  refine ⟨⟨first, rfl, sides_groups fell⟩, ?_, continues.bounded, ?_⟩
  · refine continues.goesOn.imp fun wave next goes => ?_
    obtain ⟨left, parts, fell⟩ := goes
    rw [sides_groups fell, allSides_pending]
    exact ⟨mt pending_eq_nil_iff.mpr left, regrouped_regroup _⟩
  · intro wave last reached
    exact continues.stops wave last (mt pending_eq_nil_iff.mp reached)

variable {σ : Type} [DiceSource σ] {limit : Nat} {roller final : Roller σ}
  {waves : List (List Die)}

/-- A count reroll on dice of the sides asked for goes in waves as described, and these are the dice
that the source has answered, in order. -/
theorem isWaves_of_run (honest : Honest roller.source)
    (ran : (Throw.waves groups threshold limit).run roller = (.ok (waves, dice), final)) :
    IsWaves groups threshold limit waves ∧
      ∃ last : Roller (Observed σ),
        (Throw.waves groups threshold limit).run roller.observed = (.ok (waves, dice), last) ∧
        last.source.answers = waves.flatten.map .ok := by
  have yields := (run_yields honest ran).1
  refine ⟨isWaves_of_yields yields, ?_⟩
  rw [flatten_waves yields]
  exact Observed.runThrow_ok ran

theorem isWaves_of_run_mixed :
    let groups : List DiceGroup := [⟨1, 6⟩, ⟨1, 10⟩, ⟨1, 6⟩]
    let roller : Roller Cycle := { source := { faces := [6, 10, 6, 1, 1, 4] } }
    let waves : List (List Die) :=
      [[⟨6, 6⟩, ⟨10, 10⟩, ⟨6, 6⟩], [⟨1, 6⟩, ⟨1, 6⟩, ⟨4, 10⟩]]
    Honest roller.source ∧
      (Throw.waves groups 6 10).run roller =
        (.ok (waves, waves.flatten), ((Throw.waves groups 6 10).run roller).2) ∧
      IsWaves groups 6 10 waves ∧
      ∃ last : Roller (Observed Cycle),
        (Throw.waves groups 6 10).run roller.observed = (.ok (waves, waves.flatten), last) ∧
        last.source.answers = waves.flatten.map .ok := by
  intro groups roller waves
  have honest : Honest roller.source := Cycle.honest roller.source
  have ran : (Throw.waves groups 6 10).run roller =
      (.ok (waves, waves.flatten), ((Throw.waves groups 6 10).run roller).2) := rfl
  exact ⟨honest, ran, isWaves_of_run honest ran⟩

end Throw

end DiceLanguage
