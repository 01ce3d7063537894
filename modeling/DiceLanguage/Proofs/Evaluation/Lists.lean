import DiceLanguage.Evaluation.RollList
import DiceLanguage.Proofs.Evaluation.Exact
import DiceLanguage.Proofs.Print.RollList

namespace DiceLanguage

open Grammar (bind_ok)

variable {α β : Type} {cap : Int → Int} {within : Int → Prop}

def Roll.Asks (cap : Int → Int) (within : Int → Prop) (roll : Roll) (dice : List Die)
    (asked : DiceGroup) : Prop :=
  ∃ before later, dice = before ++ later ∧ roll.count.Totals cap within before asked.count ∧
    roll.sides.Totals cap within later asked.sides

structure DiceGroup.Falls (asked : DiceGroup) (dice fallen : List Die) : Prop where
  whole : fallen = dice
  counted : fallen.length = asked.count
  nonempty : fallen ≠ []
  fair : ∀ die ∈ fallen, Fair asked.sides die

/-- The dice before the last one reach the threshold, and they are `most` dice where the last one
reaches it as well, or else no more than that. -/
def Extends (threshold : Int) (most : Nat) (chain : List Die) : Prop :=
  ∃ init last, chain = init ++ [last] ∧ (∀ die ∈ init, threshold ≤ die.value) ∧
    init.length ≤ most ∧ (threshold ≤ last.value → init.length = most)

structure IsChain (threshold : Int) (limit : Nat) (sides : Int) (dice chain : List Die) : Prop where
  whole : chain = dice
  fair : ∀ die ∈ chain, Fair sides die
  grown : Extends threshold (limit - 1) chain

structure DiceGroup.Grows (threshold : Int) (limit : Nat) (asked : DiceGroup) (dice : List Die)
    (chains : List (List Die)) : Prop where
  some : 1 ≤ asked.count
  chains : Each (IsChain threshold limit) (List.replicate asked.count.toNat asked.sides) dice chains

theorem Fair.sided {sides : Int} {die : Die} (fair : Fair sides die) : 1 ≤ sides :=
  Int.le_trans fair.least fair.greatest

namespace Extends

variable {threshold : Int} {most : Nat} {latest : Die} {dice : List Die}

theorem zero_iff : Extends threshold 0 (latest :: dice) ↔ dice = [] := by
  constructor
  · intro chained
    obtain ⟨init, last, same, -, bound, -⟩ := chained
    have empty : init = [] := List.eq_nil_of_length_eq_zero (Nat.le_zero.mp bound)
    subst empty
    cases same
    rfl
  · intro empty
    subst empty
    exact ⟨[], latest, rfl, nofun, Nat.le_refl 0, fun _ => rfl⟩

theorem succ_iff_of_reached (reached : threshold ≤ latest.value) :
    Extends threshold (most + 1) (latest :: dice) ↔ Extends threshold most dice := by
  constructor
  · intro chained
    obtain ⟨init, last, same, reach, bound, full⟩ := chained
    cases init with
    | nil =>
      cases same
      cases full reached
    | cons first init =>
      cases same
      refine ⟨init, last, rfl, ?_, Nat.le_of_succ_le_succ bound, fun high => ?_⟩
      · exact fun die member => reach die (List.mem_cons_of_mem _ member)
      · exact Nat.succ.inj (full high)
  · intro chained
    obtain ⟨init, last, rfl, reach, bound, full⟩ := chained
    refine ⟨latest :: init, last, rfl, ?_, Nat.succ_le_succ bound, fun high => ?_⟩
    · intro die member
      rcases List.mem_cons.mp member with rfl | member
      · exact reached
      · exact reach die member
    · rw [List.length_cons, full high]

theorem succ_iff_of_below (below : ¬ threshold ≤ latest.value) :
    Extends threshold (most + 1) (latest :: dice) ↔ dice = [] := by
  constructor
  · intro chained
    obtain ⟨init, last, same, reach, -, -⟩ := chained
    cases init with
    | nil =>
      cases same
      rfl
    | cons first init =>
      cases same
      exact absurd (reach latest List.mem_cons_self) below
  · intro empty
    subst empty
    exact ⟨[], latest, rfl, nofun, Nat.zero_le _, fun high => absurd high below⟩

end Extends

namespace Throw

variable {threshold sides : Int} {limit : Nat} {dice : List Die}

section Whole

variable {good : Int → Die → Prop} {groups : List DiceGroup}

theorem yields_times {throw : Throw α} (n : Nat) (a : β) {results : List α} :
    (throw.times n).Yields good dice results ↔
      Each (fun _ d b => throw.Yields good d b) (List.replicate n a) dice results := by
  have same : throw.times n = (List.replicate n a).mapM fun _ => throw := by
    induction n with
    | zero => exact times_zero throw
    | succ n ih =>
      rw [times_succ, List.replicate_succ, List.mapM_cons, ih]
      simp only [map_eq_pure_bind]
  rw [same]
  exact Each.mapM_yields

theorem flatten_groups {parts : List (List Die)}
    (yields : (Throw.groups groups).Yields good dice parts) : parts.flatten = dice := by
  rw [Throw.groups, Each.mapM_yields] at yields
  rw [← List.flatMap_id]
  exact yields.flatMap_eq fun group fallen part thrown => (yields_group.mp thrown).1.symm

theorem flatten_extendWaves {budget : Nat} {latest : List Die} {waves : List (List Die)}
    (yields : (extendWaves threshold budget latest []).Yields good dice waves) :
    waves.flatten = latest ++ dice := by
  -- The latest wave has been thrown before, so its dice stand in front of those that fall now.
  induction budget generalizing latest dice waves with
  | zero =>
    obtain ⟨rfl, rfl⟩ := yields_pure.mp yields
    simp
  | succ budget ih =>
    rw [extendWaves] at yields
    split at yields
    · obtain ⟨rfl, rfl⟩ := yields_pure.mp yields
      simp
    · obtain ⟨fallen, parts, later, rfl, thrown, rest⟩ := yields_bind.mp yields
      rw [extendWaves_eq, map_eq_pure_bind, yields_bind_pure] at rest
      obtain ⟨waves, rest, rfl⟩ := rest
      rw [List.flatten_append, ih rest, flatten_groups thrown]
      simp

theorem flatten_waves {waves : List (List Die)}
    (yields : (Throw.waves groups threshold limit).Yields good dice waves) : waves.flatten = dice := by
  obtain ⟨fallen, parts, later, rfl, thrown, rest⟩ := yields_bind.mp yields
  rw [flatten_extendWaves rest, flatten_groups thrown]

theorem grown_of_extendChain {budget : Nat} {latest : Die} {chain : List Die}
    (yields : (extendChain threshold sides budget latest []).Yields good dice chain) :
    chain = latest :: dice ∧ (∀ die ∈ dice, good sides die) ∧
      Extends threshold budget (latest :: dice) := by
  induction budget generalizing latest dice chain with
  | zero =>
    obtain ⟨rfl, rfl⟩ := yields_pure.mp yields
    exact ⟨rfl, List.forall_mem_nil _, Extends.zero_iff.mpr rfl⟩
  | succ budget ih =>
    rw [extendChain] at yields
    split at yields
    · rename_i reached
      obtain ⟨_, next, later, rfl, thrown, rest⟩ := yields_bind.mp yields
      obtain ⟨rfl, -, given⟩ := yields_die.mp thrown
      rw [extendChain_eq, map_eq_pure_bind, yields_bind_pure] at rest
      obtain ⟨_, rest, rfl⟩ := rest
      obtain ⟨rfl, others, grown⟩ := ih rest
      exact ⟨rfl, List.forall_mem_cons.mpr ⟨given, others⟩,
        (Extends.succ_iff_of_reached reached).mpr grown⟩
    · rename_i below
      obtain ⟨rfl, rfl⟩ := yields_pure.mp yields
      exact ⟨rfl, List.forall_mem_nil _, (Extends.succ_iff_of_below below).mpr rfl⟩

theorem grown_of_chain {chain : List Die}
    (yields : (Throw.chain threshold limit sides).Yields good dice chain) :
    chain = dice ∧ (∀ die ∈ chain, good sides die) ∧ Extends threshold (limit - 1) chain := by
  obtain ⟨_, first, later, rfl, started, rest⟩ := yields_bind.mp yields
  obtain ⟨rfl, -, given⟩ := yields_die.mp started
  obtain ⟨rfl, others, grown⟩ := grown_of_extendChain rest
  exact ⟨rfl, List.forall_mem_cons.mpr ⟨given, others⟩, grown⟩

theorem flatten_groupChains {asked : DiceGroup} {chains : List (List Die)}
    (yields : (groupChains threshold limit asked).Yields good dice chains) :
    chains.flatten = dice := by
  unfold groupChains at yields
  split at yields
  · cases yields
  · rw [yields_times asked.count.toNat asked.sides] at yields
    rw [← List.flatMap_id]
    exact yields.flatMap_eq fun sides fallen chain thrown => (grown_of_chain thrown).1

theorem flatten_chains {chains : List (List Die)}
    (yields : (Throw.chains groups threshold limit).Yields good dice chains) :
    chains.flatten = dice := by
  rw [Throw.chains, yields_bind_pure] at yields
  obtain ⟨parts, thrown, rfl⟩ := yields
  rw [Each.mapM_yields] at thrown
  rw [List.flatten_flatten]
  exact thrown.flatMap_eq fun group fallen part grown => flatten_groupChains grown

end Whole

theorem yields_extendChain {budget : Nat} {latest : Die} {chain : List Die} :
    (extendChain threshold sides budget latest []).Yields Fair dice chain ↔
      chain = latest :: dice ∧ (∀ die ∈ dice, Fair sides die) ∧
        Extends threshold budget (latest :: dice) := by
  refine ⟨grown_of_extendChain, ?_⟩
  induction budget generalizing latest dice chain with
  | zero =>
    intro grows
    obtain ⟨rfl, -, grown⟩ := grows
    obtain rfl := Extends.zero_iff.mp grown
    exact .done _
  | succ budget ih =>
    intro grows
    obtain ⟨rfl, fair, grown⟩ := grows
    rw [extendChain]
    split
    · rename_i reached
      rw [Extends.succ_iff_of_reached reached] at grown
      cases dice with
      | nil =>
        obtain ⟨init, last, same, -⟩ := grown
        simp at same
      | cons next later =>
        obtain ⟨first, others⟩ := List.forall_mem_cons.mp fair
        rw [yields_bind]
        refine ⟨[next], next, later, rfl, yields_die.mpr ⟨rfl, first.sided, first⟩, ?_⟩
        rw [extendChain_eq, map_eq_pure_bind, yields_bind_pure]
        exact ⟨_, ih ⟨rfl, others, grown⟩, rfl⟩
    · rename_i below
      obtain rfl := (Extends.succ_iff_of_below below).mp grown
      exact .done _

theorem yields_chain {chain : List Die} :
    (Throw.chain threshold limit sides).Yields Fair dice chain ↔
      IsChain threshold limit sides dice chain := by
  constructor
  · intro yields
    obtain ⟨whole, fair, grown⟩ := grown_of_chain yields
    exact ⟨whole, fair, grown⟩
  · intro grows
    obtain ⟨rfl, fair, grown⟩ := grows
    rw [Throw.chain, yields_bind]
    cases chain with
    | nil =>
      obtain ⟨init, last, same, -⟩ := grown
      simp at same
    | cons first later =>
      obtain ⟨started, others⟩ := List.forall_mem_cons.mp fair
      exact ⟨[first], first, later, rfl, yields_die.mpr ⟨rfl, started.sided, started⟩,
        yields_extendChain.mpr ⟨rfl, others, grown⟩⟩

theorem yields_groupChains {asked : DiceGroup} {chains : List (List Die)} :
    (groupChains threshold limit asked).Yields Fair dice chains ↔
      asked.Grows threshold limit dice chains := by
  unfold groupChains
  split
  · constructor
    · nofun
    · intro grows
      obtain ⟨some, -⟩ := grows
      omega
  · rename_i enough
    rw [yields_times asked.count.toNat asked.sides]
    constructor
    · intro each
      refine ⟨Int.not_lt.mp enough, each.imp fun sides member d b yields => ?_⟩
      rw [List.eq_of_mem_replicate member]
      exact yields_chain.mp yields
    · intro grows
      obtain ⟨-, each⟩ := grows
      refine each.imp fun sides member d b chain => ?_
      rw [List.eq_of_mem_replicate member] at chain
      exact yields_chain.mpr chain

theorem yields_groups {groups : List DiceGroup} {parts : List (List Die)} :
    (Throw.groups groups).Yields Fair dice parts ↔ Each DiceGroup.Falls groups dice parts := by
  rw [Throw.groups, Each.mapM_yields]
  constructor
  · refine fun each => each.imp fun asked _ d fallen yields => ?_
    obtain ⟨rfl, counted, nonempty, -, fair⟩ := yields_group.mp yields
    exact ⟨rfl, counted, nonempty, fair⟩
  · refine fun each => each.imp fun asked _ d fallen falls => ?_
    obtain ⟨die, member⟩ := List.exists_mem_of_ne_nil fallen falls.nonempty
    exact yields_group.mpr ⟨falls.whole.symm, falls.counted, falls.nonempty,
      (falls.fair die member).sided, falls.fair⟩

theorem yields_chains {groups : List DiceGroup} {chains : List (List Die)} :
    (Throw.chains groups threshold limit).Yields Fair dice chains ↔
      ∃ parts, Each (DiceGroup.Grows threshold limit) groups dice parts ∧ chains = parts.flatten := by
  rw [Throw.chains, yields_bind_pure]
  simp only [Each.mapM_yields, yields_groupChains]

end Throw

namespace Each

variable {dice : List Die} {groups : List DiceGroup} {threshold : Int} {limit : Nat}

section Falls

variable {parts : List (List Die)}

theorem flatten_falls (falls : Each DiceGroup.Falls groups dice parts) : parts.flatten = dice := by
  rw [← List.flatMap_id]
  exact falls.flatMap_eq fun group fallen part fell => fell.whole

theorem sum_falls (falls : Each DiceGroup.Falls groups dice parts) :
    Die.sum parts.flatten = saturate (Die.total dice) := by
  have positive : ∀ die ∈ parts.flatten, 1 ≤ die.value := by
    intro die member
    obtain ⟨part, within, inside⟩ := List.mem_flatten.mp member
    obtain ⟨group, -, _, single⟩ := falls.exists_of_mem within
    exact (single.fair die inside).least
  rw [Die.sum_eq positive, falls.flatten_falls]

end Falls

section Grows

variable {parts : List (List (List Die))}

theorem flatten_grows_ne_nil (grows : Each (DiceGroup.Grows threshold limit) groups dice parts)
    (nonempty : groups ≠ []) : parts.flatten ≠ [] := by
  cases grows with
  | nil => exact absurd rfl nonempty
  | cons first rest =>
    have some := first.some
    have started := first.chains.ne_nil (by rw [ne_eq, List.replicate_eq_nil_iff]; omega)
    rw [List.flatten_cons]
    exact List.append_ne_nil_of_left_ne_nil started _

theorem sums_grows {added : Int}
    (grows : Each (DiceGroup.Grows threshold limit) groups dice parts) :
    (Chains.mk parts.flatten added).sums =
      parts.flatten.map fun chain => saturate (Die.total chain) := by
  apply List.map_congr_left
  intro chain member
  obtain ⟨part, within, inside⟩ := List.mem_flatten.mp member
  obtain ⟨group, -, _, single⟩ := grows.exists_of_mem within
  obtain ⟨sides, -, _, started⟩ := single.chains.exists_of_mem inside
  exact Die.sum_of_fair started.fair

end Grows

end Each

namespace Roll

variable {rolls settled : List Roll} {groups : List DiceGroup} {dice : List Die}

theorem settle_bare {roll : Roll} (bare : roll.threshold = none) : roll.settle = do
    let count ← roll.count.settled
    let sides ← roll.sides.settled
    return ⟨roll.kind, count, sides, none⟩ := by
  unfold settle
  rw [bare]

theorem Asks.attains_settle {roll : Roll} {asked : DiceGroup}
    (asks : roll.Asks saturate within dice asked) (bare : roll.threshold = none) :
    Attains within roll.settle dice fun settled => Gets within settled.group asked := by
  obtain ⟨before, later, rfl, count, sides⟩ := asks
  rw [settle_bare bare]
  refine count.attains_settled.bind fun countNode getsCount => ?_
  refine sides.attains_settled.bind_nil fun sidesNode getsSides => .done ?_
  exact getsCount.bind (getsSides.bind (.ok asked))

theorem course_settle {good : Int → Die → Prop} {roll settled : Roll} {asked : DiceGroup}
    (bare : roll.threshold = none) (course : roll.settle.Course good dice (.ok settled))
    (group : settled.group = .ok asked) :
    ∃ before later countNode sidesNode, dice = before ++ later ∧
      roll.count.settled.Course good before (.ok countNode) ∧
      countNode.intValue = .ok asked.count ∧
      roll.sides.settled.Course good later (.ok sidesNode) ∧
      sidesNode.intValue = .ok asked.sides := by
  rw [settle_bare bare] at course
  obtain ⟨before, countNode, later, rfl, settlingCount, course⟩ := Evaluation.course_bind.mp course
  obtain ⟨sidesNode, settlingSides, rfl⟩ := Evaluation.course_bind_pure.mp course
  obtain ⟨count, computedCount, group⟩ := bind_ok group
  obtain ⟨sides, computedSides, last⟩ := bind_ok group
  cases last
  exact ⟨before, later, countNode, sidesNode, rfl, settlingCount, computedCount, settlingSides,
    computedSides⟩

theorem Asks.of_settle {kind : RollKind} {roll settled : Roll} {asked : DiceGroup}
    (plain : roll.IsPlain kind) (course : roll.settle.Course Fair dice (.ok settled))
    (group : settled.group = .ok asked) : roll.Asks saturate Fits dice asked := by
  obtain ⟨before, later, countNode, sidesNode, rfl, settlingCount, computedCount, settlingSides,
    computedSides⟩ := course_settle plain.unlimited course group
  exact ⟨before, later, rfl, .of_settled plain.count settlingCount computedCount,
    .of_settled plain.sides settlingSides computedSides⟩

theorem each_of_settleAll {good : Int → Die → Prop} {R : Roll → List Die → DiceGroup → Prop}
    (single : ∀ roll ∈ rolls, ∀ d settled asked, roll.settle.Course good d (.ok settled) →
      settled.group = .ok asked → R roll d asked)
    (course : (settleAll rolls).Course good dice (.ok settled))
    (asked : settled.mapM group = .ok groups) : Each R rolls dice groups := by
  rw [settleAll, Each.mapM_course] at course
  induction course generalizing groups with
  | nil =>
    cases asked
    exact .nil
  | cons first rest ih =>
    obtain ⟨head, tail⟩ := List.forall_mem_cons.mp single
    rw [List.mapM_cons] at asked
    obtain ⟨group, askedHead, asked⟩ := bind_ok asked
    obtain ⟨others, askedTail, last⟩ := bind_ok asked
    cases last
    exact .cons (head _ _ _ first askedHead) (ih tail askedTail)

theorem attains_settleAll (asks : Each (Roll.Asks saturate within) rolls dice groups)
    (bare : ∀ roll ∈ rolls, roll.threshold = none) :
    Attains within (settleAll rolls) dice fun settled => Gets within (settled.mapM group) groups := by
  unfold settleAll
  induction asks with
  | nil => exact .done (.ok [])
  | cons first rest ih =>
    obtain ⟨head, tail⟩ := List.forall_mem_cons.mp bare
    rw [List.mapM_cons]
    refine (first.attains_settle head).bind fun settledHead getsHead => ?_
    refine (ih tail).bind_nil fun settledTail getsTail => .done ?_
    rw [List.mapM_cons]
    exact getsHead.bind (getsTail.bind (.ok _))

theorem asks_of_settleAll {kind : RollKind} (plain : ∀ roll ∈ rolls, roll.IsPlain kind)
    (course : (settleAll rolls).Course Fair dice (.ok settled))
    (asked : settled.mapM group = .ok groups) :
    Each (Roll.Asks saturate Fits) rolls dice groups :=
  each_of_settleAll (fun _ member _ _ _ => .of_settle (plain _ member)) course asked

theorem attains_rollScatter {parts : List (List Die)}
    (gets : Gets within (settled.mapM group) groups)
    (falls : Each DiceGroup.Falls groups dice parts) :
    Attains within (rollScatter settled) dice (· = parts.flatten) := by
  refine .nil_bind_value (.ofExcept gets rfl) ?_
  refine .bind_value_nil (.ofThrow (Throw.yields_groups.mpr falls) rfl) ?_
  exact .done rfl

theorem falls_of_rollScatter {fallen : List Die}
    (course : (rollScatter settled).Course Fair dice (.ok fallen)) :
    ∃ groups parts, settled.mapM group = .ok groups ∧ Each DiceGroup.Falls groups dice parts ∧
      fallen = parts.flatten := by
  obtain ⟨groups, asked, course⟩ := Evaluation.course_ofExcept_bind.mp course
  obtain ⟨parts, thrown, rfl⟩ := Evaluation.course_bind_pure.mp course
  exact ⟨groups, parts, asked, Throw.yields_groups.mp (Evaluation.course_ofThrow.mp thrown), rfl⟩

theorem attains_rollChains {threshold modifier : Int} {limit : Nat}
    {parts : List (List (List Die))} (gets : Gets within (settled.mapM group) groups)
    (grows : Each (DiceGroup.Grows threshold limit) groups dice parts) :
    Attains within (rollChains settled threshold modifier limit) dice
      (· = ⟨parts.flatten, modifier⟩) := by
  refine .nil_bind_value (.ofExcept gets rfl) ?_
  refine .bind_value_nil (.ofThrow (Throw.yields_chains.mpr ⟨parts, grows, rfl⟩) rfl) ?_
  exact .done rfl

theorem grows_of_rollChains {threshold modifier : Int} {limit : Nat} {chains : Chains}
    (course : (rollChains settled threshold modifier limit).Course Fair dice (.ok chains)) :
    ∃ groups parts, settled.mapM group = .ok groups ∧
      Each (DiceGroup.Grows threshold limit) groups dice parts ∧
      chains = ⟨parts.flatten, modifier⟩ := by
  obtain ⟨groups, asked, course⟩ := Evaluation.course_ofExcept_bind.mp course
  obtain ⟨_, thrown, rfl⟩ := Evaluation.course_bind_pure.mp course
  obtain ⟨parts, grows, rfl⟩ := Throw.yields_chains.mp (Evaluation.course_ofThrow.mp thrown)
  exact ⟨groups, parts, asked, grows, rfl⟩

end Roll

end DiceLanguage
