import DiceLanguage.Execute
import DiceLanguage.Proofs.Dice.Observed

namespace DiceLanguage

open DiceSource

variable {σ α β : Type} {good : Int → Die → Prop}

/-- A source may answer the throw with the dice, and it then comes to the result. -/
inductive Throw.Yields (good : Int → Die → Prop) : Throw α → List Die → α → Prop where
  | done (result : α) : Yields good (.done result) [] result
  | one {sides : Int} {next : Die → Throw α} {die : Die} {dice : List Die} {result : α}
    (sided : 1 ≤ sides) (given : good sides die) (rest : (next die).Yields good dice result) :
    Yields good (.one sides next) (die :: dice) result
  | many {count sides : Int} {next : List Die → Throw α} {fallen dice : List Die} {result : α}
    (counted : fallen.length = count) (nonempty : fallen ≠ []) (sided : 1 ≤ sides)
    (given : ∀ die ∈ fallen, good sides die) (rest : (next fallen).Yields good dice result) :
    Yields good (.many count sides next) (fallen ++ dice) result

/-- The evaluation comes to the result where its throws are answered with the dice. -/
inductive Evaluation.Course (good : Int → Die → Prop) :
    Evaluation α → List Die → Except EvalError α → Prop where
  | done (value : α) : Course good (.done value) [] (.ok value)
  | fail (error : EvalError) : Course good (.fail error) [] (.error error)
  | throwing {β : Type} {throw : Throw β} {record : β → List Die} {next : β → Evaluation α}
    {dice later : List Die} {reached : β} {result : Except EvalError α}
    (thrown : throw.Yields good dice reached) (rest : (next reached).Course good later result) :
    Course good (.throwing throw record next) (dice ++ later) result

namespace Throw

theorem yields_pure {a b : α} {dice : List Die} :
    (pure a : Throw α).Yields good dice b ↔ dice = [] ∧ b = a := by
  constructor
  · intro yields
    cases yields
    exact ⟨rfl, rfl⟩
  · intro ends
    obtain ⟨empty, same⟩ := ends
    subst empty same
    exact .done b

theorem yields_bind {throw : Throw α} {next : α → Throw β} {dice : List Die} {result : β} :
    (throw >>= next).Yields good dice result ↔ ∃ before reached later, dice = before ++ later ∧
      throw.Yields good before reached ∧ (next reached).Yields good later result := by
  change (throw.bind next).Yields good dice result ↔ _
  induction throw generalizing dice with
  | done value =>
    constructor
    · intro yields
      exact ⟨[], value, dice, rfl, .done value, yields⟩
    · intro reaches
      obtain ⟨before, reached, later, same, first, rest⟩ := reaches
      cases first
      rwa [same]
  | refuse error =>
    constructor
    · nofun
    · intro reaches
      obtain ⟨_, _, _, _, first, _⟩ := reaches
      cases first
  | one sides following ih =>
    constructor
    · intro yields
      cases yields with
      | one sided given rest =>
        obtain ⟨before, reached, later, rfl, first, rest⟩ := (ih _).mp rest
        exact ⟨_ :: before, reached, later, rfl, .one sided given first, rest⟩
    · intro reaches
      obtain ⟨before, reached, later, same, first, rest⟩ := reaches
      cases first with
      | one sided given first =>
        subst same
        exact .one sided given ((ih _).mpr ⟨_, reached, later, rfl, first, rest⟩)
  | many count sides following ih =>
    constructor
    · intro yields
      cases yields with
      | many counted nonempty sided given rest =>
        obtain ⟨before, reached, later, rfl, first, rest⟩ := (ih _).mp rest
        exact ⟨_ ++ before, reached, later, (List.append_assoc ..).symm,
          .many counted nonempty sided given first, rest⟩
    · intro reaches
      obtain ⟨before, reached, later, same, first, rest⟩ := reaches
      cases first with
      | many counted nonempty sided given first =>
        subst same
        rw [List.append_assoc]
        exact .many counted nonempty sided given ((ih _).mpr ⟨_, reached, later, rfl, first, rest⟩)

theorem yields_bind_pure {throw : Throw α} {f : α → β} {dice : List Die} {result : β} :
    (throw >>= fun a => pure (f a)).Yields good dice result ↔
      ∃ reached, throw.Yields good dice reached ∧ result = f reached := by
  rw [yields_bind]
  constructor
  · intro yields
    obtain ⟨before, reached, later, rfl, first, last⟩ := yields
    obtain ⟨rfl, rfl⟩ := yields_pure.mp last
    rw [List.append_nil]
    exact ⟨reached, first, rfl⟩
  · intro reaches
    obtain ⟨reached, first, rfl⟩ := reaches
    exact ⟨dice, reached, [], (List.append_nil dice).symm, first, .done (f reached)⟩

theorem yields_die {sides : Int} {dice : List Die} {die : Die} :
    (Throw.die sides).Yields good dice die ↔ dice = [die] ∧ 1 ≤ sides ∧ good sides die := by
  constructor
  · intro yields
    cases yields with
    | one sided given rest =>
      cases rest
      exact ⟨rfl, sided, given⟩
  · intro rolls
    obtain ⟨same, sided, given⟩ := rolls
    subst same
    exact .one sided given (.done die)

theorem yields_group {asked : DiceGroup} {dice fallen : List Die} :
    (Throw.group asked).Yields good dice fallen ↔ dice = fallen ∧ fallen.length = asked.count ∧
      fallen ≠ [] ∧ 1 ≤ asked.sides ∧ ∀ die ∈ fallen, good asked.sides die := by
  constructor
  · intro yields
    cases yields with
    | many counted nonempty sided given rest =>
      cases rest
      exact ⟨List.append_nil _, counted, nonempty, sided, given⟩
  · intro rolls
    obtain ⟨same, counted, nonempty, sided, given⟩ := rolls
    subst same
    have last : Yields good (.done dice) [] dice := .done dice
    have yields := Yields.many counted nonempty sided given last
    rwa [List.append_nil] at yields

theorem Yields.unique {throw : Throw α} {left right left' right' : List Die} {a b : α}
    (first : throw.Yields good left a) (second : throw.Yields good right b)
    (same : left ++ left' = right ++ right') : left = right ∧ a = b := by
  induction first generalizing right with
  | done =>
    cases second
    exact ⟨rfl, rfl⟩
  | one sided given rest ih =>
    cases second with
    | one _ _ rest' =>
      rw [List.cons_append, List.cons_append, List.cons.injEq] at same
      obtain ⟨rfl, same⟩ := same
      obtain ⟨rfl, rfl⟩ := ih rest' same
      exact ⟨rfl, rfl⟩
  | many counted nonempty sided given rest ih =>
    cases second with
    | many counted' _ _ _ rest' =>
      -- The same number of dice was asked for, so the two lists are cut at the same place.
      rw [List.append_assoc, List.append_assoc] at same
      have equal := Int.ofNat.inj (counted.trans counted'.symm)
      obtain ⟨rfl, behind⟩ := List.append_inj same equal
      obtain ⟨rfl, rfl⟩ := ih rest' behind
      exact ⟨rfl, rfl⟩

variable [DiceSource σ]

theorem run_yields {throw : Throw α} {roller final : Roller σ} {dice : List Die} {result : α}
    (promise : Supplies good roller.source) (ran : throw.run roller = (.ok (result, dice), final)) :
    throw.Yields good dice result ∧ Supplies good final.source := by
  induction throw generalizing roller dice with
  | done =>
    cases ran
    exact ⟨.done result, promise⟩
  | refuse => cases ran
  | one sides next ih =>
    obtain ⟨die, later, middle, rolled, went, rfl⟩ := run_one_ok.mp ran
    obtain ⟨sided, charged, source, accepted, taken, rfl⟩ := Roller.rollDie_ok.mp rolled
    rw [Roller.charge_source accepted] at taken
    obtain ⟨rest, kept⟩ := ih die (promise.later taken) went
    exact ⟨.one (Int.not_lt.mp sided) (promise.given taken) rest, kept⟩
  | many count sides next ih =>
    obtain ⟨fallen, later, middle, rolled, went, rfl⟩ := run_many_ok.mp ran
    obtain ⟨some, sided, charged, source, accepted, taken, rfl⟩ := Roller.roll_ok.mp rolled
    rw [Roller.charge_source accepted] at taken
    have counted := draw_length taken
    obtain ⟨rest, kept⟩ := ih fallen (promise.draw taken).2 went
    refine ⟨.many ?_ ?_ (Int.not_lt.mp sided) (promise.draw taken).1 rest, kept⟩
    · omega
    · intro empty
      rw [empty, List.length_nil] at counted
      omega

end Throw

namespace Evaluation

variable {evaluation : Evaluation α} {dice : List Die}

theorem course_pure {value : α} {result : Except EvalError α} :
    (pure value : Evaluation α).Course good dice result ↔ dice = [] ∧ result = .ok value := by
  constructor
  · intro course
    cases course
    exact ⟨rfl, rfl⟩
  · intro ends
    obtain ⟨empty, same⟩ := ends
    subst empty same
    exact .done value

theorem course_ofExcept {reached result : Except EvalError α} :
    (ofExcept reached).Course good dice result ↔ dice = [] ∧ result = reached := by
  constructor
  · intro course
    cases reached <;> cases course <;> exact ⟨rfl, rfl⟩
  · intro ends
    obtain ⟨empty, same⟩ := ends
    subst empty same
    cases result
    · exact .fail _
    · exact .done _

theorem course_ofThrow {throw : Throw α} {record : α → List Die} {value : α} :
    (ofThrow throw record).Course good dice (.ok value) ↔ throw.Yields good dice value := by
  constructor
  · intro course
    cases course with
    | throwing thrown rest =>
      cases rest
      rwa [List.append_nil]
  · intro yields
    rw [← List.append_nil dice]
    exact .throwing yields (.done value)

theorem Course.bind {next : α → Evaluation β} {before later : List Die} {value : α}
    {result : Except EvalError β} (first : evaluation.Course good before (.ok value))
    (rest : (next value).Course good later result) :
    (evaluation >>= next).Course good (before ++ later) result := by
  change (evaluation.bind next).Course good _ result
  induction evaluation generalizing before with
  | done =>
    cases first
    exact rest
  | fail => cases first
  | throwing throw record following ih =>
    cases first with
    | throwing thrown first =>
      rw [List.append_assoc]
      exact .throwing thrown (ih _ first)

theorem Course.bind_error {next : α → Evaluation β} {error : EvalError}
    (first : evaluation.Course good dice (.error error)) :
    (evaluation >>= next).Course good dice (.error error) := by
  change (evaluation.bind next).Course good _ _
  induction evaluation generalizing dice with
  | done => cases first
  | fail =>
    cases first
    exact .fail error
  | throwing throw record following ih =>
    cases first with
    | throwing thrown first => exact .throwing thrown (ih _ first)

theorem course_bind {next : α → Evaluation β} {value : β} :
    (evaluation >>= next).Course good dice (.ok value) ↔ ∃ before reached later,
      dice = before ++ later ∧ evaluation.Course good before (.ok reached) ∧
        (next reached).Course good later (.ok value) := by
  constructor
  · intro course
    change (evaluation.bind next).Course good dice _ at course
    induction evaluation generalizing dice with
    | done reached => exact ⟨[], reached, dice, rfl, .done reached, course⟩
    | fail => cases course
    | throwing throw record following ih =>
      cases course with
      | throwing thrown rest =>
        obtain ⟨before, reached, later, rfl, first, rest⟩ := ih _ rest
        exact ⟨_ ++ before, reached, later, (List.append_assoc ..).symm, .throwing thrown first, rest⟩
  · intro reaches
    obtain ⟨before, reached, later, same, first, rest⟩ := reaches
    rw [same]
    exact first.bind rest

theorem course_bind_pure {f : α → β} {value : β} :
    (evaluation >>= fun a => pure (f a)).Course good dice (.ok value) ↔
      ∃ reached, evaluation.Course good dice (.ok reached) ∧ value = f reached := by
  rw [course_bind]
  constructor
  · intro course
    obtain ⟨before, reached, later, rfl, first, last⟩ := course
    obtain ⟨rfl, same⟩ := course_pure.mp last
    rw [List.append_nil]
    exact ⟨reached, first, Except.ok.inj same⟩
  · intro reaches
    obtain ⟨reached, first, rfl⟩ := reaches
    exact ⟨dice, reached, [], (List.append_nil dice).symm, first, .done (f reached)⟩

theorem course_bind_ofExcept {f : α → Except EvalError β} {value : β} :
    (evaluation >>= fun a => ofExcept (f a)).Course good dice (.ok value) ↔
      ∃ reached, evaluation.Course good dice (.ok reached) ∧ f reached = .ok value := by
  rw [course_bind]
  constructor
  · intro course
    obtain ⟨before, reached, later, rfl, first, last⟩ := course
    obtain ⟨rfl, same⟩ := course_ofExcept.mp last
    rw [List.append_nil]
    exact ⟨reached, first, same.symm⟩
  · intro reaches
    obtain ⟨reached, first, same⟩ := reaches
    exact ⟨dice, reached, [], (List.append_nil dice).symm, first,
      course_ofExcept.mpr ⟨rfl, same.symm⟩⟩

theorem course_ofExcept_bind {reached : Except EvalError α} {next : α → Evaluation β} {value : β} :
    (ofExcept reached >>= next).Course good dice (.ok value) ↔
      ∃ a, reached = .ok a ∧ (next a).Course good dice (.ok value) := by
  rw [course_bind]
  constructor
  · intro course
    obtain ⟨before, a, later, rfl, first, rest⟩ := course
    obtain ⟨rfl, same⟩ := course_ofExcept.mp first
    exact ⟨a, same.symm, rest⟩
  · intro rest
    obtain ⟨a, same, rest⟩ := rest
    exact ⟨[], a, dice, rfl, course_ofExcept.mpr ⟨rfl, same.symm⟩, rest⟩

theorem Course.unique {left right left' right' : List Die} {a b : Except EvalError α}
    (first : evaluation.Course good left a) (second : evaluation.Course good right b)
    (same : left ++ left' = right ++ right') : left = right ∧ a = b := by
  induction first generalizing right with
  | done | fail =>
    cases second
    exact ⟨rfl, rfl⟩
  | throwing thrown rest ih =>
    cases second with
    | throwing thrown' rest' =>
      rw [List.append_assoc, List.append_assoc] at same
      obtain ⟨rfl, rfl⟩ := thrown.unique thrown' same
      obtain ⟨rfl, rfl⟩ := ih rest' (List.append_cancel_left same)
      exact ⟨rfl, rfl⟩

end Evaluation

def Throw.On (throw : Throw α) (dice : List Die) (result : α) : Prop :=
  throw.Yields (fun _ _ => True) dice result

/-- Whatever dice may fall, the evaluation comes to the value when these fall. -/
def Evaluation.On (evaluation : Evaluation α) (dice : List Die) (value : α) : Prop :=
  evaluation.Course (fun _ _ => True) dice (.ok value)

theorem Evaluation.On.unique {evaluation : Evaluation α} {before later before' later' : List Die}
    {a b : α} (first : evaluation.On before a) (second : evaluation.On before' b)
    (cut : before ++ later = before' ++ later') : before = before' ∧ a = b := by
  obtain ⟨rfl, same⟩ := Course.unique first second cut
  exact ⟨rfl, Except.ok.inj same⟩

theorem Evaluation.On.same {evaluation : Evaluation α} {dice : List Die} {a b : α}
    (first : evaluation.On dice a) (second : evaluation.On dice b) : a = b :=
  (first.unique second (rfl : dice ++ [] = dice ++ [])).2

/-- The relation holds for each element of a list, with dice of its own, and something it gives. -/
inductive Each (R : α → List Die → β → Prop) : List α → List Die → List β → Prop where
  | nil : Each R [] [] []
  | cons {a : α} {as : List α} {b : β} {bs : List β} {dice later : List Die} (first : R a dice b)
    (rest : Each R as later bs) : Each R (a :: as) (dice ++ later) (b :: bs)

namespace Each

variable {R S : α → List Die → β → Prop} {as : List α} {bs : List β} {dice : List Die}

theorem imp (each : Each R as dice bs) (weaker : ∀ a ∈ as, ∀ d b, R a d b → S a d b) :
    Each S as dice bs := by
  induction each with
  | nil => exact .nil
  | cons first rest ih =>
    exact .cons (weaker _ List.mem_cons_self _ _ first)
      (ih fun a member => weaker a (List.mem_cons_of_mem _ member))

theorem exists_of_mem (each : Each R as dice bs) {b : β} (member : b ∈ bs) :
    ∃ a ∈ as, ∃ d, R a d b := by
  induction each with
  | nil => cases member
  | cons first rest ih =>
    rcases List.mem_cons.mp member with rfl | member
    · exact ⟨_, List.mem_cons_self, _, first⟩
    · obtain ⟨a, member, d, related⟩ := ih member
      exact ⟨a, List.mem_cons_of_mem _ member, d, related⟩

theorem ne_nil (each : Each R as dice bs) (nonempty : as ≠ []) : bs ≠ [] := by
  cases each with
  | nil => exact absurd rfl nonempty
  | cons => exact List.cons_ne_nil _ _

theorem flatMap_eq {f : β → List Die} (each : Each R as dice bs)
    (whole : ∀ a d b, R a d b → f b = d) : bs.flatMap f = dice := by
  induction each with
  | nil => rfl
  | cons first rest ih => rw [List.flatMap_cons, whole _ _ _ first, ih]

theorem unique {bs' : List β} {before later before' later' : List Die}
    (each : Each R as before bs) (each' : Each R as before' bs')
    (cut : before ++ later = before' ++ later')
    (single : ∀ a d b d' b' rest rest', R a d b → R a d' b' → d ++ rest = d' ++ rest' →
      d = d' ∧ b = b') : before = before' ∧ bs = bs' := by
  induction each generalizing before' bs' with
  | nil =>
    cases each'
    exact ⟨rfl, rfl⟩
  | cons first rest ih =>
    cases each' with
    | cons first' rest' =>
      rw [List.append_assoc, List.append_assoc] at cut
      obtain ⟨rfl, rfl⟩ := single _ _ _ _ _ _ _ first first' cut
      obtain ⟨rfl, rfl⟩ := ih rest' (List.append_cancel_left cut)
      exact ⟨rfl, rfl⟩

theorem mapM_iff {m : Type → Type u} [Monad m] [LawfulMonad m] {f : α → m β}
    (comes : {γ : Type} → m γ → List Die → γ → Prop)
    (ofPure : ∀ {γ : Type} {c d : γ} {dice}, comes (pure c) dice d ↔ dice = [] ∧ d = c)
    (ofBind : ∀ {γ δ : Type} {first : m γ} {next : γ → m δ} {dice result},
      comes (first >>= next) dice result ↔ ∃ before reached later, dice = before ++ later ∧
        comes first before reached ∧ comes (next reached) later result) :
    comes (as.mapM f) dice bs ↔ Each (fun a d b => comes (f a) d b) as dice bs := by
  induction as generalizing dice bs with
  | nil =>
    rw [List.mapM_nil, ofPure]
    constructor
    · intro nothing
      obtain ⟨rfl, rfl⟩ := nothing
      exact .nil
    · intro each
      cases each
      exact ⟨rfl, rfl⟩
  | cons a as ih =>
    rw [List.mapM_cons, ofBind]
    constructor
    · intro each
      obtain ⟨before, b, later, rfl, first, others⟩ := each
      obtain ⟨_, bs', _, rfl, rest, last⟩ := ofBind.mp others
      obtain ⟨rfl, rfl⟩ := ofPure.mp last
      rw [List.append_nil]
      exact .cons first (ih.mp rest)
    · intro each
      cases each with
      | cons first rest =>
        refine ⟨_, _, _, rfl, first, ofBind.mpr ⟨_, _, [], ?_, ih.mpr rest, ofPure.mpr ⟨rfl, rfl⟩⟩⟩
        exact (List.append_nil _).symm

theorem mapM_yields {f : α → Throw β} : (as.mapM f).Yields good dice bs ↔
    Each (fun a d b => (f a).Yields good d b) as dice bs :=
  mapM_iff (Throw.Yields good) Throw.yields_pure Throw.yields_bind

theorem mapM_course {f : α → Evaluation β} : (as.mapM f).Course good dice (.ok bs) ↔
    Each (fun a d b => (f a).Course good d (.ok b)) as dice bs :=
  mapM_iff (fun evaluation dice value => Evaluation.Course good evaluation dice (.ok value))
    (by simp [Evaluation.course_pure]) Evaluation.course_bind

end Each

end DiceLanguage
