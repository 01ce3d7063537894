import DiceLanguage.Dice.Roller

namespace DiceLanguage

/-- A course of requests for dice that ends with a result or with a refusal of its own. -/
inductive Throw (α : Type) where
  | done (result : α)
  | refuse (error : RollError)
  | one (sides : Int) (next : Die → Throw α)
  | many (count sides : Int) (next : List Die → Throw α)

namespace Throw

variable {α β γ : Type}

def bind : Throw α → (α → Throw β) → Throw β
  | done result, f => f result
  | refuse error, _ => refuse error
  | one sides next, f => one sides fun die => (next die).bind f
  | many count sides next, f => many count sides fun dice => (next dice).bind f

instance : Monad Throw where
  pure := done
  bind := bind

theorem bind_done (throw : Throw α) : throw.bind done = throw := by
  induction throw with
  | done | refuse => rfl
  | one sides next ih => simp only [bind, ih]
  | many count sides next ih => simp only [bind, ih]

theorem bind_assoc (throw : Throw α) (f : α → Throw β) (g : β → Throw γ) :
    (throw.bind f).bind g = throw.bind fun a => (f a).bind g := by
  induction throw with
  | done | refuse => rfl
  | one sides next ih => simp only [bind, ih]
  | many count sides next ih => simp only [bind, ih]

instance : LawfulMonad Throw :=
  LawfulMonad.mk' Throw bind_done (fun _ _ => rfl) bind_assoc

/-- Throws the dice with a roller. A throw that succeeds also gives the dice that fell, in the order
in which they were drawn. -/
def run {σ : Type} [DiceSource σ] :
    Throw α → Roller σ → Except RollError (α × List Die) × Roller σ
  | done result, roller => (.ok (result, []), roller)
  | refuse error, roller => (.error error, roller)
  | one sides next, roller =>
    match roller.rollDie sides with
    | (.error e, roller) => (.error e, roller)
    | (.ok die, roller) =>
      match (next die).run roller with
      | (.error e, roller) => (.error e, roller)
      | (.ok (result, dice), roller) => (.ok (result, die :: dice), roller)
  | many count sides next, roller =>
    match roller.roll count sides with
    | (.error e, roller) => (.error e, roller)
    | (.ok dice, roller) =>
      match (next dice).run roller with
      | (.error e, roller) => (.error e, roller)
      | (.ok (result, later), roller) => (.ok (result, dice ++ later), roller)

def die (sides : Int) : Throw Die := one sides done

def group (group : DiceGroup) : Throw (List Die) := many group.count group.sides done

def groups (groups : List DiceGroup) : Throw (List (List Die)) := groups.mapM group

/-- The same throw `n` times more. The results so far are given from the last to the first. -/
def timesMore (throw : Throw α) : Nat → List α → Throw (List α)
  | 0, before => return before.reverse
  | n + 1, before => do
    let result ← throw
    throw.timesMore n (result :: before)

def times (throw : Throw α) (n : Nat) : Throw (List α) := throw.timesMore n []

theorem timesMore_eq (throw : Throw α) (n : Nat) (before : List α) :
    throw.timesMore n before = (before.reverse ++ ·) <$> throw.times n := by
  induction n generalizing before with
  | zero => simp only [times, timesMore, map_pure, List.reverse_nil, List.append_nil]
  | succ n ih =>
    simp only [times, timesMore, map_bind]
    refine bind_congr fun result => ?_
    rw [ih (result :: before), ih [result], Functor.map_map]
    simp only [List.reverse_cons, List.reverse_nil, List.nil_append, List.append_assoc]

theorem times_zero (throw : Throw α) : throw.times 0 = pure [] := rfl

theorem times_succ (throw : Throw α) (n : Nat) :
    throw.times (n + 1) = throw >>= fun result => (result :: ·) <$> throw.times n :=
  bind_congr fun result => timesMore_eq throw n [result]

end Throw

end DiceLanguage
