import DiceLanguage.Dice.Cycle
import DiceLanguage.Dice.Script
import DiceLanguage.Evaluation

namespace DiceLanguage

namespace DiceSource

variable {σ : Type} [DiceSource σ]

inductive Becomes : σ → σ → Prop where
  | refl (source : σ) : Becomes source source
  | next {source later : σ} (sides : Int) (rest : Becomes (next sides source).2 later) :
    Becomes source later

/-- All dice that the source will give stand in the relation to the sides asked for. -/
def Supplies (good : Int → Die → Prop) (source : σ) : Prop :=
  ∀ later, Becomes source later →
    ∀ sides die, (next sides later).1 = .ok die → good sides die

def Honest (source : σ) : Prop := Supplies (fun sides die => die.sides = sides) source

variable {good : Int → Die → Prop}

theorem Supplies.next {source : σ} (promise : Supplies good source) (sides : Int) :
    Supplies good (next sides source).2 :=
  fun later requests => promise later (.next sides requests)

theorem Supplies.given {source later : σ} {sides : Int} {die : Die}
    (promise : Supplies good source) (given : DiceSource.next sides source = (.ok die, later)) :
    good sides die :=
  promise source (.refl source) sides die (by rw [given])

theorem Supplies.later {source later : σ} {sides : Int} {answer : Except RollError Die}
    (promise : Supplies good source) (given : DiceSource.next sides source = (answer, later)) :
    Supplies good later := by
  have kept := promise.next sides
  rw [given] at kept
  exact kept

theorem supplies_of_kept (holds : σ → Prop)
    (kept : ∀ source sides, holds source → holds (DiceSource.next sides source).2)
    (given : ∀ source sides die, holds source → (DiceSource.next sides source).1 = .ok die →
      good sides die) {source : σ} (start : holds source) : Supplies good source := by
  intro later becomes
  induction becomes with
  | refl source => exact fun sides die => given source sides die start
  | next sides rest ih => exact ih (kept _ sides start)

theorem supplies_of_next
    (each : ∀ (source : σ) sides die, (DiceSource.next sides source).1 = .ok die → good sides die)
    (source : σ) : Supplies good source :=
  supplies_of_kept (fun _ => True) (fun _ _ _ => trivial)
    (fun source sides die _ => each source sides die) trivial

theorem supplies_any (source : σ) : Supplies (fun _ _ => True) source :=
  fun _ _ _ _ _ => trivial

theorem draw_succ_ok {sides : Int} {n : Nat} {source final : σ} {dice : List Die} :
    draw sides (n + 1) source = (.ok dice, final) ↔
      ∃ die rest middle, next sides source = (.ok die, middle) ∧
        draw sides n middle = (.ok rest, final) ∧ dice = die :: rest := by
  rw [draw]
  rcases next sides source with ⟨error | die, middle⟩
  · simp
  · rcases taken : draw sides n middle with ⟨error | rest, last⟩
    · simp [taken]
    · simp only [taken]
      constructor
      · intro same
        cases same
        exact ⟨die, rest, middle, rfl, taken, rfl⟩
      · intro parts
        obtain ⟨die', rest', middle', first, others, same⟩ := parts
        cases first
        rw [taken] at others
        cases others
        rw [same]

theorem draw_length {sides : Int} {n : Nat} {source final : σ} {dice : List Die}
    (drawn : draw sides n source = (.ok dice, final)) : dice.length = n := by
  induction n generalizing source dice with
  | zero => cases drawn; rfl
  | succ n ih =>
    obtain ⟨die, rest, middle, -, others, rfl⟩ := draw_succ_ok.mp drawn
    rw [List.length_cons, ih others]

theorem Supplies.draw {sides : Int} {n : Nat} {source final : σ} {dice : List Die}
    (promise : Supplies good source) (drawn : draw sides n source = (.ok dice, final)) :
    (∀ die ∈ dice, good sides die) ∧ Supplies good final := by
  induction n generalizing source dice with
  | zero => cases drawn; exact ⟨by simp, promise⟩
  | succ n ih =>
    obtain ⟨die, rest, middle, first, others, rfl⟩ := draw_succ_ok.mp drawn
    have tail := ih (promise.later first) others
    constructor
    · intro die member
      rcases List.mem_cons.mp member with rfl | member
      · exact promise.given first
      · exact tail.1 die member
    · exact tail.2

end DiceSource

theorem Script.supplies {good : Int → Die → Prop} {dice : List Die}
    (all : ∀ die ∈ dice, good die.sides die) : DiceSource.Supplies good (⟨dice⟩ : Script) := by
  refine DiceSource.supplies_of_kept (fun script => ∀ die ∈ script.dice, good die.sides die)
    ?_ ?_ all
  · intro script sides all
    obtain ⟨_ | ⟨die, rest⟩⟩ := script
    · exact all
    · have others := (List.forall_mem_cons.mp all).2
      change ∀ other ∈ (Script.next sides ⟨die :: rest⟩).2.dice, good other.sides other
      simp only [Script.next]
      split
      · exact others
      · exact others
  · intro script sides given all taken
    obtain ⟨_ | ⟨die, rest⟩⟩ := script
    · cases taken
    · have first := (List.forall_mem_cons.mp all).1
      change (Script.next sides ⟨die :: rest⟩).1 = .ok given at taken
      simp only [Script.next] at taken
      split at taken
      · rename_i same
        cases taken
        rwa [same] at first
      · cases taken

theorem Cycle.honest (cycle : Cycle) : DiceSource.Honest cycle := by
  apply DiceSource.supplies_of_next
  intro cycle sides die given
  cases given
  rfl

end DiceLanguage
