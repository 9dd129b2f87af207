import LocalProvisioner.Interleaving
import Mathlib.Data.Finset.Card

namespace Interleaving

/-!
# Inevitable states

A state is inevitable if every run that goes on as long as it can gets there,
whatever the order of its steps.  Two facts make it so: until it is there, some
step can be taken, and every step brings the end of the run nearer.

Where some of the steps may fail, the goal is still reached, later by the steps
that it takes to make up for them.
-/

variable {State Action : Type}

/-- Every run from here that goes on as long as it can reaches the goal. -/
inductive Inevitable
    (step : State → Action → Option State)
    (goal : State → Prop) :
    State → Prop
  | reached {state : State} :
      goal state →
      Inevitable step goal state
  | onward {state : State} :
      (∃ action next, step state action = some next) →
      (∀ action next,
        step state action = some next →
        Inevitable step goal next) →
      Inevitable step goal state

namespace Inevitable

variable {step : State → Action → Option State}
variable {goal : State → Prop}

/-- A goal is inevitable if runs cannot stop before it and cannot go on for ever. -/
theorem of_measure
    {holds : State → Prop}
    (measure : State → Nat)
    (preserved :
      ∀ state action next,
        holds state →
        step state action = some next →
        holds next)
    (decreases :
      ∀ state action next,
        holds state →
        step state action = some next →
        measure next < measure state)
    (progress :
      ∀ state,
        holds state →
        goal state ∨ ∃ action next, step state action = some next)
    {state : State}
    (initially : holds state) :
    Inevitable step goal state := by
  generalize bound : measure state = size
  induction size using Nat.strongRecOn generalizing state with
  | ind size ih =>
      subst bound
      rcases progress state initially with isGoal | enabled
      · exact .reached isGoal
      · refine .onward enabled ?_
        intro action next stepped
        exact ih (measure next) (decreases state action next initially stepped)
          (preserved state action next initially stepped) rfl

theorem mono
    {weaker : State → Prop}
    {state : State}
    (inevitable : Inevitable step goal state)
    (implies : ∀ state, goal state → weaker state) :
    Inevitable step weaker state := by
  induction inevitable with
  | reached isGoal => exact .reached (implies _ isGoal)
  | onward enabled _ ih => exact .onward enabled ih

end Inevitable

/--
A measure that a step brings down, and that a faulty step raises by one at
most, is brought down to zero by enough steps.
-/
theorem exists_arrival_of_faults
    {measure : Nat → Nat}
    {faulty : Finset Nat}
    {bound : Nat}
    (decreases :
      ∀ time < bound,
        time ∉ faulty →
        measure time ≠ 0 →
        measure (time + 1) < measure time)
    (limited : ∀ time < bound, measure (time + 1) ≤ measure time + 1)
    (away : measure 0 ≠ 0)
    (enough : measure 0 + 2 * faulty.card ≤ bound) :
    ∃ time < bound, measure time ≠ 0 ∧ measure (time + 1) = 0 := by
  by_contra never
  have positive : ∀ time ≤ bound, measure time ≠ 0 := by
    intro time
    induction time with
    | zero => exact fun _ => away
    | succ time ih =>
        intro early isZero
        exact never ⟨time, early, ih (by omega), isZero⟩
  -- every step but the faulty ones is paid for by the measure
  have paid :
      ∀ time ≤ bound,
        measure time + time ≤
          measure 0 + 2 * (faulty.filter (· < time)).card := by
    intro time
    induction time with
    | zero =>
        intro _
        omega
    | succ time ih =>
        intro early
        have earlier := ih (by omega)
        have subset :
            faulty.filter (· < time) ⊆ faulty.filter (· < time + 1) := by
          intro other member
          rw [Finset.mem_filter] at member ⊢
          exact ⟨member.1, by omega⟩
        by_cases isFaulty : time ∈ faulty
        · have more :
              (faulty.filter (· < time)).card <
                (faulty.filter (· < time + 1)).card := by
            apply Finset.card_lt_card
            refine ⟨subset, fun back => ?_⟩
            have inside : time ∈ faulty.filter (· < time + 1) :=
              Finset.mem_filter.mpr ⟨isFaulty, by omega⟩
            have outside := (Finset.mem_filter.mp (back inside)).2
            omega
          have raised := limited time (by omega)
          omega
        · have noFewer := Finset.card_le_card subset
          have lowered :=
            decreases time (by omega) isFaulty (positive time (by omega))
          omega
  have total := paid bound (le_refl _)
  have all : (faulty.filter (· < bound)).card ≤ faulty.card :=
    Finset.card_filter_le _ _
  exact positive bound (le_refl _) (by omega)

end Interleaving
