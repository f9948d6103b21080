/-
Module: Ivos.Library.BoundedResponse
Purpose: Finite runs of a machine with their transitions, and the rule that a falling
  measure bounds how long a goal can be put off.
Trusted boundary: none
Main exports: Transition, PartialMachine.Path, PartialMachine.Path.of_runWithin,
  PartialMachine.Path.measure_pays, PartialMachine.Path.cost_until,
  PartialMachine.Path.goal_within
-/
import Ivos.Library.PartialMachine
import Mathlib.Algebra.GroupWithZero.Nat
import Mathlib.Data.List.Basic

namespace Ivos

universe stateLevel labelLevel

/-- One step of a run. -/
structure Transition (State : Type stateLevel) (Label : Type labelLevel) where
  before : State
  label : Label
  after : State

namespace PartialMachine

variable {State : Type stateLevel} {Label : Type labelLevel}

/-- The transitions of a run from one state to another, when every step satisfies
`allowed` in the state before it. -/
inductive Path (machine : PartialMachine State Label) (allowed : State → Label → Prop) :
    State → List (Transition State Label) → State → Prop where
  | nil {state : State} : Path machine allowed state [] state
  | cons {before middle after : State} {label : Label} {rest : List (Transition State Label)}
      (permitted : allowed before label) (stepped : machine.step before label = some middle)
      (later : Path machine allowed middle rest after) :
      Path machine allowed before (⟨before, label, middle⟩ :: rest) after

namespace Path

variable {machine : PartialMachine State Label} {allowed : State → Label → Prop}
  {start finish : State} {steps : List (Transition State Label)}

/-- A path leads to a reachable state. -/
theorem reached (path : machine.Path allowed start steps finish) :
    machine.Reached allowed start finish := by
  induction path with
  | nil => exact .start
  | cons permitted stepped _ inductionHypothesis =>
      exact (Reached.step .start permitted stepped).trans inductionHypothesis

/-- Weakening the restriction keeps a path. -/
theorem weaken {weaker : State → Label → Prop}
    (implied : ∀ before label, allowed before label → weaker before label)
    (path : machine.Path allowed start steps finish) :
    machine.Path weaker start steps finish := by
  induction path with
  | nil => exact .nil
  | cons permitted stepped _ inductionHypothesis =>
      exact .cons (implied _ _ permitted) stepped inductionHypothesis

/-- Every transition of a path is an allowed step. -/
theorem permitted_of_mem (path : machine.Path allowed start steps finish)
    {transition : Transition State Label} (member : transition ∈ steps) :
    allowed transition.before transition.label ∧
      machine.step transition.before transition.label = some transition.after := by
  induction path with
  | nil => cases member
  | cons permitted stepped _ inductionHypothesis =>
      rcases List.mem_cons.mp member with rfl | later
      · exact ⟨permitted, stepped⟩
      · exact inductionHypothesis later

/-- A run of a list of allowed labels is a path with these labels. -/
theorem of_runWithin [∀ state label, Decidable (allowed state label)] {labels : List Label}
    (ran : machine.runWithin allowed start labels = some finish) :
    ∃ steps, machine.Path allowed start steps finish ∧ steps.map Transition.label = labels := by
  induction labels generalizing start with
  | nil =>
      cases ran
      exact ⟨[], .nil, rfl⟩
  | cons label rest inductionHypothesis =>
      obtain ⟨next, permitted, stepped, ran⟩ := runWithin_cons ran
      obtain ⟨steps, path, labelled⟩ := inductionHypothesis ran
      exact ⟨_, .cons permitted stepped path, congrArg (label :: ·) labelled⟩

/-! ### Measures -/

section Measures

variable (invariant : State → Prop) (measure : State → Nat) {cost : Transition State Label → Nat}
  {goal : Transition State Label → Prop}

/-- As long as the goal is put off, the measure pays for every step. -/
theorem measure_pays
    (pays : ∀ transition : Transition State Label, allowed transition.before transition.label →
      machine.step transition.before transition.label = some transition.after →
        invariant transition.before → ¬ goal transition →
          invariant transition.after ∧
            measure transition.after + cost transition ≤ measure transition.before)
    (path : machine.Path allowed start steps finish) (initially : invariant start)
    (waiting : ∀ transition ∈ steps, ¬ goal transition) :
    invariant finish ∧ measure finish + (steps.map cost).sum ≤ measure start := by
  induction path with
  | nil => exact ⟨initially, Nat.le_refl _⟩
  | cons permitted stepped _ inductionHypothesis =>
      obtain ⟨kept, paid⟩ := pays _ permitted stepped initially (waiting _ List.mem_cons_self)
      obtain ⟨invariantAfter, paidLater⟩ := inductionHypothesis kept
        fun transition later => waiting transition (List.mem_cons_of_mem _ later)
      refine ⟨invariantAfter, ?_⟩
      rw [List.map_cons, List.sum_cons]
      dsimp only at paid
      omega

/-- The steps up to the goal, with the one that reaches it, cost no more than the
measure. -/
theorem cost_until
    (pays : ∀ transition : Transition State Label, allowed transition.before transition.label →
      machine.step transition.before transition.label = some transition.after →
        invariant transition.before → ¬ goal transition →
          invariant transition.after ∧
            measure transition.after + cost transition ≤ measure transition.before)
    (affords : ∀ transition : Transition State Label, allowed transition.before transition.label →
      machine.step transition.before transition.label = some transition.after →
        invariant transition.before → cost transition ≤ measure transition.before)
    (path : machine.Path allowed start steps finish) (initially : invariant start)
    (waiting : ∀ transition ∈ steps.dropLast, ¬ goal transition) :
    (steps.map cost).sum ≤ measure start := by
  induction path with
  | nil => exact Nat.zero_le _
  | @cons before middle after label rest permitted stepped later inductionHypothesis =>
      rw [List.map_cons, List.sum_cons]
      cases rest with
      | nil => exact affords _ permitted stepped initially
      | cons next rest =>
          rw [List.dropLast_cons_cons] at waiting
          obtain ⟨kept, paid⟩ := pays _ permitted stepped initially (waiting _ List.mem_cons_self)
          have paidLater := inductionHypothesis kept
            fun transition member => waiting transition (List.mem_cons_of_mem _ member)
          dsimp only at paid
          omega

/-- A run that costs more than the measure reaches the goal. -/
theorem goal_within
    (pays : ∀ transition : Transition State Label, allowed transition.before transition.label →
      machine.step transition.before transition.label = some transition.after →
        invariant transition.before → ¬ goal transition →
          invariant transition.after ∧
            measure transition.after + cost transition ≤ measure transition.before)
    (path : machine.Path allowed start steps finish) (initially : invariant start)
    (enough : measure start < (steps.map cost).sum) : ∃ transition ∈ steps, goal transition := by
  by_contra waiting
  push Not at waiting
  have paid := (path.measure_pays invariant measure pays initially waiting).2
  omega

end Measures

end Path

end PartialMachine

end Ivos
