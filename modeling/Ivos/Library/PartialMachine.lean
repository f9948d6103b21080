/-
Module: Ivos.Library.PartialMachine
Purpose: Deterministic machines whose labelled steps may be disabled, with
  reachability under a restriction on the steps and the invariant rule.
Trusted boundary: none
Main exports: PartialMachine, PartialMachine.Reached, PartialMachine.runWithin,
  PartialMachine.Reached.invariant, PartialMachine.exists_reached_of_any
-/
import Mathlib.Logic.Basic

namespace Ivos

universe stateLevel labelLevel

/-- A machine whose step is a function of the state and of a label.  The label
carries every choice the environment makes; `none` means that the label is not
possible in that state. -/
structure PartialMachine (State : Type stateLevel) (Label : Type labelLevel) where
  step : State → Label → Option State

namespace PartialMachine

variable {State : Type stateLevel} {Label : Type labelLevel}

/-- The states that runs from `start` reach when every step taken satisfies
`allowed` in the state before it. -/
inductive Reached (machine : PartialMachine State Label) (allowed : State → Label → Prop)
    (start : State) : State → Prop where
  | start : Reached machine allowed start start
  | step {before after : State} {label : Label}
      (reached : Reached machine allowed start before)
      (permitted : allowed before label)
      (stepped : machine.step before label = some after) :
      Reached machine allowed start after

/-- No restriction on the steps. -/
def anyStep (_ : State) (_ : Label) : Prop := True

/-- Run a finite list of labels, stopping with `none` at the first one that is
disabled or not allowed. -/
def runWithin (machine : PartialMachine State Label) (allowed : State → Label → Prop)
    [∀ state label, Decidable (allowed state label)] : State → List Label → Option State
  | state, [] => some state
  | state, label :: rest =>
      if allowed state label then
        (machine.step state label).bind fun next => machine.runWithin allowed next rest
      else none

instance (state : State) (label : Label) : Decidable (anyStep state label) :=
  inferInstanceAs (Decidable True)

namespace Reached

variable {machine : PartialMachine State Label} {allowed : State → Label → Prop}
  {start state : State}

/-- The invariant rule: what holds at the start and is preserved by every
permitted step holds in every state reached. -/
theorem invariant {property : State → Prop} (initially : property start)
    (preserved : ∀ before label after, property before → allowed before label →
      machine.step before label = some after → property after)
    (reached : Reached machine allowed start state) : property state := by
  induction reached with
  | start => exact initially
  | step _ permitted stepped inductionHypothesis =>
      exact preserved _ _ _ inductionHypothesis permitted stepped

/-- Weakening the restriction keeps every state reachable. -/
theorem weaken {weaker : State → Label → Prop}
    (implied : ∀ before label, allowed before label → weaker before label)
    (reached : Reached machine allowed start state) :
    Reached machine weaker start state := by
  induction reached with
  | start => exact .start
  | step _ permitted stepped inductionHypothesis =>
      exact .step inductionHypothesis (implied _ _ permitted) stepped

/-- Reachability composes. -/
theorem trans {middle : State} (first : Reached machine allowed start middle)
    (second : Reached machine allowed middle state) :
    Reached machine allowed start state := by
  induction second with
  | start => exact first
  | step _ permitted stepped inductionHypothesis =>
      exact .step inductionHypothesis permitted stepped

end Reached

/-- The first step of a run and the run behind it. -/
theorem runWithin_cons {machine : PartialMachine State Label}
    {allowed : State → Label → Prop} [∀ state label, Decidable (allowed state label)]
    {start finish : State} {label : Label} {rest : List Label}
    (ran : machine.runWithin allowed start (label :: rest) = some finish) :
    ∃ next, allowed start label ∧ machine.step start label = some next ∧
      machine.runWithin allowed next rest = some finish := by
  unfold runWithin at ran
  split at ran
  · rename_i permitted
    obtain ⟨next, stepped, ran⟩ := Option.bind_eq_some_iff.mp ran
    exact ⟨next, permitted, stepped, ran⟩
  · cases ran

/-- A run of a list of allowed labels reaches its final state. -/
theorem reached_of_runWithin {machine : PartialMachine State Label}
    {allowed : State → Label → Prop} [∀ state label, Decidable (allowed state label)]
    {start finish : State} {labels : List Label}
    (ran : machine.runWithin allowed start labels = some finish) :
    Reached machine allowed start finish := by
  induction labels generalizing start with
  | nil =>
      cases ran
      exact .start
  | cons label rest inductionHypothesis =>
      obtain ⟨next, permitted, stepped, ran⟩ := runWithin_cons ran
      exact (Reached.step .start permitted stepped).trans (inductionHypothesis ran)

/-- A run of labels that are allowed in every state. -/
theorem reached_of_permitted_labels {machine : PartialMachine State Label}
    {allowed : State → Label → Prop} {start finish : State} {labels : List Label}
    (permitted : ∀ label ∈ labels, ∀ state, allowed state label)
    (ran : machine.runWithin anyStep start labels = some finish) :
    Reached machine allowed start finish := by
  induction labels generalizing start with
  | nil =>
      cases ran
      exact .start
  | cons label rest inductionHypothesis =>
      obtain ⟨next, -, stepped, ran⟩ := runWithin_cons ran
      have first := Reached.step .start (permitted label List.mem_cons_self start) stepped
      exact first.trans (inductionHypothesis (fun other member =>
        permitted other (.tail _ member)) ran)

/-- A run checked by evaluation ends in a state with the property checked. -/
theorem exists_run_of_any (machine : PartialMachine State Label)
    (allowed : State → Label → Prop) [∀ state label, Decidable (allowed state label)]
    (start : State) (labels : List Label) (property : State → Prop) [DecidablePred property]
    (ran : (machine.runWithin allowed start labels).any (fun state => property state) = true) :
    ∃ finish, machine.runWithin allowed start labels = some finish ∧ property finish := by
  rw [Option.any_eq_true_iff_get] at ran
  obtain ⟨isSome, holds⟩ := ran
  exact ⟨_, (Option.some_get isSome).symm, of_decide_eq_true holds⟩

/-- Such a run reaches the state. -/
theorem exists_reached_of_any (machine : PartialMachine State Label)
    (allowed : State → Label → Prop) [∀ state label, Decidable (allowed state label)]
    (start : State) (labels : List Label) (property : State → Prop) [DecidablePred property]
    (ran : (machine.runWithin allowed start labels).any (fun state => property state) = true) :
    ∃ finish, Reached machine allowed start finish ∧ property finish := by
  obtain ⟨finish, ran, holds⟩ := machine.exists_run_of_any allowed start labels property ran
  exact ⟨finish, reached_of_runWithin ran, holds⟩

end PartialMachine

end Ivos
