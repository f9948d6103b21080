/-
Module: Ivos.Library.ForwardSimulation
Purpose: When the runs of a machine are runs of a more abstract one, by a relation
  between their states that every step keeps.
Trusted boundary: none
Main exports: Simulates, Simulates.reached, PartialMachine.Trace, Lockstep,
  Lockstep.trace
-/
import Ivos.Library.PartialMachine

namespace Ivos

universe stateLevel labelLevel abstractLevel actionLevel

variable {State : Type stateLevel} {Label : Type labelLevel} {Abstract : Type abstractLevel}
  {Action : Type actionLevel}

/-- An allowed step of the machine is matched by permitted steps of the abstract one, none
at all or several, which keep the two in step. -/
structure Simulates (machine : PartialMachine State Label) (allowed : State → Label → Prop)
    (abstract : PartialMachine Abstract Action) (permits : Abstract → Action → Prop)
    (represents : State → Abstract → Prop) : Prop where
  step : ∀ {before after label seen}, represents before seen → allowed before label →
    machine.step before label = some after →
      ∃ next, abstract.Reached permits seen next ∧ represents after next

/-- Every state reached represents one that the abstract machine reaches. -/
theorem Simulates.reached {machine : PartialMachine State Label} {allowed : State → Label → Prop}
    {abstract : PartialMachine Abstract Action} {permits : Abstract → Action → Prop}
    {represents : State → Abstract → Prop}
    (simulates : Simulates machine allowed abstract permits represents) {start state : State}
    {seen : Abstract} (represented : represents start seen)
    (reached : machine.Reached allowed start state) :
    ∃ next, abstract.Reached permits seen next ∧ represents state next := by
  induction reached with
  | start => exact ⟨seen, .start, represented⟩
  | step _ permitted stepped inductionHypothesis =>
      obtain ⟨middle, earlier, inStep⟩ := inductionHypothesis
      obtain ⟨next, later, kept⟩ := simulates.step inStep permitted stepped
      exact ⟨next, earlier.trans later, kept⟩

/-! ### Runs with their labels -/

/-- The run of a list of labels, each allowed in the state it is taken in. -/
inductive PartialMachine.Trace (machine : PartialMachine State Label)
    (allowed : State → Label → Prop) : State → List Label → State → Prop where
  | nil (state : State) : Trace machine allowed state [] state
  | cons {before middle after : State} {label : Label} {labels : List Label}
      (permitted : allowed before label)
      (stepped : machine.step before label = some middle)
      (rest : Trace machine allowed middle labels after) :
      Trace machine allowed before (label :: labels) after

/-- What holds at the start of a run and is kept by its steps holds at its end. -/
theorem PartialMachine.Trace.invariant {machine : PartialMachine State Label}
    {allowed : State → Label → Prop} {property : State → Prop} {start finish : State}
    {labels : List Label} (ran : machine.Trace allowed start labels finish)
    (preserved : ∀ before label after, property before → allowed before label →
      machine.step before label = some after → property after)
    (initially : property start) : property finish := by
  induction ran with
  | nil => exact initially
  | cons permitted stepped _ inductionHypothesis =>
      exact inductionHypothesis (preserved _ _ _ initially permitted stepped)

/-- Both machines take the same labels, and an allowed step of the first is matched by the
step of the second. -/
structure Lockstep (machine : PartialMachine State Label) (allowed : State → Label → Prop)
    (abstract : PartialMachine Abstract Label) (represents : State → Abstract → Prop) :
    Prop where
  step : ∀ {before after label seen}, represents before seen → allowed before label →
    machine.step before label = some after →
      ∃ next, abstract.step seen label = some next ∧ represents after next

/-- Every run is a run of the abstract machine. -/
theorem Lockstep.trace {machine : PartialMachine State Label} {allowed : State → Label → Prop}
    {abstract : PartialMachine Abstract Label} {represents : State → Abstract → Prop}
    (lockstep : Lockstep machine allowed abstract represents) {start finish : State}
    {seen : Abstract} {labels : List Label} (represented : represents start seen)
    (ran : machine.Trace allowed start labels finish) :
    ∃ next, abstract.Trace PartialMachine.anyStep seen labels next ∧ represents finish next := by
  induction ran generalizing seen with
  | nil => exact ⟨seen, .nil seen, represented⟩
  | cons permitted stepped _ inductionHypothesis =>
      obtain ⟨middle, matched, inStep⟩ := lockstep.step represented permitted stepped
      obtain ⟨next, rest, kept⟩ := inductionHypothesis inStep
      exact ⟨next, .cons trivial matched rest, kept⟩

end Ivos
