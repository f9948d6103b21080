/-
Module: Ivos.Library.DataRefinement
Purpose: Components with operations that may go wrong, and when one of them returns
  what an abstract component returns in every sequence of calls.
Trusted boundary: none
Main exports: Component, Component.run, Component.Possible, Refines, Refines.run,
  Meets, SpecifiedRun, Meets.run
-/
import Mathlib.Data.List.Basic

namespace Ivos

universe callLevel resultLevel stateLevel abstractLevel

/-- A component in a state, called one call after the other.  `none` is a call that
goes wrong. -/
structure Component (Call : Type callLevel) (Result : Type resultLevel)
    (State : Type stateLevel) where
  call : Call → State → Option (Result × State)

namespace Component

variable {Call : Type callLevel} {Result : Type resultLevel} {State : Type stateLevel}

/-- A sequence of calls, with what each of them returns. -/
def run (component : Component Call Result State) :
    List Call → State → Option (List Result × State)
  | [], state => some ([], state)
  | call :: calls, state =>
      (component.call call state).bind fun (result, next) =>
        (component.run calls next).map fun (results, final) => (result :: results, final)

/-- The environment allows each call in the state it is made in. -/
def Possible (component : Component Call Result State) (allows : State → Call → Prop) :
    List Call → State → Prop
  | [], _ => True
  | call :: calls, state =>
      allows state call ∧ ∀ result next, component.call call state = some (result, next) →
        component.Possible allows calls next

instance decidablePossible (component : Component Call Result State)
    (allows : State → Call → Prop) [∀ state call, Decidable (allows state call)] :
    (calls : List Call) → (state : State) → Decidable (component.Possible allows calls state)
  | [], _ => inferInstanceAs (Decidable True)
  | call :: calls, state =>
      match called : component.call call state with
      | none => decidable_of_iff (allows state call)
          ⟨fun allowed => ⟨allowed, fun _ _ wrong => by cases called.symm.trans wrong⟩, And.left⟩
      | some (_, next) =>
          have := decidablePossible component allows calls next
          decidable_of_iff (allows state call ∧ component.Possible allows calls next)
            ⟨fun possible => ⟨possible.1, fun _ _ ran => by
                cases called.symm.trans ran
                exact possible.2⟩,
              fun possible => ⟨possible.1, possible.2 _ _ called⟩⟩

end Component

variable {Call : Type callLevel} {Result : Type resultLevel} {State : Type stateLevel}
  {Abstract : Type abstractLevel}

/-- One call returns what the abstract component returns, and keeps the two in step. -/
structure Refines (component : Component Call Result State) (allows : State → Call → Prop)
    (abstract : Call → Abstract → Result × Abstract) (represents : State → Abstract → Prop) :
    Prop where
  call : ∀ {state value call}, represents state value → allows state call →
    ∃ next, component.call call state = some ((abstract call value).1, next) ∧
      represents next (abstract call value).2

/-- A sequence of calls of an abstract component. -/
def runAbstract (abstract : Call → Abstract → Result × Abstract) :
    List Call → Abstract → List Result × Abstract
  | [], value => ([], value)
  | call :: calls, value =>
      let (result, next) := abstract call value
      let (results, final) := runAbstract abstract calls next
      (result :: results, final)

/-- No sequence of calls goes wrong, all of them return what the abstract component
returns, and the two end in step. -/
theorem Refines.run {component : Component Call Result State} {allows : State → Call → Prop}
    {abstract : Call → Abstract → Result × Abstract} {represents : State → Abstract → Prop}
    (refines : Refines component allows abstract represents) {calls : List Call} {state : State}
    {value : Abstract} (represented : represents state value)
    (possible : component.Possible allows calls state) :
    ∃ final, component.run calls state = some ((runAbstract abstract calls value).1, final) ∧
      represents final (runAbstract abstract calls value).2 := by
  induction calls generalizing state value with
  | nil => exact ⟨state, rfl, represented⟩
  | cons call calls inductionHypothesis =>
      obtain ⟨allowed, later⟩ := possible
      obtain ⟨next, called, inStep⟩ := refines.call represented allowed
      obtain ⟨final, ran, ends⟩ := inductionHypothesis inStep (later _ next called)
      refine ⟨final, ?_, ends⟩
      simp only [Component.run, called, Option.bind_some, ran, Option.map_some, runAbstract]

/-! ### Specifications that leave something open -/

/-- A call that returns does what the specification allows, and keeps the component in step
with it. -/
structure Meets (component : Component Call Result State) (allows : State → Call → Prop)
    (specified : Abstract → Call → Result → Abstract → Prop)
    (represents : State → Abstract → Prop) : Prop where
  call : ∀ {state value call result next}, represents state value → allows state call →
    component.call call state = some (result, next) →
      ∃ after, specified value call result after ∧ represents next after

/-- Calls and results that a specification allows one after the other. -/
inductive SpecifiedRun (specified : Abstract → Call → Result → Abstract → Prop) :
    Abstract → List Call → List Result → Abstract → Prop where
  | nil (value : Abstract) : SpecifiedRun specified value [] [] value
  | cons {before middle after : Abstract} {call : Call} {calls : List Call} {result : Result}
      {results : List Result} (first : specified before call result middle)
      (rest : SpecifiedRun specified middle calls results after) :
      SpecifiedRun specified before (call :: calls) (result :: results) after

/-- A sequence of calls that returns is one the specification allows. -/
theorem Meets.run {component : Component Call Result State} {allows : State → Call → Prop}
    {specified : Abstract → Call → Result → Abstract → Prop} {represents : State → Abstract → Prop}
    (meets : Meets component allows specified represents) {calls : List Call}
    {results : List Result} {state final : State} {value : Abstract}
    (represented : represents state value) (possible : component.Possible allows calls state)
    (ran : component.run calls state = some (results, final)) :
    ∃ after, SpecifiedRun specified value calls results after ∧ represents final after := by
  induction calls generalizing state value results with
  | nil =>
      cases ran
      exact ⟨value, .nil value, represented⟩
  | cons call calls inductionHypothesis =>
      obtain ⟨allowed, later⟩ := possible
      obtain ⟨⟨result, next⟩, called, rest⟩ := Option.bind_eq_some_iff.mp ran
      obtain ⟨⟨others, last⟩, looped, same⟩ := Option.map_eq_some_iff.mp rest
      cases same
      obtain ⟨middle, first, inStep⟩ := meets.call represented allowed called
      obtain ⟨after, following, kept⟩ := inductionHypothesis inStep (later _ next called) looped
      exact ⟨after, .cons first following, kept⟩

end Ivos
