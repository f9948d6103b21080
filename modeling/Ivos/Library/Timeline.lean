/-
Module: Ivos.Library.Timeline
Purpose: The stays of something that is always in one of several states, and the
  time it spends in some of them.
Trusted boundary: none
Main exports: Timeline, Timeline.record, Timeline.spent, Timeline.Visits,
  Timeline.spent_record, Timeline.spent_add_spent
-/
import Mathlib.Algebra.Group.Basic

namespace Ivos

universe stateLevel timeLevel

/-- The states entered, each with the time of entry.  One stay ends where the next
begins, so no stay can be left out or counted twice; times need not increase. -/
inductive Timeline (State : Type stateLevel) (Time : Type timeLevel) where
  | start (state : State) (time : Time)
  | enter (earlier : Timeline State Time) (state : State) (time : Time)
deriving Repr, DecidableEq

namespace Timeline

variable {State : Type stateLevel} {Time : Type timeLevel}

/-- The state of the stay that has not ended. -/
def state : Timeline State Time → State
  | start state _ => state
  | enter _ state _ => state

/-- When the stay that has not ended began. -/
def since : Timeline State Time → Time
  | start _ time => time
  | enter _ _ time => time

/-- When the first stay began. -/
def began : Timeline State Time → Time
  | start _ time => time
  | enter earlier _ _ => earlier.began

/-- Enter a state, unless it is the one of the stay that has not ended. -/
def record [DecidableEq State] (timeline : Timeline State Time) (state : State) (time : Time) :
    Timeline State Time :=
  if timeline.state = state then timeline else timeline.enter state time

/-- All states entered are allowed. -/
def Visits (allowed : State → Prop) : Timeline State Time → Prop
  | start state _ => allowed state
  | enter earlier state _ => earlier.Visits allowed ∧ allowed state

/-- The sum of the stays that have ended in a counted state. -/
def spent [AddCommGroup Time] (counted : State → Bool) : Timeline State Time → Time
  | start _ _ => 0
  | enter earlier _ time =>
      earlier.spent counted + if counted earlier.state then time - earlier.since else 0

theorem Visits.state {allowed : State → Prop} {timeline : Timeline State Time}
    (visits : timeline.Visits allowed) : allowed timeline.state := by
  cases timeline with
  | start => exact visits
  | enter => exact visits.2

section Record

variable [DecidableEq State] {timeline : Timeline State Time} {state : State} {time : Time}

theorem record_same (same : timeline.state = state) : timeline.record state time = timeline :=
  if_pos same

theorem record_other (other : timeline.state ≠ state) :
    timeline.record state time = timeline.enter state time :=
  if_neg other

end Record

/-- The stays in two kinds of state that share no state and leave none out add up
to the whole time. -/
theorem spent_add_spent [AddCommGroup Time] {allowed : State → Prop} {first second : State → Bool}
    (either : ∀ state, allowed state → second state = !first state)
    {timeline : Timeline State Time} (visits : timeline.Visits allowed) :
    timeline.spent first + timeline.spent second = timeline.since - timeline.began := by
  induction timeline with
  | start state time => simp [spent, since, began]
  | enter earlier state time inductionHypothesis =>
      have sum := inductionHypothesis visits.1
      have stay : (if first earlier.state then time - earlier.since else 0) +
          (if second earlier.state then time - earlier.since else 0) = time - earlier.since := by
        rw [either earlier.state visits.1.state]
        cases first earlier.state <;> simp
      calc
        (earlier.enter state time).spent first + (earlier.enter state time).spent second
            = (earlier.spent first + earlier.spent second) +
                ((if first earlier.state then time - earlier.since else 0) +
                  (if second earlier.state then time - earlier.since else 0)) :=
              add_add_add_comm ..
        _ = (earlier.since - earlier.began) + (time - earlier.since) := by rw [sum, stay]
        _ = time - earlier.began := by rw [add_comm, sub_add_sub_cancel]

end Timeline

end Ivos
