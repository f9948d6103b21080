/-
Module: Ivos.Library.WhileLoop
Purpose: Loops with a test and a turn that cannot fail, with the rules for what
  they return, when they return, and when two of them keep step.
Trusted boundary: none
Main exports: whileLoop, whileAfter, StopsAt, whileLoop_eq_some_iff,
  whileLoop_terminates_iff, whileLoop_invariant, whileLoop_of_measure, whileAfter_eq,
  whileAfter_lockstep
-/
import Mathlib.Data.Nat.Find
import Mathlib.Logic.Function.Iterate

namespace Ivos

universe stateLevel otherLevel

section Loops

variable {State : Type stateLevel} (goesOn : State → Bool) (turn : State → State)

/-- `while (goesOn(state)) state = turn(state)`, with a bound on the tests. -/
def whileLoop : Nat → State → Option State
  | 0, _ => none
  | fuel + 1, state => if goesOn state then whileLoop fuel (turn state) else some state

/-- The state after a number of turns, or where the loop stops before. -/
def whileAfter : Nat → State → State
  | 0, state => state
  | count + 1, state => if goesOn state then whileAfter count (turn state) else state

/-- The test fails for the first time after `count` turns. -/
structure StopsAt (state : State) (count : Nat) : Prop where
  stops : goesOn (turn^[count] state) = false
  before : ∀ earlier, earlier < count → goesOn (turn^[earlier] state) = true

end Loops

variable {State : Type stateLevel} {goesOn : State → Bool} {turn : State → State}
  {state : State}

theorem whileLoop_succ (fuel : Nat) : whileLoop goesOn turn (fuel + 1) state =
    if goesOn state then whileLoop goesOn turn fuel (turn state) else some state := rfl

theorem whileAfter_succ (count : Nat) : whileAfter goesOn turn (count + 1) state =
    if goesOn state then whileAfter goesOn turn count (turn state) else state := rfl

theorem StopsAt.zero (stopped : goesOn state = false) : StopsAt goesOn turn state 0 :=
  ⟨stopped, fun _ early => absurd early (Nat.not_lt_zero _)⟩

theorem StopsAt.succ {count : Nat} (running : goesOn state = true)
    (later : StopsAt goesOn turn (turn state) count) :
    StopsAt goesOn turn state (count + 1) := by
  refine ⟨later.stops, fun earlier early => ?_⟩
  cases earlier with
  | zero => exact running
  | succ earlier => exact later.before earlier (Nat.lt_of_succ_lt_succ early)

theorem StopsAt.tail {count : Nat} (stops : StopsAt goesOn turn state (count + 1)) :
    StopsAt goesOn turn (turn state) count :=
  ⟨stops.stops, fun earlier early => stops.before (earlier + 1) (Nat.succ_lt_succ early)⟩

/-- A loop stops at one place only. -/
theorem StopsAt.unique {first second : Nat} (one : StopsAt goesOn turn state first)
    (two : StopsAt goesOn turn state second) : first = second := by
  rcases Nat.lt_trichotomy first second with before | same | behind
  · exact absurd one.stops (by simp [two.before first before])
  · exact same
  · exact absurd two.stops (by simp [one.before second behind])

/-- Where the test fails once, it fails for a first time. -/
theorem exists_stopsAt {count : Nat} (stopped : goesOn (turn^[count] state) = false) :
    ∃ first, first ≤ count ∧ StopsAt goesOn turn state first := by
  have fails : ∃ count, goesOn (turn^[count] state) = false := ⟨count, stopped⟩
  refine ⟨Nat.find fails, Nat.find_min' fails stopped, Nat.find_spec fails, ?_⟩
  intro earlier early
  simpa using Nat.find_min fails early

/-- What a loop returns is the state in which it stops. -/
theorem whileLoop_eq_some_iff {fuel : Nat} {after : State} :
    whileLoop goesOn turn fuel state = some after ↔
      ∃ count, count < fuel ∧ StopsAt goesOn turn state count ∧ after = turn^[count] state := by
  induction fuel generalizing state with
  | zero =>
      refine ⟨nofun, ?_⟩
      rintro ⟨count, early, -⟩
      exact absurd early (Nat.not_lt_zero count)
  | succ fuel ih =>
      cases running : goesOn state with
      | false =>
          simp only [whileLoop_succ, running, Bool.false_eq_true, if_false, Option.some.injEq]
          constructor
          · rintro rfl
            exact ⟨0, Nat.succ_pos fuel, .zero running, rfl⟩
          · rintro ⟨count, -, stops, rfl⟩
            rw [stops.unique (.zero running)]
            rfl
      | true =>
          simp only [whileLoop_succ, running, if_true, ih]
          constructor
          · rintro ⟨count, inTime, stops, rfl⟩
            exact ⟨count + 1, Nat.succ_lt_succ inTime, .succ running stops, rfl⟩
          · rintro ⟨count, inTime, stops, rfl⟩
            cases count with
            | zero => exact absurd stops.stops (by simp [running])
            | succ count => exact ⟨count, Nat.lt_of_succ_lt_succ inTime, stops.tail, rfl⟩

/-- A loop returns exactly when its test fails at some time. -/
theorem whileLoop_terminates_iff :
    (∃ fuel after, whileLoop goesOn turn fuel state = some after) ↔
      ∃ count, goesOn (turn^[count] state) = false := by
  constructor
  · rintro ⟨fuel, after, returned⟩
    obtain ⟨count, -, stops, -⟩ := whileLoop_eq_some_iff.mp returned
    exact ⟨count, stops.stops⟩
  · rintro ⟨count, stopped⟩
    obtain ⟨first, -, stops⟩ := exists_stopsAt stopped
    exact ⟨first + 1, _, whileLoop_eq_some_iff.mpr ⟨first, Nat.lt_succ_self first, stops, rfl⟩⟩

/-- The invariant rule: what a turn preserves while the test holds is left by the
loop, and the test fails. -/
theorem whileLoop_invariant (invariant : State → Prop)
    (preserved : ∀ before, invariant before → goesOn before = true → invariant (turn before))
    {fuel : Nat} {after : State} (initially : invariant state)
    (returned : whileLoop goesOn turn fuel state = some after) :
    invariant after ∧ goesOn after = false := by
  induction fuel generalizing state with
  | zero => cases returned
  | succ fuel ih =>
      rw [whileLoop_succ] at returned
      split at returned
      · rename_i running
        exact ih (preserved state initially running) returned
      · rename_i stopped
        cases returned
        exact ⟨initially, Bool.eq_false_iff.mpr stopped⟩

/-- The termination rule: enough fuel for a measure that every turn lowers. -/
theorem whileLoop_of_measure (invariant : State → Prop) (measure : State → Nat)
    (lowered : ∀ before, invariant before → goesOn before = true →
      invariant (turn before) ∧ measure (turn before) < measure before)
    {fuel : Nat} (initially : invariant state) (enough : measure state < fuel) :
    ∃ after, whileLoop goesOn turn fuel state = some after := by
  induction fuel generalizing state with
  | zero => cases enough
  | succ fuel ih =>
      rw [whileLoop_succ]
      split
      · rename_i running
        obtain ⟨kept, less⟩ := lowered state initially running
        exact ih kept (Nat.lt_of_lt_of_le less (Nat.le_of_lt_succ enough))
      · exact ⟨state, rfl⟩

/-- Up to the place where it stops, the loop has done all its turns. -/
theorem whileAfter_eq {count : Nat}
    (running : ∀ earlier, earlier < count → goesOn (turn^[earlier] state) = true) :
    whileAfter goesOn turn count state = turn^[count] state := by
  induction count generalizing state with
  | zero => rfl
  | succ count ih =>
      have now : goesOn state = true := running 0 (Nat.succ_pos count)
      simp only [whileAfter_succ, now, if_true]
      exact ih fun earlier early => running (earlier + 1) (Nat.succ_lt_succ early)

/-- Behind the place where it stops, the loop stays there. -/
theorem whileAfter_of_stopsAt {count more : Nat} (stops : StopsAt goesOn turn state count)
    (behind : count ≤ more) : whileAfter goesOn turn more state = turn^[count] state := by
  induction count generalizing state more with
  | zero =>
      cases more with
      | zero => rfl
      | succ more =>
          have stopped : goesOn state = false := stops.stops
          simp [whileAfter_succ, stopped]
  | succ count ih =>
      cases more with
      | zero => cases behind
      | succ more =>
          have running : goesOn state = true := stops.before 0 (Nat.succ_pos count)
          simp only [whileAfter_succ, running, if_true]
          exact ih stops.tail (Nat.le_of_succ_le_succ behind)

/-- A loop that has stopped does no more turns. -/
theorem whileAfter_of_stopped (stopped : goesOn state = false) (count : Nat) :
    whileAfter goesOn turn count state = state :=
  whileAfter_of_stopsAt (.zero stopped) (Nat.zero_le count)

theorem whileAfter_add (first second : Nat) : whileAfter goesOn turn (first + second) state =
    whileAfter goesOn turn second (whileAfter goesOn turn first state) := by
  induction first generalizing state with
  | zero => rw [Nat.zero_add]; rfl
  | succ first ih =>
      rw [Nat.succ_add, whileAfter_succ, whileAfter_succ]
      cases running : goesOn state with
      | false =>
          simp only [Bool.false_eq_true, if_false]
          exact (whileAfter_of_stopped running second).symm
      | true =>
          simp only [if_true]
          exact ih

/-- Two loops keep step when related states have the same test and turns keep the relation. -/
theorem whileAfter_lockstep {Other : Type otherLevel} {otherGoesOn : Other → Bool}
    {otherTurn : Other → Other} {relates : State → Other → Prop}
    (tests : ∀ {one other}, relates one other → goesOn one = otherGoesOn other)
    (turns : ∀ {one other}, relates one other → goesOn one = true →
      relates (turn one) (otherTurn other)) {other : Other} (related : relates state other)
    (count : Nat) :
    relates (whileAfter goesOn turn count state)
      (whileAfter otherGoesOn otherTurn count other) := by
  induction count generalizing state other with
  | zero => exact related
  | succ count ih =>
      cases running : goesOn state with
      | false =>
          have stopped := tests related
          rw [running] at stopped
          simpa [whileAfter_succ, running, ← stopped] using related
      | true =>
          have goes := tests related
          rw [running] at goes
          simp only [whileAfter_succ, running, ← goes, if_true]
          exact ih (turns related running)

/-- The invariant rule for the turns done so far. -/
theorem whileAfter_invariant (invariant : State → Prop)
    (preserved : ∀ before, invariant before → goesOn before = true → invariant (turn before))
    (initially : invariant state) (count : Nat) :
    invariant (whileAfter goesOn turn count state) := by
  induction count generalizing state with
  | zero => exact initially
  | succ count ih =>
      rw [whileAfter_succ]
      split
      · rename_i running
        exact ih (preserved state initially running)
      · exact initially

end Ivos
