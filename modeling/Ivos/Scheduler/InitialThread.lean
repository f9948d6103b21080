/-
Module: Ivos.Scheduler.InitialThread
Purpose: The loop `while (gt_schedule());` of the initial thread's `gt_return` once
  every created thread has terminated.
Trusted boundary: none
Main exports: OnlyInitialLeft, NoticesEnd, initial_thread_never_exits,
  end_not_noticed
-/
import Ivos.Scheduler.FinishedThreads

namespace Ivos.Scheduler

variable {N : Nat} [NeZero N]

/-- The initial thread runs and no other slot is in use. -/
def OnlyInitialLeft (sched : Sched N) : Prop :=
  (sched.gtCurrent = 0 ∧ (sched.gtTable 0).state = .running) ∧
    ∀ slot, slot ≠ 0 → (sched.gtTable slot).state = .unused

instance (sched : Sched N) : Decidable (OnlyInitialLeft sched) :=
  inferInstanceAs (Decidable (_ ∧ ∀ slot, slot ≠ 0 → _))

/-- `gt_schedule` tells the initial thread that the others have terminated, and
tells no thread so while another slot is Ready. -/
structure NoticesEnd (algorithm : Algorithm) (start : Sched N) : Prop where
  notices : ∀ sched, (scheduler algorithm).Reached PartialMachine.anyStep start sched →
    OnlyInitialLeft sched → ∀ inputs result after,
      gtSchedule algorithm inputs sched = some (result, after) → result = false
  neverEarly : ∀ sched, (scheduler algorithm).Reached PartialMachine.anyStep start sched →
    ∀ slot, slot ≠ sched.gtCurrent → (sched.gtTable slot).state = .ready →
      ∀ inputs after, gtSchedule algorithm inputs sched ≠ some (false, after)

/-- With no other slot in use the selectors fall back on the initial thread, which
`gt_schedule` makes Ready and Running again. -/
theorem OnlyInitialLeft.gtSchedule (algorithm : Algorithm) {sched : Sched N}
    (left : OnlyInitialLeft sched) {inputs : Inputs} (enough : N ≤ inputs.fuel) :
    ∃ after, gtSchedule algorithm inputs sched = some (true, after) ∧ OnlyInitialLeft after := by
  obtain ⟨⟨isInitial, isRunning⟩, unused⟩ := left
  have notBlocked : (sched.gtTable sched.gtCurrent).state ≠ .blocked := by
    rw [isInitial, isRunning]
    decide
  obtain ⟨choice, chosen⟩ :=
    getNextThread_total algorithm notBlocked sched.totalTickets inputs.draw enough
  have sound := getNextThread_sound chosen
  have fallsBack : choice.thread = 0 := by
    by_contra other
    rcases sound.readyOrCurrent with isReady | isRunning | isCurrent
    · rw [unused _ other] at isReady
      cases isReady
    · rw [unused _ other] at isRunning
      cases isRunning
    · exact other (isCurrent.trans isInitial)
  refine ⟨switchTo inputs choice sched, ?_, ⟨fallsBack, ?_⟩, fun slot other => ?_⟩
  · unfold Scheduler.gtSchedule
    simp [chosen, sound.found]
  · simp [switchTo, fallsBack]
  · have notChosen : slot ≠ choice.thread := fallsBack ▸ other
    have notCurrent : slot ≠ sched.gtCurrent := isInitial ▸ other
    simp only [switchTo, gtSwitch_state, Table.modify_of_ne _ notChosen]
    split
    · rw [Table.modify_of_ne _ notCurrent, sound.sameStates, unused slot other]
    · rw [sound.sameStates, unused slot other]

/-- `gt_schedule` does not end the process, except by the assertion. -/
theorem reschedule_status {algorithm : Algorithm} {inputs : Inputs} {before after : Sched N}
    {result : Bool} (ran : reschedule algorithm inputs before = some (result, after))
    (alive : before.status ≠ .exited) : after.status ≠ .exited := by
  obtain ⟨-, choice, -, -, rfl⟩ := reschedule_eq_some ran
  rcases resume_status (switchTo inputs choice before) with same | aborted
  · rw [same]
    exact alive
  · rw [aborted]
    decide

/-- No operation ends the process through `exit`. -/
theorem Performed.status {algorithm : Algorithm} {operation : Operation} {inputs : Inputs}
    {before after : Sched N} (performed : Performed algorithm inputs before operation after)
    (alive : before.status ≠ .exited) : after.status ≠ .exited := by
  cases performed with
  | created priority stack =>
      unfold gtCreate
      split
      · exact alive
      · exact alive
      · exact alive
  | scheduled ran => exact reschedule_status ran alive
  | returned notInitial ran => exact reschedule_status ran alive
  | awaited isInitial ran => exact reschedule_status ran alive
  | reset | added | passed | queued | raised | woke => exact alive

/-- Whenever only the initial thread is left, `gt_schedule` returns true and leaves
it where it was; and no run of the scheduler, under any selector, comes to the
`exit` behind the loop. -/
theorem initial_thread_never_exits (algorithm : Algorithm) (clock : Nat → Timeval) :
    (∀ sched : Sched N,
      (scheduler algorithm).Reached PartialMachine.anyStep (gtInit clock) sched →
        OnlyInitialLeft sched → ∀ inputs : Inputs, N ≤ inputs.fuel →
          ∃ after, gtSchedule algorithm inputs sched = some (true, after) ∧
            OnlyInitialLeft after) ∧
      ∀ sched : Sched N,
        (scheduler algorithm).Reached PartialMachine.anyStep (gtInit clock) sched →
          sched.status ≠ .exited := by
  constructor
  · intro sched _ left inputs enough
    exact left.gtSchedule algorithm enough
  · intro sched reached
    induction reached with
    | start => exact fun exited => by cases exited
    | step _ _ stepped alive => exact (scheduler_step stepped).1.status alive

/-- A created thread terminates and leaves the initial thread in its loop. -/
theorem exists_only_initial_left (algorithm : Algorithm) : ∃ sched : Sched maxGThreads,
    (scheduler algorithm).Reached PartialMachine.anyStep (gtInit fun _ => initTimeval) sched ∧
      (sched.returned 0 ∧ sched.returned 1) ∧ OnlyInitialLeft sched :=
  PartialMachine.exists_reached_of_any
    (scheduler algorithm) PartialMachine.anyStep (gtInit fun _ => initTimeval)
    [(.gtCreate 0 (some 0x1000), stoppedClock 0), (.gtReturn, stoppedClock 11),
      (.gtReturn, stoppedClock 0), (.gtReturn, stoppedClock 0)]
    (fun sched : Sched maxGThreads => (sched.returned 0 ∧ sched.returned 1) ∧ OnlyInitialLeft sched)
    (by cases algorithm <;> decide)

/-- The loop goes on in the state left behind by a created thread. -/
theorem initial_thread_never_exits_created : ∃ sched after : Sched maxGThreads,
    (sched.returned 0 ∧ sched.returned 1) ∧
      gtSchedule .roundRobin (stoppedClock 0) sched = some (true, after) ∧
      sched.status ≠ .exited := by
  obtain ⟨sched, reached, finished, left⟩ := exists_only_initial_left .roundRobin
  obtain ⟨turns, neverExits⟩ :=
    initial_thread_never_exits (N := maxGThreads) .roundRobin fun _ => initTimeval
  obtain ⟨after, ran, -⟩ := turns sched reached left (stoppedClock 0) (by decide)
  exact ⟨sched, after, finished, ran, neverExits sched reached⟩

/-- The initial thread is in its loop from the start, without having created a thread. -/
theorem exists_alone (algorithm : Algorithm) : ∃ sched : Sched maxGThreads,
    (scheduler algorithm).Reached PartialMachine.anyStep (gtInit fun _ => initTimeval) sched ∧
      sched.returned 0 ∧ OnlyInitialLeft sched :=
  PartialMachine.exists_reached_of_any
    (scheduler algorithm) PartialMachine.anyStep (gtInit fun _ => initTimeval)
    [(.gtReturn, stoppedClock 0)]
    (fun sched : Sched maxGThreads => sched.returned 0 ∧ OnlyInitialLeft sched)
    (by cases algorithm <;> decide)

/-- No selector lets the initial thread notice that no other thread is left. -/
theorem end_not_noticed :
    ¬ ∃ algorithm, NoticesEnd algorithm (gtInit fun _ => initTimeval : Sched maxGThreads) := by
  rintro ⟨algorithm, claimed⟩
  obtain ⟨sched, reached, -, left⟩ := exists_alone algorithm
  have enough : maxGThreads ≤ (stoppedClock 0).fuel := by decide
  obtain ⟨after, ran, -⟩ := left.gtSchedule algorithm enough
  exact Bool.noConfusion (claimed.notices sched reached left _ _ _ ran)

end Ivos.Scheduler
