/-
Module: Ivos.Scheduler.QueueAgreement
Purpose: Agreement between the semaphore queues and the Blocked slots of the
  table, and the runs in which it is lost.
Trusted boundary: none
Main exports: QueuesAgree, BlockedDoesNotRun, queues_agree_with_blocked,
  blocked_thread_queued_twice
-/
import Ivos.Scheduler.FinishedThreads
import Mathlib.Data.List.Flatten

namespace Ivos.Scheduler

open scoped List

variable {N : Nat}

/-!
`sem_wait` queues the caller, marks it Blocked, and returns to it: the switch
away only happens at the next alarm.  Until then the Blocked thread executes, and
a second `sem_wait` queues it twice, while a `gt_return` leaves its index in the
queue of a slot that is Unused.
-/

/-- The indices over all semaphore queues are the Blocked slots, each once. -/
def QueuesAgree (sched : Sched N) : Prop :=
  sched.queued.Nodup ∧ ∀ slot, slot ∈ sched.queued ↔ (sched.gtTable slot).state = .blocked

instance (sched : Sched N) : Decidable (QueuesAgree sched) := by
  unfold QueuesAgree
  infer_instance

/-- The steps that a Blocked thread does not spoil: with its slot Blocked, the
current thread neither waits without a permit nor returns; and a semaphore is
not set up again while threads wait on it. -/
def BlockedDoesNotRun [NeZero N] (sched : Sched N) (label : Operation × Inputs) : Prop :=
  match label.1 with
  | .semWait sem =>
      ∀ semaphore ∈ sched.semaphores[sem]?, semaphore.value ≤ 0 →
        (sched.gtTable sched.gtCurrent).state ≠ .blocked
  | .gtReturn => sched.gtCurrent ≠ 0 → (sched.gtTable sched.gtCurrent).state ≠ .blocked
  | .semInit sem _ => ∀ semaphore ∈ sched.semaphores[sem]?, semaphore.queue = []
  | _ => True

instance [NeZero N] (sched : Sched N) :
    (label : Operation × Inputs) → Decidable (BlockedDoesNotRun sched label)
  | (.semWait sem, _) => inferInstanceAs (Decidable (∀ semaphore ∈ sched.semaphores[sem]?, _))
  | (.semInit sem _, _) =>
      inferInstanceAs (Decidable (∀ semaphore ∈ sched.semaphores[sem]?, _))
  | (.gtReturn, _) => inferInstanceAs (Decidable (_ → _))
  | (.gtCreate _ _, _) | (.schedule, _) | (.semPost _, _) => inferInstanceAs (Decidable True)

/-- Replacing one semaphore replaces its queue among the queued indices. -/
theorem queued_set_perm {semaphores : List (Semaphore N)} {sem : Nat}
    {semaphore : Semaphore N} (found : semaphores[sem]? = some semaphore) :
    ∃ rest, semaphores.flatMap Semaphore.queue ~ semaphore.queue ++ rest ∧
      ∀ replacement : Semaphore N,
        (semaphores.set sem replacement).flatMap Semaphore.queue ~ replacement.queue ++ rest := by
  induction semaphores generalizing sem with
  | nil => cases found
  | cons head tail inductionHypothesis =>
      cases sem with
      | zero =>
          cases found
          exact ⟨tail.flatMap Semaphore.queue, .refl _, fun _ => .refl _⟩
      | succ sem =>
          obtain ⟨rest, before, after⟩ := inductionHypothesis (by simpa using found)
          have moveFront (queue : List (Fin N)) :
              head.queue ++ (queue ++ rest) ~ queue ++ (head.queue ++ rest) := by
            have swap : head.queue ++ queue ~ queue ++ head.queue := List.perm_append_comm
            simpa [List.append_assoc] using swap.append_right rest
          refine ⟨head.queue ++ rest, ?_, fun replacement => ?_⟩
          · exact (before.append_left head.queue).trans (moveFront _)
          · exact ((after replacement).append_left head.queue).trans (moveFront _)

namespace QueuesAgree

theorem gtInit [NeZero N] (clock : Nat → Timeval) : QueuesAgree (gtInit clock : Sched N) := by
  constructor
  · exact List.nodup_nil
  · intro slot
    by_cases same : slot = 0
    · simp [Scheduler.gtInit, Sched.queued, same]
    · simp [Scheduler.gtInit, Sched.queued, Table.modify_of_ne _ same, Gt.zero]

/-- A step that keeps the semaphores and which slots are Blocked. -/
theorem keep {before after : Sched N} (agree : QueuesAgree before)
    (semaphores : after.semaphores = before.semaphores)
    (blocked : ∀ slot, (after.gtTable slot).state = .blocked ↔
      (before.gtTable slot).state = .blocked) : QueuesAgree after := by
  have queued : after.queued = before.queued := by
    unfold Sched.queued
    rw [semaphores]
  rw [QueuesAgree, queued]
  exact ⟨agree.1, fun slot => (agree.2 slot).trans (blocked slot).symm⟩

/-- No selector chooses a Blocked slot, so a reschedule blocks and unblocks
nothing. -/
theorem reschedule [NeZero N] {algorithm : Algorithm} {inputs : Inputs} {before after : Sched N}
    {result : Bool} (agree : QueuesAgree before)
    (ran : Scheduler.reschedule algorithm inputs before = some (result, after)) :
    QueuesAgree after := by
  obtain ⟨choice, rescheduled⟩ := reschedule_spec ran
  apply agree.keep rescheduled.semaphores
  intro slot
  by_cases isChosen : slot = choice.thread
  · subst isChosen
    simp [rescheduled.chosenState, rescheduled.sound.notBlocked]
  · by_cases isCurrent : slot = before.gtCurrent
    · subst isCurrent
      rw [rescheduled.currentState isChosen]
      split
      · rename_i leaves
        simp [leaves.2]
      · rfl
    · rw [rescheduled.otherState slot isChosen isCurrent]

theorem gtCreate {before : Sched N} (agree : QueuesAgree before) (priority : Int)
    (stack : Option ℕ+) (clock : Nat → Timeval) :
    QueuesAgree (gtCreate priority stack clock before).2 := by
  rcases gtCreate_spec priority stack clock before with
    unchanged | ⟨slot, created⟩
  · rw [unchanged]
    exact agree
  · apply agree.keep created.semaphores
    intro other
    by_cases same : other = slot
    · subst same
      simp [created.isReady, created.wasUnused]
    · rw [created.others other same]

/-- A thread that is not Blocked gives its slot up. -/
theorem retire {before : Sched N} (agree : QueuesAgree before)
    (notBlocked : (before.gtTable before.gtCurrent).state ≠ .blocked) :
    QueuesAgree (retire before) := by
  apply agree.keep (by rfl)
  intro slot
  by_cases isCurrent : slot = before.gtCurrent
  · simp [Scheduler.retire, isCurrent, notBlocked]
  · simp [Scheduler.retire, Table.modify_of_ne _ isCurrent]

/-- A change of one semaphore that permutes the queued indices. -/
theorem permute {before after : Sched N} (agree : QueuesAgree before)
    (gtTable : after.gtTable = before.gtTable) (queued : after.queued ~ before.queued) :
    QueuesAgree after :=
  ⟨queued.nodup_iff.mpr agree.1, fun slot => by
    rw [queued.mem_iff, agree.2, gtTable]⟩

/-- The current thread, not yet Blocked, goes to the end of a queue. -/
theorem enqueue {before : Sched N} (agree : QueuesAgree before) {sem : Nat}
    {semaphore : Semaphore N} (found : before.semaphores[sem]? = some semaphore)
    (notBlocked : (before.gtTable before.gtCurrent).state ≠ .blocked) (now : Timeval) :
    QueuesAgree { before with
      semaphores := before.semaphores.set sem
        { semaphore with queue := semaphore.queue ++ [before.gtCurrent] }
      gtTable := before.gtTable.modify before.gtCurrent (updateThreadState now .blocked) } := by
  obtain ⟨rest, old, new⟩ := queued_set_perm found
  have pushed := new { semaphore with queue := semaphore.queue ++ [before.gtCurrent] }
  have queued : before.queued.cons before.gtCurrent ~
      (semaphore.queue ++ [before.gtCurrent]) ++ rest := by
    rw [List.append_assoc]
    exact (old.cons before.gtCurrent).trans List.perm_middle.symm
  have queued := pushed.trans queued.symm
  constructor
  · apply queued.nodup_iff.mpr (List.nodup_cons.mpr ⟨?_, agree.1⟩)
    rw [agree.2]
    exact notBlocked
  · intro slot
    apply queued.mem_iff.trans
    by_cases isCurrent : slot = before.gtCurrent
    · simp [isCurrent]
    · simp [isCurrent, agree.2]

/-- The first of a queue is taken off it and woken. -/
theorem dequeue {before : Sched N} (agree : QueuesAgree before) {sem : Nat}
    {semaphore : Semaphore N} (found : before.semaphores[sem]? = some semaphore)
    {thread : Fin N} {queue : List (Fin N)} (waiter : semaphore.queue = thread :: queue)
    (now : Timeval) :
    QueuesAgree { before with
      semaphores := before.semaphores.set sem { semaphore with queue := queue }
      gtTable := before.gtTable.modify thread (updateThreadState now .ready) } := by
  obtain ⟨rest, old, new⟩ := queued_set_perm found
  rw [waiter] at old
  have popped := new { semaphore with queue := queue }
  have queued : before.queued ~ thread :: _ := old.trans (popped.symm.cons thread)
  have nodup := List.nodup_cons.mp (queued.nodup_iff.mp agree.1)
  refine ⟨nodup.2, fun slot => ?_⟩
  by_cases isWoken : slot = thread
  · subst isWoken
    simpa [Sched.queued] using nodup.1
  · have unchanged := agree.2 slot
    rw [queued.mem_iff] at unchanged
    simpa [isWoken, Sched.queued, Table.modify_of_ne _ isWoken] using unchanged

end QueuesAgree

/-- Every permitted operation keeps the agreement. -/
theorem Performed.queuesAgree [NeZero N] {algorithm : Algorithm} {operation : Operation}
    {inputs : Inputs} {before after : Sched N}
    (performed : Performed algorithm inputs before operation after)
    (permitted : BlockedDoesNotRun before (operation, inputs)) (agree : QueuesAgree before) :
    QueuesAgree after := by
  cases performed with
  | created priority stack => exact agree.gtCreate priority stack inputs.clock
  | scheduled ran => exact agree.reschedule ran
  | returned notInitial ran => exact (agree.retire (permitted notInitial)).reschedule ran
  | awaited isInitial ran =>
      have looping : QueuesAgree
          { before with returned := Function.update before.returned 0 true } :=
        agree.keep rfl fun _ => Iff.rfl
      exact looping.reschedule ran
  | reset inside =>
      have found := List.getElem?_eq_getElem inside
      obtain ⟨rest, old, new⟩ := queued_set_perm found
      have empty := permitted _ found
      rw [empty] at old
      exact agree.permute (by rfl) ((new _).trans old.symm)
  | added => exact agree.permute (by rfl) (by simp [Sched.queued])
  | passed found positive =>
      obtain ⟨rest, old, new⟩ := queued_set_perm found
      exact agree.permute (by rfl) ((new _).trans old.symm)
  | queued found noPermit =>
      exact agree.enqueue found (permitted _ found (Int.not_lt.mp noPermit)) _
  | raised found noWaiter =>
      obtain ⟨rest, old, new⟩ := queued_set_perm found
      exact agree.permute (by rfl) ((new _).trans old.symm)
  | woke found waiter => exact agree.dequeue found waiter _

/-- In every run of operations in which no Blocked thread runs on, the queued
indices are exactly the Blocked slots after every operation. -/
theorem queues_agree_with_blocked [NeZero N] (algorithm : Algorithm) (clock : Nat → Timeval)
    (sched : Sched N)
    (reached : (scheduler algorithm).Reached BlockedDoesNotRun (gtInit clock) sched) :
    QueuesAgree sched := by
  apply reached.invariant (QueuesAgree.gtInit clock)
  intro before label after agree permitted stepped
  obtain ⟨performed, -⟩ := scheduler_step stepped
  exact performed.queuesAgree permitted agree

/-- A created thread waits without a permit and is switched out. -/
theorem queues_agree_with_blocked_waiter :
    ∃ sched : Sched maxGThreads, sched.queued = [1] ∧ QueuesAgree sched := by
  obtain ⟨sched, reached, waiting⟩ := PartialMachine.exists_reached_of_any
    (scheduler .roundRobin) BlockedDoesNotRun (gtInit fun _ => initTimeval)
    [(.semInit 0 0, stoppedClock 0), (.gtCreate 3 (some 0x1000), stoppedClock 0),
      (.schedule, stoppedClock 0), (.semWait 0, stoppedClock 0), (.schedule, stoppedClock 0)]
    (fun sched : Sched maxGThreads => sched.queued = [1])
    (by decide)
  exact ⟨sched, waiting, queues_agree_with_blocked .roundRobin _ sched reached⟩

/-- Under every selector a thread that `sem_wait` has queued runs on, waits again
and is queued twice. -/
theorem exists_queued_twice (algorithm : Algorithm) : ∃ sched : Sched maxGThreads,
    (scheduler algorithm).Reached PartialMachine.anyStep (gtInit fun _ => initTimeval) sched ∧
      ¬ QueuesAgree sched :=
  PartialMachine.exists_reached_of_any
    (scheduler algorithm) PartialMachine.anyStep (gtInit fun _ => initTimeval)
    [(.semInit 0 0, stoppedClock 0), (.semWait 0, stoppedClock 0), (.semWait 0, stoppedClock 0)]
    (fun sched : Sched maxGThreads => ¬ QueuesAgree sched)
    (by cases algorithm <;> decide)

theorem blocked_thread_queued_twice :
    ¬ ∀ (algorithm : Algorithm) (sched : Sched maxGThreads),
      (scheduler algorithm).Reached PartialMachine.anyStep (gtInit fun _ => initTimeval) sched →
        QueuesAgree sched := by
  intro claimed
  obtain ⟨sched, reached, disagree⟩ := exists_queued_twice .roundRobin
  exact disagree (claimed .roundRobin sched reached)

end Ivos.Scheduler
