/-
Module: Ivos.Scheduler.FinishedThreads
Purpose: When a slot that `gt_return` has set to Unused stays out of the
  scheduler until `gt_create` claims it again, and the runs in which it does not.
Trusted boundary: none
Main exports: FinishedStaysFinished, WakesNoFinished,
  finished_stays_finished, finished_thread_wakes, ReturnsUnqueued, reached_of_unqueued
-/
import Ivos.Scheduler.Operations
import Mathlib.Data.Fintype.Basic

namespace Ivos.Scheduler

variable {N : Nat} [NeZero N]

/-!
A thread is finished from its call of `gt_return` until `gt_create` claims its
slot: exactly while `returned` holds for a slot other than the initial one.  Two
writers can bring such a slot back.  A selector that finds nothing to run falls
back on the current slot, which after `gt_return` is Unused, and `gt_schedule`
sets it to Running without looking.  And `sem_post` sets whatever index it pops
to Ready, although a thread that `sem_wait` queued keeps executing and may have
called `gt_return` since.
-/

/-- No finished slot is Ready, Running or current. -/
def FinishedStaysFinished (sched : Sched N) : Prop :=
  ∀ slot, slot ≠ 0 → sched.returned slot →
    (sched.gtTable slot).state ≠ .ready ∧ (sched.gtTable slot).state ≠ .running ∧
      sched.gtCurrent ≠ slot

instance (sched : Sched N) : Decidable (FinishedStaysFinished sched) := by
  unfold FinishedStaysFinished
  infer_instance

/-- The steps that leave finished threads alone: `gt_return` of a created thread
finds another slot its selector takes, and `sem_post` does not pop the index of
an Unused slot. -/
def WakesNoFinished (algorithm : Algorithm) (sched : Sched N) (label : Operation × Inputs) :
    Prop :=
  match label.1 with
  | .gtReturn =>
      sched.gtCurrent ≠ 0 →
        ∃ other, other ≠ sched.gtCurrent ∧ Eligible algorithm (sched.gtTable other)
  | .semPost sem =>
      ∀ thread ∈ (sched.semaphores[sem]?).bind fun semaphore => semaphore.queue.head?,
        (sched.gtTable thread).state ≠ .unused
  | _ => True

instance (algorithm : Algorithm) (sched : Sched N) :
    (label : Operation × Inputs) → Decidable (WakesNoFinished algorithm sched label)
  | (.gtReturn, _) => inferInstanceAs (Decidable (_ → ∃ _, _ ∧ _))
  | (.semPost sem, _) =>
      inferInstanceAs (Decidable (∀ thread ∈
        (sched.semaphores[sem]?).bind fun semaphore => semaphore.queue.head?, _))
  | (.gtCreate _ _, _) | (.schedule, _) | (.semInit _ _, _) | (.semWait _, _) =>
      inferInstanceAs (Decidable True)

/-- The invariant behind the property: finished slots are Unused, and the
current one is not. -/
structure FinishedUnused (sched : Sched N) : Prop where
  finished : ∀ slot, slot ≠ 0 → sched.returned slot → (sched.gtTable slot).state = .unused
  currentLive : (sched.gtTable sched.gtCurrent).state ≠ .unused

namespace FinishedUnused

theorem staysFinished {sched : Sched N} (invariant : FinishedUnused sched) :
    FinishedStaysFinished sched := by
  intro slot notInitial finished
  have isUnused := invariant.finished slot notInitial finished
  refine ⟨by simp [isUnused], by simp [isUnused], ?_⟩
  rintro rfl
  exact invariant.currentLive isUnused

theorem gtInit (clock : Nat → Timeval) : FinishedUnused (gtInit clock : Sched N) := by
  constructor
  · intro slot _ finished
    cases finished
  · simp [Scheduler.gtInit]

/-- A reschedule that does not choose an Unused slot keeps the invariant. -/
theorem reschedule {algorithm : Algorithm} {inputs : Inputs} {before after : Sched N}
    {choice : Choice N} (rescheduled : Rescheduled algorithm inputs before after choice)
    (finished : ∀ slot, slot ≠ 0 → before.returned slot →
      (before.gtTable slot).state = .unused)
    (chosenLive : (before.gtTable choice.thread).state ≠ .unused) :
    FinishedUnused after := by
  constructor
  · intro slot notInitial returned
    rw [rescheduled.returned] at returned
    have isUnused := finished slot notInitial returned
    have notChosen : slot ≠ choice.thread := by
      rintro rfl
      exact chosenLive isUnused
    by_cases isCurrent : slot = before.gtCurrent
    · subst isCurrent
      rw [rescheduled.currentState notChosen, if_neg (by simp [leavesRunning, isUnused]),
        isUnused]
    · rw [rescheduled.otherState slot notChosen isCurrent, isUnused]
  · rw [rescheduled.gtCurrent, rescheduled.chosenState]
    simp

/-- A live current thread that yields never chooses an Unused slot. -/
theorem yield {algorithm : Algorithm} {inputs : Inputs} {before after : Sched N}
    {result : Bool} (invariant : FinishedUnused before)
    (ran : Scheduler.reschedule algorithm inputs before = some (result, after)) :
    FinishedUnused after := by
  obtain ⟨choice, rescheduled⟩ := reschedule_spec ran
  apply reschedule rescheduled invariant.finished
  rcases rescheduled.sound.readyOrCurrent with isReady | isRunning | isCurrent
  · simp [isReady]
  · simp [isRunning]
  · rw [isCurrent]
    exact invariant.currentLive

theorem gtCreate {before : Sched N} (invariant : FinishedUnused before) (priority : Int)
    (stack : Option ℕ+) (clock : Nat → Timeval) :
    FinishedUnused (gtCreate priority stack clock before).2 := by
  rcases gtCreate_spec priority stack clock before with
    unchanged | ⟨slot, created⟩
  · rw [unchanged]
    exact invariant
  · constructor
    · intro other notInitial finished
      rw [created.returned] at finished
      by_cases same : other = slot
      · subst same
        simp at finished
      · rw [Function.update_of_ne same] at finished
        rw [created.others other same]
        exact invariant.finished other notInitial finished
    · rw [created.gtCurrent]
      by_cases same : before.gtCurrent = slot
      · simp [same, created.isReady]
      · rw [created.others _ same]
        exact invariant.currentLive

/-- The slot that retires is the only one the invariant has to give up, and it
is Unused from then on. -/
theorem retire_finished {before : Sched N} (invariant : FinishedUnused before) (slot : Fin N)
    (notInitial : slot ≠ 0) (finished : (retire before).returned slot) :
    ((retire before).gtTable slot).state = .unused := by
  by_cases isCurrent : slot = before.gtCurrent
  · simp [retire, isCurrent]
  · simp only [retire, Function.update_of_ne isCurrent] at finished
    simpa [retire, Table.modify_of_ne _ isCurrent] using
      invariant.finished slot notInitial finished

/-- The only place where the current slot is Unused: inside `gt_return`. -/
theorem gtReturn {algorithm : Algorithm} {inputs : Inputs} {before after : Sched N}
    {result : Bool} (invariant : FinishedUnused before) (notInitial : before.gtCurrent ≠ 0)
    (permitted : WakesNoFinished algorithm before (.gtReturn, inputs))
    (ran : Scheduler.reschedule algorithm inputs (retire before) = some (result, after)) :
    FinishedUnused after := by
  obtain ⟨choice, rescheduled⟩ := reschedule_spec ran
  obtain ⟨other, otherNe, eligible⟩ := permitted notInitial
  have currentUnused : ((retire before).gtTable (retire before).gtCurrent).state = .unused := by
    simp [retire]
  have stillEligible : Eligible algorithm ((retire before).gtTable other) := by
    simpa [retire, Table.modify_of_ne _ otherNe] using eligible
  have chosenNe : choice.thread ≠ (retire before).gtCurrent :=
    getNextThread_ne_current currentUnused stillEligible rescheduled.chosen
  apply reschedule rescheduled invariant.retire_finished
  rcases rescheduled.sound.readyOrCurrent with isReady | isRunning | isCurrent
  · simp [isReady]
  · simp [isRunning]
  · exact absurd isCurrent chosenNe

/-- The initial thread inside its own `gt_return`. -/
theorem awaitOthers {before : Sched N} (invariant : FinishedUnused before) :
    FinishedUnused { before with returned := Function.update before.returned 0 true } := by
  refine ⟨?_, invariant.currentLive⟩
  intro slot notInitial finished
  dsimp only at finished ⊢
  rw [Function.update_of_ne notInitial] at finished
  exact invariant.finished slot notInitial finished

/-- Setting a slot that is not Unused to another state that is not Unused. -/
theorem modify {before : Sched N} (invariant : FinishedUnused before) {slot : Fin N}
    {newState : EState} (semaphores : List (Semaphore N)) (now : Timeval)
    (slotLive : (before.gtTable slot).state ≠ .unused) (newLive : newState ≠ .unused) :
    FinishedUnused { before with
      semaphores := semaphores
      gtTable := before.gtTable.modify slot (updateThreadState now newState) } := by
  constructor
  · intro other notInitial finished
    have isUnused := invariant.finished other notInitial finished
    by_cases same : other = slot
    · subst same
      exact absurd isUnused slotLive
    · simpa [Table.modify_of_ne _ same] using isUnused
  · by_cases same : before.gtCurrent = slot
    · simpa [same] using newLive
    · simpa [Table.modify_of_ne _ same] using invariant.currentLive

end FinishedUnused

/-- Every permitted operation keeps the invariant. -/
theorem Performed.finishedUnused {algorithm : Algorithm} {operation : Operation}
    {inputs : Inputs} {before after : Sched N}
    (performed : Performed algorithm inputs before operation after)
    (permitted : WakesNoFinished algorithm before (operation, inputs))
    (invariant : FinishedUnused before) : FinishedUnused after := by
  cases performed with
  | created priority stack => exact invariant.gtCreate priority stack inputs.clock
  | scheduled ran => exact invariant.yield ran
  | returned notInitial ran => exact invariant.gtReturn notInitial permitted ran
  | awaited isInitial ran => exact invariant.awaitOthers.yield ran
  | reset | added | passed | raised => exact ⟨invariant.finished, invariant.currentLive⟩
  | queued => exact invariant.modify _ _ invariant.currentLive (by simp)
  | woke found waiter =>
      apply invariant.modify _ _ _ (by simp)
      exact permitted _ (by simp [found, waiter])

/-- In every run of operations whose steps wake no finished thread, a finished
slot is neither Ready nor Running nor current until it is claimed again. -/
theorem finished_stays_finished (algorithm : Algorithm) (clock : Nat → Timeval)
    (sched : Sched N)
    (reached : (scheduler algorithm).Reached (WakesNoFinished algorithm) (gtInit clock) sched) :
    FinishedStaysFinished sched := by
  apply FinishedUnused.staysFinished
  apply reached.invariant (FinishedUnused.gtInit clock)
  intro before label after invariant permitted stepped
  obtain ⟨performed, -⟩ := scheduler_step stepped
  exact performed.finishedUnused permitted invariant

/-- Inputs with a stopped clock. -/
def stoppedClock (draw : Nat) : Inputs :=
  { clock := fun _ => initTimeval, draw := draw, rsp := 0, fuel := 2 * maxGThreads }

/-- A created thread blocks, is taken off the processor, is woken, returns, and
leaves the initial thread running. -/
theorem finished_stays_finished_after_wakeup :
    ∃ sched : Sched maxGThreads,
      (sched.returned 1 ∧ (sched.gtTable 1).state = .unused) ∧ FinishedStaysFinished sched := by
  obtain ⟨sched, reached, finished⟩ := PartialMachine.exists_reached_of_any
    (scheduler .roundRobin) (WakesNoFinished .roundRobin) (gtInit fun _ => initTimeval)
    [(.semInit 0 0, stoppedClock 0), (.gtCreate 3 (some 0x1000), stoppedClock 0),
      (.schedule, stoppedClock 0), (.semWait 0, stoppedClock 0), (.schedule, stoppedClock 0),
      (.semPost 0, stoppedClock 0), (.schedule, stoppedClock 0), (.gtReturn, stoppedClock 0)]
    (fun sched : Sched maxGThreads => sched.returned 1 ∧ (sched.gtTable 1).state = .unused)
    (by decide)
  exact ⟨sched, finished, finished_stays_finished .roundRobin _ sched reached⟩

/-- Under every selector a finished thread can come back: it queued itself in
`sem_wait`, went on to return, and a later `sem_post` pops its index. -/
theorem exists_finished_awake (algorithm : Algorithm) : ∃ sched : Sched maxGThreads,
    (scheduler algorithm).Reached PartialMachine.anyStep (gtInit fun _ => initTimeval) sched ∧
      ¬ FinishedStaysFinished sched :=
  PartialMachine.exists_reached_of_any
    (scheduler algorithm) PartialMachine.anyStep (gtInit fun _ => initTimeval)
    [(.semInit 0 0, stoppedClock 0), (.gtCreate 0 (some 0x1000), stoppedClock 0),
      (.schedule, stoppedClock 11), (.semWait 0, stoppedClock 0), (.gtReturn, stoppedClock 0),
      (.semPost 0, stoppedClock 0)]
    (fun sched : Sched maxGThreads => ¬ FinishedStaysFinished sched)
    (by cases algorithm <;> decide)

theorem finished_thread_wakes :
    ¬ ∀ (algorithm : Algorithm) (sched : Sched maxGThreads),
      (scheduler algorithm).Reached PartialMachine.anyStep (gtInit fun _ => initTimeval) sched →
        FinishedStaysFinished sched := by
  intro claimed
  obtain ⟨sched, reached, awake⟩ := exists_finished_awake .roundRobin
  exact awake (claimed .roundRobin sched reached)

/-! ### Where stale indices come from

`sem_wait` queues the current thread, which is not finished.  Its index is stale only from the
moment at which the thread returns with the index still in a queue; a run in which no thread
does so wakes no finished one.
-/

/-- The steps of such a run: when a created thread returns, no semaphore has its index, and
there is another slot that the selector takes. -/
def ReturnsUnqueued (algorithm : Algorithm) (sched : Sched N) (label : Operation × Inputs) :
    Prop :=
  label.1 = .gtReturn → sched.gtCurrent ≠ 0 →
    sched.gtCurrent ∉ sched.queued ∧
      ∃ other, other ≠ sched.gtCurrent ∧ Eligible algorithm (sched.gtTable other)

/-- No queue holds the index of an Unused slot. -/
structure QueuedLive (sched : Sched N) : Prop where
  finishedUnused : FinishedUnused sched
  live : ∀ slot ∈ sched.queued, (sched.gtTable slot).state ≠ .unused

omit [NeZero N] in
/-- Replacing a semaphore queues nothing but what is in its new queue. -/
theorem mem_queued_set {semaphores : List (Semaphore N)} {sem : Nat} {replacement : Semaphore N}
    {slot : Fin N} (member : slot ∈ (semaphores.set sem replacement).flatMap Semaphore.queue) :
    slot ∈ replacement.queue ∨ slot ∈ semaphores.flatMap Semaphore.queue := by
  obtain ⟨semaphore, isSemaphore, inQueue⟩ := List.mem_flatMap.mp member
  rcases List.mem_or_eq_of_mem_set isSemaphore with old | rfl
  · exact .inr (List.mem_flatMap.mpr ⟨semaphore, old, inQueue⟩)
  · exact .inl inQueue

omit [NeZero N] in
theorem mem_queued_of_found {semaphores : List (Semaphore N)} {sem : Nat}
    {semaphore : Semaphore N} {slot : Fin N} (found : semaphores[sem]? = some semaphore)
    (member : slot ∈ semaphore.queue) : slot ∈ semaphores.flatMap Semaphore.queue :=
  List.mem_flatMap.mpr ⟨semaphore, List.mem_of_getElem? found, member⟩

omit [NeZero N] in
/-- A reschedule sets no slot to Unused. -/
theorem Rescheduled.live {algorithm : Algorithm} {inputs : Inputs} {before after : Sched N}
    {choice : Choice N} (rescheduled : Rescheduled algorithm inputs before after choice)
    {slot : Fin N} (live : (before.gtTable slot).state ≠ .unused) :
    (after.gtTable slot).state ≠ .unused := by
  by_cases isChosen : slot = choice.thread
  · rw [isChosen, rescheduled.chosenState]
    exact EState.noConfusion
  · by_cases isCurrent : slot = before.gtCurrent
    · subst isCurrent
      rw [rescheduled.currentState isChosen]
      split
      · exact EState.noConfusion
      · exact live
    · rwa [rescheduled.otherState slot isChosen isCurrent]

omit [NeZero N] in
/-- Nor does setting a slot to another state. -/
theorem modify_live {gtTable : Table N} {changed slot : Fin N} {now : Timeval} {newState : EState}
    (newLive : newState ≠ .unused) (live : (gtTable slot).state ≠ .unused) :
    (gtTable.modify changed (updateThreadState now newState) slot).state ≠ .unused := by
  by_cases same : slot = changed
  · simpa [same] using newLive
  · rwa [Table.modify_of_ne _ same]

namespace QueuedLive

/-- Queues without stale indices give `sem_post` none to wake. -/
theorem wakesNoFinished {algorithm : Algorithm} {before : Sched N} {label : Operation × Inputs}
    (invariant : QueuedLive before) (permitted : ReturnsUnqueued algorithm before label) :
    WakesNoFinished algorithm before label := by
  obtain ⟨operation, inputs⟩ := label
  cases operation with
  | gtReturn => exact fun notInitial => (permitted rfl notInitial).2
  | semPost sem =>
      intro thread isHead
      obtain ⟨semaphore, found, isHead⟩ := Option.bind_eq_some_iff.mp isHead
      exact invariant.live thread (mem_queued_of_found found (List.mem_of_head? isHead))
  | gtCreate | schedule | semInit | semWait => trivial

theorem step {algorithm : Algorithm} {operation : Operation} {inputs : Inputs}
    {before after : Sched N} (invariant : QueuedLive before)
    (permitted : ReturnsUnqueued algorithm before (operation, inputs))
    (performed : Performed algorithm inputs before operation after) : QueuedLive after := by
  have kept := performed.finishedUnused (invariant.wakesNoFinished permitted)
    invariant.finishedUnused
  refine ⟨kept, fun slot queued => ?_⟩
  have rescheduled {middle : Sched N} {result : Bool}
      (ran : Scheduler.reschedule algorithm inputs middle = some (result, after))
      (semaphores : middle.semaphores = before.semaphores)
      (live : slot ∈ before.queued → (middle.gtTable slot).state ≠ .unused) :
      (after.gtTable slot).state ≠ .unused := by
    obtain ⟨choice, spec⟩ := reschedule_spec ran
    have same : after.queued = before.queued := by
      unfold Sched.queued
      rw [spec.semaphores, semaphores]
    exact spec.live (live (same ▸ queued))
  cases performed with
  | created priority stack =>
      rcases gtCreate_spec priority stack inputs.clock before with unchanged | ⟨taken, created⟩
      · rw [unchanged] at queued ⊢
        exact invariant.live slot queued
      · have wasQueued : slot ∈ before.queued := by
          unfold Sched.queued at queued ⊢
          rwa [created.semaphores] at queued
        by_cases isTaken : slot = taken
        · rw [isTaken, created.isReady]
          exact EState.noConfusion
        · rw [created.others slot isTaken]
          exact invariant.live slot wasQueued
  | scheduled ran => exact rescheduled ran rfl (invariant.live slot)
  | awaited isInitial ran => exact rescheduled ran rfl (invariant.live slot)
  | returned notInitial ran =>
      refine rescheduled ran rfl fun wasQueued => ?_
      -- The slot that becomes Unused is in no queue.
      have other : slot ≠ before.gtCurrent :=
        fun same => (permitted rfl notInitial).1 (same ▸ wasQueued)
      unfold retire
      dsimp only
      rw [Table.modify_of_ne _ other]
      exact invariant.live slot wasQueued
  | reset inside =>
      rcases mem_queued_set queued with new | old
      · cases new
      · exact invariant.live slot old
  | added next =>
      obtain ⟨semaphore, member, inQueue⟩ := List.mem_flatMap.mp queued
      rcases List.mem_append.mp member with old | new
      · exact invariant.live slot (List.mem_flatMap.mpr ⟨semaphore, old, inQueue⟩)
      · cases List.mem_singleton.mp new
        cases inQueue
  | passed found positive =>
      rcases mem_queued_set queued with waits | old
      · exact invariant.live slot (mem_queued_of_found found waits)
      · exact invariant.live slot old
  | raised found noWaiter =>
      rcases mem_queued_set queued with waits | old
      · exact invariant.live slot (mem_queued_of_found found waits)
      · exact invariant.live slot old
  | queued found noPermit =>
      apply modify_live EState.noConfusion
      rcases mem_queued_set queued with waits | old
      · rcases List.mem_append.mp waits with earlier | new
        · exact invariant.live slot (mem_queued_of_found found earlier)
        · rw [List.mem_singleton.mp new]
          exact invariant.finishedUnused.currentLive
      · exact invariant.live slot old
  | woke found waiter =>
      apply modify_live EState.noConfusion
      rcases mem_queued_set queued with waits | old
      · have wasQueued : slot ∈ before.queued :=
          mem_queued_of_found found (waiter ▸ List.mem_cons_of_mem _ waits)
        exact invariant.live slot wasQueued
      · exact invariant.live slot old

end QueuedLive

/-- A run in which no thread returns while its index is queued wakes no finished thread. -/
theorem reached_of_unqueued {algorithm : Algorithm} {clock : Nat → Timeval} {sched : Sched N}
    (reached : (scheduler algorithm).Reached (ReturnsUnqueued algorithm) (gtInit clock) sched) :
    (scheduler algorithm).Reached (WakesNoFinished algorithm) (gtInit clock) sched := by
  have both : QueuedLive sched ∧
      (scheduler algorithm).Reached (WakesNoFinished algorithm) (gtInit clock) sched := by
    induction reached with
    | start => exact ⟨⟨.gtInit clock, fun slot queued => by cases queued⟩, .start⟩
    | step _ permitted stepped inductionHypothesis =>
        obtain ⟨invariant, awake⟩ := inductionHypothesis
        obtain ⟨performed, -⟩ := scheduler_step stepped
        exact ⟨invariant.step permitted performed,
          .step awake (invariant.wakesNoFinished permitted) stepped⟩
  exact both.2

end Ivos.Scheduler
