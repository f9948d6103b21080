/-
Module: Ivos.Scheduler.SemaphoreDestroy
Purpose: What `sem_destroy` does to the threads in the queue of a semaphore.
Trusted boundary: none
Main exports: Destruction, semDestroy, holds_of_reached, semDestroy_outcome,
  ReleasesWaiters, sem_destroy_releases_never, sem_destroy_keeps_waiter
-/
import Ivos.Scheduler.PermitAccounting

namespace Ivos.Scheduler

variable {N : Nat}

/-! ### The queue in memory -/

/-- The queue of a semaphore is linked in every state reached, whatever its value was set
up with. -/
theorem holds_of_reached {initialValue : Int} {gtTable : Table N} {run : SemaphoreRun N}
    (reached : (semaphoreMachine N).Reached PartialMachine.anyStep
      (.start initialValue gtTable) run) : ∃ items, run.semaphore.queue.Holds items := by
  apply reached.invariant
  · exact ⟨[], queueInit_holds⟩
  · rintro before label after ⟨items, holds⟩ - stepped
    obtain ⟨itemsAfter, called⟩ := called_of_step holds stepped
    exact ⟨itemsAfter, called.holds holds⟩

/-! ### `sem_destroy`

The loop of `sem_destroy` runs while `queue_is_empty` holds.  On an empty queue it pops -1
and takes that as an index of the table.  What such an access does is undefined in C; here
the call has no outcome then.
-/

/-- The table and the queue while `sem_destroy` runs, and the slots it has indexed so
far. -/
structure Destruction (N : Nat) where
  gtTable : Table N
  queue : WaitQueue (Fin N)
  indexed : List (Fin N)

/-- `sem_destroy`, as far as the `free` of `struct queue_t`; `none` where `queue_pop`
returns -1 and the table is indexed with it, or the fuel is used up. -/
def semDestroy (clock : Nat → Timeval) : Nat → Destruction N → Option (Destruction N)
  | 0, _ => none
  | fuel + 1, destruction =>
      if queueIsEmpty destruction.queue then do
        let (threadIdx, queue) ← queuePop destruction.queue
        let thread ← threadIdx
        semDestroy clock fuel
          { gtTable := destruction.gtTable.modify thread
              (updateThreadState (clock destruction.indexed.length) .ready)
            queue := queue
            indexed := destruction.indexed ++ [thread] }
      else some destruction

/-- `sem_destroy` is called. -/
def SemaphoreRun.destruction (run : SemaphoreRun N) : Destruction N :=
  { gtTable := run.gtTable, queue := run.semaphore.queue, indexed := [] }

/-- With threads in the queue the loop is not entered; with none it indexes the table
with -1. -/
theorem semDestroy_outcome {destruction : Destruction N} {items : List (Nat × Fin N)}
    (holds : destruction.queue.Holds items) (clock : Nat → Timeval) (fuel : Nat) :
    semDestroy clock (fuel + 1) destruction = if items = [] then none else some destruction := by
  unfold semDestroy
  simp only [queueIsEmpty_iff holds]
  split
  · rename_i isEmpty
    have popped : queuePop destruction.queue = some (none, destruction.queue) :=
      if_pos ((queueIsEmpty_iff holds).mpr isEmpty)
    rw [popped]
    rfl
  · rfl

/-- It returns only with threads in the queue, having done nothing to them. -/
theorem semDestroy_eq_some {destruction destroyed : Destruction N} {items : List (Nat × Fin N)}
    (holds : destruction.queue.Holds items) {clock : Nat → Timeval} {fuel : Nat}
    (ran : semDestroy clock fuel destruction = some destroyed) :
    items ≠ [] ∧ destroyed = destruction := by
  cases fuel with
  | zero => cases ran
  | succ fuel =>
      rw [semDestroy_outcome holds] at ran
      split at ran
      · cases ran
      · rename_i nonempty
        exact ⟨nonempty, (Option.some.inj ran).symm⟩

/-- `sem_destroy` returns, with every thread of the queue and no other made Ready, and
frees the items of the queue. -/
def ReleasesWaiters (clock : Nat → Timeval) (run : SemaphoreRun N) : Prop :=
  ∀ items, run.semaphore.queue.Holds items →
    ∃ fuel destroyed, semDestroy clock fuel run.destruction = some destroyed ∧
      (∀ slot ∈ destroyed.indexed, slot ∈ items.map Prod.snd) ∧
      (∀ slot ∈ items.map Prod.snd, (destroyed.gtTable slot).state = .ready) ∧
      (∀ slot, slot ∉ items.map Prod.snd →
        (destroyed.gtTable slot).state = (run.gtTable slot).state) ∧
      ∀ item ∈ items, destroyed.queue.items item.1 = none

/-- In no state reached does `sem_destroy` release the waiters: without one it does not
return, and otherwise it leaves their items behind. -/
theorem sem_destroy_releases_never (initialValue : Int) (gtTable : Table N) (run : SemaphoreRun N)
    (reached : (semaphoreMachine N).Reached PartialMachine.anyStep
      (.start initialValue gtTable) run) (clock : Nat → Timeval) :
    ¬ ReleasesWaiters clock run := by
  intro releases
  obtain ⟨items, holds⟩ := holds_of_reached reached
  obtain ⟨fuel, destroyed, ran, -, -, -, freed⟩ := releases items holds
  obtain ⟨nonempty, rfl⟩ := semDestroy_eq_some holds ran
  cases items with
  | nil => exact nonempty rfl
  | cons item items =>
      obtain ⟨next, cell⟩ := holds.linked.allocated List.mem_cons_self
      cases cell.symm.trans (freed item List.mem_cons_self)

/-- Two threads wait, and `sem_destroy` leaves them. -/
theorem sem_destroy_releases_neither : ∃ run : SemaphoreRun maxGThreads,
    run.queued = [2, 1] ∧ ¬ ReleasesWaiters (fun _ => initTimeval) run := by
  obtain ⟨run, reached, queued⟩ := PartialMachine.exists_reached_of_any
    (semaphoreMachine maxGThreads) PartialMachine.anyStep (.start 0 fun _ => Gt.zero)
    [.semWait 2 0 none initTimeval, .semWait 1 1 none initTimeval]
    (fun run => run.queued = [2, 1]) (by decide)
  exact ⟨run, queued, sem_destroy_releases_never 0 _ run reached _⟩

/-- A thread that waits when `sem_destroy` is called stays Blocked. -/
theorem sem_destroy_keeps_waiter :
    ¬ ∀ (initialValue : Int) (gtTable : Table maxGThreads) (run : SemaphoreRun maxGThreads),
      (semaphoreMachine maxGThreads).Reached PartialMachine.anyStep
          (.start initialValue gtTable) run →
        ∀ clock, ReleasesWaiters clock run := by
  intro claimed
  obtain ⟨run, reached, isBlocked, waiting⟩ := PartialMachine.exists_reached_of_any
    (semaphoreMachine maxGThreads) PartialMachine.anyStep (.start 0 fun _ => Gt.zero)
    [.semWait 1 0 none initTimeval]
    (fun run => (run.gtTable 1).state = .blocked ∧ run.queued = [1] ∧ run.woken = [])
    (by decide)
  obtain ⟨items, balanced⟩ := balanced_of_reached (le_refl 0) reached
  have inQueue : items.map Prod.snd = [1] := by
    have history := balanced.history
    rw [waiting.1, waiting.2, List.nil_append] at history
    exact history.symm
  obtain ⟨fuel, destroyed, ran, -, released, -⟩ :=
    claimed 0 _ run reached (fun _ => initTimeval) items balanced.holds
  have isReady := released 1 (by rw [inQueue]; exact List.mem_singleton_self _)
  obtain ⟨-, rfl⟩ := semDestroy_eq_some balanced.holds ran
  cases isBlocked.symm.trans isReady

end Ivos.Scheduler
