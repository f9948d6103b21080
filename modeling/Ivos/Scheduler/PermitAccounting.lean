/-
Module: Ivos.Scheduler.PermitAccounting
Purpose: One semaphore over any sequence of calls, with what the calls have done so
  far: no permit is lost or made up, and waiters are woken in order.
Trusted boundary: no `int` overflows, and `queue_push` gets its memory
Main exports: LinkedSemaphore, SemaphoreRun, semaphoreMachine, Called, called_of_step,
  Accounted, calls_return, semWait_refines, semPost_refines, permit_accounting
-/
import Ivos.Scheduler.Operations
import Ivos.Scheduler.WaitQueue

namespace Ivos.Scheduler

variable {N : Nat}

/-!
The operations mask SIGALRM and SIGINT around everything they do to the semaphore,
so each call is one step.  Between two calls the rest of the program may change the
states of the threads in any way.

`value` is read as an unbounded integer: the runs are those in which it does not overflow an
`int`.  `malloc` in `queue_push` succeeds.
-/

/-- `struct semaphore_t` with its queue in memory; `value` is read as an unbounded
integer. -/
structure LinkedSemaphore (N : Nat) where
  value : Int
  queue : WaitQueue (Fin N)

/-- A semaphore, the table its operations write to, and the history of the calls. -/
structure SemaphoreRun (N : Nat) where
  semaphore : LinkedSemaphore N
  gtTable : Table N
  /-- Calls of `sem_post`. -/
  posts : Nat
  /-- Calls of `sem_wait`. -/
  waits : Nat
  /-- Calls of `sem_try_wait` that found `value > 0`. -/
  tries : Nat
  /-- The indices `sem_wait` has queued, in order. -/
  queued : List (Fin N)
  /-- The indices `sem_post` has made Ready, in order. -/
  woken : List (Fin N)

/-- `sem_init`. -/
def linkedInit (initialValue : Int) : LinkedSemaphore N := ⟨initialValue, queueInit⟩

/-- The state behind `sem_init`. -/
def SemaphoreRun.start (initialValue : Int) (gtTable : Table N) : SemaphoreRun N :=
  { semaphore := linkedInit initialValue, gtTable := gtTable, posts := 0, waits := 0, tries := 0,
    queued := [], woken := [] }

/-- What happens next. -/
inductive SemaphoreEvent (N : Nat) where
  /-- `sem_wait` in thread `gtCurrent`; `item` is what `malloc` returns if it is
  called, with `garbage` in it. -/
  | semWait (gtCurrent : Fin N) (item : Nat) (garbage : Option Nat) (now : Timeval)
  | semPost (now : Timeval)
  | semTryWait
  /-- The rest of the program changes the table. -/
  | elsewhere (gtTable : Table N)

namespace SemaphoreRun

/-- `sem_wait`. -/
def semWait (run : SemaphoreRun N) (gtCurrent : Fin N) (item : Nat) (garbage : Option Nat)
    (now : Timeval) : Option (SemaphoreRun N) :=
  let run := { run with waits := run.waits + 1 }
  if run.semaphore.value > 0 then
    some { run with semaphore := { run.semaphore with value := run.semaphore.value - 1 } }
  else do
    let queue ← queuePush item garbage gtCurrent run.semaphore.queue
    return { run with
      semaphore := { run.semaphore with queue := queue }
      gtTable := run.gtTable.modify gtCurrent (updateThreadState now .blocked)
      queued := run.queued ++ [gtCurrent] }

/-- `sem_post`; `none` where `queue_pop` returns -1 and the table is indexed with it. -/
def semPost (run : SemaphoreRun N) (now : Timeval) : Option (SemaphoreRun N) :=
  let run := { run with posts := run.posts + 1 }
  if queueIsEmpty run.semaphore.queue then
    some { run with semaphore := { run.semaphore with value := run.semaphore.value + 1 } }
  else do
    let (threadIdx, queue) ← queuePop run.semaphore.queue
    let thread ← threadIdx
    return { run with
      semaphore := { run.semaphore with queue := queue }
      gtTable := run.gtTable.modify thread (updateThreadState now .ready)
      woken := run.woken ++ [thread] }

/-- `sem_try_wait`; without a permit it prints an error and changes nothing. -/
def semTryWait (run : SemaphoreRun N) : SemaphoreRun N :=
  if run.semaphore.value > 0 then
    { run with
      semaphore := { run.semaphore with value := run.semaphore.value - 1 }
      tries := run.tries + 1 }
  else run

end SemaphoreRun

/-- Any sequence of calls; `malloc` returns memory that is not in use. -/
def semaphoreMachine (N : Nat) : PartialMachine (SemaphoreRun N) (SemaphoreEvent N) where
  step run event :=
    match event with
    | .semWait gtCurrent item garbage now =>
        if (run.semaphore.queue.items item).isNone then run.semWait gtCurrent item garbage now
        else none
    | .semPost now => run.semPost now
    | .semTryWait => some run.semTryWait
    | .elsewhere gtTable => some { run with gtTable := gtTable }

/-! ### The queue as a list -/

/-- The semaphore in memory is semaphore number `sem` of the scheduler state, whose
queues are lists. -/
def Represents (run : SemaphoreRun N) (sem : Nat) (sched : Sched N) : Prop :=
  ∃ items, run.semaphore.queue.Holds items ∧
    sched.semaphores[sem]? = some ⟨run.semaphore.value, items.map Prod.snd⟩ ∧
    sched.gtTable = run.gtTable

theorem getElem?_set_of_found {semaphores : List (Semaphore N)} {sem : Nat}
    {semaphore : Semaphore N} (found : semaphores[sem]? = some semaphore)
    (replacement : Semaphore N) : (semaphores.set sem replacement)[sem]? = some replacement := by
  obtain ⟨inside, -⟩ := List.getElem?_eq_some_iff.mp found
  exact List.getElem?_set_self inside

/-- `sem_wait` on the items in memory is `semWait` on the list. -/
theorem semWait_refines {run : SemaphoreRun N} {sem : Nat} {sched : Sched N}
    (represents : Represents run sem sched) {item : Nat}
    (fresh : run.semaphore.queue.items item = none) (garbage : Option Nat)
    (clock : Nat → Timeval) :
    ∃ runAfter schedAfter,
      run.semWait sched.gtCurrent item garbage (clock 0) = some runAfter ∧
      semWait sem clock sched = some schedAfter ∧ Represents runAfter sem schedAfter := by
  obtain ⟨items, holds, found, sameTable⟩ := represents
  by_cases positive : run.semaphore.value > 0
  · have taken : semWait sem clock sched = some { sched with
        semaphores := sched.semaphores.set sem
          ⟨run.semaphore.value - 1, items.map Prod.snd⟩ } :=
      Option.bind_eq_some_iff.mpr ⟨_, found, if_pos positive⟩
    exact ⟨_, _, if_pos positive, taken, items, holds, getElem?_set_of_found found _, sameTable⟩
  · obtain ⟨queue, pushed, holdsAfter⟩ := queuePush_spec holds fresh garbage sched.gtCurrent
    have ran : run.semWait sched.gtCurrent item garbage (clock 0) = some { run with
        waits := run.waits + 1
        semaphore := { run.semaphore with queue := queue }
        gtTable := run.gtTable.modify sched.gtCurrent (updateThreadState (clock 0) .blocked)
        queued := run.queued ++ [sched.gtCurrent] } :=
      (if_neg positive).trans (Option.bind_eq_some_iff.mpr ⟨queue, pushed, rfl⟩)
    have queued : semWait sem clock sched = some { sched with
        semaphores := sched.semaphores.set sem
          ⟨run.semaphore.value, items.map Prod.snd ++ [sched.gtCurrent]⟩
        gtTable := sched.gtTable.modify sched.gtCurrent
          (updateThreadState (clock 0) .blocked) } :=
      Option.bind_eq_some_iff.mpr ⟨_, found, if_neg positive⟩
    refine ⟨_, _, ran, queued, _, holdsAfter, ?_, by rw [sameTable]⟩
    rw [getElem?_set_of_found found, List.map_append]
    rfl

/-- `sem_post` likewise. -/
theorem semPost_refines {run : SemaphoreRun N} {sem : Nat} {sched : Sched N}
    (represents : Represents run sem sched) (clock : Nat → Timeval) :
    ∃ runAfter schedAfter, run.semPost (clock 0) = some runAfter ∧
      semPost sem clock sched = some schedAfter ∧ Represents runAfter sem schedAfter := by
  obtain ⟨items, holds, found, sameTable⟩ := represents
  have empty := queueIsEmpty_iff holds
  cases items with
  | nil =>
      have raised : semPost sem clock sched = some { sched with
          semaphores := sched.semaphores.set sem ⟨run.semaphore.value + 1, []⟩ } :=
        Option.bind_eq_some_iff.mpr ⟨_, found, rfl⟩
      exact ⟨_, _, if_pos (empty.mpr rfl), raised, [], holds, getElem?_set_of_found found _,
        sameTable⟩
  | cons first items =>
      obtain ⟨queue, popped, holdsAfter⟩ := queuePop_spec holds
      have ran : run.semPost (clock 0) = some { run with
          posts := run.posts + 1
          semaphore := { run.semaphore with queue := queue }
          gtTable := run.gtTable.modify first.2 (updateThreadState (clock 0) .ready)
          woken := run.woken ++ [first.2] } :=
        (if_neg (by simp [empty])).trans (Option.bind_eq_some_iff.mpr ⟨_, popped, rfl⟩)
      have woke : semPost sem clock sched = some { sched with
          semaphores := sched.semaphores.set sem ⟨run.semaphore.value, items.map Prod.snd⟩
          gtTable := sched.gtTable.modify first.2 (updateThreadState (clock 0) .ready) } :=
        Option.bind_eq_some_iff.mpr ⟨_, found, rfl⟩
      exact ⟨_, _, ran, woke, items, holdsAfter, getElem?_set_of_found found _, by rw [sameTable]⟩

/-! ### What one step does -/

/-- What a step does to a semaphore with `items` in its queue. -/
inductive Called (run : SemaphoreRun N) (items : List (Nat × Fin N)) :
    SemaphoreRun N → List (Nat × Fin N) → Prop where
  /-- A permit is taken, by a `sem_wait` or a `sem_try_wait`. -/
  | took (positive : run.semaphore.value > 0) {waits tries : Nat}
      (one : waits + tries = run.waits + run.tries + 1) :
      Called run items
        { run with
          semaphore := { run.semaphore with value := run.semaphore.value - 1 }
          waits := waits
          tries := tries } items
  /-- A thread waits without a permit. -/
  | queued (noPermit : ¬ run.semaphore.value > 0) {queue : WaitQueue (Fin N)} {item : Nat}
      {gtCurrent : Fin N} (holds : queue.Holds (items ++ [(item, gtCurrent)]))
      (gtTable : Table N) :
      Called run items
        { run with
          semaphore := { run.semaphore with queue := queue }
          gtTable := gtTable
          waits := run.waits + 1
          queued := run.queued ++ [gtCurrent] } (items ++ [(item, gtCurrent)])
  /-- A permit is given with no thread waiting. -/
  | gave (isEmpty : items = []) :
      Called run items
        { run with
          semaphore := { run.semaphore with value := run.semaphore.value + 1 }
          posts := run.posts + 1 } items
  /-- The thread waiting longest gets the permit of a `sem_post`. -/
  | woke {first : Nat × Fin N} {rest : List (Nat × Fin N)} (isFirst : items = first :: rest)
      {queue : WaitQueue (Fin N)} (holds : queue.Holds rest) (gtTable : Table N) :
      Called run items
        { run with
          semaphore := { run.semaphore with queue := queue }
          gtTable := gtTable
          posts := run.posts + 1
          woken := run.woken ++ [first.2] } rest
  /-- Only the table changes, if anything does. -/
  | kept (gtTable : Table N) : Called run items { run with gtTable := gtTable } items

section Steps

variable {run : SemaphoreRun N} {items : List (Nat × Fin N)}

theorem semWait_called (holds : run.semaphore.queue.Holds items) (gtCurrent : Fin N) {item : Nat}
    (fresh : run.semaphore.queue.items item = none) (garbage : Option Nat) (now : Timeval) :
    ∃ after itemsAfter, run.semWait gtCurrent item garbage now = some after ∧
      Called run items after itemsAfter := by
  by_cases positive : run.semaphore.value > 0
  · exact ⟨_, items, if_pos positive, .took positive (Nat.add_right_comm ..)⟩
  · obtain ⟨queue, pushed, holdsAfter⟩ := queuePush_spec holds fresh garbage gtCurrent
    refine ⟨_, _, ?_, .queued positive holdsAfter
      (run.gtTable.modify gtCurrent (updateThreadState now .blocked))⟩
    exact (if_neg positive).trans (Option.bind_eq_some_iff.mpr ⟨queue, pushed, rfl⟩)

theorem semPost_called (holds : run.semaphore.queue.Holds items) (now : Timeval) :
    ∃ after itemsAfter, run.semPost now = some after ∧ Called run items after itemsAfter := by
  have empty := queueIsEmpty_iff holds
  cases items with
  | nil => exact ⟨_, [], if_pos (empty.mpr rfl), .gave rfl⟩
  | cons first items =>
      obtain ⟨queue, popped, holdsAfter⟩ := queuePop_spec holds
      refine ⟨_, items, ?_, .woke rfl holdsAfter
        (run.gtTable.modify first.2 (updateThreadState now .ready))⟩
      refine (if_neg (by simp [empty])).trans ?_
      exact Option.bind_eq_some_iff.mpr ⟨_, popped, rfl⟩

theorem semTryWait_called : Called run items run.semTryWait items := by
  unfold SemaphoreRun.semTryWait
  split
  · rename_i positive
    exact .took positive rfl
  · exact .kept run.gtTable

/-- Every step on a queue that is linked is one of these. -/
theorem called_of_step {after : SemaphoreRun N} {event : SemaphoreEvent N}
    (holds : run.semaphore.queue.Holds items)
    (stepped : (semaphoreMachine N).step run event = some after) :
    ∃ itemsAfter, Called run items after itemsAfter := by
  cases event with
  | semWait gtCurrent item garbage now =>
      simp only [semaphoreMachine] at stepped
      split at stepped
      · rename_i fresh
        obtain ⟨next, itemsAfter, ran, called⟩ :=
          semWait_called holds gtCurrent (Option.isNone_iff_eq_none.mp fresh) garbage now
        obtain rfl := Option.some.inj (ran.symm.trans stepped)
        exact ⟨itemsAfter, called⟩
      · cases stepped
  | semPost now =>
      obtain ⟨next, itemsAfter, ran, called⟩ := semPost_called holds now
      obtain rfl := Option.some.inj (ran.symm.trans stepped)
      exact ⟨itemsAfter, called⟩
  | semTryWait =>
      cases stepped
      exact ⟨items, semTryWait_called⟩
  | elsewhere gtTable =>
      cases stepped
      exact ⟨items, .kept gtTable⟩

/-- The queue stays linked. -/
theorem Called.holds {after : SemaphoreRun N} {itemsAfter : List (Nat × Fin N)}
    (called : Called run items after itemsAfter) (holds : run.semaphore.queue.Holds items) :
    after.semaphore.queue.Holds itemsAfter := by
  cases called with
  | took | gave | kept => exact holds
  | queued _ holdsAfter => exact holdsAfter
  | woke _ holdsAfter => exact holdsAfter

end Steps

/-! ### Accounting -/

/-- The books of a semaphore set up with `initialValue`, with `items` in its queue. -/
structure Balanced (initialValue : Int) (run : SemaphoreRun N) (items : List (Nat × Fin N)) :
    Prop where
  holds : run.semaphore.queue.Holds items
  nonneg : 0 ≤ run.semaphore.value
  noPermitWaits : 0 < run.semaphore.value → items = []
  permits : run.semaphore.value - items.length =
    initialValue + run.posts - run.waits - run.tries
  history : run.queued = run.woken ++ items.map Prod.snd

namespace Balanced

variable {initialValue : Int} {run : SemaphoreRun N} {items : List (Nat × Fin N)}

theorem start (nonneg : 0 ≤ initialValue) (gtTable : Table N) :
    Balanced initialValue (.start initialValue gtTable) [] where
  holds := queueInit_holds
  nonneg := nonneg
  noPermitWaits _ := rfl
  permits := by simp [SemaphoreRun.start, linkedInit]
  history := rfl

/-- Every step keeps the books. -/
theorem step {after : SemaphoreRun N} {itemsAfter : List (Nat × Fin N)}
    (balanced : Balanced initialValue run items) (called : Called run items after itemsAfter) :
    Balanced initialValue after itemsAfter := by
  have holdsAfter := called.holds balanced.holds
  obtain ⟨-, nonneg, noPermitWaits, permits, history⟩ := balanced
  cases called with
  | took positive one =>
      refine ⟨holdsAfter, ?_, fun _ => noPermitWaits positive, ?_, history⟩
      · dsimp only
        omega
      · dsimp only
        omega
  | queued noPermit holds gtTable =>
      refine ⟨holdsAfter, nonneg, fun positive => absurd positive noPermit, ?_, ?_⟩
      · simp only [List.length_append, List.length_singleton]
        push_cast
        omega
      · simp [history]
  | gave isEmpty =>
      refine ⟨holdsAfter, ?_, fun _ => isEmpty, ?_, history⟩
      · dsimp only
        omega
      · dsimp only
        push_cast
        omega
  | woke isFirst holds gtTable =>
      subst isFirst
      refine ⟨holdsAfter, nonneg, fun positive => ?_, ?_, ?_⟩
      · cases noPermitWaits positive
      · simp only [List.length_cons] at permits
        push_cast at permits ⊢
        omega
      · simpa using history
  | kept gtTable => exact ⟨holdsAfter, nonneg, noPermitWaits, permits, history⟩

end Balanced

/-- What the calls so far have done to a semaphore set up with `initialValue`. -/
structure Accounted (initialValue : Int) (run : SemaphoreRun N) : Prop where
  nonneg : 0 ≤ run.semaphore.value
  noPermitWaits : 0 < run.semaphore.value → queueIsEmpty run.semaphore.queue = true
  permits : ∃ items, run.semaphore.queue.Holds items ∧
    run.semaphore.value - items.length = initialValue + run.posts - run.waits - run.tries
  inOrder : run.woken <+: run.queued

theorem Balanced.accounted {initialValue : Int} {run : SemaphoreRun N} {items : List (Nat × Fin N)}
    (balanced : Balanced initialValue run items) : Accounted initialValue run where
  nonneg := balanced.nonneg
  noPermitWaits positive :=
    (queueIsEmpty_iff balanced.holds).mpr (balanced.noPermitWaits positive)
  permits := ⟨items, balanced.holds, balanced.permits⟩
  inOrder := ⟨items.map Prod.snd, balanced.history.symm⟩

theorem balanced_of_reached {initialValue : Int} (nonneg : 0 ≤ initialValue) {gtTable : Table N}
    {run : SemaphoreRun N} (reached : (semaphoreMachine N).Reached PartialMachine.anyStep
      (.start initialValue gtTable) run) : ∃ items, Balanced initialValue run items := by
  apply reached.invariant
  · exact ⟨[], .start nonneg gtTable⟩
  · rintro before event after ⟨items, balanced⟩ - stepped
    obtain ⟨itemsAfter, called⟩ := called_of_step balanced.holds stepped
    exact ⟨itemsAfter, balanced.step called⟩

/-- No call follows a null or a dangling pointer: every call in a state reached
returns, given memory. -/
theorem calls_return {initialValue : Int} (nonneg : 0 ≤ initialValue) {gtTable : Table N}
    {run : SemaphoreRun N} (reached : (semaphoreMachine N).Reached PartialMachine.anyStep
      (.start initialValue gtTable) run) (now : Timeval) :
    (∀ gtCurrent item garbage, run.semaphore.queue.items item = none →
      (run.semWait gtCurrent item garbage now).isSome = true) ∧
    (run.semPost now).isSome = true := by
  obtain ⟨items, balanced⟩ := balanced_of_reached nonneg reached
  constructor
  · intro gtCurrent item garbage fresh
    obtain ⟨after, _, ran, _⟩ := semWait_called balanced.holds gtCurrent fresh garbage now
    exact Option.isSome_iff_exists.mpr ⟨after, ran⟩
  · obtain ⟨after, _, ran, _⟩ := semPost_called balanced.holds now
    exact Option.isSome_iff_exists.mpr ⟨after, ran⟩

end Ivos.Scheduler
