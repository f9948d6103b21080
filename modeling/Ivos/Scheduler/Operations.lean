/-
Module: Ivos.Scheduler.Operations
Purpose: The scheduler state, the operations of `gthr.c` and `g_semaphore.c` as
  functions on it, and the machine whose steps are whole operations of the
  current thread.
Trusted boundary: no `int` overflows, and `free` of what is no block does nothing
Main exports: Semaphore, Sched, gtInit, gtCreate, gtSchedule, gtReturn, semInit,
  semWait, semPost, Operation, callsSchedule, scheduler, reschedule_spec, SlotCreated,
  gtCreate_spec, Performed, scheduler_step
-/
import Ivos.Library.PartialMachine
import Ivos.Scheduler.Selectors
import Mathlib.Data.PNat.Basic

namespace Ivos.Scheduler

variable {N : Nat}

/-! ### State

What comes from outside is an argument: the readings of the clock, the result of `rand()`,
whether `malloc` succeeds and with which address, which is never 0, and the stack pointer
at a switch.  `value`, `total_tickets` and the skip counts are unbounded integers, so that
the runs are those without overflow of an `int`.

A semaphore is its value and the list of the indices in its queue; the queue with its items
in memory is a module of its own, and allocating that queue succeeds.  The mask of signals is
not part of the state: an operation is whole, and the alarm comes between two of them.
-/

/-- `struct semaphore_t`.  The queue of `g_queue.c` holds table indices, first
in, first out. -/
structure Semaphore (N : Nat) where
  value : Int
  queue : List (Fin N)
deriving Repr, DecidableEq

instance decidableMemQueue (slot : Fin N) (queue : List (Fin N)) : Decidable (slot ∈ queue) :=
  inferInstance

/-- How the process stands: it runs, `assert(!"reachable")` has stopped it, or
the initial thread has called `exit`. -/
inductive Status where
  | running
  | aborted
  | exited
deriving Repr, DecidableEq

/-- The global variables of the scheduler, the semaphores set up so far, and
what the saved contexts say about where each thread stands. -/
structure Sched (N : Nat) where
  gtTable : Table N
  gtCurrent : Fin N
  totalTickets : Int
  semaphores : List (Semaphore N)
  /-- The addresses passed to `free`, latest first. -/
  freed : List Nat
  /-- The slots whose saved context lies inside `gt_return`. -/
  returned : Fin N → Bool
  status : Status

/-- Every index waiting in some semaphore queue. -/
def Sched.queued (sched : Sched N) : List (Fin N) :=
  sched.semaphores.flatMap Semaphore.queue

/-- What one operation takes from outside the scheduler: its clock readings in
order, the value of `rand()`, the stack pointer at `gt_switch`, and how many
loop tests the selector may make. -/
structure Inputs where
  clock : Nat → Timeval
  draw : Nat
  rsp : Nat
  fuel : Nat

/-- Apply `update` to one slot of the table. -/
def Table.modify (gtTable : Table N) (slot : Fin N) (update : Gt → Gt) : Table N :=
  Function.update gtTable slot (update (gtTable slot))

@[simp] theorem Table.modify_self (gtTable : Table N) (slot : Fin N) (update : Gt → Gt) :
    gtTable.modify slot update slot = update (gtTable slot) :=
  Function.update_self ..

@[simp] theorem Table.modify_of_ne (gtTable : Table N) {slot other : Fin N}
    (different : other ≠ slot) (update : Gt → Gt) :
    gtTable.modify slot update other = gtTable other :=
  Function.update_of_ne different ..

/-- Two updates of one slot are one. -/
theorem Table.modify_modify (gtTable : Table N) (slot : Fin N) (first second : Gt → Gt) :
    (gtTable.modify slot first).modify slot second =
      gtTable.modify slot fun gt => second (first gt) := by
  unfold Table.modify
  rw [Function.update_self, Function.update_idem]

/-! ### Threads

The code of a thread is not modelled.  A thread does what the current slot may do next, and
when `gt_switch` loads a context that lies inside `gt_return`, the thread goes on there.
-/

/-- `gt_init` on the zeroed globals. -/
def gtInit [NeZero N] (clock : Nat → Timeval) : Sched N :=
  { gtTable := Table.modify (fun _ => Gt.zero) 0 fun thread =>
      initThreadStats (clock 0) (clock 1)
        { thread with
          state := .running
          priority := maxPriority
          ticketsLo := maxPriority
          ticketsHi := minPriority
          skipCount := 0 }
    gtCurrent := 0
    totalTickets := 0 + (minPriority + 1)
    semaphores := []
    freed := []
    returned := fun _ => false
    status := .running }

theorem gtInit_initial [NeZero N] (clock : Nat → Timeval) :
    ((gtInit clock : Sched N).gtTable 0).state = .running :=
  congrArg Gt.state (Table.modify_self ..)

/-- The other slots are zeroed, hence Unused. -/
theorem gtInit_other [NeZero N] (clock : Nat → Timeval) {slot : Fin N} (other : slot ≠ 0) :
    (gtInit clock : Sched N).gtTable slot = Gt.zero := by
  unfold gtInit
  dsimp only
  rw [Table.modify_of_ne _ other]

/-- The search loop of `gt_create`. -/
def findUnused (gtTable : Table N) : Option (Fin N) :=
  (List.finRange N).find? fun p => (gtTable p).state = .unused

/-- The clamping of the priority argument in `gt_create`. -/
def clampPriority (priority : Int) : Int :=
  if priority < maxPriority then maxPriority
  else if priority > minPriority then minPriority
  else priority

/-- `gt_create`; `stack` is what `malloc` returned, an address that is not 0 unless it
failed. -/
def gtCreate (priority : Int) (stack : Option ℕ+) (clock : Nat → Timeval) (sched : Sched N) :
    Int × Sched N :=
  match findUnused sched.gtTable, stack with
  | none, _ => (-1, sched)
  | some _, none => (-1, sched)
  | some p, some base =>
      let priority := clampPriority priority
      let gtTable := sched.gtTable.modify p fun thread =>
        updateThreadState (clock 2) .ready (initThreadStats (clock 0) (clock 1)
          { thread with
            ctx := ⟨base + stackSize - 16⟩
            priority := priority
            skipCount := 0
            ticketsLo := sched.totalTickets
            ticketsHi := sched.totalTickets + (minPriority - priority) })
      (0,
        { sched with
          gtTable := gtTable
          totalTickets := sched.totalTickets + (minPriority - priority + 1)
          returned := Function.update sched.returned p false })

/-- An address that `malloc` may return. -/
def stackAddress : ℕ+ := 0x1000

/-- The test of `gt_schedule` on the state of the current slot. -/
def leavesRunning (thread : Gt) : Prop :=
  thread.state ≠ .unused ∧ thread.state ≠ .blocked

instance (thread : Gt) : Decidable (leavesRunning thread) :=
  inferInstanceAs (Decidable (_ ∧ _))

/-- `gt_switch`: save the running stack pointer in the old context. -/
def gtSwitch (rsp : Nat) (old : Fin N) (gtTable : Table N) : Table N :=
  gtTable.modify old fun thread => { thread with ctx := ⟨rsp⟩ }

/-- The part of `gt_schedule` after the choice: the old slot to Ready unless it
is Unused or Blocked, the chosen one to Running, and the switch. -/
def switchTo (inputs : Inputs) (choice : Choice N) (sched : Sched N) : Sched N :=
  let current := sched.gtCurrent
  let gtTable :=
    if leavesRunning (choice.gtTable current) then
      choice.gtTable.modify current (updateThreadState (inputs.clock 0) .ready)
    else choice.gtTable
  let gtTable := gtTable.modify choice.thread (updateThreadState (inputs.clock 1) .running)
  { sched with
    gtTable := gtSwitch inputs.rsp current gtTable
    gtCurrent := choice.thread }

/-- `gt_schedule`. -/
def gtSchedule (algorithm : Algorithm) (inputs : Inputs) (sched : Sched N) :
    Option (Bool × Sched N) := do
  let choice ← getNextThread algorithm sched.gtTable sched.gtCurrent sched.totalTickets
    inputs.draw inputs.fuel sched.gtCurrent
  if !choice.found then
    return (false, { sched with gtTable := choice.gtTable })
  return (true, switchTo inputs choice sched)

/-- Control comes back to the thread that `gt_schedule` switched to.  A
non-initial thread that already called `gt_return` is behind its call of
`gt_schedule` there, and the assertion that this is unreachable fails. -/
def resume [NeZero N] (sched : Sched N) : Sched N :=
  if sched.gtCurrent ≠ 0 ∧ sched.returned sched.gtCurrent then { sched with status := .aborted }
  else sched

/-- One `gt_schedule`, called or entered through the alarm handler, up to the
point where the thread it switched to continues. -/
def reschedule [NeZero N] (algorithm : Algorithm) (inputs : Inputs) (sched : Sched N) :
    Option (Bool × Sched N) :=
  (gtSchedule algorithm inputs sched).map fun result => (result.1, resume result.2)

/-- The statements of `gt_return` in a created thread before it schedules: the slot becomes
Unused, and `free` gets the saved stack pointer plus 16.  That is no block of `malloc`; the
`free` is taken to do nothing but note the address. -/
def retire (sched : Sched N) : Sched N :=
  { sched with
    gtTable := sched.gtTable.modify sched.gtCurrent fun thread => { thread with state := .unused }
    freed := ((sched.gtTable sched.gtCurrent).ctx.rsp + 16) :: sched.freed
    returned := Function.update sched.returned sched.gtCurrent true }

/-- One turn of the loop `while (gt_schedule());` of the initial thread's
`gt_return`, with the `exit` behind it. -/
def awaitOthers [NeZero N] (algorithm : Algorithm) (inputs : Inputs) (sched : Sched N) :
    Option (Sched N) :=
  (reschedule algorithm inputs
    { sched with returned := Function.update sched.returned 0 true }).map fun result =>
      if result.1 then result.2 else { result.2 with status := .exited }

/-- `gt_return`. -/
def gtReturn [NeZero N] (algorithm : Algorithm) (inputs : Inputs) (sched : Sched N) :
    Option (Sched N) :=
  if sched.gtCurrent ≠ 0 then (reschedule algorithm inputs (retire sched)).map Prod.snd
  else awaitOthers algorithm inputs sched

/-- What one completed `gt_schedule` did, as a relation between the states and
the slot it chose. -/
structure Rescheduled (algorithm : Algorithm) (inputs : Inputs) (before after : Sched N)
    (choice : Choice N) : Prop where
  chosen : getNextThread algorithm before.gtTable before.gtCurrent before.totalTickets
    inputs.draw inputs.fuel before.gtCurrent = some choice
  sound : choice.Sound before.gtTable before.gtCurrent
  gtCurrent : after.gtCurrent = choice.thread
  semaphores : after.semaphores = before.semaphores
  returned : after.returned = before.returned
  chosenState : (after.gtTable choice.thread).state = .running
  currentState : before.gtCurrent ≠ choice.thread →
    (after.gtTable before.gtCurrent).state =
      if leavesRunning (before.gtTable before.gtCurrent) then .ready
      else (before.gtTable before.gtCurrent).state
  otherState : ∀ slot, slot ≠ choice.thread → slot ≠ before.gtCurrent →
    (after.gtTable slot).state = (before.gtTable slot).state

@[simp] theorem gtSwitch_state (rsp : Nat) (old slot : Fin N) (gtTable : Table N) :
    (gtSwitch rsp old gtTable slot).state = (gtTable slot).state := by
  unfold gtSwitch
  by_cases same : slot = old
  · subst same
    simp
  · rw [Table.modify_of_ne _ same]

theorem leavesRunning_congr {first second : Gt} (same : first.state = second.state) :
    leavesRunning first ↔ leavesRunning second := by
  unfold leavesRunning
  rw [same]

/-- What `gt_schedule` returns: it finds a thread whenever its selector returns. -/
theorem gtSchedule_eq_some {algorithm : Algorithm} {inputs : Inputs} {before after : Sched N}
    {result : Bool} (ran : gtSchedule algorithm inputs before = some (result, after)) :
    result = true ∧ ∃ choice,
      getNextThread algorithm before.gtTable before.gtCurrent before.totalTickets inputs.draw
        inputs.fuel before.gtCurrent = some choice ∧
      choice.Sound before.gtTable before.gtCurrent ∧ after = switchTo inputs choice before := by
  obtain ⟨choice, chosen, scheduled⟩ := Option.bind_eq_some_iff.mp ran
  have sound := getNextThread_sound chosen
  simp only [sound.found, Bool.not_true, Bool.false_eq_true, if_false, pure, Option.some.injEq,
    Prod.mk.injEq] at scheduled
  obtain ⟨rfl, rfl⟩ := scheduled
  exact ⟨rfl, choice, chosen, sound, rfl⟩

section Resume

variable [NeZero N] (sched : Sched N)

/-- `resume` only touches the status. -/
@[simp] theorem resume_gtTable : (resume sched).gtTable = sched.gtTable := by
  unfold resume
  split <;> rfl

@[simp] theorem resume_gtCurrent : (resume sched).gtCurrent = sched.gtCurrent := by
  unfold resume
  split <;> rfl

@[simp] theorem resume_totalTickets : (resume sched).totalTickets = sched.totalTickets := by
  unfold resume
  split <;> rfl

@[simp] theorem resume_semaphores : (resume sched).semaphores = sched.semaphores := by
  unfold resume
  split <;> rfl

@[simp] theorem resume_returned : (resume sched).returned = sched.returned := by
  unfold resume
  split <;> rfl

theorem resume_status :
    (resume sched).status = sched.status ∨ (resume sched).status = .aborted := by
  unfold resume
  split
  · exact .inr rfl
  · exact .inl rfl

end Resume

/-- One `gt_schedule` and the resumption behind it. -/
theorem reschedule_eq_some [NeZero N] {algorithm : Algorithm} {inputs : Inputs}
    {before after : Sched N} {result : Bool}
    (ran : reschedule algorithm inputs before = some (result, after)) :
    result = true ∧ ∃ choice,
      getNextThread algorithm before.gtTable before.gtCurrent before.totalTickets inputs.draw
        inputs.fuel before.gtCurrent = some choice ∧
      choice.Sound before.gtTable before.gtCurrent ∧
      after = resume (switchTo inputs choice before) := by
  obtain ⟨⟨found, switched⟩, scheduled, resumed⟩ := Option.map_eq_some_iff.mp ran
  obtain ⟨rfl, rfl⟩ := Prod.mk.inj resumed
  obtain ⟨rfl, choice, chosen, sound, rfl⟩ := gtSchedule_eq_some scheduled
  exact ⟨rfl, choice, chosen, sound, rfl⟩

/-- The states of the slots after `gt_schedule`. -/
theorem reschedule_spec [NeZero N] {algorithm : Algorithm} {inputs : Inputs}
    {before after : Sched N} {result : Bool}
    (ran : reschedule algorithm inputs before = some (result, after)) :
    ∃ choice, Rescheduled algorithm inputs before after choice := by
  obtain ⟨-, choice, chosen, sound, rfl⟩ := reschedule_eq_some ran
  refine ⟨choice, chosen, sound, ?_, ?_, ?_, ?_, ?_, ?_⟩
  · rw [resume_gtCurrent]
    rfl
  · rw [resume_semaphores]
    rfl
  · rw [resume_returned]
    rfl
  · rw [resume_gtTable]
    simp [switchTo]
  · intro different
    rw [resume_gtTable]
    simp only [switchTo, gtSwitch_state, Table.modify_of_ne _ different,
      leavesRunning_congr (sound.sameStates before.gtCurrent)]
    split
    · simp
    · exact sound.sameStates _
  · intro slot notChosen notCurrent
    rw [resume_gtTable]
    simp only [switchTo, gtSwitch_state, Table.modify_of_ne _ notChosen]
    split
    · rw [Table.modify_of_ne _ notCurrent, sound.sameStates]
    · exact sound.sameStates slot

/-! ### Semaphores

`sem_wait` and `sem_post` mask both signals around all they do.  `sem_wait` marks the thread
Blocked and returns; it is `gt_schedule` that takes the processor away from it later.
-/

/-- `sem_init` on the semaphore variable number `sem`: one already set up is
overwritten, and the next number is a new variable. -/
def semInit (sem : Nat) (initialValue : Int) (sched : Sched N) : Option (Sched N) :=
  if sem < sched.semaphores.length then
    some { sched with semaphores := sched.semaphores.set sem ⟨initialValue, []⟩ }
  else if sem = sched.semaphores.length then
    some { sched with semaphores := sched.semaphores ++ [⟨initialValue, []⟩] }
  else none

/-- `sem_wait`; `none` when the semaphore was never set up. -/
def semWait (sem : Nat) (clock : Nat → Timeval) (sched : Sched N) : Option (Sched N) := do
  let semaphore ← sched.semaphores[sem]?
  if semaphore.value > 0 then
    return { sched with
      semaphores := sched.semaphores.set sem { semaphore with value := semaphore.value - 1 } }
  else
    return { sched with
      semaphores := sched.semaphores.set sem
        { semaphore with queue := semaphore.queue ++ [sched.gtCurrent] }
      gtTable := sched.gtTable.modify sched.gtCurrent (updateThreadState (clock 0) .blocked) }

/-- `sem_post`; `none` when the semaphore was never set up. -/
def semPost (sem : Nat) (clock : Nat → Timeval) (sched : Sched N) : Option (Sched N) := do
  let semaphore ← sched.semaphores[sem]?
  match semaphore.queue with
  | [] =>
      return { sched with
        semaphores := sched.semaphores.set sem { semaphore with value := semaphore.value + 1 } }
  | thread :: queue =>
      return { sched with
        semaphores := sched.semaphores.set sem { semaphore with queue := queue }
        gtTable := sched.gtTable.modify thread (updateThreadState (clock 0) .ready) }

theorem findUnused_state {gtTable : Table N} {slot : Fin N}
    (found : findUnused gtTable = some slot) : (gtTable slot).state = .unused := by
  simpa using List.find?_some found

/-- A successful `gt_create` claims one Unused slot and gives it the tickets from
the counter on. -/
structure SlotCreated (before after : Sched N) (slot : Fin N) (priority : Int) : Prop where
  wasUnused : (before.gtTable slot).state = .unused
  isReady : (after.gtTable slot).state = .ready
  clamped : (after.gtTable slot).priority = clampPriority priority
  skipCount : (after.gtTable slot).skipCount = 0
  ticketsLo : (after.gtTable slot).ticketsLo = before.totalTickets
  ticketsHi : (after.gtTable slot).ticketsHi =
    before.totalTickets + (minPriority - clampPriority priority)
  others : ∀ other, other ≠ slot → after.gtTable other = before.gtTable other
  totalTickets : after.totalTickets =
    before.totalTickets + (minPriority - clampPriority priority + 1)
  gtCurrent : after.gtCurrent = before.gtCurrent
  semaphores : after.semaphores = before.semaphores
  returned : after.returned = Function.update before.returned slot false

theorem gtCreate_created {sched : Sched N} {slot : Fin N}
    (found : findUnused sched.gtTable = some slot) (priority : Int) (base : ℕ+)
    (clock : Nat → Timeval) :
    SlotCreated sched (gtCreate priority (some base) clock sched).2 slot priority := by
  unfold gtCreate
  rw [found]
  dsimp only
  obtain ⟨-, clamped, skipCount, ticketsLo, ticketsHi⟩ :=
    updateThreadState_frame (clock 2) .ready (initThreadStats (clock 0) (clock 1)
      { sched.gtTable slot with
        ctx := ⟨base + stackSize - 16⟩
        priority := clampPriority priority
        skipCount := 0
        ticketsLo := sched.totalTickets
        ticketsHi := sched.totalTickets + (minPriority - clampPriority priority) })
  constructor
  · exact findUnused_state found
  · simp
  · dsimp only
    rw [Table.modify_self]
    exact clamped
  · dsimp only
    rw [Table.modify_self]
    exact skipCount
  · dsimp only
    rw [Table.modify_self]
    exact ticketsLo
  · dsimp only
    rw [Table.modify_self]
    exact ticketsHi
  · intro other different
    dsimp only
    rw [Table.modify_of_ne _ different]
  · rfl
  · rfl
  · rfl
  · rfl

/-- Without a stack `gt_create` changes nothing. -/
theorem gtCreate_none (priority : Int) (clock : Nat → Timeval) (sched : Sched N) :
    (gtCreate priority none clock sched).2 = sched := by
  unfold gtCreate
  cases findUnused sched.gtTable <;> rfl

/-- `gt_create` either changes nothing or turns one Unused slot Ready. -/
theorem gtCreate_spec (priority : Int) (stack : Option ℕ+) (clock : Nat → Timeval)
    (sched : Sched N) :
    (gtCreate priority stack clock sched).2 = sched ∨
      ∃ slot, SlotCreated sched (gtCreate priority stack clock sched).2 slot priority := by
  cases found : findUnused sched.gtTable with
  | none =>
      refine .inl ?_
      unfold gtCreate
      rw [found]
  | some slot =>
      cases stack with
      | none => exact .inl (gtCreate_none ..)
      | some base => exact .inr ⟨slot, gtCreate_created found priority base clock⟩

/-! ### The machine of whole operations -/

/-- An operation the current thread performs, or that the alarm performs on its
stack (`schedule`). -/
inductive Operation where
  | gtCreate (priority : Int) (stack : Option ℕ+)
  | schedule
  | gtReturn
  | semInit (sem : Nat) (initialValue : Int)
  | semWait (sem : Nat)
  | semPost (sem : Nat)
deriving Repr, DecidableEq

/-- The operations that call `gt_schedule`, once each. -/
def callsSchedule : Operation → Bool
  | .schedule | .gtReturn => true
  | .gtCreate .. | .semInit .. | .semWait .. | .semPost .. => false

/-- Perform one operation. -/
def perform [NeZero N] (algorithm : Algorithm) (operation : Operation) (inputs : Inputs)
    (sched : Sched N) : Option (Sched N) :=
  match operation with
  | .gtCreate priority stack => some (gtCreate priority stack inputs.clock sched).2
  | .schedule => (reschedule algorithm inputs sched).map Prod.snd
  | .gtReturn => gtReturn algorithm inputs sched
  | .semInit sem initialValue => semInit sem initialValue sched
  | .semWait sem => semWait sem inputs.clock sched
  | .semPost sem => semPost sem inputs.clock sched

/-- The scheduler under one selector: as long as the process runs, the current
thread performs any operation, except that a thread inside `gt_return` (only the
initial one comes back there alive) does nothing but schedule. -/
def scheduler [NeZero N] (algorithm : Algorithm) :
    PartialMachine (Sched N) (Operation × Inputs) where
  step sched label :=
    if sched.status = .running ∧
        (sched.returned sched.gtCurrent → label.1 = .schedule ∨ label.1 = .gtReturn) then
      perform algorithm label.1 label.2 sched
    else none

/-! ### What an operation can do -/

/-- The outcomes of the operations, with the tests behind each. -/
inductive Performed [NeZero N] (algorithm : Algorithm) (inputs : Inputs) (before : Sched N) :
    Operation → Sched N → Prop where
  | created (priority : Int) (stack : Option ℕ+) :
      Performed algorithm inputs before (.gtCreate priority stack)
        (gtCreate priority stack inputs.clock before).2
  | scheduled {after : Sched N}
      (ran : reschedule algorithm inputs before = some (true, after)) :
      Performed algorithm inputs before .schedule after
  | returned {after : Sched N} (notInitial : before.gtCurrent ≠ 0)
      (ran : reschedule algorithm inputs (retire before) = some (true, after)) :
      Performed algorithm inputs before .gtReturn after
  | awaited {after : Sched N} (isInitial : before.gtCurrent = 0)
      (ran : reschedule algorithm inputs
        { before with returned := Function.update before.returned 0 true } = some (true, after)) :
      Performed algorithm inputs before .gtReturn after
  | reset {sem : Nat} {initialValue : Int} (inside : sem < before.semaphores.length) :
      Performed algorithm inputs before (.semInit sem initialValue)
        { before with semaphores := before.semaphores.set sem ⟨initialValue, []⟩ }
  | added {sem : Nat} {initialValue : Int} (next : sem = before.semaphores.length) :
      Performed algorithm inputs before (.semInit sem initialValue)
        { before with semaphores := before.semaphores ++ [⟨initialValue, []⟩] }
  | passed {sem : Nat} {semaphore : Semaphore N} (found : before.semaphores[sem]? = some semaphore)
      (positive : semaphore.value > 0) :
      Performed algorithm inputs before (.semWait sem)
        { before with
          semaphores := before.semaphores.set sem { semaphore with value := semaphore.value - 1 } }
  | queued {sem : Nat} {semaphore : Semaphore N} (found : before.semaphores[sem]? = some semaphore)
      (noPermit : ¬ semaphore.value > 0) :
      Performed algorithm inputs before (.semWait sem)
        { before with
          semaphores := before.semaphores.set sem
            { semaphore with queue := semaphore.queue ++ [before.gtCurrent] }
          gtTable :=
            before.gtTable.modify before.gtCurrent (updateThreadState (inputs.clock 0) .blocked) }
  | raised {sem : Nat} {semaphore : Semaphore N} (found : before.semaphores[sem]? = some semaphore)
      (noWaiter : semaphore.queue = []) :
      Performed algorithm inputs before (.semPost sem)
        { before with
          semaphores := before.semaphores.set sem { semaphore with value := semaphore.value + 1 } }
  | woke {sem : Nat} {semaphore : Semaphore N} {thread : Fin N} {queue : List (Fin N)}
      (found : before.semaphores[sem]? = some semaphore)
      (waiter : semaphore.queue = thread :: queue) :
      Performed algorithm inputs before (.semPost sem)
        { before with
          semaphores := before.semaphores.set sem { semaphore with queue := queue }
          gtTable := before.gtTable.modify thread (updateThreadState (inputs.clock 0) .ready) }

/-- A completed `reschedule` has found a thread. -/
theorem reschedule_found [NeZero N] {algorithm : Algorithm} {inputs : Inputs} {before : Sched N}
    {outcome : Bool × Sched N} (ran : reschedule algorithm inputs before = some outcome) :
    reschedule algorithm inputs before = some (true, outcome.2) := by
  obtain ⟨result, after⟩ := outcome
  obtain ⟨rfl, -⟩ := reschedule_eq_some ran
  exact ran

theorem perform_cases [NeZero N] {algorithm : Algorithm} {operation : Operation} {inputs : Inputs}
    {before after : Sched N} (ran : perform algorithm operation inputs before = some after) :
    Performed algorithm inputs before operation after := by
  cases operation with
  | gtCreate priority stack =>
      cases ran
      exact .created priority stack
  | schedule =>
      obtain ⟨outcome, scheduled, rfl⟩ := Option.map_eq_some_iff.mp ran
      exact .scheduled (reschedule_found scheduled)
  | gtReturn =>
      simp only [perform, gtReturn] at ran
      split at ran
      · rename_i notInitial
        obtain ⟨outcome, scheduled, rfl⟩ := Option.map_eq_some_iff.mp ran
        exact .returned notInitial (reschedule_found scheduled)
      · rename_i isInitial
        obtain ⟨outcome, scheduled, rfl⟩ := Option.map_eq_some_iff.mp ran
        obtain ⟨result, after⟩ := outcome
        obtain ⟨rfl, -⟩ := reschedule_eq_some scheduled
        exact .awaited (not_ne_iff.mp isInitial) scheduled
  | semInit sem initialValue =>
      simp only [perform, semInit] at ran
      split at ran
      · rename_i inside
        cases ran
        exact .reset inside
      · split at ran
        · rename_i next
          cases ran
          exact .added next
        · cases ran
  | semWait sem =>
      obtain ⟨semaphore, found, ran⟩ := Option.bind_eq_some_iff.mp ran
      split at ran
      · rename_i positive
        cases ran
        exact .passed found positive
      · rename_i noPermit
        cases ran
        exact .queued found noPermit
  | semPost sem =>
      obtain ⟨semaphore, found, ran⟩ := Option.bind_eq_some_iff.mp ran
      split at ran
      · rename_i noWaiter
        cases ran
        exact .raised found noWaiter
      · rename_i thread queue waiter
        cases ran
        exact .woke found waiter

/-- A step of the machine is an operation that may be performed. -/
theorem scheduler_step [NeZero N] {algorithm : Algorithm} {before after : Sched N}
    {label : Operation × Inputs} (stepped : (scheduler algorithm).step before label = some after) :
    Performed algorithm label.2 before label.1 after ∧ before.status = .running ∧
      (before.returned before.gtCurrent → label.1 = .schedule ∨ label.1 = .gtReturn) := by
  simp only [scheduler] at stepped
  split at stepped
  · rename_i enabled
    exact ⟨perform_cases stepped, enabled⟩
  · cases stepped

end Ivos.Scheduler
