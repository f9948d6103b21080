/-
Module: Ivos.Scheduler.Preemption
Purpose: The scheduler statement by statement, with SIGALRM delivered between
  any two statements at which it is not masked and `gt_schedule` nesting.
Trusted boundary: an alarm comes between two statements only
Main exports: Cursor, Statement, Activity, Context, Program, Machine, Event,
  preemptive, bootMachine
-/
import Ivos.Scheduler.Operations

namespace Ivos.Scheduler

variable {N : Nat}

/-!
The alarm handler calls `gt_schedule`, which unblocks SIGALRM and arms the timer
again before it does anything else.  From there on it can be interrupted by
itself, on the stack of the thread it was called on.  A context is therefore a
stack of activations of `gt_schedule`, innermost first, each standing at a
statement, above the code of the thread.

`sem_wait` and `sem_post` mask SIGALRM around everything they do to the semaphore
and to the table, so each is one step and its return another.  `gt_create` and
`gt_return` mask nothing and are cut at each access to the globals.  The
statistics of `update_thread_state` are updated in the step that writes the
state; no test reads them.  The period of the timer is left open: an alarm may
come whenever it is not masked.
-/

/-- Where a selector stands in its loop; `thread` is its local `*thread`. -/
inductive Cursor (N : Nat) where
  /-- `while ((*thread)->state != Ready)`. -/
  | rrTest (thread : Fin N)
  /-- The increment and the test for Blocked. -/
  | rrNext (thread : Fin N)
  /-- `(*thread) == gt_current`. -/
  | rrCompare (thread : Fin N)
  /-- The increment and the test for Blocked. -/
  | prioNext (thread : Fin N)
  /-- The test for Ready and for the aged priority. -/
  | prioTest (thread : Fin N)
  /-- `skip_count = 0`. -/
  | prioReset (thread : Fin N)
  /-- `skip_count++`. -/
  | prioBump (thread : Fin N)
  /-- `(*thread) == gt_current`. -/
  | prioCompare (thread : Fin N)
  /-- `rand() % total_tickets`. -/
  | lotDraw (thread : Fin N)
  /-- One turn of the `for` loop, at slot number `p`. -/
  | lotTest (winningTicket : Int) (p : Nat) (thread : Fin N)
deriving Repr, DecidableEq

/-- The statement an activation of `gt_schedule` executes next. -/
inductive Statement (N : Nat) where
  /-- `gt_reset_sig(SIGALRM)`. -/
  | resetSig
  /-- `p = gt_current`. -/
  | start
  /-- Inside `get_next_thread(&p)`. -/
  | select (cursor : Cursor N)
  /-- The test on `gt_current->state`. -/
  | testCurrent (p : Fin N)
  /-- `update_thread_state(gt_current, Ready)`, at its comparison. -/
  | readyTest (thread p : Fin N)
  /-- The same call, at its assignment. -/
  | readyWrite (thread p : Fin N)
  /-- `update_thread_state(p, Running)`, at its comparison. -/
  | runTest (p : Fin N)
  /-- The same call, at its assignment. -/
  | runWrite (p : Fin N)
  /-- `old = &gt_current->ctx; new = &p->ctx`. -/
  | prepare (p : Fin N)
  /-- `gt_current = p`. -/
  | setCurrent (old p : Fin N)
  /-- `gt_switch(old, new)`. -/
  | switch (old new : Fin N)
  /-- `return true`. -/
  | finish
deriving Repr, DecidableEq

/-- Calls that thread code makes. -/
inductive Call where
  | gtCreate (priority : Int)
  | schedule
  | gtReturn
  | semWait (sem : Nat)
  | semPost (sem : Nat)
deriving Repr, DecidableEq

/-- What thread code is doing: its own statements, or a call at some statement
of the function called. -/
inductive Activity (N : Nat) where
  | code
  | createSearch (p : Nat) (priority : Int)
  | createAlloc (p : Fin N) (priority : Int)
  | createContext (p : Fin N) (priority : Int) (base : ℕ+)
  | createPriority (p : Fin N) (priority : Int)
  | createSkip (p : Fin N)
  | createLo (p : Fin N)
  | createHi (p : Fin N)
  | createTotal (p : Fin N)
  | createStats (p : Fin N)
  | createTest (p : Fin N)
  | createWrite (p : Fin N)
  | waitReturn
  | postReturn
  | returnTest
  | returnUnused
  | returnFree
  | returnSchedule
  | returnAssert
  | returnLoop
deriving Repr, DecidableEq

/-- A saved or running context: the slot whose stack it uses, the activations of
`gt_schedule` on it, and below them the thread at a location of its program. -/
structure Context (N : Nat) (Loc : Type) where
  stack : Fin N
  activations : List (Statement N)
  loc : Loc
  activity : Activity N
deriving Repr, DecidableEq

/-- The code of the threads: where the initial thread and the created ones
start, and which calls may be made at a location, with the location after it. -/
structure Program where
  Loc : Type
  main : Loc
  entry : Loc
  next : Loc → Call → Option Loc

/-- The process at one point of a run. -/
structure Machine (N : Nat) (Loc : Type) where
  gtTable : Table N
  gtCurrent : Fin N
  totalTickets : Int
  semaphores : List (Semaphore N)
  freed : List Nat
  /-- Whether SIGALRM is masked. -/
  masked : Bool
  /-- The context on the processor. -/
  cpu : Context N Loc
  /-- The contexts the slots of the table would be resumed with. -/
  saved : Fin N → Context N Loc
  status : Status

/-- What a statement takes from outside. -/
structure StatementInputs where
  clock : Nat → Timeval
  draw : Nat
  rsp : Nat
  /-- What `malloc` returns. -/
  stack : Option ℕ+

/-- One step of a run. -/
inductive Event where
  /-- SIGALRM is delivered. -/
  | alarm
  /-- Thread code makes a call; a semaphore operation reads the clock once. -/
  | call (call : Call) (now : Timeval)
  /-- The next statement of a called function. -/
  | statement (inputs : StatementInputs)

namespace Machine

variable {Loc : Type}

/-- The innermost activation moves to another statement. -/
@[simps] def goto (machine : Machine N Loc) (statement : Statement N) : Machine N Loc :=
  { machine with cpu := { machine.cpu with
      activations := statement :: machine.cpu.activations.tail } }

/-- A new activation of `gt_schedule` on the running stack. -/
@[simps] def enter (machine : Machine N Loc) : Machine N Loc :=
  { machine with cpu := { machine.cpu with
      activations := .resetSig :: machine.cpu.activations } }

/-- The thread code moves to another activity. -/
@[simps] def doing (machine : Machine N Loc) (activity : Activity N) : Machine N Loc :=
  { machine with cpu := { machine.cpu with activity := activity } }

/-- Change one slot of the table. -/
@[simps] def modify (machine : Machine N Loc) (slot : Fin N) (update : Gt → Gt) : Machine N Loc :=
  { machine with gtTable := machine.gtTable.modify slot update }

/-- Where `get_next_thread` begins. -/
def firstCursor (algorithm : Algorithm) (thread : Fin N) : Cursor N :=
  match algorithm with
  | .roundRobin => .rrTest thread
  | .roundRobinPrio => .prioNext thread
  | .lottery => .lotDraw thread

/-- One statement of a selector. -/
def scan (machine : Machine N Loc) (draw : Nat) (cursor : Cursor N) : Machine N Loc :=
  match cursor with
  | .rrTest thread =>
      if (machine.gtTable thread).state = .ready then machine.goto (.testCurrent thread)
      else machine.goto (.select (.rrNext thread))
  | .rrNext thread =>
      if (machine.gtTable (nextSlot thread)).state = .blocked then
        machine.goto (.select (.rrTest (nextSlot thread)))
      else machine.goto (.select (.rrCompare (nextSlot thread)))
  | .rrCompare thread =>
      if thread = machine.gtCurrent then machine.goto (.testCurrent thread)
      else machine.goto (.select (.rrTest thread))
  | .prioNext thread =>
      if (machine.gtTable (nextSlot thread)).state = .blocked then
        machine.goto (.select (.prioNext (nextSlot thread)))
      else machine.goto (.select (.prioTest (nextSlot thread)))
  | .prioTest thread =>
      if prioEligible (machine.gtTable thread) then machine.goto (.select (.prioReset thread))
      else machine.goto (.select (.prioBump thread))
  | .prioReset thread =>
      (machine.modify thread fun gt => { gt with skipCount := 0 }).goto (.testCurrent thread)
  | .prioBump thread =>
      (machine.modify thread fun gt => { gt with skipCount := gt.skipCount + 1 }).goto
        (.select (.prioCompare thread))
  | .prioCompare thread =>
      if thread = machine.gtCurrent then machine.goto (.testCurrent thread)
      else machine.goto (.select (.prioNext thread))
  | .lotDraw thread =>
      machine.goto (.select (.lotTest ((draw : Int).tmod machine.totalTickets) 0 thread))
  | .lotTest winningTicket p thread =>
      if inside : p < N then
        if (machine.gtTable ⟨p, inside⟩).state ≠ .blocked ∧
            holdsTicket winningTicket (machine.gtTable ⟨p, inside⟩) then
          machine.goto (.testCurrent ⟨p, inside⟩)
        else machine.goto (.select (.lotTest winningTicket (p + 1) thread))
      else machine.goto (.select (.rrTest thread))

/-- `gt_switch`: the running context goes where `old` points, and the one `new`
points to comes back.  A context that another thread's save has overwritten is
beyond this description; that takes an alarm between the last two statements of
`gt_schedule`. -/
def switchContext (machine : Machine N Loc) (rsp : Nat) (old new : Fin N) : Machine N Loc :=
  let suspended :=
    { machine.cpu with activations := .finish :: machine.cpu.activations.tail }
  let saved := Function.update machine.saved old suspended
  { machine with
    gtTable := gtSwitch rsp old machine.gtTable
    saved := saved
    cpu := saved new }

/-- One statement of the innermost activation of `gt_schedule`. -/
def scheduleStatement (algorithm : Algorithm) (inputs : StatementInputs)
    (machine : Machine N Loc) (statement : Statement N) : Machine N Loc :=
  match statement with
  | .resetSig => { machine.goto .start with masked := false }
  | .start => machine.goto (.select (firstCursor algorithm machine.gtCurrent))
  | .select cursor => machine.scan inputs.draw cursor
  | .testCurrent p =>
      if leavesRunning (machine.gtTable machine.gtCurrent) then
        machine.goto (.readyTest machine.gtCurrent p)
      else machine.goto (.runTest p)
  | .readyTest thread p =>
      if (machine.gtTable thread).state = .ready then machine.goto (.runTest p)
      else machine.goto (.readyWrite thread p)
  | .readyWrite thread p =>
      (machine.modify thread (enterState (inputs.clock 0) .ready)).goto (.runTest p)
  | .runTest p =>
      if (machine.gtTable p).state = .running then machine.goto (.prepare p)
      else machine.goto (.runWrite p)
  | .runWrite p =>
      (machine.modify p (enterState (inputs.clock 0) .running)).goto (.prepare p)
  | .prepare p => machine.goto (.setCurrent machine.gtCurrent p)
  | .setCurrent old p => { machine.goto (.switch old p) with gtCurrent := p }
  | .switch old new => machine.switchContext inputs.rsp old new
  | .finish =>
      { machine with cpu := { machine.cpu with activations := machine.cpu.activations.tail } }

variable [NeZero N]

/-- One statement of `gt_create` or `gt_return`, or the return from a semaphore
operation; `none` in the thread's own code, which only calls.  `entry` is where a
created thread starts. -/
def threadStatement (entry : Loc) (inputs : StatementInputs) (machine : Machine N Loc) :
    Option (Machine N Loc) :=
  match machine.cpu.activity with
  | .code => none
  | .createSearch p priority =>
      if inside : p < N then
        if (machine.gtTable ⟨p, inside⟩).state = .unused then
          some (machine.doing (.createAlloc ⟨p, inside⟩ priority))
        else some (machine.doing (.createSearch (p + 1) priority))
      else some (machine.doing .code)
  | .createAlloc p priority =>
      match inputs.stack with
      | none => some (machine.doing .code)
      | some base => some (machine.doing (.createContext p priority base))
  | .createContext p priority base =>
      let fresh : Context N Loc :=
        { stack := p, activations := [], loc := entry, activity := .code }
      let machine := machine.modify p fun gt => { gt with ctx := ⟨base + stackSize - 16⟩ }
      some ({ machine with saved := Function.update machine.saved p fresh }.doing
        (.createPriority p (clampPriority priority)))
  | .createPriority p priority =>
      some ((machine.modify p fun gt => { gt with priority := priority }).doing (.createSkip p))
  | .createSkip p =>
      some ((machine.modify p fun gt => { gt with skipCount := 0 }).doing (.createLo p))
  | .createLo p =>
      some ((machine.modify p fun gt => { gt with ticketsLo := machine.totalTickets }).doing
        (.createHi p))
  | .createHi p =>
      some ((machine.modify p fun gt =>
        { gt with ticketsHi := machine.totalTickets + (minPriority - gt.priority) }).doing
          (.createTotal p))
  | .createTotal p =>
      some ({ machine with
        totalTickets :=
          machine.totalTickets + (minPriority - (machine.gtTable p).priority + 1) }.doing
        (.createStats p))
  | .createStats p =>
      some ((machine.modify p (initThreadStats (inputs.clock 0) (inputs.clock 1))).doing
        (.createTest p))
  | .createTest p =>
      if (machine.gtTable p).state = .ready then some (machine.doing .code)
      else some (machine.doing (.createWrite p))
  | .createWrite p =>
      some ((machine.modify p (enterState (inputs.clock 0) .ready)).doing .code)
  | .waitReturn => some (machine.doing .code)
  | .postReturn => some (machine.doing .code)
  | .returnTest =>
      if machine.gtCurrent ≠ 0 then some (machine.doing .returnUnused)
      else some (machine.doing .returnLoop)
  | .returnUnused =>
      some ((machine.modify machine.gtCurrent fun gt => { gt with state := .unused }).doing
        .returnFree)
  | .returnFree =>
      some ({ machine with
        freed := ((machine.gtTable machine.gtCurrent).ctx.rsp + 16) :: machine.freed }.doing
        .returnSchedule)
  | .returnSchedule => some (machine.doing .returnAssert).enter
  | .returnAssert => some { machine with status := .aborted }
  | .returnLoop => some machine.enter

/-- The masked body of `sem_wait`. -/
def semWait (machine : Machine N Loc) (now : Timeval) (sem : Nat) : Option (Machine N Loc) := do
  let semaphore ← machine.semaphores[sem]?
  if semaphore.value > 0 then
    return { machine with
      semaphores := machine.semaphores.set sem { semaphore with value := semaphore.value - 1 } }
  else
    return { machine.modify machine.gtCurrent (updateThreadState now .blocked) with
      semaphores := machine.semaphores.set sem
        { semaphore with queue := semaphore.queue ++ [machine.gtCurrent] } }

/-- The masked body of `sem_post`. -/
def semPost (machine : Machine N Loc) (now : Timeval) (sem : Nat) : Option (Machine N Loc) := do
  let semaphore ← machine.semaphores[sem]?
  match semaphore.queue with
  | [] =>
      return { machine with
        semaphores := machine.semaphores.set sem { semaphore with value := semaphore.value + 1 } }
  | thread :: queue =>
      return { machine.modify thread (updateThreadState now .ready) with
        semaphores := machine.semaphores.set sem { semaphore with queue := queue } }

/-- The thread code on the processor makes a call. -/
def makeCall (machine : Machine N Loc) (now : Timeval) (call : Call) : Option (Machine N Loc) :=
  match call with
  | .gtCreate priority => some (machine.doing (.createSearch 0 priority))
  | .schedule => some machine.enter
  | .gtReturn => some (machine.doing .returnTest)
  | .semWait sem => (machine.semWait now sem).map fun after => after.doing .waitReturn
  | .semPost sem => (machine.semPost now sem).map fun after => after.doing .postReturn

omit [NeZero N] in
/-- A statement of a selector moves the cursor or settles on a slot, and writes
at most a skip count. -/
theorem scan_spec (machine : Machine N Loc) (draw : Nat) (cursor : Cursor N) :
    ∃ statement gtTable,
      machine.scan draw cursor = { machine.goto statement with gtTable := gtTable } ∧
        (∀ slot, (gtTable slot).state = (machine.gtTable slot).state) ∧
        ((∃ next, statement = .select next) ∨ ∃ p, statement = .testCurrent p) := by
  have moved (next : Cursor N) : ∃ statement gtTable,
      machine.goto (.select next) = { machine.goto statement with gtTable := gtTable } ∧
        (∀ slot, (gtTable slot).state = (machine.gtTable slot).state) ∧
        ((∃ next, statement = .select next) ∨ ∃ p, statement = .testCurrent p) :=
    ⟨_, machine.gtTable, rfl, fun _ => rfl, .inl ⟨next, rfl⟩⟩
  have settled (p : Fin N) : ∃ statement gtTable,
      machine.goto (.testCurrent p) = { machine.goto statement with gtTable := gtTable } ∧
        (∀ slot, (gtTable slot).state = (machine.gtTable slot).state) ∧
        ((∃ next, statement = .select next) ∨ ∃ p, statement = .testCurrent p) :=
    ⟨_, machine.gtTable, rfl, fun _ => rfl, .inr ⟨p, rfl⟩⟩
  unfold scan
  cases cursor with
  | rrTest | rrNext | rrCompare | prioNext | prioTest | prioCompare =>
      dsimp only
      split
      · first | exact moved _ | exact settled _
      · exact moved _
  | prioReset thread =>
      exact ⟨_, _, rfl, fun slot => update_skipCount_state .., .inr ⟨thread, rfl⟩⟩
  | prioBump thread =>
      exact ⟨_, _, rfl, fun slot => update_skipCount_state .., .inl ⟨_, rfl⟩⟩
  | lotDraw => exact moved _
  | lotTest =>
      dsimp only
      split
      · split
        · exact settled _
        · exact moved _
      · exact moved _

end Machine

/-- The process under one selector and one program. -/
def preemptive [NeZero N] (algorithm : Algorithm) (program : Program) :
    PartialMachine (Machine N program.Loc) Event where
  step machine event :=
    if machine.status = .running then
      match event with
      | .alarm => if machine.masked then none else some { machine.enter with masked := true }
      | .call call now =>
          if machine.cpu.activations = [] ∧ machine.cpu.activity = .code then do
            let loc ← program.next machine.cpu.loc call
            ({ machine with cpu := { machine.cpu with loc := loc } }).makeCall now call
          else none
      | .statement inputs =>
          match machine.cpu.activations with
          | [] => machine.threadStatement program.entry inputs
          | statement :: _ => some (machine.scheduleStatement algorithm inputs statement)
    else none

/-- The process after `gt_init`, with semaphores already set up. -/
def bootMachine [NeZero N] (program : Program) (clock : Nat → Timeval)
    (semaphores : List (Semaphore N)) : Machine N program.Loc :=
  { gtTable := (gtInit clock : Sched N).gtTable
    gtCurrent := 0
    totalTickets := (gtInit clock : Sched N).totalTickets
    semaphores := semaphores
    freed := []
    masked := false
    cpu := { stack := 0, activations := [], loc := program.main, activity := .code }
    saved := fun slot =>
      { stack := slot, activations := [], loc := program.entry, activity := .code }
    status := .running }

end Ivos.Scheduler
