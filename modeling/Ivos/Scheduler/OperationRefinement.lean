/-
Module: Ivos.Scheduler.OperationRefinement
Purpose: The scheduler run statement by statement refines the machine of whole
  operations, as long as no alarm comes inside one.
Trusted boundary: none
Main exports: AlarmSparesOperations, Quiet, Stands, statements_refine_operations
-/
import Ivos.Library.ForwardSimulation
import Ivos.Scheduler.ConcurrentCreation
import Ivos.Scheduler.RunningSlot
import Ivos.Scheduler.UndisturbedSchedule

namespace Ivos.Scheduler

variable {N : Nat} {Loc : Type}

/-! ### Between operations -/

/-- Thread code in no operation: its own statements, a semaphore operation that
only has to return, or `gt_return` before it has done anything. -/
def Activity.Idle : Activity N → Prop
  | .code | .waitReturn | .postReturn | .returnTest | .returnLoop => True
  | _ => False

instance : (activity : Activity N) → Decidable activity.Idle
  | .code | .waitReturn | .postReturn | .returnTest | .returnLoop =>
      inferInstanceAs (Decidable True)
  | .createSearch .. | .createAlloc .. | .createContext .. | .createPriority .. | .createSkip ..
  | .createLo .. | .createHi .. | .createTotal .. | .createStats .. | .createTest ..
  | .createWrite .. | .returnUnused | .returnFree | .returnSchedule | .returnAssert =>
      inferInstanceAs (Decidable False)

/-- No operation is in progress: every `gt_schedule` on the running stack only has
to return. -/
def Quiet (machine : Machine N Loc) : Prop :=
  (∀ statement ∈ machine.cpu.activations, statement = .finish) ∧ machine.cpu.activity.Idle

instance (machine : Machine N Loc) : Decidable (Quiet machine) :=
  inferInstanceAs (Decidable (_ ∧ _))

/-- No alarm comes inside an operation. -/
def AlarmSparesOperations (machine : Machine N Loc) (event : Event) : Prop :=
  match event with
  | .alarm => Quiet machine
  | .call _ _ | .statement _ => True

instance (machine : Machine N Loc) : (event : Event) →
    Decidable (AlarmSparesOperations machine event)
  | .alarm => inferInstanceAs (Decidable (Quiet machine))
  | .call _ _ | .statement _ => inferInstanceAs (Decidable True)

section Contexts

variable [NeZero N]

/-- A created thread is marked as returned when its context is behind the
`gt_schedule` of `gt_return`; the initial one when it is in its loop there. -/
def Marks (slot : Fin N) (returned : Bool) (activity : Activity N) : Prop :=
  (slot = 0 → activity ≠ .returnAssert ∧ (returned = true → activity = .returnLoop)) ∧
    (slot ≠ 0 → activity ≠ .returnLoop ∧ (returned = true ↔ activity = .returnAssert))

/-- A context between operations, or behind the last one of its thread. -/
structure AtRest (slot : Fin N) (returned : Bool) (context : Context N Loc) : Prop where
  returning : ∀ statement ∈ context.activations, statement = .finish
  between : context.activity.Idle ∨ context.activity = .returnAssert
  marks : Marks slot returned context.activity

/-- A thread between operations that is not in the loop of `gt_return` has not
returned. -/
theorem Marks.not_returned {slot : Fin N} {returned : Bool} {activity : Activity N}
    (marks : Marks slot returned activity) (idle : activity.Idle)
    (notLoop : activity ≠ .returnLoop) : returned = false := by
  cases returned with
  | false => rfl
  | true =>
      by_cases initial : slot = 0
      · exact absurd ((marks.1 initial).2 rfl) notLoop
      · rw [(marks.2 initial).2.mp rfl] at idle
        exact idle.elim

theorem marks_fresh (slot : Fin N) {activity : Activity N} (idle : activity.Idle)
    (notLoop : activity ≠ .returnLoop) : Marks slot false activity := by
  have notAssert : activity ≠ .returnAssert := by
    rintro rfl
    exact idle
  exact ⟨fun _ => ⟨notAssert, nofun⟩, fun _ => ⟨notLoop, nofun, fun isAssert =>
    absurd isAssert notAssert⟩⟩

end Contexts

/-! ### Inside gt_create -/

/-- The fields that `gt_create` writes before the statistics. -/
def claim (rsp : Nat) (priority ticketsLo : Int) (gt : Gt) : Gt :=
  { gt with
    ctx := ⟨rsp⟩
    priority := priority
    skipCount := 0
    ticketsLo := ticketsLo
    ticketsHi := ticketsLo + (minPriority - priority) }

theorem claim_state (rsp : Nat) (priority ticketsLo : Int) (gt : Gt) :
    (claim rsp priority ticketsLo gt).state = gt.state := rfl

theorem claim_priority (rsp : Nat) (priority ticketsLo : Int) (gt : Gt) :
    (claim rsp priority ticketsLo gt).priority = priority := rfl

/-- Where `gt_create` with a slot found and a stack of its own stands, what it has
written to the slot and how many tickets there are. -/
inductive Filling (sched : Sched N) (wanted : Int) (p : Fin N) (rsp : Nat) :
    Activity N → (Gt → Gt) → Int → Prop where
  | priority : Filling sched wanted p rsp (.createPriority p (clampPriority wanted))
      (fun gt => { gt with ctx := ⟨rsp⟩ }) sched.totalTickets
  | skip : Filling sched wanted p rsp (.createSkip p)
      (fun gt => { gt with
        ctx := ⟨rsp⟩, priority := clampPriority wanted }) sched.totalTickets
  | lo : Filling sched wanted p rsp (.createLo p)
      (fun gt => { gt with
        ctx := ⟨rsp⟩, priority := clampPriority wanted, skipCount := 0 })
      sched.totalTickets
  | hi : Filling sched wanted p rsp (.createHi p)
      (fun gt => { gt with
        ctx := ⟨rsp⟩, priority := clampPriority wanted, skipCount := 0
        ticketsLo := sched.totalTickets }) sched.totalTickets
  | total : Filling sched wanted p rsp (.createTotal p)
      (claim rsp (clampPriority wanted) sched.totalTickets) sched.totalTickets
  | stats : Filling sched wanted p rsp (.createStats p)
      (claim rsp (clampPriority wanted) sched.totalTickets)
      (sched.totalTickets + (minPriority - clampPriority wanted + 1))
  | test (created changed : Timeval) : Filling sched wanted p rsp (.createTest p)
      (fun gt => initThreadStats created changed
        (claim rsp (clampPriority wanted) sched.totalTickets gt))
      (sched.totalTickets + (minPriority - clampPriority wanted + 1))
  | write (created changed : Timeval) : Filling sched wanted p rsp (.createWrite p)
      (fun gt => initThreadStats created changed
        (claim rsp (clampPriority wanted) sched.totalTickets gt))
      (sched.totalTickets + (minPriority - clampPriority wanted + 1))

/-- How far `gt_create` has got since the operation began on `sched`: the table, the
number of tickets, and which contexts count as returned. -/
inductive CreateStage (sched : Sched N) (wanted : Int) :
    Activity N → Table N → Int → (Fin N → Bool) → Prop where
  | search {p : Nat}
      (before : ∀ slot : Fin N, slot.val < p → (sched.gtTable slot).state ≠ .unused) :
      CreateStage sched wanted (.createSearch p wanted) sched.gtTable sched.totalTickets
        sched.returned
  | alloc {p : Fin N} (found : findUnused sched.gtTable = some p) :
      CreateStage sched wanted (.createAlloc p wanted) sched.gtTable sched.totalTickets
        sched.returned
  | context {p : Fin N} {base : ℕ+} (found : findUnused sched.gtTable = some p) :
      CreateStage sched wanted (.createContext p wanted base) sched.gtTable sched.totalTickets
        sched.returned
  | filling {p : Fin N} {base : ℕ+} {activity : Activity N} {update : Gt → Gt}
      {totalTickets : Int} (found : findUnused sched.gtTable = some p)
      (stage : Filling sched wanted p (base + stackSize - 16) activity update totalTickets) :
      CreateStage sched wanted activity (sched.gtTable.modify p update) totalTickets
        (Function.update sched.returned p false)

/-! ### The machine beside the machine of operations

The machine of statements is followed from one point between operations to the next.  While
an operation is under way, the machine of operations stands before it; it performs the whole
operation when the last of its writes is done.
-/

section Relation

variable [NeZero N]

/-- The globals that no statement of `gt_create` or `gt_schedule` writes. -/
structure SameGlobals (machine : Machine N Loc) (sched : Sched N) : Prop where
  gtCurrent : machine.gtCurrent = sched.gtCurrent
  semaphores : machine.semaphores = sched.semaphores
  freed : machine.freed = sched.freed

/-- All suspended contexts are between operations. -/
def OthersAtRest (machine : Machine N Loc) (gtCurrent : Fin N) (marks : Fin N → Bool) : Prop :=
  ∀ slot, slot ≠ gtCurrent → AtRest slot (marks slot) (machine.saved slot)

/-- What is known of the machine and of the state of operations in between. -/
structure Idling (machine : Machine N Loc) (sched : Sched N) : Prop where
  quiet : Quiet machine
  runs : machine.status = .running
  alive : sched.status = .running
  globals : SameGlobals machine sched
  table : machine.gtTable = sched.gtTable
  tickets : machine.totalTickets = sched.totalTickets
  marks : Marks sched.gtCurrent (sched.returned sched.gtCurrent) machine.cpu.activity
  others : OthersAtRest machine sched.gtCurrent sched.returned

/-- An operation has come to its `gt_schedule`, which it performs on `base`. -/
structure Scheduling (algorithm : Algorithm) (machine : Machine N Loc) (sched base : Sched N)
    (operation : Operation) (statement : Statement N) (outer : List (Statement N)) : Prop where
  performs : ∀ inputs after, reschedule algorithm inputs base = some (true, after) →
    (scheduler algorithm).step sched (operation, inputs) = some after
  standing : machine.cpu.activations = statement :: outer
  returning : ∀ statement ∈ outer, statement = .finish
  progress : Progress algorithm base machine.gtTable machine.gtCurrent statement
  alive : base.status = .running
  runs : machine.status = .running
  tickets : machine.totalTickets = base.totalTickets
  semaphores : machine.semaphores = base.semaphores
  freed : machine.freed = base.freed
  between : machine.cpu.activity.Idle ∨ machine.cpu.activity = .returnAssert
  marks : Marks base.gtCurrent (base.returned base.gtCurrent) machine.cpu.activity
  others : OthersAtRest machine base.gtCurrent base.returned

/-- Where the machine stands in relation to a state of the machine of operations:
that state is the one before the operation in progress. -/
inductive Stands (algorithm : Algorithm) (machine : Machine N Loc) (sched : Sched N) : Prop where
  | idle (idling : Idling machine sched)
  | creating (wanted : Int) (marks : Fin N → Bool) (inCode : machine.cpu.activations = [])
      (stage : CreateStage sched wanted machine.cpu.activity machine.gtTable machine.totalTickets
        marks)
      (alive : sched.status = .running) (globals : SameGlobals machine sched)
      (fresh : sched.returned sched.gtCurrent = false)
      (others : OthersAtRest machine sched.gtCurrent marks) (runs : machine.status = .running)
  | retiring (inCode : machine.cpu.activations = [])
      (stage : machine.cpu.activity = .returnUnused ∧ machine.gtTable = sched.gtTable ∧
          machine.freed = sched.freed ∨
        machine.cpu.activity = .returnFree ∧ machine.gtTable = (retire sched).gtTable ∧
          machine.freed = sched.freed ∨
        machine.cpu.activity = .returnSchedule ∧ machine.gtTable = (retire sched).gtTable ∧
          machine.freed = (retire sched).freed)
      (alive : sched.status = .running) (created : sched.gtCurrent ≠ 0)
      (gtCurrent : machine.gtCurrent = sched.gtCurrent)
      (semaphores : machine.semaphores = sched.semaphores)
      (tickets : machine.totalTickets = sched.totalTickets)
      (others : OthersAtRest machine sched.gtCurrent sched.returned)
      (runs : machine.status = .running)
  | scheduling (base : Sched N) (operation : Operation) (statement : Statement N)
      (outer : List (Statement N))
      (inside : Scheduling algorithm machine sched base operation statement outer)
  | failing (failed : sched.status = .aborted)
      (returning : ∀ statement ∈ machine.cpu.activations, statement = .finish)
      (activity : machine.cpu.activity = .returnAssert)

/-- The machine stands beside a state that operations lead to. -/
def Performs (algorithm : Algorithm) (machine : Machine N Loc) (sched : Sched N) : Prop :=
  ∃ next, (scheduler algorithm).Reached PartialMachine.anyStep sched next ∧
    Stands algorithm machine next

variable {algorithm : Algorithm} {machine after : Machine N Loc} {sched : Sched N}

theorem Stands.performs (stands : Stands algorithm machine sched) :
    Performs algorithm machine sched :=
  ⟨sched, .start, stands⟩

/-- One operation is completed. -/
theorem Stands.completes {next : Sched N} {label : Operation × Inputs}
    (stands : Stands algorithm machine next)
    (stepped : (scheduler algorithm).step sched label = some next) :
    Performs algorithm machine sched :=
  ⟨next, .step .start (trivial : PartialMachine.anyStep sched label) stepped, stands⟩

/-! ### Operations that call gt_schedule -/

/-- An operation of a thread that has not returned. -/
theorem operation_step (alive : sched.status = .running)
    (fresh : sched.returned sched.gtCurrent = false) (operation : Operation) (inputs : Inputs)
    {next : Sched N} (performed : perform algorithm operation inputs sched = some next) :
    (scheduler algorithm).step sched (operation, inputs) = some next := by
  simp only [scheduler, alive, fresh, Bool.false_eq_true, false_implies, and_self, if_true]
  exact performed

/-- `gt_schedule` on its own. -/
theorem schedule_step (alive : sched.status = .running) {inputs : Inputs} {next : Sched N}
    (ran : reschedule algorithm inputs sched = some (true, next)) :
    (scheduler algorithm).step sched (.schedule, inputs) = some next := by
  simp only [scheduler, alive, true_or, implies_true, and_self, if_true, perform, ran,
    Option.map_some]

/-- `gt_return` of a created thread. -/
theorem return_step (alive : sched.status = .running) (created : sched.gtCurrent ≠ 0)
    {inputs : Inputs} {next : Sched N}
    (ran : reschedule algorithm inputs (retire sched) = some (true, next)) :
    (scheduler algorithm).step sched (.gtReturn, inputs) = some next := by
  simp only [scheduler, alive, or_true, implies_true, and_self, if_true, perform, gtReturn,
    if_pos created, ran, Option.map_some]

/-- One turn of the loop of the initial thread. -/
theorem await_step (alive : sched.status = .running) (initial : sched.gtCurrent = 0)
    {inputs : Inputs} {next : Sched N}
    (ran : reschedule algorithm inputs
      { sched with returned := Function.update sched.returned 0 true } = some (true, next)) :
    (scheduler algorithm).step sched (.gtReturn, inputs) = some next := by
  simp only [scheduler, alive, or_true, implies_true, and_self, if_true, perform, gtReturn,
    if_neg (not_not.mpr initial), awaitOthers]
  rw [← alive, ran]
  rfl

variable {base : Sched N} {operation : Operation} {statement : Statement N}
  {outer : List (Statement N)}

/-- A statement of `gt_schedule` before the switch. -/
theorem Scheduling.advances
    (inside : Scheduling algorithm machine sched base operation statement outer)
    (inputs : StatementInputs) (stays : ∀ old new, statement ≠ .switch old new) :
    Stands algorithm (machine.scheduleStatement algorithm inputs statement) sched := by
  obtain ⟨next, moved, later, untouched⟩ :=
    progress_statement inside.standing inside.tickets inside.progress stays
  exact .scheduling base operation next outer
    { performs := inside.performs
      standing := by rw [moved]
      returning := inside.returning
      progress := later
      alive := inside.alive
      runs := untouched.status.trans inside.runs
      tickets := untouched.totalTickets.trans inside.tickets
      semaphores := untouched.semaphores.trans inside.semaphores
      freed := untouched.freed.trans inside.freed
      between := by
        rw [moved]
        exact inside.between
      marks := by
        rw [moved]
        exact inside.marks
      others := fun slot other => by
        rw [untouched.saved]
        exact inside.others slot other }

/-- The switch: the thread that is resumed is between operations, or the operation
has failed because it had returned. -/
theorem Scheduling.switches {old new : Fin N}
    (inside : Scheduling algorithm machine sched base operation (.switch old new) outer)
    (rsp : Nat) : Performs algorithm (machine.switchContext rsp old new) sched := by
  obtain ⟨inputs, ran⟩ := progress_switch inside.progress rsp
  obtain ⟨⟨isOld, isNew⟩, -⟩ := inside.progress
  have atRest (slot : Fin N) :
      AtRest slot (base.returned slot) ((machine.switchContext rsp old new).saved slot) := by
    by_cases same : slot = old
    · subst same
      simp only [Machine.switchContext, Function.update_self, inside.standing, List.tail_cons]
      refine ⟨List.forall_mem_cons.mpr ⟨rfl, inside.returning⟩, inside.between, ?_⟩
      rw [isOld]
      exact inside.marks
    · simp only [Machine.switchContext, Function.update_of_ne same]
      exact inside.others slot (isOld ▸ same)
  obtain ⟨finishing, either, resumed⟩ := atRest new
  refine Stands.completes ?_ (inside.performs inputs _ ran)
  obtain idle | failed := either
  · have marked : ¬(new ≠ 0 ∧ base.returned new = true) := by
      rintro ⟨created, isReturned⟩
      have failed := (resumed.2 created).2.mp isReturned
      rw [failed] at idle
      exact idle
    rw [resume, if_neg marked]
    exact .idle ⟨⟨finishing, idle⟩, inside.runs, inside.alive,
      ⟨isNew, inside.semaphores, inside.freed⟩, rfl, inside.tickets, resumed,
      fun slot _ => atRest slot⟩
  · have created : new ≠ 0 := fun initial => (resumed.1 initial).1 failed
    have marked : new ≠ 0 ∧ base.returned new = true :=
      ⟨created, (resumed.2 created).2.mpr failed⟩
    rw [resume, if_pos marked]
    exact .failing rfl finishing failed

/-- One statement inside `gt_schedule`. -/
theorem Scheduling.step
    (inside : Scheduling algorithm machine sched base operation statement outer)
    (inputs : StatementInputs) :
    Performs algorithm (machine.scheduleStatement algorithm inputs statement) sched := by
  cases statement with
  | switch old new => exact inside.switches inputs.rsp
  | finish => exact inside.progress.elim
  | resetSig | start | select | testCurrent | readyTest | readyWrite | runTest | runWrite
  | prepare | setCurrent => exact (inside.advances inputs nofun).performs

/-! ### Inside gt_return -/

/-- The statements of `gt_return` in a created thread, up to its `gt_schedule`. -/
theorem Stands.retires (inCode : machine.cpu.activations = [])
    (stage : machine.cpu.activity = .returnUnused ∧ machine.gtTable = sched.gtTable ∧
        machine.freed = sched.freed ∨
      machine.cpu.activity = .returnFree ∧ machine.gtTable = (retire sched).gtTable ∧
        machine.freed = sched.freed ∨
      machine.cpu.activity = .returnSchedule ∧ machine.gtTable = (retire sched).gtTable ∧
        machine.freed = (retire sched).freed)
    (alive : sched.status = .running) (created : sched.gtCurrent ≠ 0)
    (gtCurrent : machine.gtCurrent = sched.gtCurrent)
    (semaphores : machine.semaphores = sched.semaphores)
    (tickets : machine.totalTickets = sched.totalTickets)
    (others : OthersAtRest machine sched.gtCurrent sched.returned)
    (runs : machine.status = .running) {entry : Loc} {inputs : StatementInputs}
    (stepped : machine.threadStatement entry inputs = some after) :
    Stands algorithm after sched := by
  obtain ⟨doing, table, freed⟩ | ⟨doing, table, freed⟩ | ⟨doing, table, freed⟩ := stage
  · simp only [Machine.threadStatement, doing] at stepped
    cases stepped
    refine .retiring inCode (.inr (.inl ⟨rfl, ?_, freed⟩)) alive created gtCurrent semaphores
      tickets others runs
    simp only [Machine.doing, Machine.modify, retire, table, gtCurrent]
  · simp only [Machine.threadStatement, doing] at stepped
    cases stepped
    refine .retiring inCode (.inr (.inr ⟨rfl, table, ?_⟩)) alive created gtCurrent semaphores
      tickets others runs
    simp only [Machine.doing, retire, table, gtCurrent, freed, Table.modify_self]
  · simp only [Machine.threadStatement, doing] at stepped
    cases stepped
    refine .scheduling (retire sched) .gtReturn .resetSig []
      { performs := fun _ _ => return_step alive created
        standing := by simp only [Machine.enter, Machine.doing, inCode]
        returning := List.forall_mem_nil _
        progress := ⟨gtCurrent, table⟩
        alive := alive
        runs := runs
        tickets := tickets
        semaphores := semaphores
        freed := freed
        between := .inr rfl
        marks := ?_
        others := fun slot other => ?_ }
    · have returned : (retire sched).returned (retire sched).gtCurrent = true := by simp [retire]
      rw [returned]
      exact ⟨fun initial => absurd initial created, fun _ => ⟨by simp, fun _ => rfl, fun _ => rfl⟩⟩
    · have same : (retire sched).returned slot = sched.returned slot :=
        Function.update_of_ne other _ _
      rw [same]
      exact others slot other

/-! ### Inside gt_create -/

/-- Thread code outside every operation. -/
theorem Stands.inCode (machine : Machine N Loc)
    (doing : after.cpu = { machine.cpu with activity := .code })
    (inCode : machine.cpu.activations = []) (runs : after.status = .running)
    (alive : sched.status = .running) (globals : SameGlobals after sched)
    (table : after.gtTable = sched.gtTable) (tickets : after.totalTickets = sched.totalTickets)
    (fresh : sched.returned sched.gtCurrent = false)
    (others : OthersAtRest after sched.gtCurrent sched.returned) :
    Stands algorithm after sched := by
  refine .idle ⟨?_, runs, alive, globals, table, tickets, ?_, others⟩
  · rw [Quiet, doing]
    exact ⟨by simp only [inCode]; exact nofun, trivial⟩
  · rw [doing, fresh]
    exact marks_fresh _ trivial nofun

/-- A `gt_create` that has found a slot and a stack takes the tickets and changes that
slot only. -/
theorem create_step (algorithm : Algorithm) (alive : sched.status = .running)
    (fresh : sched.returned sched.gtCurrent = false) {p : Fin N} {base : ℕ+} {rsp : Nat}
    {wanted : Int} (found : findUnused sched.gtTable = some p) (top : base + stackSize - 16 = rsp)
    (created changed now : Timeval) :
    ∃ inputs, (scheduler algorithm).step sched (.gtCreate wanted (some base), inputs) =
      some { sched with
        gtTable := sched.gtTable.modify p fun gt => enterState now .ready
          (initThreadStats created changed (claim rsp (clampPriority wanted) sched.totalTickets gt))
        totalTickets := sched.totalTickets + (minPriority - clampPriority wanted + 1)
        returned := Function.update sched.returned p false } := by
  have notReady : (initThreadStats created changed (claim rsp (clampPriority wanted)
      sched.totalTickets (sched.gtTable p))).state ≠ .ready := by
    rw [initThreadStats_state, claim_state, findUnused_state found]
    exact nofun
  have entered : sched.gtTable.modify p (fun gt => updateThreadState now .ready
        (initThreadStats created changed
          (claim rsp (clampPriority wanted) sched.totalTickets gt))) =
      sched.gtTable.modify p fun gt => enterState now .ready
        (initThreadStats created changed
          (claim rsp (clampPriority wanted) sched.totalTickets gt)) := by
    simp only [Table.modify, updateThreadState, if_neg notReady]
  refine ⟨⟨fun reading => [created, changed, now].getD reading now, 0, 0, 0⟩, ?_⟩
  rw [← entered]
  simp only [scheduler, alive, fresh, Bool.false_eq_true, false_implies, and_self, if_true, perform,
    gtCreate, found, top, claim, List.getD_cons_zero, List.getD_cons_succ]

/-- One statement of `gt_create` on its slot. -/
theorem CreateStage.fills {p : Fin N} {base : ℕ+} {rsp : Nat} {wanted : Int}
    {activity : Activity N} {update : Gt → Gt} {totalTickets : Int}
    (doing : machine.cpu.activity = activity) (inCode : machine.cpu.activations = [])
    (top : base + stackSize - 16 = rsp) (found : findUnused sched.gtTable = some p)
    (stage : Filling sched wanted p rsp activity update totalTickets)
    (table : machine.gtTable = sched.gtTable.modify p update)
    (tickets : machine.totalTickets = totalTickets)
    (alive : sched.status = .running) (globals : SameGlobals machine sched)
    (fresh : sched.returned sched.gtCurrent = false)
    (others : OthersAtRest machine sched.gtCurrent (Function.update sched.returned p false))
    (runs : machine.status = .running) {entry : Loc} {inputs : StatementInputs}
    (stepped : machine.threadStatement entry inputs = some after) :
    Performs algorithm after sched := by
  have filled {later : Activity N} {next : Gt → Gt} {total : Int} {after : Machine N Loc}
      (stage : Filling sched wanted p rsp later next total)
      (moved : after.cpu = { machine.cpu with activity := later })
      (put : after.gtTable = sched.gtTable.modify p next) (counted : after.totalTickets = total)
      (same : after.gtCurrent = machine.gtCurrent ∧ after.semaphores = machine.semaphores ∧
        after.freed = machine.freed) (saved : after.saved = machine.saved)
      (ran : after.status = .running) : Performs algorithm after sched := by
    subst top
    refine (Stands.creating wanted (Function.update sched.returned p false)
      (by rw [moved]; exact inCode) ?_ alive ?_ fresh (fun slot other => ?_) ran).performs
    · rw [moved, put, counted]
      exact .filling found stage
    · exact ⟨same.1.trans globals.gtCurrent, same.2.1.trans globals.semaphores,
        same.2.2.trans globals.freed⟩
    · rw [saved]
      exact others slot other
  unfold Machine.threadStatement at stepped
  rw [doing] at stepped
  cases stage with
  | priority =>
      cases stepped
      refine filled .skip rfl ?_ tickets ⟨rfl, rfl, rfl⟩ rfl runs
      simp only [Machine.modify, Machine.doing, table, Table.modify_modify]
  | skip =>
      cases stepped
      refine filled .lo rfl ?_ tickets ⟨rfl, rfl, rfl⟩ rfl runs
      simp only [Machine.modify, Machine.doing, table, Table.modify_modify]
  | lo =>
      cases stepped
      refine filled .hi rfl ?_ tickets ⟨rfl, rfl, rfl⟩ rfl runs
      simp only [Machine.modify, Machine.doing, table, tickets, Table.modify_modify]
  | hi =>
      cases stepped
      refine filled .total rfl ?_ tickets ⟨rfl, rfl, rfl⟩ rfl runs
      simp only [Machine.modify, Machine.doing, table, tickets, Table.modify_modify]
      rfl
  | total =>
      cases stepped
      refine filled .stats rfl table ?_ ⟨rfl, rfl, rfl⟩ rfl runs
      simp only [Machine.doing, table, tickets, Table.modify_self, claim_priority]
  | stats =>
      cases stepped
      refine filled (.test (inputs.clock 0) (inputs.clock 1)) rfl ?_ tickets ⟨rfl, rfl, rfl⟩ rfl
        runs
      simp only [Machine.modify, Machine.doing, table, Table.modify_modify]
  | test created changed =>
      have notReady : (machine.gtTable p).state ≠ .ready := by
        rw [table, Table.modify_self, initThreadStats_state, claim_state, findUnused_state found]
        exact nofun
      simp only [if_neg notReady] at stepped
      cases stepped
      exact filled (.write created changed) rfl table tickets ⟨rfl, rfl, rfl⟩ rfl runs
  | write created changed =>
      cases stepped
      obtain ⟨completion, performed⟩ := create_step algorithm alive fresh found top
        created changed (inputs.clock 0)
      have kept : Function.update sched.returned p false sched.gtCurrent = false := by
        by_cases same : sched.gtCurrent = p
        · rw [same, Function.update_self]
        · rw [Function.update_of_ne same]
          exact fresh
      refine Stands.completes ?_ performed
      refine .inCode machine rfl inCode runs alive
        ⟨globals.gtCurrent, globals.semaphores, globals.freed⟩ ?_ tickets kept others
      simp only [Machine.modify, Machine.doing, table, Table.modify_modify]

/-- One statement of `gt_create`. -/
theorem Stands.creates {wanted : Int} {marks : Fin N → Bool}
    (inCode : machine.cpu.activations = [])
    (stage : CreateStage sched wanted machine.cpu.activity machine.gtTable machine.totalTickets
      marks)
    (alive : sched.status = .running) (globals : SameGlobals machine sched)
    (fresh : sched.returned sched.gtCurrent = false)
    (others : OthersAtRest machine sched.gtCurrent marks) (runs : machine.status = .running)
    {entry : Loc} {inputs : StatementInputs}
    (stepped : machine.threadStatement entry inputs = some after) :
    Performs algorithm after sched := by
  have same (activity : Activity N) : SameGlobals (machine.doing activity) sched :=
    ⟨globals.gtCurrent, globals.semaphores, globals.freed⟩
  generalize doing : machine.cpu.activity = activity at stage
  generalize isTable : machine.gtTable = gtTable at stage
  generalize isTotal : machine.totalTickets = totalTickets at stage
  cases stage with
  | @search p before =>
      simp only [Machine.threadStatement, doing] at stepped
      split at stepped
      · next inside =>
          split at stepped
          · next unused =>
              cases stepped
              rw [isTable] at unused
              refine Stands.performs (.creating wanted _ inCode ?_ alive (same _) fresh others runs)
              simp only [Machine.doing, isTable, isTotal]
              exact .alloc (findUnused_eq_some unused before)
          · next used =>
              cases stepped
              rw [isTable] at used
              refine Stands.performs (.creating wanted _ inCode ?_ alive (same _) fresh others runs)
              simp only [Machine.doing, isTable, isTotal]
              refine .search fun slot below => ?_
              obtain earlier | isThis := Nat.lt_succ_iff_lt_or_eq.mp below
              · exact before slot earlier
              · subst isThis
                exact used
      · cases stepped
        exact Stands.performs
          (.inCode machine rfl inCode runs alive (same _) isTable isTotal fresh others)
  | @alloc p found =>
      simp only [Machine.threadStatement, doing] at stepped
      split at stepped
      · cases stepped
        exact Stands.performs
          (.inCode machine rfl inCode runs alive (same _) isTable isTotal fresh others)
      · cases stepped
        refine Stands.performs (.creating wanted _ inCode ?_ alive (same _) fresh others runs)
        simp only [Machine.doing, isTable, isTotal]
        exact .context found
  | @context p base found =>
      simp only [Machine.threadStatement, doing] at stepped
      cases stepped
      refine Stands.performs (.creating wanted (Function.update sched.returned p false) inCode ?_
        alive ⟨globals.gtCurrent, globals.semaphores, globals.freed⟩ fresh (fun slot other => ?_)
        runs)
      · simp only [Machine.modify, Machine.doing, isTable, isTotal]
        exact .filling found .priority
      · by_cases isNew : slot = p
        · subst isNew
          simp only [Machine.modify, Machine.doing, Function.update_self]
          exact ⟨nofun, .inl trivial, marks_fresh slot trivial nofun⟩
        · simp only [Machine.modify, Machine.doing, Function.update_of_ne isNew]
          exact others slot other
  | filling found stage =>
      exact CreateStage.fills doing inCode rfl found stage isTable isTotal alive globals fresh
        others runs stepped

/-! ### Between operations -/

/-- `gt_schedule` is entered, by a call or by the handler of an alarm. -/
theorem Idling.enters (idling : Idling machine sched) (masked : Bool) :
    Stands algorithm { machine.enter with masked := masked } sched :=
  .scheduling sched .schedule .resetSig machine.cpu.activations
    { performs := fun _ _ => schedule_step idling.alive
      standing := rfl
      returning := idling.quiet.1
      progress := ⟨idling.globals.gtCurrent, idling.table⟩
      alive := idling.alive
      runs := idling.runs
      tickets := idling.tickets
      semaphores := idling.globals.semaphores
      freed := idling.globals.freed
      between := .inl idling.quiet.2
      marks := idling.marks
      others := idling.others }

/-- The loop of the initial thread enters `gt_schedule`. -/
theorem Idling.awaits (idling : Idling machine sched)
    (doing : machine.cpu.activity = .returnLoop) : Stands algorithm machine.enter sched := by
  have marks := idling.marks
  rw [doing] at marks
  have initial : sched.gtCurrent = 0 := by
    by_contra created
    exact (marks.2 created).1 rfl
  refine .scheduling { sched with returned := Function.update sched.returned 0 true } .gtReturn
    .resetSig machine.cpu.activations
    { performs := fun _ _ => await_step idling.alive initial
      standing := rfl
      returning := idling.quiet.1
      progress := ⟨idling.globals.gtCurrent, idling.table⟩
      alive := idling.alive
      runs := idling.runs
      tickets := idling.tickets
      semaphores := idling.globals.semaphores
      freed := idling.globals.freed
      between := .inl idling.quiet.2
      marks := ?_
      others := fun slot other => ?_ }
  · change Marks sched.gtCurrent _ machine.cpu.activity
    rw [doing, initial]
    exact ⟨fun _ => ⟨nofun, fun _ => rfl⟩, fun created => absurd rfl created⟩
  · change AtRest slot (Function.update sched.returned 0 true slot) (machine.saved slot)
    rw [Function.update_of_ne (initial ▸ other)]
    exact idling.others slot other

/-- Another context on the processor that is between operations as well. -/
theorem Idling.onCpu (idling : Idling machine sched) (cpu : Context N Loc)
    (returning : ∀ statement ∈ cpu.activations, statement = .finish) (idle : cpu.activity.Idle)
    (marks : Marks sched.gtCurrent (sched.returned sched.gtCurrent) cpu.activity) :
    Idling { machine with cpu := cpu } sched where
  quiet := ⟨returning, idle⟩
  runs := idling.runs
  alive := idling.alive
  globals := ⟨idling.globals.gtCurrent, idling.globals.semaphores, idling.globals.freed⟩
  table := idling.table
  tickets := idling.tickets
  marks := marks
  others := idling.others

/-- Thread code goes from one activity between operations to another. -/
theorem Idling.moves (idling : Idling machine sched) (activity : Activity N) (idle : activity.Idle)
    (marks : Marks sched.gtCurrent (sched.returned sched.gtCurrent) activity) :
    Stands algorithm (machine.doing activity) sched :=
  .idle (idling.onCpu _ idling.quiet.1 idle marks)

/-- One statement of thread code between operations. -/
theorem Idling.step (idling : Idling machine sched) (inCode : machine.cpu.activations = [])
    {entry : Loc} {inputs : StatementInputs}
    (stepped : machine.threadStatement entry inputs = some after) :
    Stands algorithm after sched := by
  have marks := idling.marks
  have idle := idling.quiet.2
  cases doing : machine.cpu.activity with
  | code => simp only [Machine.threadStatement, doing, reduceCtorEq] at stepped
  | waitReturn | postReturn =>
      simp only [Machine.threadStatement, doing] at stepped
      cases stepped
      rw [doing] at marks
      have fresh := marks.not_returned trivial nofun
      refine idling.moves .code trivial ?_
      rw [fresh]
      exact marks_fresh _ trivial nofun
  | returnTest =>
      simp only [Machine.threadStatement, doing] at stepped
      rw [doing] at marks
      have fresh := marks.not_returned trivial nofun
      split at stepped
      · next created =>
          cases stepped
          rw [idling.globals.gtCurrent] at created
          exact .retiring inCode (.inl ⟨rfl, idling.table, idling.globals.freed⟩) idling.alive
            created idling.globals.gtCurrent idling.globals.semaphores idling.tickets idling.others
            idling.runs
      · next initial =>
          cases stepped
          rw [idling.globals.gtCurrent, not_not] at initial
          refine idling.moves .returnLoop trivial ?_
          rw [fresh, initial]
          exact ⟨fun _ => ⟨nofun, nofun⟩, fun created => absurd rfl created⟩
  | returnLoop =>
      simp only [Machine.threadStatement, doing] at stepped
      cases stepped
      exact idling.awaits doing
  | createSearch | createAlloc | createContext | createPriority | createSkip | createLo | createHi
  | createTotal | createStats | createTest | createWrite | returnUnused | returnFree
  | returnSchedule | returnAssert =>
      rw [doing] at idle
      exact idle.elim

/-- A `gt_schedule` whose switch is behind it returns. -/
theorem Idling.finishes (idling : Idling machine sched) :
    Stands algorithm { machine with
      cpu := { machine.cpu with activations := machine.cpu.activations.tail } } sched :=
  .idle (idling.onCpu _
    (fun statement member => idling.quiet.1 statement (List.mem_of_mem_tail member))
    idling.quiet.2 idling.marks)

/-- Only the semaphores and the table differ, and the thread code has to return from
the operation. -/
theorem Idling.performs (idling : Idling machine sched) (activity : Activity N)
    (idle : activity.Idle) (notLoop : activity ≠ .returnLoop)
    (fresh : sched.returned sched.gtCurrent = false) (semaphores : List (Semaphore N))
    (gtTable : Table N) :
    Stands algorithm
      ({ machine with semaphores := semaphores, gtTable := gtTable }.doing activity)
      { sched with semaphores := semaphores, gtTable := gtTable } := by
  refine .idle ⟨⟨idling.quiet.1, idle⟩, idling.runs, idling.alive,
    ⟨idling.globals.gtCurrent, rfl, idling.globals.freed⟩, rfl, idling.tickets, ?_,
    idling.others⟩
  change Marks sched.gtCurrent (sched.returned sched.gtCurrent) activity
  rw [fresh]
  exact marks_fresh _ idle notLoop

/-- `sem_wait`. -/
theorem Idling.waits (idling : Idling machine sched)
    (fresh : sched.returned sched.gtCurrent = false) {now : Timeval} {sem : Nat}
    (called : machine.makeCall now (.semWait sem) = some after) :
    Performs algorithm after sched := by
  obtain ⟨waited, body, rfl⟩ := Option.map_eq_some_iff.mp called
  obtain ⟨semaphore, found, body⟩ := Option.bind_eq_some_iff.mp body
  have there : sched.semaphores[sem]? = some semaphore := idling.globals.semaphores ▸ found
  split at body
  · next positive =>
      cases body
      have performed : perform algorithm (.semWait sem) ⟨fun _ => now, 0, 0, 0⟩ sched =
          some { sched with
            semaphores := machine.semaphores.set sem
              { semaphore with value := semaphore.value - 1 }
            gtTable := machine.gtTable } := by
        simp only [perform, semWait, there, Option.bind_eq_bind, Option.bind_some,
          if_pos positive, Option.pure_def, idling.globals.semaphores, idling.table]
      exact (idling.performs .waitReturn trivial (by simp) fresh _ _).completes
        (operation_step idling.alive fresh _ _ performed)
  · next noPermit =>
      cases body
      have performed : perform algorithm (.semWait sem) ⟨fun _ => now, 0, 0, 0⟩ sched =
          some { sched with
            semaphores := machine.semaphores.set sem
              { semaphore with queue := semaphore.queue ++ [machine.gtCurrent] }
            gtTable :=
              machine.gtTable.modify machine.gtCurrent (updateThreadState now .blocked) } := by
        simp only [perform, semWait, there, Option.bind_eq_bind, Option.bind_some,
          if_neg noPermit, Option.pure_def, idling.globals.semaphores, idling.globals.gtCurrent,
          idling.table]
      exact (idling.performs .waitReturn trivial (by simp) fresh _ _).completes
        (operation_step idling.alive fresh _ _ performed)

/-- `sem_post`. -/
theorem Idling.posts (idling : Idling machine sched)
    (fresh : sched.returned sched.gtCurrent = false) {now : Timeval} {sem : Nat}
    (called : machine.makeCall now (.semPost sem) = some after) :
    Performs algorithm after sched := by
  obtain ⟨posted, body, rfl⟩ := Option.map_eq_some_iff.mp called
  obtain ⟨semaphore, found, body⟩ := Option.bind_eq_some_iff.mp body
  have there : sched.semaphores[sem]? = some semaphore := idling.globals.semaphores ▸ found
  split at body
  · next noWaiter =>
      cases body
      have performed : perform algorithm (.semPost sem) ⟨fun _ => now, 0, 0, 0⟩ sched =
          some { sched with
            semaphores := machine.semaphores.set sem
              { semaphore with value := semaphore.value + 1 }
            gtTable := machine.gtTable } := by
        simp only [perform, semPost, there, Option.bind_eq_bind, Option.bind_some, noWaiter,
          Option.pure_def, idling.globals.semaphores, idling.table]
      exact (idling.performs .postReturn trivial (by simp) fresh _ _).completes
        (operation_step idling.alive fresh _ _ performed)
  · next thread queue waiter =>
      cases body
      have performed : perform algorithm (.semPost sem) ⟨fun _ => now, 0, 0, 0⟩ sched =
          some { sched with
            semaphores := machine.semaphores.set sem { semaphore with queue := queue }
            gtTable := machine.gtTable.modify thread (updateThreadState now .ready) } := by
        simp only [perform, semPost, there, Option.bind_eq_bind, Option.bind_some, waiter,
          Option.pure_def, idling.globals.semaphores, idling.table]
      exact (idling.performs .postReturn trivial (by simp) fresh _ _).completes
        (operation_step idling.alive fresh _ _ performed)

/-- Thread code makes a call. -/
theorem Idling.calls (idling : Idling machine sched) (inCode : machine.cpu.activations = [])
    (doing : machine.cpu.activity = .code) {now : Timeval} {call : Call}
    (called : machine.makeCall now call = some after) : Performs algorithm after sched := by
  have marks := idling.marks
  rw [doing] at marks
  have fresh := marks.not_returned trivial nofun
  cases call with
  | gtCreate priority =>
      cases called
      refine Stands.performs (.creating priority sched.returned inCode ?_ idling.alive
        ⟨idling.globals.gtCurrent, idling.globals.semaphores, idling.globals.freed⟩ fresh
        idling.others idling.runs)
      simp only [Machine.doing, idling.table, idling.tickets]
      exact .search nofun
  | schedule =>
      cases called
      exact (idling.enters machine.masked).performs
  | gtReturn =>
      cases called
      refine (idling.moves .returnTest trivial ?_).performs
      rw [fresh]
      exact marks_fresh _ trivial nofun
  | semWait sem => exact idling.waits fresh called
  | semPost sem => exact idling.posts fresh called

/-! ### Every step -/

omit [NeZero N] in
theorem CreateStage.not_idle {wanted : Int} {activity : Activity N} {gtTable : Table N}
    {totalTickets : Int} {marks : Fin N → Bool}
    (stage : CreateStage sched wanted activity gtTable totalTickets marks) :
    ¬ activity.Idle := by
  cases stage with
  | search | alloc | context => exact id
  | filling found stage => cases stage <;> exact id

/-- Where no operation is in progress, the machine shows what the operations have
made. -/
theorem Stands.idling (stands : Stands algorithm machine sched) (quiet : Quiet machine) :
    Idling machine sched := by
  obtain ⟨returning, idle⟩ := quiet
  cases stands with
  | idle idling => exact idling
  | creating wanted marks inCode stage => exact absurd idle stage.not_idle
  | retiring inCode stage =>
      obtain ⟨doing, -⟩ | ⟨doing, -⟩ | ⟨doing, -⟩ := stage
      all_goals
        rw [doing] at idle
        exact idle.elim
  | scheduling base operation statement outer inside =>
      have isFinish := returning statement (inside.standing ▸ List.mem_cons_self)
      have progress := inside.progress
      rw [isFinish] at progress
      exact progress.elim
  | failing _ _ activity =>
      rw [activity] at idle
      exact idle.elim

/-- A statement of the thread code. -/
theorem Stands.threadStatement (stands : Stands algorithm machine sched)
    (runs : machine.status = .running) (inCode : machine.cpu.activations = []) {entry : Loc}
    {inputs : StatementInputs} (stepped : machine.threadStatement entry inputs = some after) :
    Performs algorithm after sched := by
  cases stands with
  | idle idling => exact (idling.step inCode stepped).performs
  | creating wanted marks _ stage alive globals fresh others =>
      exact Stands.creates inCode stage alive globals fresh others runs stepped
  | retiring _ stage alive created gtCurrent semaphores tickets others =>
      exact (Stands.retires inCode stage alive created gtCurrent semaphores tickets others runs
        stepped).performs
  | scheduling base operation statement outer inside =>
      exact absurd (inside.standing.symm.trans inCode) (List.cons_ne_nil _ _)
  | failing failed returning activity =>
      simp only [Machine.threadStatement, activity] at stepped
      cases stepped
      exact Stands.performs (.failing failed returning activity)

/-- A statement of `gt_schedule`. -/
theorem Stands.scheduleStatement (stands : Stands algorithm machine sched)
    {statement : Statement N} {outer : List (Statement N)}
    (standing : machine.cpu.activations = statement :: outer) (inputs : StatementInputs) :
    Performs algorithm (machine.scheduleStatement algorithm inputs statement) sched := by
  have innermost : statement ∈ machine.cpu.activations := standing ▸ List.mem_cons_self
  cases stands with
  | idle idling =>
      rw [idling.quiet.1 statement innermost]
      exact idling.finishes.performs
  | creating _ _ inCode => exact absurd (standing.symm.trans inCode) (List.cons_ne_nil _ _)
  | retiring inCode => exact absurd (standing.symm.trans inCode) (List.cons_ne_nil _ _)
  | scheduling base operation standsAt outer inside =>
      obtain ⟨rfl, rfl⟩ := List.cons.inj (standing.symm.trans inside.standing)
      exact inside.step inputs
  | failing failed returning activity =>
      rw [returning statement innermost]
      exact Stands.performs (.failing failed
        (fun other member => returning other (List.mem_of_mem_tail member)) activity)

end Relation

/-! ### Whole runs -/

/-- With no alarm inside an operation, the statements of an operation amount to the
operation. -/
theorem statements_simulate [NeZero N] (algorithm : Algorithm) (program : Program) :
    Simulates (preemptive algorithm program) AlarmSparesOperations (scheduler algorithm)
      PartialMachine.anyStep (Stands (N := N) algorithm) where
  step := by
    intro before after event sched stands spared stepped
    simp only [preemptive] at stepped
    split at stepped
    · next runs =>
        cases event with
        | alarm =>
            dsimp only at stepped
            split at stepped
            · cases stepped
            · cases stepped
              exact ((stands.idling spared).enters true).performs
        | call call now =>
            dsimp only at stepped
            split at stepped
            · next standing =>
                obtain ⟨inCode, doing⟩ := standing
                obtain ⟨loc, -, called⟩ := Option.bind_eq_some_iff.mp stepped
                have quiet : Quiet before := by
                  rw [Quiet, inCode, doing]
                  exact ⟨List.forall_mem_nil _, trivial⟩
                have idling := stands.idling quiet
                have located : Idling { before with cpu := { before.cpu with loc := loc } } sched :=
                  idling.onCpu _ idling.quiet.1 idling.quiet.2 idling.marks
                exact located.calls inCode doing called
            · cases stepped
        | statement inputs =>
            dsimp only at stepped
            split at stepped
            · next inCode => exact stands.threadStatement runs inCode stepped
            · next statement outer standing =>
                cases stepped
                exact stands.scheduleStatement standing inputs
    · cases stepped

variable [NeZero N]

/-- The machine has the globals of a state of whole operations. -/
structure ShowsOperations (machine : Machine N Loc) (sched : Sched N) : Prop
    extends SameGlobals machine sched where
  gtTable : machine.gtTable = sched.gtTable
  totalTickets : machine.totalTickets = sched.totalTickets
  status : machine.status = sched.status

theorem Idling.shows {machine : Machine N Loc} {sched : Sched N} (idling : Idling machine sched) :
    ShowsOperations machine sched :=
  ⟨idling.globals, idling.table, idling.tickets, idling.runs.trans idling.alive.symm⟩

/-- The machine fails only where the operations do. -/
theorem Stands.aborted {algorithm : Algorithm} {machine : Machine N Loc} {sched : Sched N}
    (stands : Stands algorithm machine sched) (failed : machine.status = .aborted) :
    sched.status = .aborted := by
  cases stands with
  | idle idling => exact nomatch idling.runs.symm.trans failed
  | creating _ _ _ _ _ _ _ _ runs => exact nomatch runs.symm.trans failed
  | retiring _ _ _ _ _ _ _ _ runs => exact nomatch runs.symm.trans failed
  | scheduling _ _ _ _ inside => exact nomatch inside.runs.symm.trans failed
  | failing failed => exact failed

/-- The semaphores are set up one after the other. -/
theorem reached_semInit (algorithm : Algorithm) (clock : Nat → Timeval) (values : List Int) :
    (scheduler algorithm).Reached PartialMachine.anyStep (gtInit clock : Sched N)
      { gtInit clock with semaphores := values.map (⟨·, []⟩) } := by
  induction values using List.reverseRecOn with
  | nil => exact .start
  | append_singleton values value inductionHypothesis =>
      have stepped : (scheduler algorithm).step
          { (gtInit clock : Sched N) with semaphores := values.map (⟨·, []⟩) }
          (.semInit values.length value, ⟨clock, 0, 0, 0⟩) =
            some { gtInit clock with semaphores := (values ++ [value]).map (⟨·, []⟩) } := by
        simp [scheduler, gtInit, perform, semInit]
      exact .step inductionHypothesis trivial stepped

theorem Idling.boot (program : Program) (clock : Nat → Timeval) (semaphores : List (Semaphore N)) :
    Idling (bootMachine program clock semaphores)
      { gtInit clock with semaphores := semaphores } where
  quiet := ⟨nofun, trivial⟩
  runs := rfl
  alive := rfl
  globals := ⟨rfl, rfl, rfl⟩
  table := rfl
  tickets := rfl
  marks := marks_fresh _ trivial nofun
  others slot _ := ⟨nofun, .inl trivial, marks_fresh slot trivial nofun⟩

/-- In every run with no alarm inside an operation, wherever no operation is in
progress the globals are those that whole operations lead to from `gt_init` on, and
the process fails only where these do. -/
theorem statements_refine_operations (algorithm : Algorithm) (program : Program)
    (clock : Nat → Timeval) (values : List Int) {machine : Machine N program.Loc}
    (reached : (preemptive algorithm program).Reached AlarmSparesOperations
      (bootMachine program clock (values.map (⟨·, []⟩))) machine) :
    ∃ sched, (scheduler algorithm).Reached PartialMachine.anyStep (gtInit clock) sched ∧
      (Quiet machine → ShowsOperations machine sched) ∧
      (machine.status = .aborted → sched.status = .aborted) := by
  obtain ⟨sched, operated, stands⟩ :=
    (statements_simulate algorithm program).reached (.idle (.boot program clock _)) reached
  exact ⟨sched, (reached_semInit algorithm clock values).trans operated,
    fun quiet => (stands.idling quiet).shows, stands.aborted⟩

/-- The initial thread creates a thread, takes the only permit and is preempted
between operations; the created thread queues at the semaphore. -/
theorem statements_refine_operations_preempted :
    ∃ machine : Machine maxGThreads Unit,
      (Quiet machine ∧ machine.gtCurrent = 1 ∧ (machine.gtTable 1).state = .blocked) ∧
      ∃ sched, (scheduler .roundRobin).Reached PartialMachine.anyStep
        (gtInit fun _ => initTimeval) sched ∧ ShowsOperations machine sched := by
  obtain ⟨machine, reached, quiet, standing⟩ := PartialMachine.exists_reached_of_any
    (preemptive .roundRobin anyProgram) AlarmSparesOperations
    (bootMachine anyProgram (fun _ => initTimeval) ([1].map (⟨·, []⟩)))
    (createOne ++ .call (.semWait 0) initTimeval :: statements 1 0 ++ .alarm :: statements 14 0 ++
      .call (.semWait 0) initTimeval :: statements 1 0)
    (fun machine : Machine maxGThreads Unit =>
      Quiet machine ∧ machine.gtCurrent = 1 ∧ (machine.gtTable 1).state = .blocked)
    (by decide +kernel)
  obtain ⟨sched, operated, shows, -⟩ :=
    statements_refine_operations .roundRobin anyProgram _ [1] reached
  exact ⟨machine, ⟨quiet, standing⟩, sched, operated, shows quiet⟩

end Ivos.Scheduler
