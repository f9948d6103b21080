/-
Module: Ivos.Scheduler.ConcurrentCreation
Purpose: Calls of `gt_create` by several threads, preempted between their statements:
  when the threads they create keep apart, and how one gets lost.
Trusted boundary: an alarm comes between two statements only
Main exports: CreateStatement, Creation, concurrentCreation, NoneLost, CreatesApart,
  gtCreate_uninterrupted, creates_apart_loses_none,
  concurrent_creation_loses_thread
-/
import Ivos.Scheduler.Preemption
import Ivos.Scheduler.Tickets

namespace Ivos.Scheduler

variable {N : Nat}

/-!
`gt_create` masks no signal.  Here each of its statements is a step of its own,
and every other operation, the `gt_schedule` of an alarm among them, is one step.
Clamping the argument, and writing `gt_stop` and `f` into the new stack block,
touch only what the call owns; they belong to the statement that stores the stack
pointer.
-/

/-- The statement a call of `gt_create` executes next. -/
inductive CreateStatement (N : Nat) where
  /-- The search loop, at slot number `p`. -/
  | search (p : Nat)
  /-- `malloc(StackSize)`. -/
  | alloc (p : Fin N)
  /-- `p->ctx.rsp`. -/
  | context (p : Fin N) (base : ℕ+)
  /-- `p->priority`. -/
  | priority (p : Fin N)
  /-- `p->skip_count`. -/
  | skip (p : Fin N)
  /-- `p->tickets_lo`. -/
  | lo (p : Fin N)
  /-- `p->tickets_hi`. -/
  | hi (p : Fin N)
  /-- `total_tickets`. -/
  | total (p : Fin N)
  /-- `init_thread_stats(p)`. -/
  | stats (p : Fin N)
  /-- `update_thread_state(p, Ready)`. -/
  | state (p : Fin N)
deriving Repr, DecidableEq

/-- A call under way, with its two arguments. -/
structure Creating (N : Nat) where
  f : Nat
  priority : Int
  next : CreateStatement N
deriving Repr, DecidableEq

/-- A call that has returned 0: the slot it took, its entry function and its
clamped priority. -/
structure Created (N : Nat) where
  slot : Fin N
  f : Nat
  priority : Int
deriving Repr, DecidableEq

/-- The scheduler, the calls of `gt_create` that threads are in, the entry
functions at the bottom of the stacks, and the calls that have returned 0 and
whose threads have not exited, latest first. -/
structure Creation (N : Nat) where
  sched : Sched N
  creating : Fin N → Option (Creating N)
  entry : Fin N → Option Nat
  created : List (Created N)

namespace Creation

/-- Change one slot of the table. -/
def modify (creation : Creation N) (slot : Fin N) (update : Gt → Gt) : Creation N :=
  { creation with
    sched := { creation.sched with gtTable := creation.sched.gtTable.modify slot update } }

/-- `total_tickets = total`. -/
def setTotal (creation : Creation N) (total : Int) : Creation N :=
  { creation with sched := { creation.sched with totalTickets := total } }

/-- The current thread moves on in its call, or out of it. -/
def goto (creation : Creation N) (call : Option (Creating N)) : Creation N :=
  { creation with
    creating := Function.update creation.creating creation.sched.gtCurrent call }

/-- The slot gets a new stack with `f` at its bottom, and what it was executing is
gone. -/
def setContext (creation : Creation N) (p : Fin N) (base f : Nat) : Creation N :=
  { creation with
    sched := { creation.sched with
      gtTable := creation.sched.gtTable.modify p fun gt =>
        { gt with ctx := ⟨base + stackSize - 16⟩ }
      returned := Function.update creation.sched.returned p false }
    creating := Function.update creation.creating p none
    entry := Function.update creation.entry p (some f) }

/-- One statement of the call the current thread is in. -/
def createStatement (inputs : StatementInputs) (call : Creating N) (creation : Creation N) :
    Creation N :=
  let onwards (next : CreateStatement N) := some { call with next := next }
  let total := creation.sched.totalTickets
  match call.next with
  | .search p =>
      if inside : p < N then
        if (creation.sched.gtTable ⟨p, inside⟩).state = .unused then
          creation.goto (onwards (.alloc ⟨p, inside⟩))
        else creation.goto (onwards (.search (p + 1)))
      else creation.goto none
  | .alloc p =>
      match inputs.stack with
      | none => creation.goto none
      | some base => creation.goto (onwards (.context p base))
  | .context p base => (creation.setContext p base call.f).goto (onwards (.priority p))
  | .priority p =>
      (creation.modify p fun gt => { gt with priority := clampPriority call.priority }).goto
        (onwards (.skip p))
  | .skip p => (creation.modify p fun gt => { gt with skipCount := 0 }).goto (onwards (.lo p))
  | .lo p => (creation.modify p fun gt => { gt with ticketsLo := total }).goto (onwards (.hi p))
  | .hi p =>
      (creation.modify p fun gt =>
        { gt with ticketsHi := total + (minPriority - gt.priority) }).goto (onwards (.total p))
  | .total p =>
      (creation.setTotal (total + (minPriority - (creation.sched.gtTable p).priority + 1))).goto
        (onwards (.stats p))
  | .stats p =>
      (creation.modify p (initThreadStats (inputs.clock 0) (inputs.clock 1))).goto
        (onwards (.state p))
  | .state p =>
      { (creation.modify p (updateThreadState (inputs.clock 0) .ready)).goto none with
        created := ⟨p, call.f, clampPriority call.priority⟩ :: creation.created }

end Creation

/-- What happens next. -/
inductive CreationEvent where
  /-- The current thread calls `gt_create`. -/
  | call (f : Nat) (priority : Int)
  /-- The next statement of the call it is in. -/
  | statement (inputs : StatementInputs)
  /-- Any other operation. -/
  | operation (operation : Operation) (inputs : Inputs)

def Operation.isCreate : Operation → Bool
  | .gtCreate _ _ => true
  | _ => false

/-- The records that outlive an operation: a created thread that calls
`gt_return` exits. -/
def stillAlive (operation : Operation) (gtCurrent initial : Fin N) (created : List (Created N)) :
    List (Created N) :=
  if operation = .gtReturn ∧ gtCurrent ≠ initial then
    created.filter fun record => record.slot ≠ gtCurrent
  else created

/-- The process: a thread inside `gt_create` executes the statements of its call
and nothing else, but an alarm may switch to another thread before any of them. -/
def concurrentCreation [NeZero N] (algorithm : Algorithm) :
    PartialMachine (Creation N) CreationEvent where
  step creation event :=
    match event, creation.creating creation.sched.gtCurrent with
    | .call f priority, none =>
        if creation.sched.status = .running ∧
            creation.sched.returned creation.sched.gtCurrent = false then
          some (creation.goto (some ⟨f, priority, .search 0⟩))
        else none
    | .statement inputs, some call =>
        if creation.sched.status = .running then some (creation.createStatement inputs call)
        else none
    | .operation operation inputs, call =>
        if operation = .schedule ∨ (call = none ∧ operation.isCreate = false) then
          ((scheduler algorithm).step creation.sched (operation, inputs)).map fun sched =>
            { creation with
              sched := sched
              created :=
                stillAlive operation creation.sched.gtCurrent 0 creation.created }
        else none
    | _, _ => none

/-- The process after `gt_init`. -/
def creationBoot [NeZero N] (clock : Nat → Timeval) : Creation N :=
  { sched := gtInit clock
    creating := fun _ => none
    entry := fun _ => none
    created := [] }

/-! ### A call that is not interrupted -/

theorem goto_creating (creation : Creation N) (value : Option (Creating N)) :
    (creation.goto value).creating creation.sched.gtCurrent = value :=
  Function.update_self ..

theorem goto_goto (creation : Creation N) (first second : Option (Creating N)) :
    (creation.goto first).goto second = creation.goto second := by
  simp [Creation.goto]

@[simp] theorem goto_sched (creation : Creation N) (value : Option (Creating N)) :
    (creation.goto value).sched = creation.sched := rfl

theorem modify_goto (creation : Creation N) (value : Option (Creating N)) (slot : Fin N)
    (update : Gt → Gt) :
    (creation.goto value).modify slot update = (creation.modify slot update).goto value := rfl

theorem setTotal_goto (creation : Creation N) (value : Option (Creating N)) (total : Int) :
    (creation.goto value).setTotal total = (creation.setTotal total).goto value := rfl

theorem setContext_sched (creation : Creation N) (p : Fin N) (base f : Nat) :
    (creation.setContext p base f).sched = { creation.sched with
      gtTable := creation.sched.gtTable.modify p fun gt =>
        { gt with ctx := ⟨base + stackSize - 16⟩ }
      returned := Function.update creation.sched.returned p false } := rfl

/-- The slot `findUnused` finds is the first one that is Unused. -/
theorem findUnused_eq_some {gtTable : Table N} {slot : Fin N}
    (unused : (gtTable slot).state = .unused)
    (earlier : ∀ other : Fin N, other < slot → (gtTable other).state ≠ .unused) :
    findUnused gtTable = some slot := by
  unfold findUnused
  rw [List.find?_eq_some_iff_getElem]
  refine ⟨by simpa using unused, slot.val, by simp, by simp, fun index below => ?_⟩
  simpa using earlier ⟨index, below.trans slot.isLt⟩ below

theorem findUnused_eq_none {gtTable : Table N}
    (used : ∀ slot : Fin N, (gtTable slot).state ≠ .unused) : findUnused gtTable = none := by
  unfold findUnused
  rw [List.find?_eq_none]
  intro slot _
  simpa using used slot

section Uninterrupted

variable [NeZero N]

/-- Only statements of calls under way. -/
def OnlyStatements (stack : Option ℕ+) (_ : Creation N) (event : CreationEvent) : Prop :=
  ∃ inputs : StatementInputs, inputs.stack = stack ∧ event = .statement inputs

theorem statement_reached (algorithm : Algorithm) {before : Creation N} (call : Creating N)
    (running : before.sched.status = .running) (inputs : StatementInputs) :
    (concurrentCreation algorithm).Reached (OnlyStatements inputs.stack) (before.goto (some call))
      ((before.goto (some call)).createStatement inputs call) := by
  refine .step .start ⟨inputs, rfl, rfl⟩ ?_
  simp only [concurrentCreation, goto_sched, goto_creating]
  exact if_pos running

/-- The search loop ends where `findUnused` does. -/
theorem search_reached (algorithm : Algorithm) {creation : Creation N}
    (running : creation.sched.status = .running) (inputs : StatementInputs) (f : Nat)
    (priority : Int) (p : Nat)
    (earlier : ∀ slot : Fin N, slot.val < p → (creation.sched.gtTable slot).state ≠ .unused) :
    (concurrentCreation algorithm).Reached (OnlyStatements inputs.stack)
      (creation.goto (some ⟨f, priority, .search p⟩))
      (creation.goto ((findUnused creation.sched.gtTable).map fun slot =>
        ⟨f, priority, .alloc slot⟩)) := by
  have oneStep := statement_reached algorithm ⟨f, priority, .search p⟩ running inputs
  simp only [Creation.createStatement, goto_goto, goto_sched] at oneStep
  by_cases inside : p < N
  · rw [dif_pos inside] at oneStep
    by_cases unused : (creation.sched.gtTable ⟨p, inside⟩).state = .unused
    · rw [findUnused_eq_some unused earlier]
      rw [if_pos unused] at oneStep
      exact oneStep
    · rw [if_neg unused] at oneStep
      refine oneStep.trans
        (search_reached algorithm running inputs f priority (p + 1) fun slot below => ?_)
      rcases Nat.lt_succ_iff_lt_or_eq.mp below with before | rfl
      · exact earlier slot before
      · exact unused
  · rw [findUnused_eq_none fun slot => earlier slot (by omega)]
    rw [dif_neg inside] at oneStep
    exact oneStep
termination_by N - p

/-- The statements from the priority on, without an interruption. -/
theorem fill_reached (algorithm : Algorithm) {creation : Creation N}
    (running : creation.sched.status = .running) (stack : Option ℕ+) (clock : Nat → Timeval)
    (f : Nat) (priority : Int) (p : Fin N) :
    ∃ after, (concurrentCreation algorithm).Reached (OnlyStatements stack)
        (creation.goto (some ⟨f, priority, .priority p⟩)) after ∧
      after.creating creation.sched.gtCurrent = none ∧
      after.sched = { creation.sched with
        gtTable := creation.sched.gtTable.modify p fun thread =>
          updateThreadState (clock 2) .ready (initThreadStats (clock 0) (clock 1)
            { thread with
              priority := clampPriority priority
              skipCount := 0
              ticketsLo := creation.sched.totalTickets
              ticketsHi := creation.sched.totalTickets + (minPriority - clampPriority priority) })
        totalTickets :=
          creation.sched.totalTickets + (minPriority - clampPriority priority + 1) } := by
  have extend (inputs : StatementInputs) {start before : Creation N} {next : CreateStatement N}
      (sameStack : inputs.stack = stack)
      (reached : (concurrentCreation algorithm).Reached (OnlyStatements stack) start
        (before.goto (some ⟨f, priority, next⟩)))
      (stillRunning : before.sched.status = .running) :
      (concurrentCreation algorithm).Reached (OnlyStatements stack) start
        (Creation.createStatement inputs ⟨f, priority, next⟩
          (before.goto (some ⟨f, priority, next⟩))) :=
    reached.trans (sameStack ▸ statement_reached algorithm ⟨f, priority, next⟩ stillRunning inputs)
  let inputs : StatementInputs := ⟨clock, 0, 0, stack⟩
  let later : StatementInputs := ⟨fun reading => clock (reading + 2), 0, 0, stack⟩
  have begun : (concurrentCreation algorithm).Reached (OnlyStatements stack)
      (creation.goto (some ⟨f, priority, .priority p⟩))
      (creation.goto (some ⟨f, priority, .priority p⟩)) := .start
  have prioritySet := extend inputs rfl begun running
  simp only [Creation.createStatement, modify_goto, goto_goto] at prioritySet
  have skipSet := extend inputs rfl prioritySet running
  simp only [Creation.createStatement, modify_goto, goto_goto] at skipSet
  have loSet := extend inputs rfl skipSet running
  simp only [Creation.createStatement, modify_goto, goto_goto] at loSet
  have hiSet := extend inputs rfl loSet running
  simp only [Creation.createStatement, modify_goto, goto_goto] at hiSet
  have totalSet := extend inputs rfl hiSet running
  simp only [Creation.createStatement, setTotal_goto, goto_goto] at totalSet
  have statsSet := extend inputs rfl totalSet running
  simp only [Creation.createStatement, modify_goto, goto_goto] at statsSet
  refine ⟨_, extend later rfl statsSet running, Function.update_self .., ?_⟩
  simp only [Creation.createStatement, Creation.modify, Creation.setTotal, Creation.goto,
    Table.modify_modify, Table.modify_self]
  rfl

/-- The statements of a call that is not interrupted do what `gtCreate` does in one
step. -/
theorem gtCreate_uninterrupted (algorithm : Algorithm) {creation : Creation N}
    (running : creation.sched.status = .running) (stack : Option ℕ+) (clock : Nat → Timeval)
    (f : Nat) (priority : Int) :
    ∃ after, (concurrentCreation algorithm).Reached (OnlyStatements stack)
        (creation.goto (some ⟨f, priority, .search 0⟩)) after ∧
      after.creating creation.sched.gtCurrent = none ∧
      after.sched = (gtCreate priority stack clock creation.sched).2 := by
  let inputs : StatementInputs := ⟨clock, 0, 0, stack⟩
  have searched := search_reached algorithm running inputs f priority 0
    fun slot below => absurd below (Nat.not_lt_zero _)
  unfold gtCreate
  cases found : findUnused creation.sched.gtTable with
  | none =>
      rw [found] at searched
      exact ⟨_, searched, goto_creating .., rfl⟩
  | some p =>
      rw [found] at searched
      have allocated :=
        searched.trans (statement_reached algorithm ⟨f, priority, .alloc p⟩ running inputs)
      simp only [Creation.createStatement, goto_goto, inputs] at allocated
      cases stack with
      | none => exact ⟨_, allocated, goto_creating .., rfl⟩
      | some base =>
          have filled := allocated.trans
            (statement_reached algorithm ⟨f, priority, .context p base⟩ running inputs)
          simp only [Creation.createStatement] at filled
          have stillRunning : ((creation.goto (some ⟨f, priority, .context p base⟩)).setContext p
              base f).sched.status = .running := running
          obtain ⟨after, finished, left, sched⟩ :=
            fill_reached algorithm stillRunning (some base) clock f priority p
          refine ⟨after, filled.trans finished, left, ?_⟩
          rw [sched, setContext_sched, goto_sched]
          simp only [Table.modify_modify]

end Uninterrupted

/-! ### What a creation must not lose

Two calls of `gt_create` can choose the same slot, since the slot stays Unused until the last
statement, or read the same `total_tickets`.  The condition on a run forbids the two statements
that would do so, by what the other calls have come to at that moment.
-/

/-- The tickets of one slot end before those of the other begin. -/
def TicketsApart (gtTable : Table N) (first second : Fin N) : Prop :=
  (gtTable first).ticketsHi < (gtTable second).ticketsLo ∨
    (gtTable second).ticketsHi < (gtTable first).ticketsLo

/-- The calls that returned 0 and whose threads live have different slots with
disjoint tickets, and each slot holds what its own call put there. -/
structure NoneLost (creation : Creation N) : Prop where
  apart : creation.created.Pairwise fun later earlier =>
    later.slot ≠ earlier.slot ∧ TicketsApart creation.sched.gtTable later.slot earlier.slot
  kept : ∀ record ∈ creation.created, creation.entry record.slot = some record.f ∧
    (creation.sched.gtTable record.slot).priority = record.priority

namespace CreateStatement

/-- The slot that the call has begun to fill. -/
def fills : CreateStatement N → Option (Fin N)
  | .search _ | .alloc _ | .context _ _ => none
  | .priority p | .skip p | .lo p | .hi p | .total p | .stats p | .state p => some p

/-- Tickets have been read off the counter that does not count them yet. -/
def inWindow : CreateStatement N → Bool
  | .hi _ | .total _ => true
  | _ => false

/-- The slot whose tickets are counted. -/
def settled : CreateStatement N → Option (Fin N)
  | .stats p | .state p => some p
  | _ => none

end CreateStatement

/-- The statement does not get into the way of another call: it does not begin to
fill a slot that another call is filling or has filled for a thread that lives,
and it does not read the ticket counter while another call is about to raise it. -/
def KeepsApart (creation : Creation N) : CreateStatement N → Prop
  | .context p _ =>
      (∀ thread, thread ≠ creation.sched.gtCurrent →
        ∀ other ∈ creation.creating thread, other.next.fills ≠ some p) ∧
      ∀ record ∈ creation.created, record.slot ≠ p
  | .lo _ =>
      ∀ thread, thread ≠ creation.sched.gtCurrent →
        ∀ other ∈ creation.creating thread, other.next.inWindow = false
  | _ => True

instance (creation : Creation N) :
    (statement : CreateStatement N) → Decidable (KeepsApart creation statement)
  | .context _ _ => inferInstanceAs (Decidable (_ ∧ _))
  | .lo _ => inferInstanceAs (Decidable (∀ _ : Fin N, _))
  | .search _ | .alloc _ | .priority _ | .skip _ | .hi _ | .total _ | .stats _ | .state _ =>
      inferInstanceAs (Decidable True)

/-- No statement executed gets into the way of another call. -/
def CreatesApart (creation : Creation N) (event : CreationEvent) : Prop :=
  match event with
  | .statement _ =>
      ∀ call ∈ creation.creating creation.sched.gtCurrent, KeepsApart creation call.next
  | _ => True

instance (creation : Creation N) :
    (event : CreationEvent) → Decidable (CreatesApart creation event)
  | .statement _ => inferInstanceAs (Decidable (∀ call ∈ creation.creating _, _))
  | .call _ _ | .operation _ _ => inferInstanceAs (Decidable True)

/-! ### The invariant

A call in progress is known by its next statement, which says what of its slot is filled.  Its
tickets are counted only once `total_tickets` has been raised; until then the call is alone in
the window between reading the counter and raising it.
-/

/-- How far the call has filled its slot. -/
def Filled (creation : Creation N) (call : Creating N) : Prop :=
  match call.next with
  | .search _ | .alloc _ | .context _ _ => True
  | .priority p => creation.entry p = some call.f
  | .skip p | .lo p | .stats p | .state p =>
      creation.entry p = some call.f ∧
        (creation.sched.gtTable p).priority = clampPriority call.priority
  | .hi p =>
      creation.entry p = some call.f ∧
        (creation.sched.gtTable p).priority = clampPriority call.priority ∧
        (creation.sched.gtTable p).ticketsLo = creation.sched.totalTickets
  | .total p =>
      creation.entry p = some call.f ∧
        (creation.sched.gtTable p).priority = clampPriority call.priority ∧
        (creation.sched.gtTable p).ticketsLo = creation.sched.totalTickets ∧
        (creation.sched.gtTable p).ticketsHi =
          creation.sched.totalTickets + (minPriority - clampPriority call.priority)

/-- The slots whose tickets the counter counts: those of live created threads, and
those of calls past `total_tickets`. -/
def Counted (creation : Creation N) (slot : Fin N) : Prop :=
  (∃ record ∈ creation.created, record.slot = slot) ∨
    ∃ thread, ∃ call ∈ creation.creating thread, call.next.settled = some slot

/-- What concurrent calls keep as long as they stay apart. -/
structure Orderly (creation : Creation N) : Prop where
  alone : ∀ thread, ∀ call ∈ creation.creating thread, ∀ slot, call.next.fills = some slot →
    (∀ other, ∀ rival ∈ creation.creating other, rival.next.fills = some slot → other = thread) ∧
      ∀ record ∈ creation.created, record.slot ≠ slot
  filled : ∀ thread, ∀ call ∈ creation.creating thread, Filled creation call
  window : ∀ thread other, ∀ call ∈ creation.creating thread, ∀ rival ∈ creation.creating other,
    call.next.inWindow → rival.next.inWindow → thread = other
  distinct : creation.created.Pairwise fun later earlier => later.slot ≠ earlier.slot
  kept : ∀ record ∈ creation.created, creation.entry record.slot = some record.f ∧
    (creation.sched.gtTable record.slot).priority = record.priority
  allotted : Allotted (Counted creation) (fun slot => (creation.sched.gtTable slot).ticketsLo)
    (fun slot => (creation.sched.gtTable slot).ticketsHi) creation.sched.totalTickets

theorem settled_fills {statement : CreateStatement N} {slot : Fin N}
    (settled : statement.settled = some slot) : statement.fills = some slot := by
  cases statement with
  | stats | state => exact settled
  | _ => cases settled

theorem inWindow_fills {statement : CreateStatement N} (inWindow : statement.inWindow) :
    ∃ slot, statement.fills = some slot := by
  cases statement with
  | hi slot | total slot => exact ⟨slot, rfl⟩
  | _ => cases inWindow

theorem Filled.of_fills_none {creation : Creation N} {call : Creating N}
    (none : call.next.fills = none) : Filled creation call := by
  obtain ⟨f, priority, next⟩ := call
  cases next with
  | search | alloc | context => trivial
  | _ => cases none

/-- `Filled` is about the slot the call fills, and in the window about the
counter. -/
theorem Filled.congr {before after : Creation N} {call : Creating N}
    (filled : Filled before call)
    (same : ∀ slot, call.next.fills = some slot → after.entry slot = before.entry slot ∧
      (after.sched.gtTable slot).parameters = (before.sched.gtTable slot).parameters)
    (total : call.next.inWindow → after.sched.totalTickets = before.sched.totalTickets) :
    Filled after call := by
  obtain ⟨f, priority, next⟩ := call
  cases next with
  | search | alloc | context => trivial
  | priority slot =>
      obtain ⟨entry, -⟩ := same slot rfl
      exact entry.trans filled
  | skip slot | lo slot | stats slot | state slot =>
      obtain ⟨entry, parameters⟩ := same slot rfl
      obtain ⟨wasEntry, wasPriority⟩ := filled
      exact ⟨entry.trans wasEntry, (congrArg Parameters.priority parameters).trans wasPriority⟩
  | hi slot =>
      obtain ⟨entry, parameters⟩ := same slot rfl
      obtain ⟨wasEntry, wasPriority, wasLo⟩ := filled
      exact ⟨entry.trans wasEntry, (congrArg Parameters.priority parameters).trans wasPriority,
        (congrArg Parameters.ticketsLo parameters).trans (wasLo.trans (total rfl).symm)⟩
  | total slot =>
      obtain ⟨entry, parameters⟩ := same slot rfl
      obtain ⟨wasEntry, wasPriority, wasLo, wasHi⟩ := filled
      refine ⟨entry.trans wasEntry, (congrArg Parameters.priority parameters).trans wasPriority,
        (congrArg Parameters.ticketsLo parameters).trans (wasLo.trans (total rfl).symm),
        (congrArg Parameters.ticketsHi parameters).trans (wasHi.trans ?_)⟩
      rw [total rfl]

theorem Orderly.noneLost {creation : Creation N} (orderly : Orderly creation) :
    NoneLost creation where
  apart := by
    refine orderly.distinct.imp_of_mem fun {later earlier} isLater isEarlier different => ?_
    exact ⟨different, orderly.allotted.apart later.slot earlier.slot different
      (.inl ⟨later, isLater, rfl⟩) (.inl ⟨earlier, isEarlier, rfl⟩)⟩
  kept := orderly.kept

namespace Orderly

/-- The allotment is kept as long as the slot written to is not counted. -/
theorem allotted_keep {before after : Creation N} (orderly : Orderly before)
    (counted : ∀ slot, Counted after slot → Counted before slot)
    (same : ∀ slot, Counted before slot →
      (after.sched.gtTable slot).parameters = (before.sched.gtTable slot).parameters)
    (total : after.sched.totalTickets = before.sched.totalTickets) :
    Allotted (Counted after) (fun slot => (after.sched.gtTable slot).ticketsLo)
      (fun slot => (after.sched.gtTable slot).ticketsHi) after.sched.totalTickets := by
  apply orderly.allotted.keep counted
  · intro slot isCounted
    have parameters := same slot (counted slot isCounted)
    exact ⟨congrArg Parameters.ticketsLo parameters, congrArg Parameters.ticketsHi parameters⟩
  · exact le_of_eq total.symm

/-- A step in which no call goes on filling a slot. -/
theorem quiet {before after : Creation N} (orderly : Orderly before)
    (same : SameParameters before.sched.gtTable after.sched.gtTable)
    (entry : after.entry = before.entry)
    (total : after.sched.totalTickets = before.sched.totalTickets)
    (created : after.created.Sublist before.created)
    (creating : ∀ thread, ∀ call ∈ after.creating thread, ∀ slot, call.next.fills = some slot →
      call ∈ before.creating thread) : Orderly after := by
  have counted (slot : Fin N) (isCounted : Counted after slot) : Counted before slot := by
    rcases isCounted with ⟨record, member, inSlot⟩ | ⟨thread, call, isCall, settled⟩
    · exact .inl ⟨record, created.subset member, inSlot⟩
    · exact .inr ⟨thread, call, creating thread call isCall slot (settled_fills settled), settled⟩
  constructor
  · intro thread call isCall slot fills
    obtain ⟨onlyFiller, noRecord⟩ :=
      orderly.alone thread call (creating thread call isCall slot fills) slot fills
    constructor
    · intro other rival isRival rivalFills
      exact onlyFiller other rival (creating other rival isRival slot rivalFills) rivalFills
    · intro record member
      exact noRecord record (created.subset member)
  · intro thread call isCall
    cases fills : call.next.fills with
    | none => exact Filled.of_fills_none fills
    | some slot =>
        apply (orderly.filled thread call (creating thread call isCall slot fills)).congr
        · intro other _
          exact ⟨congrFun entry other, same other⟩
        · intro _
          exact total
  · intro thread other call isCall rival isRival inWindow rivalInWindow
    obtain ⟨slot, fills⟩ := inWindow_fills inWindow
    obtain ⟨rivalSlot, rivalFills⟩ := inWindow_fills rivalInWindow
    exact orderly.window thread other call (creating thread call isCall slot fills) rival
      (creating other rival isRival rivalSlot rivalFills) inWindow rivalInWindow
  · exact orderly.distinct.sublist created
  · intro record member
    obtain ⟨wasEntry, wasPriority⟩ := orderly.kept record (created.subset member)
    rw [entry]
    exact ⟨wasEntry, (congrArg Parameters.priority (same record.slot)).trans wasPriority⟩
  · exact orderly.allotted_keep counted (fun slot _ => same slot) total

/-- The current thread writes to a slot that no other call fills and no record
names, and its call fills that slot afterwards. -/
theorem fill {before after : Creation N} (orderly : Orderly before) {current slot : Fin N}
    {call : Creating N} (isCall : after.creating current = some call)
    (fills : call.next.fills = some slot)
    (others : ∀ thread, thread ≠ current → ∀ other ∈ after.creating thread,
      other ∈ before.creating thread)
    (notFilled : ∀ thread, thread ≠ current → ∀ other ∈ before.creating thread,
      other.next.fills ≠ some slot)
    (noRecord : ∀ record ∈ before.created, record.slot ≠ slot)
    (created : after.created = before.created)
    (elsewhere : ∀ other, other ≠ slot → after.entry other = before.entry other ∧
      (after.sched.gtTable other).parameters = (before.sched.gtTable other).parameters)
    (filled : Filled after call)
    (window : call.next.inWindow → ∀ thread, thread ≠ current →
      ∀ other ∈ before.creating thread, other.next.inWindow = false)
    (total : ∀ thread, thread ≠ current → ∀ other ∈ before.creating thread,
      other.next.inWindow → after.sched.totalTickets = before.sched.totalTickets)
    (allotted : Allotted (Counted after) (fun slot => (after.sched.gtTable slot).ticketsLo)
      (fun slot => (after.sched.gtTable slot).ticketsHi) after.sched.totalTickets) :
    Orderly after := by
  -- A call found after the step is the one that moved or one of the others.
  have split (thread : Fin N) (found : Creating N) (member : found ∈ after.creating thread) :
      (thread = current ∧ found = call) ∨ (thread ≠ current ∧ found ∈ before.creating thread) := by
    by_cases isCurrent : thread = current
    · subst isCurrent
      exact .inl ⟨rfl, Option.mem_unique member isCall⟩
    · exact .inr ⟨isCurrent, others thread isCurrent found member⟩
  constructor
  · intro thread found member other foundFills
    rw [created]
    rcases split thread found member with ⟨rfl, rfl⟩ | ⟨notCurrent, wasFound⟩
    · obtain rfl : slot = other := Option.some.inj (fills.symm.trans foundFills)
      refine ⟨fun rivalThread rival isRival rivalFills => ?_, noRecord⟩
      by_contra different
      exact notFilled rivalThread different rival (others rivalThread different rival isRival)
        rivalFills
    · obtain ⟨onlyFiller, foundNoRecord⟩ := orderly.alone thread found wasFound other foundFills
      refine ⟨fun rivalThread rival isRival rivalFills => ?_, foundNoRecord⟩
      rcases split rivalThread rival isRival with ⟨rfl, rfl⟩ | ⟨_, wasRival⟩
      · obtain rfl : slot = other := Option.some.inj (fills.symm.trans rivalFills)
        exact absurd foundFills (notFilled thread notCurrent found wasFound)
      · exact onlyFiller rivalThread rival wasRival rivalFills
  · intro thread found member
    rcases split thread found member with ⟨rfl, rfl⟩ | ⟨notCurrent, wasFound⟩
    · exact filled
    · apply (orderly.filled thread found wasFound).congr
      · intro other foundFills
        refine elsewhere other fun isSlot => ?_
        exact notFilled thread notCurrent found wasFound (isSlot ▸ foundFills)
      · intro inWindow
        exact total thread notCurrent found wasFound inWindow
  · intro thread other found member rival isRival inWindow rivalInWindow
    rcases split thread found member with ⟨rfl, rfl⟩ | ⟨notCurrent, wasFound⟩
    · rcases split other rival isRival with ⟨rfl, -⟩ | ⟨otherNotCurrent, wasRival⟩
      · rfl
      · rw [window inWindow other otherNotCurrent rival wasRival] at rivalInWindow
        cases rivalInWindow
    · rcases split other rival isRival with ⟨rfl, rfl⟩ | ⟨_, wasRival⟩
      · rw [window rivalInWindow thread notCurrent found wasFound] at inWindow
        cases inWindow
      · exact orderly.window thread other found wasFound rival wasRival inWindow rivalInWindow
  · rw [created]
    exact orderly.distinct
  · rw [created]
    intro record member
    obtain ⟨wasEntry, wasPriority⟩ := orderly.kept record member
    obtain ⟨entry, parameters⟩ := elsewhere record.slot (noRecord record member)
    exact ⟨entry.trans wasEntry, (congrArg Parameters.priority parameters).trans wasPriority⟩
  · exact allotted

end Orderly

theorem mem_goto {creation : Creation N} {value : Option (Creating N)} {thread : Fin N}
    {call : Creating N} (member : call ∈ (creation.goto value).creating thread) :
    (thread = creation.sched.gtCurrent ∧ call ∈ value) ∨
      (thread ≠ creation.sched.gtCurrent ∧ call ∈ creation.creating thread) := by
  unfold Creation.goto at member
  by_cases isCurrent : thread = creation.sched.gtCurrent
  · subst isCurrent
    exact .inl ⟨rfl, by simpa using member⟩
  · exact .inr ⟨isCurrent, by simpa [isCurrent] using member⟩

theorem Counted.of_goto {creation : Creation N} {value : Option (Creating N)} {slot : Fin N}
    (counted : Counted (creation.goto value) slot) :
    Counted creation slot ∨ ∃ call ∈ value, call.next.settled = some slot := by
  rcases counted with record | ⟨thread, call, member, settled⟩
  · exact .inl (.inl record)
  · rcases mem_goto member with ⟨-, isValue⟩ | ⟨-, old⟩
    · exact .inr ⟨call, isValue, settled⟩
    · exact .inl (.inr ⟨thread, call, old, settled⟩)

theorem SameParameters.of_modify {gtTable : Table N} {slot : Fin N} {update : Gt → Gt}
    (other : Fin N)
    (different : other ≠ slot) :
    (gtTable.modify slot update other).parameters = (gtTable other).parameters :=
  congrArg Gt.parameters (Table.modify_of_ne _ different _)

theorem parameters_setCtx (thread : Gt) (ctx : GtContext) :
    { thread with ctx := ctx }.parameters = thread.parameters := rfl

section SetContext

variable (creation : Creation N) (p : Fin N) (base f : Nat)

theorem setContext_gtCurrent :
    (creation.setContext p base f).sched.gtCurrent = creation.sched.gtCurrent := rfl

theorem setContext_entry : (creation.setContext p base f).entry p = some f :=
  Function.update_self ..

theorem setContext_parameters :
    SameParameters creation.sched.gtTable (creation.setContext p base f).sched.gtTable :=
  .modify (parameters_setCtx ..)

end SetContext

namespace Orderly

variable {before : Creation N} {call : Creating N} {slot : Fin N}

/-- The slot a call fills belongs to it alone. -/
theorem alone_filling (orderly : Orderly before)
    (isCall : call ∈ before.creating before.sched.gtCurrent) (fills : call.next.fills = some slot) :
    (∀ thread, thread ≠ before.sched.gtCurrent → ∀ other ∈ before.creating thread,
      other.next.fills ≠ some slot) ∧ ∀ record ∈ before.created, record.slot ≠ slot := by
  obtain ⟨onlyFiller, noRecord⟩ := orderly.alone _ call isCall slot fills
  exact ⟨fun thread notCurrent other member otherFills =>
    notCurrent (onlyFiller thread other member otherFills), noRecord⟩

/-- It is not counted before the counter is raised for it. -/
theorem not_counted (orderly : Orderly before)
    (isCall : call ∈ before.creating before.sched.gtCurrent) (fills : call.next.fills = some slot)
    (notSettled : call.next.settled = none) : ¬ Counted before slot := by
  obtain ⟨onlyFiller, noRecord⟩ := orderly.alone _ call isCall slot fills
  rintro (⟨record, member, inSlot⟩ | ⟨thread, other, member, settled⟩)
  · exact noRecord record member inSlot
  · obtain rfl := onlyFiller thread other member (settled_fills settled)
    rw [Option.mem_unique member isCall, notSettled] at settled
    cases settled

/-- A call writes to its slot, whose tickets are not counted yet. -/
theorem write (orderly : Orderly before)
    (isCall : call ∈ before.creating before.sched.gtCurrent) (fills : call.next.fills = some slot)
    (notSettled : call.next.settled = none) {next : CreateStatement N}
    (nextFills : next.fills = some slot) (nextNotSettled : next.settled = none)
    {update : Gt → Gt} (filled : Filled (before.modify slot update) { call with next := next })
    (window : next.inWindow → ∀ thread, thread ≠ before.sched.gtCurrent →
      ∀ other ∈ before.creating thread, other.next.inWindow = false) :
    Orderly ((before.modify slot update).goto (some { call with next := next })) := by
  obtain ⟨notFilled, noRecord⟩ := orderly.alone_filling isCall fills
  have elsewhere (other : Fin N) (different : other ≠ slot) :
      ((before.modify slot update).sched.gtTable other).parameters =
        (before.sched.gtTable other).parameters := SameParameters.of_modify other different
  have moved : ((before.modify slot update).goto (some { call with next := next })).creating
      before.sched.gtCurrent = some { call with next := next } :=
    goto_creating (before.modify slot update) _
  refine orderly.fill moved nextFills ?_ notFilled noRecord rfl ?_ filled window ?_ ?_
  · intro thread notCurrent other member
    exact (mem_goto member).elim (fun new => absurd new.1 notCurrent) And.right
  · intro other different
    exact ⟨rfl, elsewhere other different⟩
  · intro _ _ _ _ _
    rfl
  · refine orderly.allotted_keep (fun other counted => ?_) (fun other counted => ?_) rfl
    · rcases counted.of_goto with old | ⟨new, isNew, settled⟩
      · exact old
      · cases isNew
        cases nextNotSettled.symm.trans settled
    · refine elsewhere other fun isSlot => ?_
      exact orderly.not_counted isCall fills notSettled (isSlot ▸ counted)

/-- The call begins to fill a slot, at the stack pointer. -/
theorem context (orderly : Orderly before)
    {base : Nat} (notFilled : ∀ thread, thread ≠ before.sched.gtCurrent →
      ∀ other ∈ before.creating thread, other.next.fills ≠ some slot)
    (noRecord : ∀ record ∈ before.created, record.slot ≠ slot) :
    Orderly ((before.setContext slot base call.f).goto
      (some { call with next := .priority slot })) := by
  have sameParameters := setContext_parameters before slot base call.f
  -- The context of the slot is gone, and with it a call it was in.
  have others {thread : Fin N} {other : Creating N}
      (member : other ∈ (before.setContext slot base call.f).creating thread) :
      other ∈ before.creating thread := by
    by_cases isSlot : thread = slot
    · subst isSlot
      simp [Creation.setContext] at member
    · simpa [Creation.setContext, isSlot] using member
  have moved : ((before.setContext slot base call.f).goto
      (some { call with next := .priority slot })).creating before.sched.gtCurrent =
        some { call with next := .priority slot } := by
    rw [← setContext_gtCurrent before slot base call.f, goto_creating]
  refine orderly.fill moved rfl ?_ notFilled noRecord rfl ?_ ?_ ?_ ?_ ?_
  · intro thread notCurrent other member
    exact (mem_goto member).elim (fun new => absurd new.1 notCurrent) fun old => others old.2
  · intro other different
    exact ⟨Function.update_of_ne different .., sameParameters other⟩
  · unfold Filled
    exact setContext_entry before slot base call.f
  · intro inWindow
    cases inWindow
  · intro _ _ _ _ _
    rfl
  · refine orderly.allotted_keep (fun other counted => ?_) (fun other _ => sameParameters other) rfl
    rcases counted.of_goto with (record | ⟨thread, rival, member, settled⟩) | ⟨new, isNew, settled⟩
    · exact .inl record
    · exact .inr ⟨thread, rival, others member, settled⟩
    · cases isNew
      cases settled

/-- The counter is raised over the tickets of the slot. -/
theorem count (orderly : Orderly before)
    (isCall : call ∈ before.creating before.sched.gtCurrent) (atTotal : call.next = .total slot) :
    Orderly ((before.setTotal (before.sched.totalTickets +
      (minPriority - (before.sched.gtTable slot).priority + 1))).goto
        (some { call with next := .stats slot })) := by
  have fills : call.next.fills = some slot := by
    rw [atTotal]
    rfl
  obtain ⟨notFilled, noRecord⟩ := orderly.alone_filling isCall fills
  obtain ⟨entry, priority, lo, hi⟩ : Filled before { call with next := .total slot } := by
    rw [← atTotal]
    exact orderly.filled _ call isCall
  obtain ⟨-, atMost⟩ := clampPriority_range call.priority
  -- No other call is in the window, so none has read the counter as it was.
  have alone (thread : Fin N) (notCurrent : thread ≠ before.sched.gtCurrent) (other : Creating N)
      (member : other ∈ before.creating thread) : ¬ other.next.inWindow := fun inWindow =>
    notCurrent (orderly.window thread _ other member call isCall inWindow (by rw [atTotal]; rfl))
  refine orderly.fill (goto_creating (before.setTotal _) _) rfl ?_ notFilled noRecord rfl ?_ ?_ ?_
    ?_ ?_
  · intro thread notCurrent other member
    exact (mem_goto member).elim (fun new => absurd new.1 notCurrent) And.right
  · intro other _
    exact ⟨rfl, rfl⟩
  · exact ⟨entry, priority⟩
  · intro inWindow
    cases inWindow
  · intro thread notCurrent other member inWindow
    exact absurd inWindow (alone thread notCurrent other member)
  · apply orderly.allotted.grant
    · intro other different counted
      refine ⟨?_, rfl, rfl⟩
      rcases counted.of_goto with old | ⟨new, isNew, settled⟩
      · exact old
      · cases isNew
        exact absurd (Option.some.inj settled).symm different
    · exact le_of_eq lo.symm
    · change (before.sched.gtTable slot).ticketsLo ≤ (before.sched.gtTable slot).ticketsHi
      rw [lo, hi]
      dsimp only
      omega
    · change (before.sched.gtTable slot).ticketsHi < before.sched.totalTickets +
        (minPriority - (before.sched.gtTable slot).priority + 1)
      rw [hi, priority]
      omega

/-- The statistics are set up. -/
theorem stats (orderly : Orderly before)
    (isCall : call ∈ before.creating before.sched.gtCurrent) (atStats : call.next = .stats slot)
    (created changed : Timeval) :
    Orderly ((before.modify slot (initThreadStats created changed)).goto
      (some { call with next := .state slot })) := by
  have fills : call.next.fills = some slot := by
    rw [atStats]
    rfl
  obtain ⟨notFilled, noRecord⟩ := orderly.alone_filling isCall fills
  obtain ⟨entry, priority⟩ : Filled before { call with next := .stats slot } := by
    rw [← atStats]
    exact orderly.filled _ call isCall
  have same : SameParameters before.sched.gtTable
      (before.modify slot (initThreadStats created changed)).sched.gtTable := .modify rfl
  refine orderly.fill
    (goto_creating (before.modify slot (initThreadStats created changed)) _) rfl ?_ notFilled
    noRecord rfl ?_ ?_ ?_ ?_ ?_
  · intro thread notCurrent other member
    exact (mem_goto member).elim (fun new => absurd new.1 notCurrent) And.right
  · intro other _
    exact ⟨rfl, same other⟩
  · exact ⟨entry, (congrArg Parameters.priority (same slot)).trans priority⟩
  · intro inWindow
    cases inWindow
  · intro _ _ _ _ _
    rfl
  · refine orderly.allotted_keep (fun other counted => ?_) (fun other _ => same other) rfl
    rcases counted.of_goto with old | ⟨new, isNew, settled⟩
    · exact old
    · cases isNew
      obtain rfl := Option.some.inj settled
      exact .inr ⟨_, call, isCall, by rw [atStats]; rfl⟩

/-- The slot is Ready and the call returns 0. -/
theorem finish (orderly : Orderly before)
    (isCall : call ∈ before.creating before.sched.gtCurrent) (atState : call.next = .state slot)
    (now : Timeval) :
    Orderly { (before.modify slot (updateThreadState now .ready)).goto none with
      created := ⟨slot, call.f, clampPriority call.priority⟩ :: before.created } := by
  have fills : call.next.fills = some slot := by
    rw [atState]
    rfl
  obtain ⟨notFilled, noRecord⟩ := orderly.alone_filling isCall fills
  obtain ⟨entry, priority⟩ : Filled before { call with next := .state slot } := by
    rw [← atState]
    exact orderly.filled _ call isCall
  have same : SameParameters before.sched.gtTable
      (before.modify slot (updateThreadState now .ready)).sched.gtTable :=
    .modify (parameters_updateThreadState ..)
  have old {thread : Fin N} {other : Creating N}
      (member : other ∈ ((before.modify slot (updateThreadState now .ready)).goto none).creating
        thread) : thread ≠ before.sched.gtCurrent ∧ other ∈ before.creating thread :=
    (mem_goto member).elim (fun new => by cases new.2) id
  constructor
  · intro thread other member otherSlot otherFills
    obtain ⟨notCurrent, wasOther⟩ := old member
    obtain ⟨onlyFiller, otherNoRecord⟩ := orderly.alone thread other wasOther otherSlot otherFills
    refine ⟨fun rivalThread rival isRival rivalFills =>
      onlyFiller rivalThread rival (old isRival).2 rivalFills, ?_⟩
    refine List.forall_mem_cons.mpr ⟨fun isSlot : slot = otherSlot => ?_, otherNoRecord⟩
    exact notFilled thread notCurrent other wasOther (isSlot ▸ otherFills)
  · intro thread other member
    apply (orderly.filled thread other (old member).2).congr
    · intro otherSlot _
      exact ⟨rfl, same otherSlot⟩
    · intro _
      rfl
  · intro thread rivalThread other member rival isRival
    exact orderly.window thread rivalThread other (old member).2 rival (old isRival).2
  · exact List.pairwise_cons.mpr ⟨fun record member => (noRecord record member).symm,
      orderly.distinct⟩
  · refine List.forall_mem_cons.mpr ⟨?_, fun record member => ?_⟩
    · exact ⟨entry, (congrArg Parameters.priority (same slot)).trans priority⟩
    · obtain ⟨wasEntry, wasPriority⟩ := orderly.kept record member
      exact ⟨wasEntry, (congrArg Parameters.priority (same record.slot)).trans wasPriority⟩
  · refine orderly.allotted_keep (fun other counted => ?_) (fun other _ => same other) rfl
    rcases counted with ⟨record, member, inSlot⟩ | ⟨thread, rival, member, settled⟩
    · rcases List.mem_cons.mp member with rfl | wasRecord
      · exact .inr ⟨_, call, isCall, by rw [atState]; exact congrArg some inSlot⟩
      · exact .inl ⟨record, wasRecord, inSlot⟩
    · exact .inr ⟨thread, rival, (old member).2, settled⟩

/-- The current thread goes on without filling a slot. -/
theorem goto_unfilled (orderly : Orderly before) {value : Option (Creating N)}
    (unfilled : ∀ call ∈ value, call.next.fills = none) : Orderly (before.goto value) := by
  refine orderly.quiet (fun _ => rfl) rfl rfl (.refl _) ?_
  intro thread call member slot fills
  rcases mem_goto member with ⟨-, isValue⟩ | ⟨-, old⟩
  · cases fills.symm.trans (unfilled call isValue)
  · exact old

/-- Every statement of `gt_create`, one case each. -/
theorem createStatement (orderly : Orderly before) {inputs : StatementInputs}
    (isCall : before.creating before.sched.gtCurrent = some call)
    (apart : CreatesApart before (.statement inputs)) :
    Orderly (before.createStatement inputs call) := by
  have apart := apart call isCall
  have filled := orderly.filled _ call isCall
  obtain ⟨f, priority, next⟩ := call
  cases next with
  | search p =>
      simp only [Creation.createStatement]
      split
      · split
        · exact orderly.goto_unfilled (by simp [CreateStatement.fills])
        · exact orderly.goto_unfilled (by simp [CreateStatement.fills])
      · exact orderly.goto_unfilled (by simp)
  | alloc p =>
      simp only [Creation.createStatement]
      split
      · exact orderly.goto_unfilled (by simp)
      · exact orderly.goto_unfilled (by simp [CreateStatement.fills])
  | context p base => exact orderly.context apart.1 apart.2
  | priority p =>
      refine orderly.write isCall rfl rfl rfl rfl ⟨filled, ?_⟩ (fun inWindow => by cases inWindow)
      simp [Creation.modify]
  | skip p =>
      refine orderly.write isCall rfl rfl rfl rfl ⟨filled.1, ?_⟩ (fun inWindow => by cases inWindow)
      simpa [Creation.modify] using filled.2
  | lo p =>
      refine orderly.write isCall rfl rfl rfl rfl ⟨filled.1, ?_, ?_⟩ (fun _ => apart)
      · simpa [Creation.modify] using filled.2
      · simp [Creation.modify]
  | hi p =>
      obtain ⟨entry, hasPriority, hasLo⟩ := filled
      refine orderly.write isCall rfl rfl rfl rfl ⟨entry, ?_, ?_, ?_⟩ fun _ thread notCurrent other
        member => ?_
      · simpa [Creation.modify] using hasPriority
      · simpa [Creation.modify] using hasLo
      · simp [Creation.modify, hasPriority]
      · -- This call is in the window already.
        refine Bool.eq_false_iff.mpr fun inWindow => notCurrent ?_
        exact orderly.window thread _ other member _ isCall inWindow rfl
  | total p => exact orderly.count isCall rfl
  | stats p => exact orderly.stats isCall rfl (inputs.clock 0) (inputs.clock 1)
  | state p => exact orderly.finish isCall rfl (inputs.clock 0)

end Orderly

theorem stillAlive_sublist (operation : Operation) (gtCurrent initial : Fin N)
    (created : List (Created N)) :
    (stillAlive operation gtCurrent initial created).Sublist created := by
  unfold stillAlive
  split
  · exact List.filter_sublist
  · exact .refl _

variable [NeZero N]

theorem Orderly.boot (clock : Nat → Timeval) : Orderly (creationBoot clock : Creation N) := by
  have noCall {thread : Fin N} {call : Creating N}
      (member : call ∈ (creationBoot clock : Creation N).creating thread) : False := by
    cases member
  have noneCounted (slot : Fin N) (counted : Counted (creationBoot clock : Creation N) slot) :
      False := by
    rcases counted with ⟨record, member, -⟩ | ⟨thread, call, member, -⟩
    · cases member
    · exact noCall member
  constructor
  · intro thread call member
    exact (noCall member).elim
  · intro thread call member
    exact (noCall member).elim
  · intro thread other call member
    exact (noCall member).elim
  · exact .nil
  · intro record member
    cases member
  · constructor
    · intro slot counted
      exact (noneCounted slot counted).elim
    · intro slot counted
      exact (noneCounted slot counted).elim
    · intro first second _ counted
      exact (noneCounted first counted).elim

/-- A step of the machine is a call, a statement of the call the current thread is
in, or another operation. -/
theorem concurrentCreation_step {algorithm : Algorithm} {before after : Creation N}
    {event : CreationEvent}
    (stepped : (concurrentCreation algorithm).step before event = some after) :
    (∃ f priority, after = before.goto (some ⟨f, priority, .search 0⟩)) ∨
    (∃ inputs call, event = .statement inputs ∧
      before.creating before.sched.gtCurrent = some call ∧
      after = before.createStatement inputs call) ∨
    ∃ operation inputs sched, operation.isCreate = false ∧
      (scheduler algorithm).step before.sched (operation, inputs) = some sched ∧
      after = { before with
        sched := sched
        created := stillAlive operation before.sched.gtCurrent 0 before.created } := by
  simp only [concurrentCreation] at stepped
  split at stepped
  · split at stepped
    · cases stepped
      exact .inl ⟨_, _, rfl⟩
    · cases stepped
  · rename_i inputs call isCall
    split at stepped
    · cases stepped
      exact .inr (.inl ⟨inputs, call, rfl, isCall, rfl⟩)
    · cases stepped
  · rename_i operation inputs
    split at stepped
    · rename_i enabled
      obtain ⟨sched, ran, rfl⟩ := Option.map_eq_some_iff.mp stepped
      refine .inr (.inr ⟨operation, inputs, sched, ?_, ran, rfl⟩)
      rcases enabled with rfl | ⟨-, notCreate⟩
      · rfl
      · exact notCreate
    · cases stepped
  · cases stepped

theorem Orderly.step {algorithm : Algorithm} {before after : Creation N} {event : CreationEvent}
    (orderly : Orderly before) (apart : CreatesApart before event)
    (stepped : (concurrentCreation algorithm).step before event = some after) : Orderly after := by
  rcases concurrentCreation_step stepped with
    ⟨f, priority, rfl⟩ | ⟨inputs, call, rfl, isCall, rfl⟩ |
      ⟨operation, inputs, sched, notCreate, ran, rfl⟩
  · exact orderly.goto_unfilled (by simp [CreateStatement.fills])
  · exact orderly.createStatement isCall apart
  · obtain ⟨performed, -, -⟩ := scheduler_step ran
    obtain ⟨same, total⟩ := performed.parameters fun priority stack isCreate => by
      cases isCreate
      cases notCreate
    exact orderly.quiet same rfl total (stillAlive_sublist ..) fun _ _ member _ _ => member

/-- In every run in which concurrent calls of `gt_create` keep apart, no created
thread is lost. -/
theorem creates_apart_loses_none (algorithm : Algorithm) (clock : Nat → Timeval)
    (creation : Creation N)
    (reached : (concurrentCreation algorithm).Reached CreatesApart (creationBoot clock) creation) :
    NoneLost creation := by
  have orderly : Orderly creation :=
    reached.invariant (Orderly.boot clock) fun before event after orderly apart stepped =>
      orderly.step apart stepped
  exact orderly.noneLost

/-- Statements at a clock that stands still; the next stack block lies at `base`. -/
def createEvents (count : Nat) (base : ℕ+) : List CreationEvent :=
  List.replicate count
    (.statement { clock := fun _ => initTimeval, draw := 0, rsp := 0, stack := some base })

/-- An alarm. -/
def alarmEvent : CreationEvent := .operation .schedule (stoppedClock 0)

/-- The initial thread is interrupted in its search, a thread it created creates
another, and the search goes on behind it. -/
theorem creates_apart_loses_none_interrupted : ∃ creation : Creation maxGThreads,
    creation.created = [⟨3, 8, 0⟩, ⟨2, 9, 10⟩, ⟨1, 7, 3⟩] ∧ NoneLost creation := by
  obtain ⟨creation, reached, created⟩ := PartialMachine.exists_reached_of_any
    (concurrentCreation .roundRobin) CreatesApart (creationBoot fun _ => initTimeval)
    (.call 7 3 :: createEvents 11 0x1000 ++ .call 8 (-1) :: createEvents 1 0x500000 ++
      [alarmEvent] ++ .call 9 12 :: createEvents 12 0x900000 ++ [alarmEvent, alarmEvent] ++
      createEvents 12 0x500000)
    (fun creation : Creation maxGThreads =>
      creation.created = [⟨3, 8, 0⟩, ⟨2, 9, 10⟩, ⟨1, 7, 3⟩])
    (by decide)
  exact ⟨creation, created, creates_apart_loses_none .roundRobin _ creation reached⟩

/-- The initial thread is interrupted between finding a slot and filling it; a
thread it created takes the same slot. -/
theorem exists_lost_thread : ∃ creation : Creation maxGThreads,
    (concurrentCreation .roundRobin).Reached PartialMachine.anyStep
      (creationBoot fun _ => initTimeval) creation ∧
    creation.created = [⟨2, 8, 0⟩, ⟨2, 9, 10⟩, ⟨1, 7, 3⟩] :=
  PartialMachine.exists_reached_of_any
    (concurrentCreation .roundRobin) PartialMachine.anyStep (creationBoot fun _ => initTimeval)
    (.call 7 3 :: createEvents 11 0x1000 ++ .call 8 (-1) :: createEvents 3 0x500000 ++
      [alarmEvent] ++ .call 9 12 :: createEvents 12 0x900000 ++ [alarmEvent, alarmEvent] ++
      createEvents 9 0x500000)
    (fun creation : Creation maxGThreads =>
      creation.created = [⟨2, 8, 0⟩, ⟨2, 9, 10⟩, ⟨1, 7, 3⟩])
    (by decide)

theorem concurrent_creation_loses_thread :
    ¬ ∀ (algorithm : Algorithm) (clock : Nat → Timeval) (creation : Creation maxGThreads),
      (concurrentCreation algorithm).Reached PartialMachine.anyStep (creationBoot clock) creation →
        NoneLost creation := by
  intro claimed
  obtain ⟨creation, reached, created⟩ := exists_lost_thread
  have none := claimed .roundRobin _ creation reached
  have apart := none.apart
  rw [created] at apart
  obtain ⟨different, -⟩ := (List.pairwise_cons.mp apart).1 ⟨2, 9, 10⟩ (by simp)
  exact different rfl

end Ivos.Scheduler
