/-
Module: Ivos.Scheduler.TimeAccounting
Purpose: The running and waiting times of a slot against the timeline of its states,
  from its initialisation to its `gt_return`.
Trusted boundary: none
Main exports: timevalAdd_microseconds, timevalSubtract_microseconds, Accounting,
  stateCalls, Performed.accounting, Life, lifeMachine, time_accounting
-/
import Ivos.Library.Timeline
import Ivos.Scheduler.Tickets
import Mathlib.Tactic.Ring

namespace Ivos.Scheduler

variable {N : Nat}

/-! ### Arithmetic on `struct timeval`

Subtraction borrows and addition carries at most one second.  On readings whose microseconds
are in range that is enough, and the two are subtraction and addition of microseconds.
-/

/-- `tv_usec` is in range, as `gettimeofday` leaves it. -/
def Timeval.Normalized (tv : Timeval) : Prop := 0 ≤ tv.tvUsec ∧ tv.tvUsec < 1000000

instance (tv : Timeval) : Decidable tv.Normalized := inferInstanceAs (Decidable (_ ∧ _))

/-- The borrow is exact, for any two readings. -/
theorem timevalSubtract_microseconds (x y : Timeval) :
    timevalToMicroseconds (timevalSubtract x y) =
      timevalToMicroseconds x - timevalToMicroseconds y := by
  unfold timevalSubtract timevalToMicroseconds
  dsimp only
  split
  · push_cast
    ring
  · push_cast
    ring

/-- The carry is exact, for any two times. -/
theorem timevalAdd_microseconds (x y : Timeval) :
    timevalToMicroseconds (timevalAdd x y) =
      timevalToMicroseconds x + timevalToMicroseconds y := by
  unfold timevalAdd timevalToMicroseconds
  dsimp only
  split
  · push_cast
    ring
  · push_cast
    ring

/-- One borrow is enough. -/
theorem timevalSubtract_normalized {x y : Timeval} (first : x.Normalized)
    (second : y.Normalized) : (timevalSubtract x y).Normalized := by
  unfold timevalSubtract Timeval.Normalized at *
  dsimp only
  split
  · dsimp only
    omega
  · dsimp only
    omega

/-- One carry is enough. -/
theorem timevalAdd_normalized {x y : Timeval} (first : x.Normalized) (second : y.Normalized) :
    (timevalAdd x y).Normalized := by
  unfold timevalAdd Timeval.Normalized at *
  dsimp only
  split
  · dsimp only
    omega
  · dsimp only
    omega

/-! ### The fields of the accounting -/

/-- The fields that `update_thread_state` accounts the time of a slot with. -/
structure Accounting where
  state : EState
  totalRunning : Timeval
  totalWaiting : Timeval
  lastStateChange : Timeval
deriving Repr, DecidableEq

def Gt.accounting (thread : Gt) : Accounting :=
  ⟨thread.state, thread.totalRunning, thread.totalWaiting, thread.lastStateChange⟩

/-- `total_running` is charged in this state. -/
def isRunning (state : EState) : Bool := state = .running

/-- `total_waiting` is charged in this state. -/
def isWaiting (state : EState) : Bool := state = .ready ∨ state = .blocked

/-- What `update_thread_state` makes of the accounting. -/
def Accounting.update (accounting : Accounting) (now : Timeval) (newState : EState) :
    Accounting :=
  if accounting.state = newState then accounting
  else
    let elapsed := timevalSubtract now accounting.lastStateChange
    { state := newState
      totalRunning :=
        if isRunning accounting.state then timevalAdd accounting.totalRunning elapsed
        else accounting.totalRunning
      totalWaiting :=
        if isWaiting accounting.state then timevalAdd accounting.totalWaiting elapsed
        else accounting.totalWaiting
      lastStateChange := now }

/-- The slices and their averages have no part in it. -/
@[simp] theorem accounting_updateThreadState (now : Timeval) (newState : EState) (thread : Gt) :
    (updateThreadState now newState thread).accounting =
      thread.accounting.update now newState := by
  unfold updateThreadState Accounting.update
  by_cases same : thread.state = newState
  · rw [if_pos same, if_pos (show thread.accounting.state = newState from same)]
  · rw [if_neg same, if_neg (show ¬ thread.accounting.state = newState from same)]
    unfold enterState chargeInterval Gt.accounting isRunning isWaiting
    cases thread.state <;> rfl

/-! ### The calls an operation makes -/

/-- A call `update_thread_state(slot, newState)` and its clock reading. -/
structure StateCall (N : Nat) where
  slot : Fin N
  newState : EState
  now : Timeval
deriving Repr, DecidableEq

/-- The calls on one slot. -/
def callsOn (slot : Fin N) (calls : List (StateCall N)) : List (StateCall N) :=
  calls.filter fun call => call.slot = slot

def Accounting.updates (accounting : Accounting) (calls : List (StateCall N)) : Accounting :=
  calls.foldl (fun accounting call => accounting.update call.now call.newState) accounting

/-- The calls of `gt_schedule`. -/
def scheduleCalls (algorithm : Algorithm) (inputs : Inputs) (sched : Sched N) :
    List (StateCall N) :=
  match getNextThread algorithm sched.gtTable sched.gtCurrent sched.totalTickets inputs.draw
      inputs.fuel sched.gtCurrent with
  | none => []
  | some choice =>
      (if leavesRunning (choice.gtTable sched.gtCurrent) then
        [⟨sched.gtCurrent, .ready, inputs.clock 0⟩] else []) ++
      [⟨choice.thread, .running, inputs.clock 1⟩]

variable [NeZero N]

/-- The calls of an operation on slots initialised before it. -/
def stateCalls (algorithm : Algorithm) (inputs : Inputs) (sched : Sched N) :
    Operation → List (StateCall N)
  | .gtCreate .. | .semInit .. => []
  | .schedule => scheduleCalls algorithm inputs sched
  | .gtReturn =>
      scheduleCalls algorithm inputs (if sched.gtCurrent ≠ 0 then retire sched else sched)
  | .semWait sem =>
      match sched.semaphores[sem]? with
      | some semaphore =>
          if semaphore.value > 0 then [] else [⟨sched.gtCurrent, .blocked, inputs.clock 0⟩]
      | none => []
  | .semPost sem =>
      match sched.semaphores[sem]? with
      | some semaphore =>
          match semaphore.queue with
          | thread :: _ => [⟨thread, .ready, inputs.clock 0⟩]
          | [] => []
      | none => []

omit [NeZero N] in
theorem Accounting.updates_append (accounting : Accounting) (slot : Fin N)
    (first second : List (StateCall N)) :
    accounting.updates (callsOn slot (first ++ second)) =
      (accounting.updates (callsOn slot first)).updates (callsOn slot second) := by
  unfold callsOn Accounting.updates
  rw [List.filter_append, List.foldl_append]

omit [NeZero N] in
/-- Changing one slot's state is a call on that slot. -/
theorem accounting_modify (gtTable : Table N) (changed : Fin N) (newState : EState)
    (now : Timeval) (slot : Fin N) :
    (gtTable.modify changed (updateThreadState now newState) slot).accounting =
      (gtTable slot).accounting.updates (callsOn slot [⟨changed, newState, now⟩]) := by
  by_cases same : changed = slot
  · subst same
    simp [callsOn, Accounting.updates]
  · rw [Table.modify_of_ne _ (Ne.symm same)]
    simp [callsOn, Accounting.updates, same]

omit [NeZero N] in
/-- `gt_schedule` changes the accounting by its calls only. -/
theorem switchTo_accounting {algorithm : Algorithm} {inputs : Inputs} {sched : Sched N}
    {choice : Choice N}
    (chosen : getNextThread algorithm sched.gtTable sched.gtCurrent sched.totalTickets
      inputs.draw inputs.fuel sched.gtCurrent = some choice) (slot : Fin N) :
    ((switchTo inputs choice sched).gtTable slot).accounting =
      (sched.gtTable slot).accounting.updates
        (callsOn slot (scheduleCalls algorithm inputs sched)) := by
  have scanned : (choice.gtTable slot).accounting = (sched.gtTable slot).accounting := by
    obtain ⟨skipCount, written⟩ := getNextThread_onlySkips chosen slot
    rw [written]
    rfl
  have saves (gtTable : Table N) :
      (gtSwitch inputs.rsp sched.gtCurrent gtTable slot).accounting =
        (gtTable slot).accounting := by
    by_cases isCurrent : slot = sched.gtCurrent
    · subst isCurrent
      unfold gtSwitch
      rw [Table.modify_self]
      rfl
    · unfold gtSwitch
      rw [Table.modify_of_ne _ isCurrent]
  unfold switchTo scheduleCalls
  simp only [chosen]
  rw [saves, accounting_modify, Accounting.updates_append, ← scanned]
  split
  · rw [accounting_modify]
  · rfl

/-- Every operation changes the accounting of a slot by its calls on it, unless it
initialises the slot or is the `gt_return` of its thread. -/
theorem Performed.accounting {algorithm : Algorithm} {operation : Operation} {inputs : Inputs}
    {before after : Sched N} (performed : Performed algorithm inputs before operation after)
    (slot : Fin N) (initialised : (before.gtTable slot).state ≠ .unused)
    (alive : operation = .gtReturn → before.gtCurrent ≠ slot) :
    (after.gtTable slot).accounting =
      (before.gtTable slot).accounting.updates
        (callsOn slot (stateCalls algorithm inputs before operation)) := by
  cases performed with
  | created priority stack =>
      rcases gtCreate_spec priority stack inputs.clock before with
        same | ⟨claimed, created⟩
      · rw [same]
        rfl
      · have other : slot ≠ claimed := by
          rintro rfl
          exact initialised created.wasUnused
        rw [created.others slot other]
        rfl
  | scheduled ran =>
      obtain ⟨-, choice, chosen, -, rfl⟩ := reschedule_eq_some ran
      rw [resume_gtTable]
      exact switchTo_accounting chosen slot
  | returned notInitial ran =>
      obtain ⟨-, choice, chosen, -, rfl⟩ := reschedule_eq_some ran
      rw [resume_gtTable, switchTo_accounting chosen slot]
      have untouched : (retire before).gtTable slot = before.gtTable slot := by
        unfold retire
        dsimp only
        rw [Table.modify_of_ne _ (alive rfl).symm]
      unfold stateCalls
      rw [untouched, if_pos notInitial]
  | awaited isInitial ran =>
      obtain ⟨-, choice, chosen, -, rfl⟩ := reschedule_eq_some ran
      rw [resume_gtTable, switchTo_accounting chosen slot]
      unfold stateCalls
      rw [if_neg (not_not.mpr isInitial)]
      rfl
  | reset | added => rfl
  | passed found positive =>
      unfold stateCalls
      simp only [found, if_pos positive]
      rfl
  | queued found noPermit =>
      unfold stateCalls
      simp only [found, if_neg noPermit]
      exact accounting_modify ..
  | raised found noWaiter =>
      unfold stateCalls
      simp only [found, noWaiter]
      rfl
  | woke found waiter =>
      unfold stateCalls
      simp only [found, waiter]
      exact accounting_modify ..

/-! ### The life of a slot

A life is the sequence of calls of `update_thread_state` for a slot since its statistics were
initialised, each with its reading of the clock and the new state.
-/

/-- The process and the timeline of one slot in it, in microseconds. -/
structure Life (N : Nat) where
  sched : Sched N
  timeline : Timeline EState Rat

/-- The clock readings of one operation are in range; they may go backwards. -/
def NormalizedClock (clock : Nat → Timeval) : Prop := ∀ reading < 3, (clock reading).Normalized

instance (clock : Nat → Timeval) : Decidable (NormalizedClock clock) :=
  inferInstanceAs (Decidable (∀ reading, reading < 3 → _))

/-- A slot just initialised: Running since the reading of `init_thread_stats`, or
Ready since the one of the call that made it so. -/
inductive Initialised : Fin N → Life N → Prop where
  | booted (clock : Nat → Timeval) (normalized : NormalizedClock clock) :
      Initialised 0 ⟨gtInit clock, .start .running (timevalToMicroseconds (clock 1))⟩
  | created {before : Sched N} {slot : Fin N} (found : findUnused before.gtTable = some slot)
      (priority : Int) (base : ℕ+) (clock : Nat → Timeval)
      (normalized : NormalizedClock clock) :
      Initialised slot ⟨(gtCreate priority (some base) clock before).2,
        .start .ready (timevalToMicroseconds (clock 2))⟩

def recordCalls (timeline : Timeline EState Rat) (calls : List (StateCall N)) :
    Timeline EState Rat :=
  calls.foldl
    (fun timeline call => timeline.record call.newState (timevalToMicroseconds call.now)) timeline

/-- The scheduler under any selector at each step, and the timeline of one slot
under the calls made on it. -/
def lifeMachine (slot : Fin N) :
    PartialMachine (Life N) (Algorithm × Operation × Inputs) where
  step life label :=
    ((scheduler label.1).step life.sched label.2).map fun after =>
      ⟨after, recordCalls life.timeline
        (callsOn slot (stateCalls label.1 label.2.2 life.sched label.2.1))⟩

/-- The step is not the `gt_return` of the slot's thread. -/
def Alive (slot : Fin N) (life : Life N) (label : Algorithm × Operation × Inputs) : Prop :=
  (label.2.1 = .gtReturn → life.sched.gtCurrent ≠ slot) ∧ NormalizedClock label.2.2.clock

instance (slot : Fin N) (life : Life N) (label : Algorithm × Operation × Inputs) :
    Decidable (Alive slot life label) :=
  inferInstanceAs (Decidable ((_ → _) ∧ _))

/-- The timeline is that of the slot, and the totals are the times it gives. -/
structure TimeAccounted (thread : Gt) (timeline : Timeline EState Rat) : Prop where
  state : timeline.state = thread.state
  since : timeline.since = timevalToMicroseconds thread.lastStateChange
  runningUsec : thread.totalRunning.Normalized
  waitingUsec : thread.totalWaiting.Normalized
  totalRunning : timevalToMicroseconds thread.totalRunning = timeline.spent isRunning
  totalWaiting : timevalToMicroseconds thread.totalWaiting = timeline.spent isWaiting
  total : timevalToMicroseconds thread.totalRunning + timevalToMicroseconds thread.totalWaiting =
    timevalToMicroseconds thread.lastStateChange - timeline.began

/-! ### One call, then any number of them -/

/-- The accounting of a slot that is in use, against its timeline. -/
structure Follows (accounting : Accounting) (timeline : Timeline EState Rat) : Prop where
  state : timeline.state = accounting.state
  since : timeline.since = timevalToMicroseconds accounting.lastStateChange
  used : timeline.Visits (· ≠ .unused)
  changeUsec : accounting.lastStateChange.Normalized
  runningUsec : accounting.totalRunning.Normalized
  waitingUsec : accounting.totalWaiting.Normalized
  totalRunning : timevalToMicroseconds accounting.totalRunning = timeline.spent isRunning
  totalWaiting : timevalToMicroseconds accounting.totalWaiting = timeline.spent isWaiting

namespace Follows

omit [NeZero N]

variable {accounting : Accounting} {timeline : Timeline EState Rat}

/-- A slot that has just come into use. -/
theorem start {state : EState} {now : Timeval} (used : state ≠ .unused)
    (normalized : now.Normalized) :
    Follows ⟨state, initTimeval, initTimeval, now⟩
      (.start state (timevalToMicroseconds now)) where
  state := rfl
  since := rfl
  used := used
  changeUsec := normalized
  runningUsec := (by decide : initTimeval.Normalized)
  waitingUsec := (by decide : initTimeval.Normalized)
  totalRunning := by simp [timevalToMicroseconds, initTimeval, Timeline.spent]
  totalWaiting := by simp [timevalToMicroseconds, initTimeval, Timeline.spent]

/-- The time charged for one stay, in whichever total it belongs. -/
theorem charge (counted : Bool) {total now change : Timeval} (totalUsec : total.Normalized)
    (nowUsec : now.Normalized) (changeUsec : change.Normalized) :
    (if counted then timevalAdd total (timevalSubtract now change) else total).Normalized ∧
      timevalToMicroseconds
          (if counted then timevalAdd total (timevalSubtract now change) else total) =
        timevalToMicroseconds total +
          if counted then timevalToMicroseconds now - timevalToMicroseconds change else 0 := by
  cases counted with
  | false => simpa using totalUsec
  | true =>
      simp only [if_true]
      rw [timevalAdd_microseconds, timevalSubtract_microseconds]
      have elapsedUsec := timevalSubtract_normalized nowUsec changeUsec
      exact ⟨timevalAdd_normalized totalUsec elapsedUsec, rfl⟩

/-- One call of `update_thread_state`. -/
theorem update (follows : Follows accounting timeline) {now : Timeval} {newState : EState}
    (nowUsec : now.Normalized) (used : newState ≠ .unused) :
    Follows (accounting.update now newState)
      (timeline.record newState (timevalToMicroseconds now)) := by
  by_cases same : accounting.state = newState
  · unfold Accounting.update
    rw [if_pos same, Timeline.record_same (follows.state.trans same)]
    exact follows
  · unfold Accounting.update
    rw [if_neg same, Timeline.record_other (follows.state.trans_ne same)]
    obtain ⟨runningUsec, totalRunning⟩ := charge (isRunning accounting.state)
      follows.runningUsec nowUsec follows.changeUsec
    obtain ⟨waitingUsec, totalWaiting⟩ := charge (isWaiting accounting.state)
      follows.waitingUsec nowUsec follows.changeUsec
    constructor
    · rfl
    · rfl
    · exact ⟨follows.used, used⟩
    · exact nowUsec
    · exact runningUsec
    · exact waitingUsec
    · rw [totalRunning, follows.totalRunning, ← follows.state, ← follows.since]
      rfl
    · rw [totalWaiting, follows.totalWaiting, ← follows.state, ← follows.since]
      rfl

/-- Any sequence of calls that do not give the slot up. -/
theorem updates (follows : Follows accounting timeline) {calls : List (StateCall N)}
    (nowUsec : ∀ call ∈ calls, call.now.Normalized)
    (used : ∀ call ∈ calls, call.newState ≠ .unused) :
    Follows (accounting.updates calls) (recordCalls timeline calls) := by
  induction calls generalizing accounting timeline with
  | nil => exact follows
  | cons call calls inductionHypothesis =>
      obtain ⟨firstUsec, restUsec⟩ := List.forall_mem_cons.mp nowUsec
      obtain ⟨firstUsed, restUsed⟩ := List.forall_mem_cons.mp used
      exact inductionHypothesis (follows.update firstUsec firstUsed) restUsec restUsed

/-- The two totals share the time since the slot came into use. -/
theorem accounted {thread : Gt} (follows : Follows thread.accounting timeline) :
    TimeAccounted thread timeline := by
  have shared : timeline.spent isRunning + timeline.spent isWaiting =
      timeline.since - timeline.began := by
    apply Timeline.spent_add_spent _ follows.used
    intro state used
    cases state with
    | unused => exact absurd rfl used
    | running | ready | blocked => rfl
  constructor
  · exact follows.state
  · exact follows.since
  · exact follows.runningUsec
  · exact follows.waitingUsec
  · exact follows.totalRunning
  · exact follows.totalWaiting
  · calc
      timevalToMicroseconds thread.totalRunning + timevalToMicroseconds thread.totalWaiting
          = timeline.spent isRunning + timeline.spent isWaiting :=
            congrArg₂ _ follows.totalRunning follows.totalWaiting
      _ = timevalToMicroseconds thread.lastStateChange - timeline.began := by
            rw [shared, follows.since]
            rfl

end Follows

/-- The calls of an operation make no slot Unused and take their readings from the
operation's clock. -/
theorem stateCalls_spec (algorithm : Algorithm) {inputs : Inputs} (sched : Sched N)
    (operation : Operation) (normalized : NormalizedClock inputs.clock) :
    ∀ call ∈ stateCalls algorithm inputs sched operation,
      call.now.Normalized ∧ call.newState ≠ .unused := by
  have running : EState.running ≠ .unused := by decide
  have ready : EState.ready ≠ .unused := by decide
  have blocked : EState.blocked ≠ .unused := by decide
  have fromSchedule (sched : Sched N) : ∀ call ∈ scheduleCalls algorithm inputs sched,
      call.now.Normalized ∧ call.newState ≠ .unused := by
    intro call isCall
    unfold scheduleCalls at isCall
    split at isCall
    · cases isCall
    · rcases List.mem_append.mp isCall with first | second
      · split at first
        · rw [List.mem_singleton.mp first]
          exact ⟨normalized 0 (by decide), ready⟩
        · cases first
      · rw [List.mem_singleton.mp second]
        exact ⟨normalized 1 (by decide), running⟩
  intro call isCall
  cases operation with
  | gtCreate | semInit => cases isCall
  | schedule | gtReturn => exact fromSchedule _ call isCall
  | semWait sem =>
      unfold stateCalls at isCall
      dsimp only at isCall
      split at isCall
      · split at isCall
        · cases isCall
        · rw [List.mem_singleton.mp isCall]
          exact ⟨normalized 0 (by decide), blocked⟩
      · cases isCall
  | semPost sem =>
      unfold stateCalls at isCall
      dsimp only at isCall
      split at isCall
      · split at isCall
        · rw [List.mem_singleton.mp isCall]
          exact ⟨normalized 0 (by decide), ready⟩
        · cases isCall
      · cases isCall

/-! ### From the initialisation on -/

theorem Initialised.follows {slot : Fin N} {life : Life N} (initialised : Initialised slot life) :
    Follows (life.sched.gtTable slot).accounting life.timeline := by
  cases initialised with
  | booted clock normalized =>
      have initial : ((gtInit clock : Sched N).gtTable 0).accounting =
          ⟨.running, initTimeval, initTimeval, clock 1⟩ :=
        congrArg Gt.accounting (Table.modify_self ..)
      rw [initial]
      exact .start (by decide) (normalized 1 (by decide))
  | created found priority base clock normalized =>
      rename_i before
      have isCreated :
          ((gtCreate priority (some base) clock before).2.gtTable slot).accounting =
            ⟨.ready, initTimeval, initTimeval, clock 2⟩ := by
        have unused := findUnused_state found
        unfold gtCreate
        rw [found]
        dsimp only
        rw [Table.modify_self, accounting_updateThreadState]
        simp [Accounting.update, Gt.accounting, initThreadStats, unused, isRunning, isWaiting]
      rw [isCreated]
      exact .start (by decide) (normalized 2 (by decide))

/-- One step of a life. -/
theorem Follows.step {slot : Fin N} {before after : Life N}
    {label : Algorithm × Operation × Inputs}
    (follows : Follows (before.sched.gtTable slot).accounting before.timeline)
    (alive : Alive slot before label)
    (stepped : (lifeMachine slot).step before label = some after) :
    Follows (after.sched.gtTable slot).accounting after.timeline := by
  obtain ⟨sched, scheduled, rfl⟩ := Option.map_eq_some_iff.mp stepped
  obtain ⟨performed, -⟩ := scheduler_step scheduled
  have inUse : (before.sched.gtTable slot).state ≠ .unused := by
    intro unused
    exact follows.used.state (follows.state.trans unused)
  have calls := stateCalls_spec label.1 before.sched label.2.1 alive.2
  dsimp only
  rw [performed.accounting slot inUse alive.1]
  apply follows.updates
  · exact fun call isCall => (calls call (List.mem_of_mem_filter isCall)).1
  · exact fun call isCall => (calls call (List.mem_of_mem_filter isCall)).2

/-- From its initialisation to its `gt_return` the totals of a slot are the times it
spent Running, and Ready or Blocked, whatever the clock does. -/
theorem time_accounting (slot : Fin N) (start life : Life N) (initialised : Initialised slot start)
    (reached : (lifeMachine slot).Reached (Alive slot) start life) :
    TimeAccounted (life.sched.gtTable slot) life.timeline := by
  have follows : Follows (life.sched.gtTable slot).accounting life.timeline := by
    induction reached with
    | start => exact initialised.follows
    | step _ alive stepped inductionHypothesis => exact inductionHypothesis.step alive stepped
  exact follows.accounted

/-- An operation that reads the same time whenever it looks. -/
def readingAt (now : Timeval) : Inputs := { stoppedClock 0 with clock := fun _ => now }

/-- Slot 1 created by the initial thread at 10.9 seconds. -/
def createdLife : Life maxGThreads :=
  ⟨(gtCreate 3 (some stackAddress) (fun _ => ⟨10, 900000⟩) (gtInit fun _ => initTimeval)).2,
    .start .ready (timevalToMicroseconds ⟨10, 900000⟩)⟩

/-- Slot 1 waits, runs while the clock is set back by half a second, is Blocked, is
woken and runs again. -/
theorem time_accounting_set_back : ∃ life : Life maxGThreads,
    (life.timeline.began = 10900000 ∧ life.timeline.spent isRunning = 250000 ∧
      life.timeline.spent isWaiting = 4100000 ∧
      (life.sched.gtTable 1).totalWaiting = ⟨4, 100000⟩) ∧
    TimeAccounted (life.sched.gtTable 1) life.timeline := by
  have initialised : Initialised 1 createdLife :=
    .created (by decide) 3 stackAddress (fun _ => ⟨10, 900000⟩) (by decide)
  obtain ⟨life, reached, times⟩ := PartialMachine.exists_reached_of_any
    (lifeMachine 1) (Alive 1) createdLife
    [(.roundRobin, .schedule, readingAt ⟨12, 200000⟩),
      (.roundRobin, .semInit 0 0, readingAt ⟨12, 200000⟩),
      (.roundRobin, .semWait 0, readingAt ⟨11, 700000⟩),
      (.lottery, .schedule, readingAt ⟨13, 0⟩),
      (.roundRobin, .semPost 0, readingAt ⟨14, 0⟩),
      (.roundRobin, .schedule, readingAt ⟨14, 500000⟩),
      (.roundRobin, .schedule, readingAt ⟨15, 250000⟩)]
    (fun life : Life maxGThreads => life.timeline.began = 10900000 ∧
      life.timeline.spent isRunning = 250000 ∧ life.timeline.spent isWaiting = 4100000 ∧
      (life.sched.gtTable 1).totalWaiting = ⟨4, 100000⟩)
    (by decide +kernel)
  exact ⟨life, times, time_accounting 1 _ life initialised reached⟩

end Ivos.Scheduler
