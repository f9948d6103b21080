/-
Module: Ivos.Scheduler.RunningSlot
Purpose: Outside the scheduler only the current slot is Running, as long as no
  alarm lands between the current slot's leaving Running and `gt_switch`.
Trusted boundary: none
Main exports: OnlyCurrentRuns, AlarmSparesSwitch, SwitchInvariant,
  only_current_runs, nested_alarm_loses_running_slot
-/
import Ivos.Scheduler.Preemption
import Ivos.Scheduler.FinishedThreads

namespace Ivos.Scheduler

variable {N : Nat} {Loc : Type}

/-- No slot other than the current one is Running. -/
def OnlyCurrentRuns (gtTable : Table N) (gtCurrent : Fin N) : Prop :=
  ∀ slot, slot ≠ gtCurrent → (gtTable slot).state ≠ .running

instance (gtTable : Table N) (gtCurrent : Fin N) :
    Decidable (OnlyCurrentRuns gtTable gtCurrent) := by
  unfold OnlyCurrentRuns
  infer_instance

theorem OnlyCurrentRuns.congr {first second : Table N} {gtCurrent : Fin N}
    (only : OnlyCurrentRuns first gtCurrent)
    (same : ∀ slot, (second slot).state = .running → (first slot).state = .running) :
    OnlyCurrentRuns second gtCurrent :=
  fun slot different isRunning => only slot different (same slot isRunning)

namespace Statement

/-- From here on the current slot has been taken out of Running (or was Unused
or Blocked) and the switch has not happened yet. -/
def BeforeSwitch : Statement N → Prop
  | .runTest _ | .runWrite _ | .prepare _ | .setCurrent _ _ | .switch _ _ => True
  | _ => False

instance : (statement : Statement N) → Decidable statement.BeforeSwitch
  | .runTest _ | .runWrite _ | .prepare _ | .setCurrent _ _ | .switch _ _ =>
      inferInstanceAs (Decidable True)
  | .resetSig | .start | .select _ | .testCurrent _ | .readyTest _ _ | .readyWrite _ _
  | .finish => inferInstanceAs (Decidable False)

/-- What an interrupted activation on the stack of `owner` may still be about to
do when it is resumed. -/
def Resumable (owner : Fin N) : Statement N → Prop
  | .readyTest thread _ | .readyWrite thread _ => thread = owner
  | statement => ¬ statement.BeforeSwitch

/-- What holds of the table and of `gt_current` when the innermost activation, on
the stack `stack`, stands at a statement. -/
def Holds (gtTable : Table N) (gtCurrent stack : Fin N) : Statement N → Prop
  | .readyTest thread _ | .readyWrite thread _ =>
      (thread = gtCurrent ∧ stack = gtCurrent) ∧ OnlyCurrentRuns gtTable gtCurrent
  | .runTest _ | .runWrite _ =>
      stack = gtCurrent ∧ ∀ slot, (gtTable slot).state ≠ .running
  | .prepare p => stack = gtCurrent ∧ OnlyCurrentRuns gtTable p
  | .setCurrent old p => (old = stack ∧ stack = gtCurrent) ∧ OnlyCurrentRuns gtTable p
  | .switch old new => (old = stack ∧ new = gtCurrent) ∧ OnlyCurrentRuns gtTable gtCurrent
  | _ => stack = gtCurrent ∧ OnlyCurrentRuns gtTable gtCurrent

/-- A resumable activation asks for nothing beyond the property itself. -/
theorem Resumable.holds {statement : Statement N} {gtTable : Table N}
    {gtCurrent stack : Fin N} (resumable : statement.Resumable stack)
    (onStack : stack = gtCurrent) (only : OnlyCurrentRuns gtTable gtCurrent) :
    statement.Holds gtTable gtCurrent stack := by
  subst onStack
  cases statement with
  | readyTest thread p | readyWrite thread p => exact ⟨⟨resumable, rfl⟩, only⟩
  | runTest | runWrite | prepare | setCurrent | switch => exact absurd trivial resumable
  | resetSig | start | select | testCurrent | finish => exact ⟨rfl, only⟩

/-- An activation that is not before its switch can be interrupted. -/
theorem Holds.resumable {statement : Statement N} {gtTable : Table N}
    {gtCurrent stack : Fin N} (holds : statement.Holds gtTable gtCurrent stack)
    (spared : ¬ statement.BeforeSwitch) :
    statement.Resumable stack ∧ stack = gtCurrent ∧ OnlyCurrentRuns gtTable gtCurrent := by
  cases statement with
  | readyTest thread p | readyWrite thread p =>
      obtain ⟨⟨rfl, rfl⟩, only⟩ := holds
      exact ⟨rfl, rfl, only⟩
  | runTest | runWrite | prepare | setCurrent | switch => exact absurd trivial spared
  | resetSig | start | select | testCurrent | finish => exact ⟨spared, holds⟩

end Statement

/-- What holds at the innermost activation, or in thread code when there is none. -/
def Innermost (machine : Machine N Loc) : Prop :=
  match machine.cpu.activations with
  | [] => machine.cpu.stack = machine.gtCurrent ∧
      OnlyCurrentRuns machine.gtTable machine.gtCurrent
  | statement :: _ => statement.Holds machine.gtTable machine.gtCurrent machine.cpu.stack

/-- The invariant of runs whose alarms spare the switch: every context lies on
its own slot's stack, every interrupted activation is resumable there, and the
innermost one stands where its statement says. -/
structure SwitchInvariant (machine : Machine N Loc) : Prop where
  savedStack : ∀ slot, (machine.saved slot).stack = slot
  savedFrames : ∀ slot, ∀ statement ∈ (machine.saved slot).activations,
    statement.Resumable slot
  outerFrames : ∀ statement ∈ machine.cpu.activations.tail,
    statement.Resumable machine.cpu.stack
  innermost : Innermost machine

/-- The step does not deliver an alarm to an activation before its switch. -/
def AlarmSparesSwitch (machine : Machine N Loc) (event : Event) : Prop :=
  match event with
  | .alarm => ∀ statement ∈ machine.cpu.activations.head?, ¬ statement.BeforeSwitch
  | _ => True

instance (machine : Machine N Loc) :
    (event : Event) → Decidable (AlarmSparesSwitch machine event)
  | .alarm => inferInstanceAs (Decidable (∀ statement ∈ machine.cpu.activations.head?, _))
  | .call _ _ | .statement _ => inferInstanceAs (Decidable True)

namespace SwitchInvariant

variable {machine : Machine N Loc}

/-- Where an activation can be entered: in thread code, or at an innermost
activation that can be interrupted. -/
theorem interruptible (invariant : SwitchInvariant machine)
    (spared : ∀ statement ∈ machine.cpu.activations.head?, ¬ statement.BeforeSwitch) :
    (∀ statement ∈ machine.cpu.activations, statement.Resumable machine.cpu.stack) ∧
      machine.cpu.stack = machine.gtCurrent ∧
      OnlyCurrentRuns machine.gtTable machine.gtCurrent := by
  have innermost := invariant.innermost
  have outer := invariant.outerFrames
  unfold Innermost at innermost
  cases frames : machine.cpu.activations with
  | nil =>
      rw [frames] at innermost
      exact ⟨by simp, innermost⟩
  | cons statement rest =>
      rw [frames] at innermost outer spared
      obtain ⟨resumable, holds⟩ := innermost.resumable (spared statement rfl)
      exact ⟨List.forall_mem_cons.mpr ⟨resumable, outer⟩, holds⟩

/-- In thread code every frame condition is vacuous. -/
theorem inCode (invariant : SwitchInvariant machine) (code : machine.cpu.activations = []) :
    machine.cpu.stack = machine.gtCurrent ∧
      OnlyCurrentRuns machine.gtTable machine.gtCurrent :=
  (invariant.interruptible (by simp [code])).2

/-- A new activation keeps the invariant. -/
theorem enter (invariant : SwitchInvariant machine)
    (spared : ∀ statement ∈ machine.cpu.activations.head?, ¬ statement.BeforeSwitch)
    (masked : Bool) : SwitchInvariant { machine.enter with masked := masked } :=
  let ⟨frames, holds⟩ := invariant.interruptible spared
  { savedStack := invariant.savedStack
    savedFrames := invariant.savedFrames
    outerFrames := frames
    innermost := holds }

/-- Whatever becomes innermost by a return or a switch was resumable. -/
theorem innermost_of_resumable (machine : Machine N Loc) {gtTable : Table N}
    {gtCurrent : Fin N} {activations}
    (resumable : ∀ statement ∈ activations, statement.Resumable machine.cpu.stack)
    (onStack : machine.cpu.stack = gtCurrent) (only : OnlyCurrentRuns gtTable gtCurrent) :
    Innermost { machine with
      gtTable := gtTable
      gtCurrent := gtCurrent
      cpu := { machine.cpu with activations := activations } } := by
  cases activations with
  | nil => exact ⟨onStack, only⟩
  | cons statement rest =>
      exact (resumable statement List.mem_cons_self).holds onStack only

/-- A statement after which the innermost activation stands at `statement`. -/
theorem goto (invariant : SwitchInvariant machine) {statement : Statement N}
    {gtTable : Table N} {gtCurrent : Fin N} {masked : Bool}
    (holds : statement.Holds gtTable gtCurrent machine.cpu.stack) :
    SwitchInvariant { machine.goto statement with
      gtTable := gtTable, gtCurrent := gtCurrent, masked := masked } where
  savedStack := invariant.savedStack
  savedFrames := invariant.savedFrames
  outerFrames := invariant.outerFrames
  innermost := holds

/-- Thread code changes the table, the contexts of other slots and its own
activity; no slot becomes Running. -/
theorem thread (invariant : SwitchInvariant machine) (code : machine.cpu.activations = [])
    {after : Machine N Loc} (activations : after.cpu.activations = [])
    (stack : after.cpu.stack = machine.cpu.stack) (gtCurrent : after.gtCurrent = machine.gtCurrent)
    (saved : ∀ slot, after.saved slot = machine.saved slot ∨
      (after.saved slot).stack = slot ∧ (after.saved slot).activations = [])
    (states : ∀ slot, (after.gtTable slot).state = .running →
      (machine.gtTable slot).state = .running) : SwitchInvariant after where
  savedStack slot := by
    rcases saved slot with same | ⟨onSlot, -⟩
    · rw [same]
      exact invariant.savedStack slot
    · exact onSlot
  savedFrames slot := by
    rcases saved slot with same | ⟨-, fresh⟩
    · rw [same]
      exact invariant.savedFrames slot
    · simp [fresh]
  outerFrames := by simp [activations]
  innermost := by
    obtain ⟨onStack, only⟩ := invariant.inCode code
    unfold Innermost
    rw [activations, stack, gtCurrent]
    exact ⟨onStack, only.congr states⟩

/-- The switch saves the running context where it belongs and resumes a context
on the stack of the slot that is now current. -/
theorem switch (invariant : SwitchInvariant machine) {rsp : Nat} {old new : Fin N}
    (isOld : old = machine.cpu.stack) (isNew : new = machine.gtCurrent)
    (only : OnlyCurrentRuns machine.gtTable machine.gtCurrent) :
    SwitchInvariant (machine.switchContext rsp old new) := by
  subst isOld isNew
  have states (slot : Fin N) :
      (gtSwitch rsp machine.cpu.stack machine.gtTable slot).state =
        (machine.gtTable slot).state := gtSwitch_state ..
  have only : OnlyCurrentRuns (gtSwitch rsp machine.cpu.stack machine.gtTable)
      machine.gtCurrent := only.congr fun slot isRunning => states slot ▸ isRunning
  have suspended : ∀ statement ∈ (Statement.finish :: machine.cpu.activations.tail),
      statement.Resumable machine.cpu.stack :=
    List.forall_mem_cons.mpr ⟨id, invariant.outerFrames⟩
  have saved (slot : Fin N) :
      ((machine.switchContext rsp machine.cpu.stack machine.gtCurrent).saved slot).stack = slot ∧
      ∀ statement ∈
        ((machine.switchContext rsp machine.cpu.stack machine.gtCurrent).saved slot).activations,
        statement.Resumable slot := by
    by_cases same : slot = machine.cpu.stack
    · subst same
      simpa [Machine.switchContext] using suspended
    · simpa [Machine.switchContext, same] using
        ⟨invariant.savedStack slot, invariant.savedFrames slot⟩
  obtain ⟨onStack, frames⟩ := saved machine.gtCurrent
  refine ⟨fun slot => (saved slot).1, fun slot => (saved slot).2, ?_, ?_⟩
  · intro statement member
    rw [show (machine.switchContext rsp machine.cpu.stack machine.gtCurrent).cpu.stack =
      machine.gtCurrent from onStack]
    exact frames statement (List.mem_of_mem_tail member)
  · refine innermost_of_resumable
      (machine.switchContext rsp machine.cpu.stack machine.gtCurrent) ?_ onStack only
    rw [show (machine.switchContext rsp machine.cpu.stack machine.gtCurrent).cpu.stack =
      machine.gtCurrent from onStack]
    exact frames

/-- Every statement of `gt_schedule` keeps the invariant. -/
theorem scheduleStatement {algorithm : Algorithm} {inputs : StatementInputs}
    (invariant : SwitchInvariant machine) {statement : Statement N}
    {outer : List (Statement N)} (frames : machine.cpu.activations = statement :: outer) :
    SwitchInvariant (machine.scheduleStatement algorithm inputs statement) := by
  have holds := invariant.innermost
  unfold Innermost at holds
  rw [frames] at holds
  unfold Machine.scheduleStatement
  cases statement with
  | resetSig => exact invariant.goto holds
  | start => exact invariant.goto holds
  | select cursor =>
      obtain ⟨onStack, only⟩ := holds
      obtain ⟨next, gtTable, scanned, states, shape⟩ := machine.scan_spec inputs.draw cursor
      dsimp only
      rw [scanned]
      have only : OnlyCurrentRuns gtTable machine.gtCurrent :=
        only.congr fun slot isRunning => states slot ▸ isRunning
      rcases shape with ⟨next, rfl⟩ | ⟨p, rfl⟩
      · exact invariant.goto ⟨onStack, only⟩
      · exact invariant.goto ⟨onStack, only⟩
  | testCurrent p =>
      obtain ⟨onStack, only⟩ := holds
      dsimp only
      split
      · exact invariant.goto ⟨⟨rfl, onStack⟩, only⟩
      · rename_i stays
        refine invariant.goto ⟨onStack, fun slot => ?_⟩
        by_cases isCurrent : slot = machine.gtCurrent
        · subst isCurrent
          intro isRunning
          simp [leavesRunning, isRunning] at stays
        · exact only slot isCurrent
  | readyTest thread p =>
      obtain ⟨⟨isCurrent, onStack⟩, only⟩ := holds
      dsimp only
      split
      · rename_i isReady
        refine invariant.goto ⟨onStack, fun slot => ?_⟩
        by_cases same : slot = machine.gtCurrent
        · simp [same, ← isCurrent, isReady]
        · exact only slot same
      · exact invariant.goto ⟨⟨isCurrent, onStack⟩, only⟩
  | readyWrite thread p =>
      obtain ⟨⟨isCurrent, onStack⟩, only⟩ := holds
      refine invariant.goto ⟨onStack, fun slot => ?_⟩
      by_cases same : slot = thread
      · simp [same]
      · simpa [same] using only slot (isCurrent ▸ same)
  | runTest p =>
      obtain ⟨onStack, none⟩ := holds
      dsimp only
      split
      · exact invariant.goto ⟨onStack, fun slot _ => none slot⟩
      · exact invariant.goto ⟨onStack, none⟩
  | runWrite p =>
      obtain ⟨onStack, none⟩ := holds
      refine invariant.goto ⟨onStack, fun slot different => ?_⟩
      simpa [different] using none slot
  | prepare p =>
      obtain ⟨onStack, only⟩ := holds
      exact invariant.goto ⟨⟨onStack.symm, onStack⟩, only⟩
  | setCurrent old p =>
      obtain ⟨⟨isOld, onStack⟩, only⟩ := holds
      exact invariant.goto ⟨⟨isOld, rfl⟩, only⟩
  | switch old new =>
      obtain ⟨⟨isOld, isNew⟩, only⟩ := holds
      exact invariant.switch isOld isNew only
  | finish =>
      obtain ⟨onStack, only⟩ := holds
      have resumable := invariant.outerFrames
      exact
        { savedStack := invariant.savedStack
          savedFrames := invariant.savedFrames
          outerFrames := fun statement member =>
            resumable statement (List.mem_of_mem_tail member)
          innermost := innermost_of_resumable machine resumable onStack only }

/-- The calls of thread code keep the invariant. -/
theorem makeCall [NeZero N] (invariant : SwitchInvariant machine)
    (code : machine.cpu.activations = []) {now : Timeval} {call : Call}
    {after : Machine N Loc} (called : machine.makeCall now call = some after) :
    SwitchInvariant after := by
  have entered : SwitchInvariant machine.enter :=
    invariant.enter (by simp [code]) machine.masked
  cases call with
  | gtCreate priority =>
      cases called
      exact invariant.thread code code rfl rfl (fun _ => .inl rfl) fun _ => id
  | schedule =>
      cases called
      exact entered
  | gtReturn =>
      cases called
      exact invariant.thread code code rfl rfl (fun _ => .inl rfl) fun _ => id
  | semWait sem =>
      obtain ⟨waited, body, rfl⟩ := Option.map_eq_some_iff.mp called
      obtain ⟨semaphore, -, body⟩ := Option.bind_eq_some_iff.mp body
      split at body
      · cases body
        exact invariant.thread code code rfl rfl (fun _ => .inl rfl) fun _ => id
      · cases body
        refine invariant.thread code code rfl rfl (fun _ => .inl rfl) fun slot => ?_
        by_cases same : slot = machine.gtCurrent
        · simp [same]
        · simp [same]
  | semPost sem =>
      obtain ⟨posted, body, rfl⟩ := Option.map_eq_some_iff.mp called
      obtain ⟨semaphore, -, body⟩ := Option.bind_eq_some_iff.mp body
      split at body
      · cases body
        exact invariant.thread code code rfl rfl (fun _ => .inl rfl) fun _ => id
      · rename_i thread queue waiting
        cases body
        refine invariant.thread code code rfl rfl (fun _ => .inl rfl) fun slot => ?_
        by_cases same : slot = thread
        · simp [same]
        · simp [same]

/-- The statements of `gt_create` and `gt_return`, and the returns from the
semaphore operations, keep the invariant. -/
theorem threadStatement [NeZero N] (invariant : SwitchInvariant machine)
    (code : machine.cpu.activations = []) {entry : Loc} {inputs : StatementInputs}
    {after : Machine N Loc} (stepped : machine.threadStatement entry inputs = some after) :
    SwitchInvariant after := by
  have entered : SwitchInvariant machine.enter :=
    invariant.enter (by simp [code]) machine.masked
  have moved (activity : Activity N) : SwitchInvariant (machine.doing activity) :=
    invariant.thread code code rfl rfl (fun _ => .inl rfl) fun _ => id
  have modified {p : Fin N} {update : Gt → Gt} (activity : Activity N)
      (keeps : (update (machine.gtTable p)).state = .running →
        (machine.gtTable p).state = .running) :
      SwitchInvariant ((machine.modify p update).doing activity) := by
    refine invariant.thread code code rfl rfl (fun _ => .inl rfl) fun slot => ?_
    by_cases same : slot = p
    · subst same
      simpa using keeps
    · simp [same]
  unfold Machine.threadStatement at stepped
  split at stepped
  · cases stepped
  · split at stepped
    · split at stepped
      · exact Option.some.inj stepped ▸ moved _
      · exact Option.some.inj stepped ▸ moved _
    · exact Option.some.inj stepped ▸ moved _
  · split at stepped
    · exact Option.some.inj stepped ▸ moved _
    · exact Option.some.inj stepped ▸ moved _
  · rename_i p priority base _
    cases stepped
    refine invariant.thread code code rfl rfl (fun slot => ?_) fun slot => ?_
    · by_cases same : slot = p
      · subst same
        simp
      · simp [same]
    · by_cases same : slot = p
      · subst same
        simp
      · simp [same]
  · exact Option.some.inj stepped ▸ modified _ id
  · exact Option.some.inj stepped ▸ modified _ id
  · exact Option.some.inj stepped ▸ modified _ id
  · exact Option.some.inj stepped ▸ modified _ id
  · cases stepped
    exact invariant.thread code code rfl rfl (fun _ => .inl rfl) fun _ => id
  · exact Option.some.inj stepped ▸ modified _ id
  · split at stepped
    · exact Option.some.inj stepped ▸ moved _
    · exact Option.some.inj stepped ▸ moved _
  · exact Option.some.inj stepped ▸ modified _ (by simp)
  · exact Option.some.inj stepped ▸ moved _
  · exact Option.some.inj stepped ▸ moved _
  · split at stepped
    · exact Option.some.inj stepped ▸ moved _
    · exact Option.some.inj stepped ▸ moved _
  · exact Option.some.inj stepped ▸ modified _ (by simp)
  · cases stepped
    exact invariant.thread code code rfl rfl (fun _ => .inl rfl) fun _ => id
  · cases stepped
    exact (moved .returnAssert).enter (by simp [code]) machine.masked
  · cases stepped
    exact ⟨invariant.savedStack, invariant.savedFrames, invariant.outerFrames,
      invariant.innermost⟩
  · cases stepped
    exact entered

/-- Every step whose alarm spares the switch keeps the invariant. -/
theorem step [NeZero N] {algorithm : Algorithm} {program : Program}
    {before after : Machine N program.Loc} {event : Event}
    (invariant : SwitchInvariant before) (permitted : AlarmSparesSwitch before event)
    (stepped : (preemptive algorithm program).step before event = some after) :
    SwitchInvariant after := by
  simp only [preemptive] at stepped
  split at stepped
  · cases event with
    | alarm =>
        dsimp only at stepped
        split at stepped
        · cases stepped
        · cases stepped
          exact invariant.enter permitted true
    | call call now =>
        dsimp only at stepped
        split at stepped
        · rename_i inCode
          obtain ⟨loc, -, called⟩ := Option.bind_eq_some_iff.mp stepped
          have located : SwitchInvariant
              { before with cpu := { before.cpu with loc := loc } } :=
            ⟨invariant.savedStack, invariant.savedFrames, invariant.outerFrames,
              invariant.innermost⟩
          exact located.makeCall inCode.1 called
        · cases stepped
    | statement inputs =>
        dsimp only at stepped
        split at stepped
        · rename_i code
          exact invariant.threadStatement code stepped
        · rename_i statement outer frames
          exact Option.some.inj stepped ▸ invariant.scheduleStatement frames
  · cases stepped

theorem boot [NeZero N] (program : Program) (clock : Nat → Timeval)
    (semaphores : List (Semaphore N)) :
    SwitchInvariant (bootMachine program clock semaphores) where
  savedStack _ := rfl
  savedFrames _ := by simp [bootMachine]
  outerFrames := by simp [bootMachine]
  innermost := by
    refine ⟨rfl, fun slot different => ?_⟩
    simp only [bootMachine] at different ⊢
    simp [gtInit, Table.modify_of_ne _ different, Gt.zero]

end SwitchInvariant

/-- In every state in which thread code executes, only the current slot is
Running. -/
def OnlyCurrentRunsInCode (machine : Machine N Loc) : Prop :=
  machine.cpu.activations = [] → OnlyCurrentRuns machine.gtTable machine.gtCurrent

instance (machine : Machine N Loc) :
    Decidable (OnlyCurrentRunsInCode machine) := by
  unfold OnlyCurrentRunsInCode
  infer_instance

/-- For every program, selector and placement of alarms that spares the stretch of
`gt_schedule` from the current slot's leaving Running to `gt_switch`, thread code
only ever executes with no slot but the current one Running. -/
theorem only_current_runs [NeZero N] (algorithm : Algorithm) (program : Program)
    (clock : Nat → Timeval) (semaphores : List (Semaphore N)) (machine : Machine N program.Loc)
    (reached : (preemptive algorithm program).Reached AlarmSparesSwitch
      (bootMachine program clock semaphores) machine) :
    OnlyCurrentRunsInCode machine := by
  have invariant : SwitchInvariant machine :=
    reached.invariant (SwitchInvariant.boot program clock semaphores)
      fun _ _ _ invariant permitted stepped => invariant.step permitted stepped
  exact fun code => (invariant.inCode code).2

/-- Every thread may make every call. -/
abbrev anyProgram : Program :=
  { Loc := Unit, main := (), entry := (), next := fun _ _ => some () }

/-- Statements with a stopped clock, all drawing the same ticket. -/
def statements (count draw : Nat) : List Event :=
  List.replicate count
    (.statement
      { clock := fun _ => initTimeval, draw := draw, rsp := 0, stack := some stackAddress })

/-- The initial thread creates one thread, in the first slot after its own. -/
def createOne : List Event :=
  .call (.gtCreate 0) initTimeval :: statements 12 0

/-- An alarm inside the selector is harmless: the nested `gt_schedule` switches to
the created thread with the interrupted one suspended below it. -/
theorem only_current_runs_nested :
    ∃ machine : Machine maxGThreads Unit,
      (machine.cpu.activations = [] ∧ machine.gtCurrent = 1) ∧ OnlyCurrentRunsInCode machine := by
  obtain ⟨machine, reached, inCode⟩ := PartialMachine.exists_reached_of_any
    (preemptive .roundRobin anyProgram) AlarmSparesSwitch
    (bootMachine anyProgram (fun _ => initTimeval) [])
    (createOne ++ .call .schedule initTimeval :: statements 4 0 ++ .alarm :: statements 14 0)
    (fun machine : Machine maxGThreads Unit =>
      machine.cpu.activations = [] ∧ machine.gtCurrent = 1)
    (by decide +kernel)
  exact ⟨machine, inCode, only_current_runs .roundRobin anyProgram _ [] machine reached⟩

/-- The initial thread creates a thread and yields; its `gt_schedule` runs until it
has set the created thread Running, and is interrupted there. -/
def losingRun (algorithm : Algorithm) : List Event :=
  match algorithm with
  | .roundRobin =>
      createOne ++ .call .schedule initTimeval :: statements 11 0 ++ .alarm :: statements 14 0
  | .roundRobinPrio =>
      createOne ++ .call .schedule initTimeval :: statements 10 0 ++ .alarm :: statements 32 0
  | .lottery =>
      createOne ++ .call .schedule initTimeval :: statements 10 11 ++ .alarm :: statements 15 0

/-- Under every selector an alarm between the current slot's leaving Running and
the switch can lose a thread: the nested `gt_schedule` chooses the initial thread,
which is Ready by then, and sets it Running again; the outer one switches away
from it. -/
theorem exists_lost_running_slot (algorithm : Algorithm) :
    ∃ machine : Machine maxGThreads Unit,
      (preemptive algorithm anyProgram).Reached PartialMachine.anyStep
        (bootMachine anyProgram (fun _ => initTimeval) []) machine ∧
          ¬ OnlyCurrentRunsInCode machine :=
  PartialMachine.exists_reached_of_any
    (preemptive algorithm anyProgram) PartialMachine.anyStep
    (bootMachine anyProgram (fun _ => initTimeval) []) (losingRun algorithm)
    (fun machine : Machine maxGThreads Unit => ¬ OnlyCurrentRunsInCode machine)
    (by cases algorithm <;> decide +kernel)

theorem nested_alarm_loses_running_slot :
    ¬ ∀ (algorithm : Algorithm) (machine : Machine maxGThreads Unit),
      (preemptive algorithm anyProgram).Reached PartialMachine.anyStep
        (bootMachine anyProgram (fun _ => initTimeval) []) machine →
          OnlyCurrentRunsInCode machine := by
  intro claimed
  obtain ⟨machine, reached, lost⟩ := exists_lost_running_slot .roundRobin
  exact lost (claimed .roundRobin machine reached)

end Ivos.Scheduler
