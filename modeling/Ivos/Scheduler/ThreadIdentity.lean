/-
Module: Ivos.Scheduler.ThreadIdentity
Purpose: `gt_current` names the thread whose stack is in use, and every other thread
  keeps its context, as long as no alarm comes between the assignment of `gt_current`
  and the switch to another thread.
Trusted boundary: none
Main exports: NamesRunning, AlarmSparesHandover, gt_current_names_running,
  alarm_at_handover_loses_context
-/
import Ivos.Scheduler.RunningSlot

namespace Ivos.Scheduler

variable {N : Nat} {Loc : Type}

/-- `gt_current` is the slot whose stack is in use, except at the switch itself,
and the contexts in the table are each on the stack of their slot. -/
structure NamesRunning (machine : Machine N Loc) : Prop where
  current : (∀ old new, machine.cpu.activations.head? ≠ some (.switch old new)) →
    machine.gtCurrent = machine.cpu.stack
  contexts : ∀ slot, (machine.saved slot).stack = slot

/-- No alarm comes when `gt_current` is another slot already and `gt_switch` has
not been called yet. -/
def AlarmSparesHandover (machine : Machine N Loc) (event : Event) : Prop :=
  match event, machine.cpu.activations with
  | .alarm, .switch old new :: _ => old = new
  | _, _ => True

instance (machine : Machine N Loc) (event : Event) :
    Decidable (AlarmSparesHandover machine event) := by
  unfold AlarmSparesHandover
  split <;> infer_instance

namespace Statement

/-- What the locals of an activation on the stack `owner` say when it is not the
innermost one there. -/
def KeptBy (owner : Fin N) : Statement N → Prop
  | .setCurrent old _ => old = owner
  | .switch old new => old = owner ∧ new = owner
  | _ => True

/-- What they say, and what `gt_current` is, when it is the innermost one. -/
def RunsOn (gtCurrent stack : Fin N) : Statement N → Prop
  | .setCurrent old _ => old = stack ∧ gtCurrent = stack
  | .switch old new => old = stack ∧ new = gtCurrent
  | _ => gtCurrent = stack

variable {statement : Statement N} {gtCurrent stack : Fin N}

/-- It goes on where its stack is the current one again. -/
theorem KeptBy.resumed (kept : statement.KeptBy stack) (current : gtCurrent = stack) :
    statement.RunsOn gtCurrent stack := by
  subst current
  cases statement with
  | setCurrent => exact ⟨kept, rfl⟩
  | switch => exact kept
  | resetSig | start | select | testCurrent | readyTest | readyWrite | runTest | runWrite
  | prepare | finish => rfl

/-- It is interrupted at any statement but a switch to another slot. -/
theorem RunsOn.interrupted (runs : statement.RunsOn gtCurrent stack)
    (spared : ∀ old new, statement = .switch old new → old = new) :
    statement.KeptBy stack ∧ gtCurrent = stack := by
  cases statement with
  | setCurrent => exact runs
  | switch old new =>
      obtain ⟨rfl, rfl⟩ := runs
      obtain rfl := spared old new rfl
      exact ⟨⟨rfl, rfl⟩, rfl⟩
  | resetSig | start | select | testCurrent | readyTest | readyWrite | runTest | runWrite
  | prepare | finish => exact ⟨trivial, runs⟩

end Statement

/-- Activations on a stack, the innermost of which is running. -/
def ActivationsRun (gtCurrent stack : Fin N) : List (Statement N) → Prop
  | [] => gtCurrent = stack
  | innermost :: outer =>
      innermost.RunsOn gtCurrent stack ∧ ∀ statement ∈ outer, statement.KeptBy stack

/-- The invariant: the locals of all activations agree with the stack they are on. -/
structure IdentityInvariant (machine : Machine N Loc) : Prop where
  running : ActivationsRun machine.gtCurrent machine.cpu.stack machine.cpu.activations
  contexts : ∀ slot, (machine.saved slot).stack = slot
  kept : ∀ slot, ∀ statement ∈ (machine.saved slot).activations, statement.KeptBy slot

/-- What is resumed on the current stack runs there. -/
theorem activationsRun_of_kept {gtCurrent stack : Fin N} {activations : List (Statement N)}
    (kept : ∀ statement ∈ activations, statement.KeptBy stack) (current : gtCurrent = stack) :
    ActivationsRun gtCurrent stack activations := by
  cases activations with
  | nil => exact current
  | cons innermost outer =>
      obtain ⟨first, rest⟩ := List.forall_mem_cons.mp kept
      exact ⟨first.resumed current, rest⟩

namespace IdentityInvariant

variable {machine : Machine N Loc}

theorem namesRunning (invariant : IdentityInvariant machine) : NamesRunning machine where
  current elsewhere := by
    have running := invariant.running
    cases standing : machine.cpu.activations with
    | nil =>
        rw [standing] at running
        exact running
    | cons innermost outer =>
        rw [standing] at running elsewhere
        exact (running.1.interrupted fun old new isSwitch =>
          absurd (congrArg some isSwitch) (elsewhere old new)).2
  contexts := invariant.contexts

/-- Where an activation can begin: all that are there can be interrupted. -/
theorem interrupted (invariant : IdentityInvariant machine)
    (spared : AlarmSparesHandover machine .alarm) :
    (∀ statement ∈ machine.cpu.activations, statement.KeptBy machine.cpu.stack) ∧
      machine.gtCurrent = machine.cpu.stack := by
  have running := invariant.running
  unfold AlarmSparesHandover at spared
  cases standing : machine.cpu.activations with
  | nil =>
      rw [standing] at running
      exact ⟨nofun, running⟩
  | cons innermost outer =>
      rw [standing] at running spared
      obtain ⟨kept, current⟩ := running.1.interrupted fun old new isSwitch => by
        subst isSwitch
        exact spared
      exact ⟨List.forall_mem_cons.mpr ⟨kept, running.2⟩, current⟩

/-- A new activation of `gt_schedule`. -/
theorem enter (invariant : IdentityInvariant machine)
    (spared : AlarmSparesHandover machine .alarm) (masked : Bool) :
    IdentityInvariant { machine.enter with masked := masked } := by
  obtain ⟨kept, current⟩ := invariant.interrupted spared
  exact ⟨⟨current, kept⟩, invariant.contexts, invariant.kept⟩

/-- The innermost activation moves to a statement that says the same of its stack. -/
theorem goto (invariant : IdentityInvariant machine) {innermost next : Statement N}
    {outer : List (Statement N)} (standing : machine.cpu.activations = innermost :: outer)
    {after : Machine N Loc} (saved : after.saved = machine.saved)
    (moved : after.cpu = { machine.cpu with activations := next :: outer })
    (runs : next.RunsOn after.gtCurrent machine.cpu.stack) : IdentityInvariant after := by
  have running := invariant.running
  rw [standing] at running
  refine ⟨?_, fun slot => ?_, fun slot => ?_⟩
  · rw [moved]
    exact ⟨runs, running.2⟩
  · rw [saved]
    exact invariant.contexts slot
  · rw [saved]
    exact invariant.kept slot

/-- `gt_switch` saves the running context in its own slot and resumes one on the
stack of the current slot. -/
theorem switch (invariant : IdentityInvariant machine) {old new : Fin N}
    {outer : List (Statement N)} (standing : machine.cpu.activations = .switch old new :: outer)
    (rsp : Nat) : IdentityInvariant (machine.switchContext rsp old new) := by
  have running := invariant.running
  rw [standing] at running
  obtain ⟨⟨isOld, isNew⟩, kept⟩ := running
  have saved (slot : Fin N) :
      ((machine.switchContext rsp old new).saved slot).stack = slot ∧
        ∀ statement ∈ ((machine.switchContext rsp old new).saved slot).activations,
          statement.KeptBy slot := by
    by_cases same : slot = old
    · subst same
      simp only [Machine.switchContext, Function.update_self, standing, List.tail_cons, isOld,
        List.forall_mem_cons]
      exact ⟨trivial, trivial, kept⟩
    · simp only [Machine.switchContext, Function.update_of_ne same]
      exact ⟨invariant.contexts slot, invariant.kept slot⟩
  have onNew : (machine.switchContext rsp old new).cpu.stack = new := (saved new).1
  refine ⟨activationsRun_of_kept ?_ ?_, fun slot => (saved slot).1, fun slot => (saved slot).2⟩
  · rw [onNew]
    exact (saved new).2
  · rw [onNew]
    exact isNew.symm

/-- One statement of `gt_schedule`. -/
theorem scheduleStatement (invariant : IdentityInvariant machine) (algorithm : Algorithm)
    (inputs : StatementInputs) {statement : Statement N} {outer : List (Statement N)}
    (standing : machine.cpu.activations = statement :: outer) :
    IdentityInvariant (machine.scheduleStatement algorithm inputs statement) := by
  have moved (next : Statement N) :
      (machine.goto next).cpu = { machine.cpu with activations := next :: outer } := by
    simp only [Machine.goto, standing, List.tail_cons]
  have running := invariant.running
  rw [standing] at running
  obtain ⟨runs, kept⟩ := running
  cases statement with
  | resetSig => exact invariant.goto standing rfl (moved .start) runs
  | start => exact invariant.goto standing rfl (moved _) runs
  | select cursor =>
      obtain ⟨next, gtTable, scanned, -, ⟨cursor, rfl⟩ | ⟨p, rfl⟩⟩ :=
        machine.scan_spec inputs.draw cursor
      all_goals
        change IdentityInvariant (machine.scan _ _)
        rw [scanned]
        exact invariant.goto standing rfl (moved _) runs
  | testCurrent p =>
      simp only [Machine.scheduleStatement]
      split
      · exact invariant.goto standing rfl (moved _) runs
      · exact invariant.goto standing rfl (moved _) runs
  | readyTest thread p =>
      simp only [Machine.scheduleStatement]
      split
      · exact invariant.goto standing rfl (moved _) runs
      · exact invariant.goto standing rfl (moved _) runs
  | readyWrite thread p => exact invariant.goto standing rfl (moved _) runs
  | runTest p =>
      simp only [Machine.scheduleStatement]
      split
      · exact invariant.goto standing rfl (moved _) runs
      · exact invariant.goto standing rfl (moved _) runs
  | runWrite p => exact invariant.goto standing rfl (moved _) runs
  -- `old` is read when `gt_current` is still the thread that runs.
  | prepare p => exact invariant.goto standing rfl (moved _) ⟨runs, runs⟩
  | setCurrent old p => exact invariant.goto standing rfl (moved _) ⟨runs.1, rfl⟩
  | switch old new => exact invariant.switch standing inputs.rsp
  | finish =>
      refine ⟨?_, invariant.contexts, invariant.kept⟩
      change ActivationsRun machine.gtCurrent machine.cpu.stack machine.cpu.activations.tail
      rw [standing]
      exact activationsRun_of_kept kept runs

/-- Thread code changes neither `gt_current` nor its stack, and writes contexts on
the stacks of their slots. -/
theorem inCode (invariant : IdentityInvariant machine) (code : machine.cpu.activations = [])
    {after : Machine N Loc} (activations : after.cpu.activations = [])
    (stack : after.cpu.stack = machine.cpu.stack) (gtCurrent : after.gtCurrent = machine.gtCurrent)
    (saved : ∀ slot, after.saved slot = machine.saved slot ∨
      (after.saved slot).stack = slot ∧ (after.saved slot).activations = []) :
    IdentityInvariant after := by
  have running := invariant.running
  rw [code] at running
  refine ⟨?_, fun slot => ?_, fun slot => ?_⟩
  · rw [activations, stack, gtCurrent]
    exact running
  · obtain same | ⟨onSlot, -⟩ := saved slot
    · rw [same]
      exact invariant.contexts slot
    · exact onSlot
  · obtain same | ⟨-, fresh⟩ := saved slot
    · rw [same]
      exact invariant.kept slot
    · rw [fresh]
      exact nofun

/-- In thread code `gt_schedule` can be entered. -/
theorem enterFromCode (invariant : IdentityInvariant machine)
    (code : machine.cpu.activations = []) : IdentityInvariant machine.enter := by
  have spared : AlarmSparesHandover machine .alarm := by
    simp only [AlarmSparesHandover, code]
  exact invariant.enter spared machine.masked

/-- One statement of `gt_create` or `gt_return`, or the return from a semaphore
operation. -/
theorem threadStatement [NeZero N] (invariant : IdentityInvariant machine)
    (code : machine.cpu.activations = []) {entry : Loc} {inputs : StatementInputs}
    {after : Machine N Loc} (stepped : machine.threadStatement entry inputs = some after) :
    IdentityInvariant after := by
  unfold Machine.threadStatement at stepped
  cases doing : machine.cpu.activity with
  | code => simp only [doing, reduceCtorEq] at stepped
  | createSearch =>
      simp only [doing] at stepped
      split at stepped
      · split at stepped
        all_goals
          cases stepped
          exact invariant.inCode code code rfl rfl fun _ => .inl rfl
      · cases stepped
        exact invariant.inCode code code rfl rfl fun _ => .inl rfl
  | createAlloc | createTest | returnTest =>
      simp only [doing] at stepped
      split at stepped
      all_goals
        cases stepped
        exact invariant.inCode code code rfl rfl fun _ => .inl rfl
  | createContext p priority base =>
      simp only [doing] at stepped
      cases stepped
      refine invariant.inCode code code rfl rfl fun slot => ?_
      by_cases isNew : slot = p
      · subst isNew
        simp
      · simp [isNew]
  | createPriority | createSkip | createLo | createHi | createTotal | createStats | createWrite
  | waitReturn | postReturn | returnUnused | returnFree =>
      simp only [doing] at stepped
      cases stepped
      exact invariant.inCode code code rfl rfl fun _ => .inl rfl
  | returnAssert =>
      simp only [doing] at stepped
      cases stepped
      exact invariant.inCode code code rfl rfl fun _ => .inl rfl
  | returnSchedule =>
      simp only [doing] at stepped
      cases stepped
      have moved : IdentityInvariant (machine.doing .returnAssert) :=
        invariant.inCode code code rfl rfl fun _ => .inl rfl
      exact moved.enterFromCode code
  | returnLoop =>
      simp only [doing] at stepped
      cases stepped
      exact invariant.enterFromCode code

/-- Thread code makes a call. -/
theorem makeCall [NeZero N] (invariant : IdentityInvariant machine)
    (code : machine.cpu.activations = []) {now : Timeval} {call : Call} {after : Machine N Loc}
    (called : machine.makeCall now call = some after) : IdentityInvariant after := by
  cases call with
  | gtCreate | gtReturn =>
      cases called
      exact invariant.inCode code code rfl rfl fun _ => .inl rfl
  | schedule =>
      cases called
      exact invariant.enterFromCode code
  | semWait | semPost =>
      obtain ⟨finished, body, rfl⟩ := Option.map_eq_some_iff.mp called
      obtain ⟨semaphore, -, body⟩ := Option.bind_eq_some_iff.mp body
      split at body
      all_goals
        cases body
        exact invariant.inCode code code rfl rfl fun _ => .inl rfl

/-- Every step whose alarm spares the handover keeps the invariant. -/
theorem step [NeZero N] {algorithm : Algorithm} {program : Program}
    {before after : Machine N program.Loc} {event : Event}
    (invariant : IdentityInvariant before) (spared : AlarmSparesHandover before event)
    (stepped : (preemptive algorithm program).step before event = some after) :
    IdentityInvariant after := by
  simp only [preemptive] at stepped
  split at stepped
  · cases event with
    | alarm =>
        dsimp only at stepped
        split at stepped
        · cases stepped
        · cases stepped
          exact invariant.enter spared true
    | call call now =>
        dsimp only at stepped
        split at stepped
        · next standing =>
            obtain ⟨loc, -, called⟩ := Option.bind_eq_some_iff.mp stepped
            have located :
                IdentityInvariant { before with cpu := { before.cpu with loc := loc } } :=
              ⟨invariant.running, invariant.contexts, invariant.kept⟩
            exact located.makeCall standing.1 called
        · cases stepped
    | statement inputs =>
        dsimp only at stepped
        split at stepped
        · next code => exact invariant.threadStatement code stepped
        · next statement outer standing =>
            cases stepped
            exact invariant.scheduleStatement algorithm inputs standing
  · cases stepped

theorem boot [NeZero N] (program : Program) (clock : Nat → Timeval)
    (semaphores : List (Semaphore N)) :
    IdentityInvariant (bootMachine program clock semaphores) :=
  ⟨rfl, fun _ => rfl, fun _ => nofun⟩

end IdentityInvariant

/-- An alarm at the handover starts a `gt_schedule` under the name of another
thread. -/
theorem not_namesRunning_of_alarm [NeZero N] {algorithm : Algorithm} {program : Program}
    {before after : Machine N program.Loc} (invariant : IdentityInvariant before)
    (taken : ¬ AlarmSparesHandover before .alarm)
    (stepped : (preemptive algorithm program).step before .alarm = some after) :
    ¬ NamesRunning after := by
  have entered : after = { before.enter with masked := true } := by
    simp only [preemptive] at stepped
    split at stepped
    · split at stepped
      · cases stepped
      · exact (Option.some.inj stepped).symm
    · cases stepped
  subst entered
  intro names
  have current : before.gtCurrent = before.cpu.stack := names.current (by simp)
  refine taken ?_
  have running := invariant.running
  unfold AlarmSparesHandover
  split
  · next old new outer _ standing =>
      rw [standing] at running
      exact running.1.1.trans (current.symm.trans running.1.2.symm)
  · trivial

/-- In every run whose alarms spare the handover, `gt_current` names the thread
whose stack is in use and no thread's context is replaced by another's; a further
step keeps this exactly when it is not an alarm at the handover. -/
theorem gt_current_names_running [NeZero N] (algorithm : Algorithm) (program : Program)
    (clock : Nat → Timeval) (semaphores : List (Semaphore N)) {machine : Machine N program.Loc}
    (reached : (preemptive algorithm program).Reached AlarmSparesHandover
      (bootMachine program clock semaphores) machine) :
    NamesRunning machine ∧ ∀ event after,
      (preemptive algorithm program).step machine event = some after →
        (NamesRunning after ↔ AlarmSparesHandover machine event) := by
  have invariant : IdentityInvariant machine :=
    reached.invariant (.boot program clock semaphores)
      fun _ _ _ invariant spared stepped => invariant.step spared stepped
  refine ⟨invariant.namesRunning, fun event after stepped => ⟨fun names => ?_, fun spared => ?_⟩⟩
  · by_contra taken
    cases event with
    | alarm => exact not_namesRunning_of_alarm invariant taken stepped names
    | call | statement => exact taken trivial
  · exact (invariant.step spared stepped).namesRunning

/-- An alarm just before `gt_current` is assigned is harmless: the nested
`gt_schedule` chooses the thread that runs. -/
theorem gt_current_names_running_nested :
    ∃ machine : Machine maxGThreads Unit,
      (machine.cpu.activations = [] ∧ machine.cpu.stack = 1) ∧ machine.gtCurrent = 1 := by
  obtain ⟨machine, reached, standing⟩ := PartialMachine.exists_reached_of_any
    (preemptive .roundRobin anyProgram) AlarmSparesHandover
    (bootMachine anyProgram (fun _ => initTimeval) [])
    (createOne ++ .call .schedule initTimeval :: statements 12 0 ++ .alarm :: statements 13 0)
    (fun machine : Machine maxGThreads Unit =>
      machine.cpu.activations = [] ∧ machine.cpu.stack = 1)
    (by decide +kernel)
  have named := (gt_current_names_running .roundRobin anyProgram _ [] reached).1.current
  refine ⟨machine, standing, (named fun old new => ?_).trans standing.2⟩
  rw [standing.1]
  exact nofun

/-- One statement later it is not: the nested `gt_schedule` saves the context of
the initial thread as the created thread's, which is Ready and can run no more. -/
theorem alarm_at_handover_loses_context :
    ∃ machine : Machine maxGThreads Unit,
      (preemptive .roundRobin anyProgram).Reached PartialMachine.anyStep
        (bootMachine anyProgram (fun _ => initTimeval) []) machine ∧
          machine.cpu.activations = [] ∧ (machine.gtTable 1).state = .ready ∧
            machine.cpu.stack ≠ 1 ∧ ∀ slot, (machine.saved slot).stack ≠ 1 :=
  PartialMachine.exists_reached_of_any _ _ _
    (createOne ++ .call .schedule initTimeval :: statements 13 0 ++ .alarm :: statements 23 0)
    (fun machine : Machine maxGThreads Unit =>
      machine.cpu.activations = [] ∧ (machine.gtTable 1).state = .ready ∧
        machine.cpu.stack ≠ 1 ∧ ∀ slot, (machine.saved slot).stack ≠ 1)
    (by decide +kernel)

end Ivos.Scheduler
