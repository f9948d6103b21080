/-
Module: Ivos.Scheduler.BoundedWaiting
Purpose: How many calls of `gt_schedule` a Ready thread waits for under
  `round_robin` and `round_robin_prio`.
Trusted boundary: none
Main exports: Waits, Selects, scheduleCalled, Performed.selection, Performed.rests,
  NotReadyAtSchedule, round_robin_selects, self_woken_thread_starves, scanPasses,
  aging_bounds_bypass
-/
import Ivos.Library.BoundedResponse
import Ivos.Scheduler.Rotation
import Mathlib.Tactic.Ring

namespace Ivos.Scheduler

variable {N : Nat} [NeZero N]

/-! ### Calls of `gt_schedule`

Waiting is counted in calls of `gt_schedule`, whoever makes them: the alarm, the thread, or
`gt_return`.  Between two calls the current thread may create threads and use semaphores.
-/

/-- A step of a run of the scheduler. -/
abbrev SchedulerStep (N : Nat) := Transition (Sched N) (Operation × Inputs)

/-- The thread of the slot waits for the processor. -/
def Waits (sched : Sched N) (slot : Fin N) : Prop :=
  (sched.gtTable slot).state = .ready ∧ slot ≠ sched.gtCurrent

instance (sched : Sched N) (slot : Fin N) : Decidable (Waits sched slot) :=
  inferInstanceAs (Decidable (_ ∧ _))

/-- The number of calls of `gt_schedule` in a step. -/
def scheduleCalled (step : SchedulerStep N) : Nat := (callsSchedule step.label.1).toNat

omit [NeZero N] in
/-- The calls of `gt_schedule` are those of the operations. -/
theorem scheduleCalled_sum (steps : List (SchedulerStep N)) :
    (steps.map scheduleCalled).sum =
      ((steps.map Transition.label).map fun label => (callsSchedule label.1).toNat).sum := by
  rw [List.map_map]
  rfl

/-- The step is a call of `gt_schedule` that selects the slot. -/
def Selects (slot : Fin N) (step : SchedulerStep N) : Prop :=
  callsSchedule step.label.1 = true ∧ step.after.gtCurrent = slot

omit [NeZero N] in
/-- `gt_schedule` changes no slot but the current and the chosen one behind the
selector. -/
theorem switchTo_gtTable_of_ne {inputs : Inputs} {choice : Choice N} {sched : Sched N}
    {slot : Fin N} (notCurrent : slot ≠ sched.gtCurrent) (notChosen : slot ≠ choice.thread) :
    (switchTo inputs choice sched).gtTable slot = choice.gtTable slot := by
  simp only [switchTo, gtSwitch, Table.modify_of_ne _ notCurrent, Table.modify_of_ne _ notChosen]
  split
  · rw [Table.modify_of_ne _ notCurrent]
  · rfl

/-- What an operation that calls `gt_schedule` selects and leaves alone. -/
theorem Performed.selection {algorithm : Algorithm} {operation : Operation} {inputs : Inputs}
    {before after : Sched N} (performed : Performed algorithm inputs before operation after)
    (calls : callsSchedule operation = true) :
    ∃ choice, getNextThread algorithm (scannedTable before operation) before.gtCurrent
        before.totalTickets inputs.draw inputs.fuel before.gtCurrent = some choice ∧
      after.gtCurrent = choice.thread ∧
      ∀ slot, slot ≠ before.gtCurrent → slot ≠ choice.thread →
        after.gtTable slot = choice.gtTable slot := by
  cases performed with
  | created | reset | added | passed | queued | raised | woke => cases calls
  | scheduled ran =>
      obtain ⟨-, choice, chosen, -, rfl⟩ := reschedule_eq_some ran
      rw [resume_gtTable, resume_gtCurrent]
      exact ⟨choice, chosen, rfl, fun slot => switchTo_gtTable_of_ne⟩
  | returned notInitial ran =>
      obtain ⟨-, choice, chosen, -, rfl⟩ := reschedule_eq_some ran
      rw [resume_gtTable, resume_gtCurrent]
      refine ⟨choice, ?_, rfl, fun slot => switchTo_gtTable_of_ne⟩
      unfold scannedTable
      dsimp only
      rw [if_pos notInitial]
      exact chosen
  | awaited isInitial ran =>
      obtain ⟨-, choice, chosen, -, rfl⟩ := reschedule_eq_some ran
      rw [resume_gtTable, resume_gtCurrent]
      refine ⟨choice, ?_, rfl, fun slot => switchTo_gtTable_of_ne⟩
      unfold scannedTable
      dsimp only
      rw [if_neg (not_not.mpr isInitial)]
      exact chosen

/-- The scan sees every slot but the current one as it was. -/
theorem scannedTable_of_ne {sched : Sched N} {slot : Fin N} (other : slot ≠ sched.gtCurrent)
    (operation : Operation) : scannedTable sched operation slot = sched.gtTable slot := by
  cases operation with
  | gtReturn =>
      unfold scannedTable
      dsimp only
      split
      · unfold retire
        dsimp only
        rw [Table.modify_of_ne _ other]
      · rfl
  | gtCreate | schedule | semInit | semWait | semPost => rfl

/-- An operation that does not call `gt_schedule` leaves a Ready slot that is not current
as it is, but for a clock reading. -/
theorem Performed.rests {algorithm : Algorithm} {operation : Operation} {inputs : Inputs}
    {before after : Sched N} (performed : Performed algorithm inputs before operation after)
    (noCall : callsSchedule operation = false) {slot : Fin N} (waits : Waits before slot) :
    after.gtCurrent = before.gtCurrent ∧ (after.gtTable slot).state = .ready ∧
      passesLeft (after.gtTable slot) = passesLeft (before.gtTable slot) := by
  obtain ⟨isReady, notCurrent⟩ := waits
  cases performed with
  | scheduled | returned | awaited => cases noCall
  | created priority stack =>
      rcases gtCreate_spec priority stack inputs.clock before with same | ⟨claimed, created⟩
      · rw [same]
        exact ⟨rfl, isReady, rfl⟩
      · have other : slot ≠ claimed := by
          rintro rfl
          have unused := created.wasUnused
          rw [isReady] at unused
          cases unused
        rw [created.others slot other]
        exact ⟨created.gtCurrent, isReady, rfl⟩
  | reset | added | passed | raised => exact ⟨rfl, isReady, rfl⟩
  | queued =>
      dsimp only
      rw [Table.modify_of_ne _ notCurrent]
      exact ⟨rfl, isReady, rfl⟩
  | @woke sem semaphore thread queue found waiter =>
      dsimp only
      by_cases isWoken : slot = thread
      · obtain ⟨-, priority, skipCount, -, -⟩ :=
          updateThreadState_frame (inputs.clock 0) .ready (before.gtTable thread)
        rw [isWoken, Table.modify_self, updateThreadState_state, passesLeft, passesLeft, priority,
          skipCount]
        exact ⟨rfl, rfl, rfl⟩
      · rw [Table.modify_of_ne _ isWoken]
        exact ⟨rfl, isReady, rfl⟩

/-- A thread waits until `gt_schedule` selects it. -/
theorem waits_until_selected {algorithm : Algorithm} {slot : Fin N} {step : SchedulerStep N}
    (stepped : (scheduler algorithm).step step.before step.label = some step.after)
    (waits : Waits step.before slot) (putOff : ¬ Selects slot step) : Waits step.after slot := by
  obtain ⟨performed, -, -⟩ := scheduler_step stepped
  cases calls : callsSchedule step.label.1 with
  | false =>
      obtain ⟨sameCurrent, isReady, -⟩ := performed.rests calls waits
      exact ⟨isReady, sameCurrent ▸ waits.2⟩
  | true =>
      obtain ⟨choice, chosen, selected, others⟩ := performed.selection calls
      have notChosen : slot ≠ choice.thread := by
        rintro rfl
        exact putOff ⟨calls, selected⟩
      refine ⟨?_, selected ▸ notChosen⟩
      rw [others slot waits.2 notChosen, (getNextThread_sound chosen).sameStates,
        scannedTable_of_ne waits.2, waits.1]

omit [NeZero N] in
/-- A waiting thread lets `gt_schedule` return. -/
theorem Waits.gtSchedule {algorithm : Algorithm} {sched : Sched N} {slot : Fin N}
    (waits : Waits sched slot) {inputs : Inputs}
    (enough : patience sched.gtTable sched.gtCurrent slot < inputs.fuel) :
    ∃ after, gtSchedule algorithm inputs sched = some (true, after) := by
  obtain ⟨choice, chosen⟩ :=
    getNextThread_of_ready algorithm waits.1 sched.totalTickets inputs.draw enough
  refine ⟨switchTo inputs choice sched, ?_⟩
  simp [Scheduler.gtSchedule, chosen, (getNextThread_sound chosen).found]

/-! ### Rotation under `round_robin` -/

/-- `gt_schedule` is called only while the current slot is not Ready. -/
def NotReadyAtSchedule (sched : Sched N) (label : Operation × Inputs) : Prop :=
  callsSchedule label.1 = true →
    (scannedTable sched label.1 sched.gtCurrent).state ≠ .ready

instance (sched : Sched N) (label : Operation × Inputs) :
    Decidable (NotReadyAtSchedule sched label) :=
  inferInstanceAs (Decidable (_ → _))

/-- Every call of `gt_schedule` that selects another slot comes closer to this one. -/
theorem rotation_pays {slot : Fin N} (step : SchedulerStep N)
    (permitted : NotReadyAtSchedule step.before step.label)
    (stepped : (scheduler .roundRobin).step step.before step.label = some step.after)
    (waits : Waits step.before slot) (putOff : ¬ Selects slot step) :
    Waits step.after slot ∧
      stepsTo step.after.gtCurrent slot + scheduleCalled step ≤
        stepsTo step.before.gtCurrent slot := by
  refine ⟨waits_until_selected stepped waits putOff, ?_⟩
  obtain ⟨performed, -, -⟩ := scheduler_step stepped
  unfold scheduleCalled
  cases calls : callsSchedule step.label.1 with
  | false =>
      obtain ⟨sameCurrent, -, -⟩ := performed.rests calls waits
      rw [sameCurrent]
      exact Nat.le_refl _
  | true =>
      obtain ⟨choice, chosen, selected, -⟩ := performed.selection calls
      have isReady : (scannedTable step.before step.label.1 slot).state = .ready := by
        rw [scannedTable_of_ne waits.2]
        exact waits.1
      have other : choice.thread ≠ slot := fun isChosen => putOff ⟨calls, selected.trans isChosen⟩
      have closer := roundRobin_toward isReady (permitted calls) chosen other
      rw [selected]
      exact closer

/-- In a run that never calls `gt_schedule` with the current slot Ready, a waiting
slot is selected within `N` calls, and until then every call returns. -/
theorem round_robin_selects {before after : Sched N} {steps : List (SchedulerStep N)}
    {slot : Fin N} (waits : Waits before slot)
    (path : (scheduler .roundRobin).Path NotReadyAtSchedule before steps after) :
    (N ≤ (steps.map scheduleCalled).sum → ∃ step ∈ steps, Selects slot step) ∧
    ((∀ step ∈ steps, ¬ Selects slot step) → ∃ enough, ∀ inputs, enough ≤ inputs.fuel →
      ∃ called, gtSchedule .roundRobin inputs after = some (true, called)) := by
  constructor
  · intro calls
    have near : stepsTo before.gtCurrent slot < N := stepsTo_lt waits.2
    exact path.goal_within (Waits · slot) (stepsTo ·.gtCurrent slot) rotation_pays waits
      (near.trans_le calls)
  · intro putOff
    obtain ⟨stillWaits, -⟩ :=
      path.measure_pays (Waits · slot) (stepsTo ·.gtCurrent slot) rotation_pays waits putOff
    exact ⟨_, fun inputs enough => stillWaits.gtSchedule (Nat.lt_of_succ_le enough)⟩

/-- A thread blocks on a semaphore and is taken off the processor, and the last of three
threads gets its turn. -/
theorem round_robin_selects_last : ∃ before after : Sched maxGThreads, ∃ steps,
    Waits before 3 ∧
    (scheduler .roundRobin).Path NotReadyAtSchedule before steps after ∧
    ∃ step ∈ steps, Selects 3 step := by
  obtain ⟨before, -, waits, runs⟩ := PartialMachine.exists_reached_of_any
    (scheduler .roundRobin) PartialMachine.anyStep (gtInit fun _ => initTimeval)
    [(.semInit 0 0, stoppedClock 0), (.gtCreate 0 (some 0x1000), stoppedClock 0),
      (.gtCreate 0 (some 0x500000), stoppedClock 0), (.gtCreate 0 (some 0x900000), stoppedClock 0)]
    (fun sched : Sched maxGThreads => Waits sched 3 ∧
      ((scheduler .roundRobin).runWithin NotReadyAtSchedule sched
        [(.schedule, stoppedClock 0), (.semWait 0, stoppedClock 0), (.schedule, stoppedClock 0),
          (.schedule, stoppedClock 0), (.schedule, stoppedClock 0),
          (.schedule, stoppedClock 0)]).isSome = true)
    (by decide +kernel)
  obtain ⟨after, ran⟩ := Option.isSome_iff_exists.mp runs
  obtain ⟨steps, path, labelled⟩ := PartialMachine.Path.of_runWithin ran
  have calls : (steps.map scheduleCalled).sum = maxGThreads := by
    rw [scheduleCalled_sum, labelled]
    decide
  exact ⟨before, after, steps, waits, path, (round_robin_selects waits path).1 calls.ge⟩

/-- The operations of a run in which the current thread creates threads and uses
semaphores between the alarms. -/
def BetweenAlarms : Operation → Prop
  | .gtCreate .. | .schedule | .semWait .. | .semPost .. => True
  | .gtReturn | .semInit .. => False

instance : DecidablePred BetweenAlarms
  | .gtCreate .. | .schedule | .semWait .. | .semPost .. => inferInstanceAs (Decidable True)
  | .gtReturn | .semInit .. => inferInstanceAs (Decidable False)

/-- Such an operation, when it does not make the slot current. -/
def PassesBy (slot : Fin N) (sched : Sched N) (label : Operation × Inputs) : Prop :=
  BetweenAlarms label.1 ∧
    ((scheduler .roundRobin).step sched label).all (fun after => after.gtCurrent ≠ slot) = true

instance (slot : Fin N) (sched : Sched N) (label : Operation × Inputs) :
    Decidable (PassesBy slot sched label) :=
  inferInstanceAs (Decidable (_ ∧ _))

/-- The current thread waits on a semaphore, wakes itself and is asked to schedule, over
and over. -/
def selfWaking (rounds : Nat) : List (Operation × Inputs) :=
  (List.replicate rounds [(.semWait 0, stoppedClock 0), (.semPost 0, stoppedClock 0),
    (.schedule, stoppedClock 0)]).flatten

/-- The run of such a thread never selects the thread that waits beside it. -/
theorem selfWaking_run : ∃ before after : Sched maxGThreads, ∃ steps,
    (scheduler .roundRobin).Reached PartialMachine.anyStep (gtInit fun _ => initTimeval) before ∧
    Waits before 1 ∧
    (scheduler .roundRobin).Path (fun _ label => BetweenAlarms label.1) before steps after ∧
    steps.map Transition.label = selfWaking maxGThreads ∧
    ∀ step ∈ steps, step.after.gtCurrent ≠ 1 := by
  obtain ⟨before, reached, waits, runs⟩ := PartialMachine.exists_reached_of_any
    (scheduler .roundRobin) PartialMachine.anyStep (gtInit fun _ => initTimeval)
    [(.semInit 0 0, stoppedClock 0), (.gtCreate 0 (some 0x1000), stoppedClock 0)]
    (fun sched : Sched maxGThreads => Waits sched 1 ∧
      ((scheduler .roundRobin).runWithin (PassesBy 1) sched (selfWaking maxGThreads)).isSome = true)
    (by decide +kernel)
  obtain ⟨after, ran⟩ := Option.isSome_iff_exists.mp runs
  obtain ⟨steps, path, labelled⟩ := PartialMachine.Path.of_runWithin ran
  refine ⟨before, after, steps, reached, waits, path.weaken fun _ _ passes => passes.1, labelled,
    ?_⟩
  intro step member
  obtain ⟨⟨-, notSelected⟩, stepped⟩ := path.permitted_of_mem member
  rw [stepped] at notSelected
  simpa using notSelected

/-- A thread that wakes itself keeps the processor: after `N` calls of `gt_schedule` the
thread beside it still waits. -/
theorem self_woken_thread_starves :
    ¬ ∀ (before after : Sched maxGThreads) (steps : List (SchedulerStep maxGThreads))
      (slot : Fin maxGThreads),
      (scheduler .roundRobin).Reached PartialMachine.anyStep (gtInit fun _ => initTimeval)
          before →
        Waits before slot →
        (scheduler .roundRobin).Path (fun _ label => BetweenAlarms label.1) before steps after →
        maxGThreads ≤ (steps.map scheduleCalled).sum →
        ∃ step ∈ steps, Selects slot step := by
  intro claimed
  obtain ⟨before, after, steps, reached, waits, path, labelled, passedBy⟩ := selfWaking_run
  have calls : (steps.map scheduleCalled).sum = maxGThreads := by
    rw [scheduleCalled_sum, labelled]
    decide
  obtain ⟨step, member, selected⟩ := claimed before after steps 1 reached waits path calls.ge
  exact passedBy step member selected.2

/-! ### Aging under `round_robin_prio` -/

/-- How often the scans of the step pass over the slot. -/
def scanPasses (slot : Fin N) (step : SchedulerStep N) : Nat :=
  if callsSchedule step.label.1 = true then
    (prioPassed step.before.gtCurrent step.label.2.fuel
      (scannedTable step.before step.label.1) step.before.gtCurrent).count slot
  else 0

/-- What a call of `gt_schedule` does to a waiting slot. -/
theorem Performed.advance {inputs : Inputs} {operation : Operation} {before after : Sched N}
    (performed : Performed .roundRobinPrio inputs before operation after)
    (calls : callsSchedule operation = true) {slot : Fin N} (waits : Waits before slot) :
    ∃ choice, after.gtCurrent = choice.thread ∧
      (choice.thread ≠ slot → after.gtTable slot = choice.gtTable slot) ∧
      PrioAdvance (scannedTable before operation) before.gtCurrent slot choice
        (scanPasses slot ⟨before, (operation, inputs), after⟩) := by
  obtain ⟨choice, chosen, selected, others⟩ := performed.selection calls
  refine ⟨choice, selected, fun other => others slot waits.2 other.symm, ?_⟩
  unfold scanPasses
  rw [if_pos calls]
  apply roundRobinPrio_toward
  · rw [scannedTable_of_ne waits.2]
    exact waits.1
  · exact waits.2
  · exact chosen

/-- The passes of one step are paid from those the slot has left. -/
theorem scanPasses_affordable {slot : Fin N} (step : SchedulerStep N)
    (stepped : (scheduler .roundRobinPrio).step step.before step.label = some step.after)
    (waits : Waits step.before slot) :
    scanPasses slot step ≤ passesLeft (step.before.gtTable slot) := by
  obtain ⟨performed, -, -⟩ := scheduler_step stepped
  cases calls : callsSchedule step.label.1 with
  | false =>
      unfold scanPasses
      rw [calls, if_neg Bool.false_ne_true]
      exact Nat.zero_le _
  | true =>
      obtain ⟨choice, -, -, advance⟩ := performed.advance calls waits
      rw [← scannedTable_of_ne waits.2 step.label.1]
      exact advance.affordable

/-- A step that does not select the slot uses up its passes. -/
theorem scanPasses_pays {slot : Fin N} (step : SchedulerStep N)
    (stepped : (scheduler .roundRobinPrio).step step.before step.label = some step.after)
    (waits : Waits step.before slot) (putOff : ¬ Selects slot step) :
    Waits step.after slot ∧
      passesLeft (step.after.gtTable slot) + scanPasses slot step ≤
        passesLeft (step.before.gtTable slot) := by
  refine ⟨waits_until_selected stepped waits putOff, ?_⟩
  obtain ⟨performed, -, -⟩ := scheduler_step stepped
  cases calls : callsSchedule step.label.1 with
  | false =>
      obtain ⟨-, -, samePasses⟩ := performed.rests calls waits
      unfold scanPasses
      rw [calls, if_neg Bool.false_ne_true, samePasses]
      exact Nat.le_refl _
  | true =>
      obtain ⟨choice, selected, same, advance⟩ := performed.advance calls waits
      have other : choice.thread ≠ slot := fun isChosen => putOff ⟨calls, selected.trans isChosen⟩
      rw [same other, ← scannedTable_of_ne waits.2 step.label.1]
      exact (advance.spent other).le

/-- Every call of `gt_schedule` that selects another slot brings the scan closer to
taking this one. -/
theorem aging_pays {slot : Fin N} (step : SchedulerStep N)
    (stepped : (scheduler .roundRobinPrio).step step.before step.label = some step.after)
    (waits : Waits step.before slot) (putOff : ¬ Selects slot step) :
    Waits step.after slot ∧
      patience step.after.gtTable step.after.gtCurrent slot + scheduleCalled step ≤
        patience step.before.gtTable step.before.gtCurrent slot := by
  refine ⟨waits_until_selected stepped waits putOff, ?_⟩
  obtain ⟨performed, -, -⟩ := scheduler_step stepped
  unfold scheduleCalled
  cases calls : callsSchedule step.label.1 with
  | false =>
      obtain ⟨sameCurrent, -, samePasses⟩ := performed.rests calls waits
      unfold patience
      rw [samePasses, sameCurrent]
      exact Nat.le_refl _
  | true =>
      obtain ⟨choice, selected, same, advance⟩ := performed.advance calls waits
      have other : choice.thread ≠ slot := fun isChosen => putOff ⟨calls, selected.trans isChosen⟩
      have closer := advance.closer other
      unfold patience at closer ⊢
      rw [scannedTable_of_ne waits.2] at closer
      rw [same other, selected]
      exact closer

omit [NeZero N] in
/-- A slot of a non-negative priority and skip count has no more passes left than its
priority. -/
theorem passesLeft_le_priority {thread : Gt} (skipCount : 0 ≤ thread.skipCount)
    (priority : 0 ≤ thread.priority) : (passesLeft thread : Int) ≤ thread.priority := by
  unfold passesLeft maxPriority
  omega

omit [NeZero N] in
/-- The scan meets fewer than `N * (priority + 1)` slots before it takes a waiting one. -/
theorem Waits.patience_lt {sched : Sched N} {slot : Fin N} (waits : Waits sched slot) {bound : Nat}
    (passes : passesLeft (sched.gtTable slot) ≤ bound) :
    patience sched.gtTable sched.gtCurrent slot < N * (bound + 1) := by
  have near : stepsTo sched.gtCurrent slot < N := stepsTo_lt waits.2
  calc patience sched.gtTable sched.gtCurrent slot
      = passesLeft (sched.gtTable slot) * N + stepsTo sched.gtCurrent slot := rfl
    _ < bound * N + N := Nat.add_lt_add_of_le_of_lt (Nat.mul_le_mul_right N passes) near
    _ = N * (bound + 1) := by ring

/-- Under `round_robin_prio` the scans pass over a waiting slot at most as often as its
priority says before they select it, which happens within `N * (priority + 1)` calls of
`gt_schedule`, and until then every call returns. -/
theorem aging_bounds_bypass {before after : Sched N} {steps : List (SchedulerStep N)}
    {slot : Fin N} (waits : Waits before slot) (priority : 0 ≤ (before.gtTable slot).priority)
    (skipCount : 0 ≤ (before.gtTable slot).skipCount)
    (path : (scheduler .roundRobinPrio).Path PartialMachine.anyStep before steps after) :
    ((∀ step ∈ steps.dropLast, ¬ Selects slot step) →
      ((steps.map (scanPasses slot)).sum : Int) ≤ (before.gtTable slot).priority) ∧
    (N * ((before.gtTable slot).priority + 1) ≤ (steps.map scheduleCalled).sum →
      ∃ step ∈ steps, Selects slot step) ∧
    ((∀ step ∈ steps, ¬ Selects slot step) → ∃ enough, ∀ inputs, enough ≤ inputs.fuel →
      ∃ called, gtSchedule .roundRobinPrio inputs after = some (true, called)) := by
  have affordable := passesLeft_le_priority skipCount priority
  refine ⟨fun putOff => ?_, fun calls => ?_, fun putOff => ?_⟩
  · have spent : (steps.map (scanPasses slot)).sum ≤ passesLeft (before.gtTable slot) := by
      apply path.cost_until (Waits · slot) fun sched => passesLeft (sched.gtTable slot)
      · exact fun step _ => scanPasses_pays step
      · exact fun step _ => scanPasses_affordable step
      · exact waits
      · exact putOff
    omega
  · obtain ⟨bound, isBound⟩ := Int.eq_ofNat_of_zero_le priority
    have near : patience before.gtTable before.gtCurrent slot < N * (bound + 1) := by
      apply waits.patience_lt
      omega
    apply path.goal_within (Waits · slot) fun sched => patience sched.gtTable sched.gtCurrent slot
    · exact fun step _ => aging_pays step
    · exact waits
    · rw [isBound] at calls
      exact near.trans_le (by exact_mod_cast calls)
  · obtain ⟨stillWaits, -⟩ := path.measure_pays (Waits · slot)
      (fun sched => patience sched.gtTable sched.gtCurrent slot) (fun step _ => aging_pays step)
      waits putOff
    exact ⟨_, fun inputs enough => stillWaits.gtSchedule (Nat.lt_of_succ_le enough)⟩

/-- A thread of priority 1 is selected although a more urgent one comes and goes. -/
theorem aging_bounds_bypass_second : ∃ before after : Sched maxGThreads, ∃ steps,
    (Waits before 2 ∧ (before.gtTable 2).priority = 1) ∧
    (scheduler .roundRobinPrio).Path PartialMachine.anyStep before steps after ∧
    ∃ step ∈ steps, Selects 2 step := by
  obtain ⟨before, -, ⟨waits, priority, skipCount⟩, runs⟩ := PartialMachine.exists_reached_of_any
    (scheduler .roundRobinPrio) PartialMachine.anyStep (gtInit fun _ => initTimeval)
    [(.gtCreate 0 (some 0x1000), stoppedClock 0), (.gtCreate 1 (some 0x500000), stoppedClock 0)]
    (fun sched : Sched maxGThreads => (Waits sched 2 ∧ (sched.gtTable 2).priority = 1 ∧
      (sched.gtTable 2).skipCount = 0) ∧
      ((scheduler .roundRobinPrio).runWithin PartialMachine.anyStep sched
        ((.schedule, stoppedClock 0) :: (.gtReturn, stoppedClock 0) ::
          List.replicate 8 (.schedule, stoppedClock 0))).isSome = true)
    (by decide +kernel)
  obtain ⟨after, ran⟩ := Option.isSome_iff_exists.mp runs
  obtain ⟨steps, path, labelled⟩ := PartialMachine.Path.of_runWithin ran
  have calls : (steps.map scheduleCalled).sum = 10 := by
    rw [scheduleCalled_sum, labelled]
    decide
  refine ⟨before, after, steps, ⟨waits, priority⟩, path,
    (aging_bounds_bypass waits (by omega) skipCount.ge path).2.1 ?_⟩
  rw [priority, calls]
  decide

end Ivos.Scheduler
