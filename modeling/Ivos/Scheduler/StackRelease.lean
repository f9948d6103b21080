/-
Module: Ivos.Scheduler.StackRelease
Purpose: Which address `gt_return` passes to `free`, over the whole history of switches
  of the thread that exits.
Trusted boundary: none
Main exports: StackRun, stackMachine, SavesInside, StacksKnown, ReleasesStack,
  gt_return_releases_never, exit_frees_end_of_stack
-/
import Ivos.Scheduler.Tickets

namespace Ivos.Scheduler

variable {N : Nat}

/-! ### Saved stack pointers

What `gt_return` frees is computed from the stack pointer in the context of the slot.  It is
written in two places: `gt_create` sets it near the top of the new stack, and `gt_switch`
saves the one of the thread it leaves.
-/

/-- Writing fields other than the saved context. -/
theorem Table.modify_ctx {gtTable : Table N} {slot : Fin N} {update : Gt → Gt}
    (same : (update (gtTable slot)).ctx = (gtTable slot).ctx) (other : Fin N) :
    (gtTable.modify slot update other).ctx = (gtTable other).ctx := by
  by_cases isSlot : other = slot
  · rw [isSlot, Table.modify_self, same]
  · rw [Table.modify_of_ne _ isSlot]

@[simp] theorem updateThreadState_ctx (now : Timeval) (newState : EState) (thread : Gt) :
    (updateThreadState now newState thread).ctx = thread.ctx :=
  (updateThreadState_frame now newState thread).1

/-- A switch saves the stack pointer of the thread it leaves and no other. -/
theorem switchTo_ctx (inputs : Inputs) (choice : Choice N) (sched : Sched N) (slot : Fin N) :
    ((switchTo inputs choice sched).gtTable slot).ctx =
      if slot = sched.gtCurrent then ⟨inputs.rsp⟩ else (choice.gtTable slot).ctx := by
  unfold switchTo gtSwitch
  dsimp only
  by_cases isCurrent : slot = sched.gtCurrent
  · rw [if_pos isCurrent, isCurrent, Table.modify_self]
  · rw [if_neg isCurrent, Table.modify_of_ne _ isCurrent,
      Table.modify_ctx (updateThreadState_ctx ..)]
    split
    · exact Table.modify_ctx (updateThreadState_ctx ..) slot
    · rfl

variable [NeZero N]

theorem reschedule_ctx {algorithm : Algorithm} {inputs : Inputs} {before after : Sched N}
    {result : Bool} (ran : reschedule algorithm inputs before = some (result, after))
    (slot : Fin N) :
    (after.gtTable slot).ctx =
      if slot = before.gtCurrent then ⟨inputs.rsp⟩ else (before.gtTable slot).ctx := by
  obtain ⟨-, choice, chosen, -, rfl⟩ := reschedule_eq_some ran
  obtain ⟨skipCount, written⟩ := getNextThread_onlySkips chosen slot
  rw [resume_gtTable, switchTo_ctx, written]

/-- Apart from `gt_create`, an operation saves the stack pointer of the current thread if it
calls `gt_schedule`, and no other. -/
theorem Performed.ctx {algorithm : Algorithm} {operation : Operation} {inputs : Inputs}
    {before after : Sched N} (performed : Performed algorithm inputs before operation after)
    (notCreate : ∀ priority stack, operation ≠ .gtCreate priority stack) (slot : Fin N) :
    (after.gtTable slot).ctx =
      if callsSchedule operation = true ∧ slot = before.gtCurrent then ⟨inputs.rsp⟩
      else (before.gtTable slot).ctx := by
  cases performed with
  | created priority stack => exact absurd rfl (notCreate priority stack)
  | scheduled ran =>
      rw [reschedule_ctx ran]
      simp [callsSchedule]
  | returned notInitial ran =>
      have retired : ((retire before).gtTable slot).ctx = (before.gtTable slot).ctx :=
        Table.modify_ctx rfl slot
      rw [reschedule_ctx ran, retired]
      exact if_congr ⟨fun isCurrent => ⟨rfl, isCurrent⟩, And.right⟩ rfl rfl
  | awaited isInitial ran =>
      rw [reschedule_ctx ran]
      simp [callsSchedule]
  | reset | added | passed | raised => simp [callsSchedule]
  | queued | woke =>
      dsimp only
      rw [Table.modify_ctx (updateThreadState_ctx ..)]
      simp [callsSchedule]

/-! ### Stack blocks

The address of the block that `gt_create` got from `malloc` is stored nowhere in the source.
It is kept here beside the state, a base for each slot, to compare with what is freed.
-/

/-- A scheduler state, and the address `malloc` returned for the stack of the thread in
each slot. -/
structure StackRun (N : Nat) where
  sched : Sched N
  stackBase : Fin N → Option Nat

/-- `stack = malloc(StackSize)` in a `gt_create` that succeeds. -/
def recordStack (sched : Sched N) (operation : Operation) (stackBase : Fin N → Option Nat) :
    Fin N → Option Nat :=
  match operation with
  | .gtCreate _ (some base) =>
      match findUnused sched.gtTable with
      | some p => Function.update stackBase p (some base)
      | none => stackBase
  | _ => stackBase

/-- The scheduler with the blocks recorded. -/
def stackMachine (algorithm : Algorithm) : PartialMachine (StackRun N) (Operation × Inputs) where
  step run label :=
    ((scheduler algorithm).step run.sched label).map fun after =>
      ⟨after, recordStack run.sched label.1 run.stackBase⟩

/-- The state behind `gt_init`. -/
def StackRun.boot (clock : Nat → Timeval) : StackRun N := ⟨gtInit clock, fun _ => none⟩

/-- The address is one of the block of `StackSize` bytes. -/
def InsideBlock (base address : Nat) : Prop := base ≤ address ∧ address < base + stackSize

instance (base address : Nat) : Decidable (InsideBlock base address) :=
  inferInstanceAs (Decidable (_ ∧ _))

/-- A created thread is switched out with its stack pointer inside its block. -/
def SavesInside (run : StackRun N) (label : Operation × Inputs) : Prop :=
  callsSchedule label.1 = true →
    ∀ base ∈ run.stackBase run.sched.gtCurrent, InsideBlock base label.2.rsp

instance (run : StackRun N) (label : Operation × Inputs) : Decidable (SavesInside run label) :=
  inferInstanceAs (Decidable (_ → _))

/-- What is known of the stacks: the saved stack pointer of a created thread lies in its
block, and every slot in use but the first has a block. -/
structure StacksKnown (run : StackRun N) : Prop where
  owned : TicketsOwned run.sched
  inside : ∀ slot, ∀ base ∈ run.stackBase slot,
    InsideBlock base (run.sched.gtTable slot).ctx.rsp
  created : ∀ slot, slot ≠ 0 → Claimed run.sched slot → ∃ base, run.stackBase slot = some base

omit [NeZero N] in
/-- A `gt_create` that succeeds lets the new thread start at the end of its block. -/
theorem gtCreate_stack (run : StackRun N) (priority : Int) (stack : Option ℕ+)
    (clock : Nat → Timeval) :
    ((gtCreate priority stack clock run.sched).2 = run.sched ∧
      recordStack run.sched (.gtCreate priority stack) run.stackBase = run.stackBase) ∨
    ∃ slot base, SlotCreated run.sched (gtCreate priority stack clock run.sched).2 slot priority ∧
      ((gtCreate priority stack clock run.sched).2.gtTable slot).ctx = ⟨base + stackSize - 16⟩ ∧
      recordStack run.sched (.gtCreate priority stack) run.stackBase =
        Function.update run.stackBase slot (some base) := by
  cases found : findUnused run.sched.gtTable with
  | none =>
      refine .inl ⟨by simp [gtCreate, found], ?_⟩
      cases stack with
      | none => rfl
      | some base => simp [recordStack, found]
  | some slot =>
      cases stack with
      | none => exact .inl ⟨by simp [gtCreate, found], rfl⟩
      | some base =>
          refine .inr ⟨slot, base, gtCreate_created found priority base clock, ?_, ?_⟩
          · unfold gtCreate
            rw [found]
            dsimp only
            rw [Table.modify_self, updateThreadState_ctx]
            rfl
          · simp [recordStack, found]

/-- A thread starts inside its block. -/
theorem insideBlock_start (base : Nat) : InsideBlock base (base + stackSize - 16) := by
  unfold InsideBlock stackSize
  omega

namespace StacksKnown

theorem boot (clock : Nat → Timeval) : StacksKnown (.boot clock : StackRun N) := by
  refine ⟨.gtInit clock, fun slot base recorded => ?_, fun slot notInitial claimed => ?_⟩
  · cases recorded
  · rcases claimed with used | returned
    · exact absurd (congrArg Gt.state (gtInit_other clock notInitial)) used
    · cases returned

theorem gtCreate {before : StackRun N} (known : StacksKnown before) (priority : Int)
    (stack : Option ℕ+) (clock : Nat → Timeval) :
    StacksKnown ⟨(Scheduler.gtCreate priority stack clock before.sched).2,
      recordStack before.sched (.gtCreate priority stack) before.stackBase⟩ := by
  have owned := known.owned.gtCreate priority stack clock
  rcases gtCreate_stack before priority stack clock with
    ⟨same, sameStacks⟩ | ⟨slot, base, created, started, recorded⟩
  · rw [same, sameStacks]
    exact known
  · rw [recorded]
    refine ⟨owned, fun other address isBase => ?_, fun other notInitial claimed => ?_⟩
    · dsimp only at isBase ⊢
      by_cases isSlot : other = slot
      · subst isSlot
        rw [Function.update_self] at isBase
        cases isBase
        rw [started]
        exact insideBlock_start base
      · rw [Function.update_of_ne isSlot] at isBase
        rw [created.others other isSlot]
        exact known.inside other address isBase
    · dsimp only
      by_cases isSlot : other = slot
      · exact ⟨base, isSlot ▸ Function.update_self ..⟩
      · rw [Function.update_of_ne isSlot]
        exact known.created other notInitial ((created.claimed_of_ne isSlot).mp claimed)

/-- An operation that creates no thread saves stack pointers inside their blocks. -/
theorem keep {algorithm : Algorithm} {before : StackRun N} {after : Sched N}
    {label : Operation × Inputs} (known : StacksKnown before)
    (performed : Performed algorithm label.2 before.sched label.1 after)
    (saves : SavesInside before label)
    (notCreate : ∀ priority stack, label.1 ≠ .gtCreate priority stack) :
    StacksKnown ⟨after, before.stackBase⟩ := by
  refine ⟨performed.ticketsOwned known.owned, fun slot base isBase => ?_,
    fun slot notInitial claimed => ?_⟩
  · dsimp only
    rw [performed.ctx notCreate]
    split
    · rename_i saved
      exact saves saved.1 base (saved.2 ▸ isBase)
    · exact known.inside slot base isBase
  · exact known.created slot notInitial
      ((performed.claimed known.owned notCreate slot).mp claimed)

/-- Every step keeps the stacks known. -/
theorem step {algorithm : Algorithm} {before after : StackRun N} {label : Operation × Inputs}
    (known : StacksKnown before) (saves : SavesInside before label)
    (stepped : (stackMachine algorithm).step before label = some after) : StacksKnown after := by
  obtain ⟨sched, scheduled, rfl⟩ := Option.map_eq_some_iff.mp stepped
  obtain ⟨performed, -, -⟩ := scheduler_step scheduled
  obtain ⟨operation, inputs⟩ := label
  cases operation with
  | gtCreate priority stack =>
      cases performed
      exact known.gtCreate priority stack inputs.clock
  | schedule | gtReturn | semInit | semWait | semPost =>
      exact known.keep performed saves fun _ _ same => by cases same

end StacksKnown

/-! ### `free` -/

/-- `gt_return` in the current thread frees the block `gt_create` allocated for it. -/
def ReleasesStack (run : StackRun N) : Prop :=
  ∀ base ∈ run.stackBase run.sched.gtCurrent, (retire run.sched).freed = base :: run.sched.freed

/-- In no state reached does a created thread that exits free its block: the address is the
saved stack pointer, which is not below the block, plus 16. -/
theorem gt_return_releases_never (algorithm : Algorithm) (clock : Nat → Timeval)
    (run : StackRun N)
    (reached : (stackMachine algorithm).Reached SavesInside (.boot clock) run)
    (notInitial : run.sched.gtCurrent ≠ 0) : ¬ ReleasesStack run := by
  have known : StacksKnown run := by
    apply reached.invariant (StacksKnown.boot clock)
    intro before label after known saves stepped
    exact known.step saves stepped
  obtain ⟨base, isBase⟩ := known.created _ notInitial known.owned.current
  obtain ⟨above, -⟩ := known.inside _ base isBase
  intro releases
  have freed : (run.sched.gtTable run.sched.gtCurrent).ctx.rsp + 16 = base :=
    (List.cons.inj (releases base isBase)).1
  omega

/-- Inputs with a stopped clock and this stack pointer. -/
def stackPointer (rsp : Nat) : Inputs := { stoppedClock 0 with rsp := rsp }

/-- A thread with its block at 4096 that has been switched out and in again. -/
theorem gt_return_releases_never_resumed : ∃ run : StackRun maxGThreads,
    (run.stackBase run.sched.gtCurrent = some 4096 ∧
      (run.sched.gtTable run.sched.gtCurrent).ctx.rsp = 8192) ∧ ¬ ReleasesStack run := by
  obtain ⟨run, reached, notInitial, resumed⟩ := PartialMachine.exists_reached_of_any
    (stackMachine .roundRobin) SavesInside (.boot fun _ => initTimeval)
    [(.gtCreate 0 (some 4096), stackPointer 0), (.schedule, stackPointer 0),
      (.schedule, stackPointer 8192), (.schedule, stackPointer 0)]
    (fun run : StackRun maxGThreads => run.sched.gtCurrent ≠ 0 ∧
      run.stackBase run.sched.gtCurrent = some 4096 ∧
      (run.sched.gtTable run.sched.gtCurrent).ctx.rsp = 8192)
    (by decide)
  exact ⟨run, resumed, gt_return_releases_never .roundRobin _ run reached notInitial⟩

/-- A thread that exits without having been switched out frees the address behind its
block. -/
theorem exit_frees_end_of_stack :
    ¬ ∀ (algorithm : Algorithm) (run : StackRun maxGThreads),
      (stackMachine algorithm).Reached SavesInside (.boot fun _ => initTimeval) run →
        run.sched.gtCurrent ≠ 0 → ReleasesStack run := by
  intro claimed
  obtain ⟨run, reached, notInitial, isBase, freed⟩ := PartialMachine.exists_reached_of_any
    (stackMachine .roundRobin) SavesInside (.boot fun _ => initTimeval)
    [(.gtCreate 0 (some 4096), stackPointer 0), (.schedule, stackPointer 0)]
    (fun run : StackRun maxGThreads => run.sched.gtCurrent ≠ 0 ∧
      run.stackBase run.sched.gtCurrent = some 4096 ∧
      (retire run.sched).freed = [4096 + stackSize])
    (by decide)
  have released := claimed .roundRobin run reached notInitial 4096 isBase
  rw [freed] at released
  exact absurd (List.cons.inj released).1 (by decide)

end Ivos.Scheduler
