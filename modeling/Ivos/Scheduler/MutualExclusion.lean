/-
Module: Ivos.Scheduler.MutualExclusion
Purpose: A semaphore set up with `v` admits at most `v` threads, as long as a
  thread that `sem_wait` blocked is preempted before its next statement and no
  alarm lands between a selector's decision and the switch.
Trusted boundary: none
Main exports: workers, inCritical, PreemptedWhenBlocked, Permits, Exclusion,
  semaphore_excludes, blocked_thread_enters
-/
import Ivos.Scheduler.RunningSlot
import Mathlib.Data.Fintype.Card

namespace Ivos.Scheduler

variable {N : Nat}

/-!
`sem_wait` without a permit queues the caller and marks it Blocked, but it does
not yield: it unmasks SIGALRM and returns.  Whether the caller enters the critical
section depends on where the next alarm falls.  The program below is that of
`main.c`: the initial thread creates threads and then waits in `gt_return`; every
created thread repeats `sem_wait`, critical section, `sem_post` on one semaphore.
-/

/-- Locations of the program of `main.c`. -/
inductive WorkerLoc where
  | main
  | outside
  | inside
deriving Repr, DecidableEq

/-- `main` and `f` of `main.c`, with any number of created threads. -/
abbrev workers : Program where
  Loc := WorkerLoc
  main := .main
  entry := .outside
  next
    | .main, .gtCreate _ => some .main
    | .main, .gtReturn => some .main
    | .outside, .semWait 0 => some .inside
    | .inside, .semPost 0 => some .outside
    | _, _ => none

/-- The context a slot would be resumed with, or is running with. -/
def contextOf {Loc : Type} (machine : Machine N Loc) (slot : Fin N) : Context N Loc :=
  if slot = machine.cpu.stack then machine.cpu else machine.saved slot

/-- Where the thread of a slot stands. -/
def place {Loc : Type} (machine : Machine N Loc) (slot : Fin N) : Loc × Activity N :=
  ((contextOf machine slot).loc, (contextOf machine slot).activity)

/-- The threads that have returned from `sem_wait` and have not yet executed the
matching `sem_post`. -/
def inCritical (machine : Machine N WorkerLoc) : Finset (Fin N) :=
  Finset.univ.filter fun slot => place machine slot = (.inside, .code)

namespace Statement

/-- The selector has not settled on a slot, or the switch is over. -/
def Undecided : Statement N → Prop
  | .select (.prioReset _) | .testCurrent _ | .readyTest _ _ | .readyWrite _ _ => False
  | statement => ¬ statement.BeforeSwitch

instance : (statement : Statement N) → Decidable statement.Undecided
  | .testCurrent _ | .readyTest _ _ | .readyWrite _ _ => inferInstanceAs (Decidable False)
  | .resetSig | .start | .finish | .runTest _ | .runWrite _ | .prepare _ | .setCurrent _ _
  | .switch _ _ => inferInstanceAs (Decidable (¬ BeforeSwitch _))
  | .select cursor =>
      match cursor with
      | .prioReset _ => inferInstanceAs (Decidable False)
      | .rrTest _ | .rrNext _ | .rrCompare _ | .prioNext _ | .prioTest _ | .prioBump _
      | .prioCompare _ | .lotDraw _ | .lotTest _ _ _ =>
          inferInstanceAs (Decidable (¬ BeforeSwitch (.select _)))

theorem Undecided.spared {statement : Statement N} (undecided : statement.Undecided) :
    ¬ statement.BeforeSwitch := by
  cases statement with
  | select | resetSig | start | finish => exact id
  | testCurrent | readyTest | readyWrite => exact undecided.elim
  | runTest | runWrite | prepare | setCurrent | switch => exact undecided

end Statement

/-- A Blocked thread does nothing but be preempted, and no alarm is delivered
between a selector's decision and the switch. -/
def PreemptedWhenBlocked {Loc : Type} (machine : Machine N Loc) (event : Event) : Prop :=
  match event with
  | .alarm => ∀ statement ∈ machine.cpu.activations.head?, statement.Undecided
  | _ => machine.cpu.activations = [] → (machine.gtTable machine.gtCurrent).state ≠ .blocked

instance {Loc : Type} (machine : Machine N Loc) :
    (event : Event) → Decidable (PreemptedWhenBlocked machine event)
  | .alarm => inferInstanceAs (Decidable (∀ statement ∈ machine.cpu.activations.head?, _))
  | .call _ _ | .statement _ => inferInstanceAs (Decidable (_ → _))

theorem PreemptedWhenBlocked.sparesSwitch {Loc : Type} {machine : Machine N Loc}
    {event : Event} (permitted : PreemptedWhenBlocked machine event) :
    AlarmSparesSwitch machine event := by
  cases event with
  | alarm => exact fun statement member => (permitted statement member).spared
  | call | statement => trivial

/-! ### Runnable slots -/

/-- A slot `gt_schedule` may make Running. -/
def Runnable (thread : Gt) : Prop :=
  thread.state = .ready ∨ thread.state = .running

theorem Runnable.of_not {thread : Gt} (notBlocked : thread.state ≠ .blocked)
    (notUnused : thread.state ≠ .unused) : Runnable thread := by
  unfold Runnable
  cases state : thread.state with
  | ready => exact .inl rfl
  | running => exact .inr rfl
  | blocked => exact absurd state notBlocked
  | unused => exact absurd state notUnused

/-- No slot is blocked, released, claimed or given up; Ready and Running ones may
change places. -/
def SameStanding (before after : Table N) : Prop :=
  ∀ slot, (after slot).state = (before slot).state ∨
    Runnable (before slot) ∧ Runnable (after slot)

theorem Table.modify_state {gtTable : Table N} {thread : Fin N} {update : Gt → Gt}
    (same : (update (gtTable thread)).state = (gtTable thread).state) (slot : Fin N) :
    (gtTable.modify thread update slot).state = (gtTable slot).state := by
  by_cases isThread : slot = thread
  · subst isThread
    simpa using same
  · simp [isThread]

theorem SameStanding.of_states {before after : Table N}
    (states : ∀ slot, (after slot).state = (before slot).state) : SameStanding before after :=
  fun slot => .inl (states slot)

/-- A runnable slot set Ready or Running. -/
theorem SameStanding.modify {gtTable : Table N} {thread : Fin N} {update : Gt → Gt}
    (before : Runnable (gtTable thread)) (after : Runnable (update (gtTable thread))) :
    SameStanding gtTable (gtTable.modify thread update) := by
  intro slot
  by_cases same : slot = thread
  · subst same
    exact .inr ⟨before, by simpa using after⟩
  · exact .inl (by simp [same])

theorem SameStanding.iff {before after : Table N} (standing : SameStanding before after)
    {state : EState} (notReady : state ≠ .ready) (notRunning : state ≠ .running) (slot : Fin N) :
    (after slot).state = state ↔ (before slot).state = state := by
  rcases standing slot with same | ⟨isReady | isRunning, isReady' | isRunning'⟩
  · rw [same]
  all_goals simp [*, notReady.symm, notRunning.symm]

/-! ### Permits and places

The value of the semaphore and the threads past it always add up to the initial value.  A
thread counts as past it from the decrement on, or from the `sem_post` that takes it out of
the queue, though it has not run since.  With an initial value of 1 the law leaves room for one
thread.
-/

section Permits

variable [NeZero N]

/-- Where the thread of a slot may stand.  The slot `gt_create` is filling stays
Unused until its last statement. -/
def Placed (gtTable : Table N) (slot : Fin N) : WorkerLoc × Activity N → Prop
  | (.main, activity) =>
      slot = 0 ∧
        match activity with
        | .code | .createSearch _ _ | .returnTest | .returnLoop => True
        | .createAlloc p _ | .createContext p _ _ | .createPriority p _ | .createSkip p
        | .createLo p | .createHi p | .createTotal p | .createStats p | .createTest p
        | .createWrite p => (gtTable p).state = .unused
        | _ => False
  | (.outside, activity) => slot ≠ 0 ∧ (activity = .code ∨ activity = .postReturn)
  | (.inside, activity) => slot ≠ 0 ∧ (activity = .code ∨ activity = .waitReturn)

/-- The threads past `sem_wait` or in it that are not queued. -/
def admitted (semaphore : Semaphore N) (places : Fin N → WorkerLoc × Activity N) :
    Finset (Fin N) :=
  Finset.univ.filter fun slot => (places slot).1 = .inside ∧ slot ∉ semaphore.queue

/-- The permit law: the value and the admitted threads together are the initial
value, and exactly the Blocked threads are queued, all of them inside `sem_wait`. -/
structure Permits (initialValue : Nat) (gtTable : Table N) (gtCurrent : Fin N)
    (semaphore : Semaphore N) (places : Fin N → WorkerLoc × Activity N) : Prop where
  nonneg : 0 ≤ semaphore.value
  nodup : semaphore.queue.Nodup
  queued : ∀ slot, slot ∈ semaphore.queue ↔ (gtTable slot).state = .blocked
  waiting : ∀ slot ∈ semaphore.queue, places slot = (.inside, .waitReturn)
  balance : semaphore.value + (admitted semaphore places).card = initialValue
  placed : ∀ slot, Placed gtTable slot (places slot)
  fresh : ∀ slot, (gtTable slot).state = .unused → (places slot).1 = .outside
  live : (gtTable gtCurrent).state ≠ .unused

namespace Permits

variable {initialValue : Nat} {gtTable after : Table N} {gtCurrent next : Fin N}
  {semaphore : Semaphore N} {places : Fin N → WorkerLoc × Activity N}

theorem placed_congr {slot : Fin N} {at_ : WorkerLoc × Activity N}
    (placed : Placed gtTable slot at_)
    (unused : ∀ slot, (gtTable slot).state = .unused → (after slot).state = .unused) :
    Placed after slot at_ := by
  obtain ⟨loc, activity⟩ := at_
  cases loc with
  | main =>
      refine ⟨placed.1, ?_⟩
      have allowed := placed.2
      cases activity <;> first | trivial | exact unused _ allowed
  | outside | inside => exact placed

theorem congr {same : Fin N → WorkerLoc × Activity N}
    (permits : Permits initialValue gtTable gtCurrent semaphore places) (isSame : same = places) :
    Permits initialValue gtTable gtCurrent semaphore same :=
  isSame ▸ permits

/-- A step of the scheduler: no thread moves and every slot keeps its standing. -/
theorem reschedule (permits : Permits initialValue gtTable gtCurrent semaphore places)
    (standing : SameStanding gtTable after) (live : (after next).state ≠ .unused) :
    Permits initialValue after next semaphore places where
  nonneg := permits.nonneg
  nodup := permits.nodup
  queued slot := (permits.queued slot).trans (standing.iff (by simp) (by simp) slot).symm
  waiting := permits.waiting
  balance := permits.balance
  placed slot := placed_congr (permits.placed slot) fun slot =>
    (standing.iff (by simp) (by simp) slot).mpr
  fresh slot isUnused := permits.fresh slot ((standing.iff (by simp) (by simp) slot).mp isUnused)
  live := live

/-- The current thread's slot is in use. -/
theorem ne_current (permits : Permits initialValue gtTable gtCurrent semaphore places)
    {slot : Fin N} (isUnused : (gtTable slot).state = .unused) : slot ≠ gtCurrent := by
  rintro rfl
  exact permits.live isUnused

/-- One thread moves, and the others stand where they stood. -/
theorem placed_update (permits : Permits initialValue gtTable gtCurrent semaphore places)
    {slot : Fin N} {target : WorkerLoc × Activity N} (placed : Placed gtTable slot target)
    (other : Fin N) : Placed gtTable other (Function.update places slot target other) := by
  by_cases same : other = slot
  · subst same
    simpa using placed
  · simpa [same] using permits.placed other

/-- Where the current thread moves to says nothing about the Unused slots. -/
theorem fresh_update (permits : Permits initialValue gtTable gtCurrent semaphore places)
    {slot : Fin N} (isUnused : (gtTable slot).state = .unused)
    (target : WorkerLoc × Activity N) :
    (Function.update places gtCurrent target slot).1 = .outside := by
  rw [Function.update_of_ne (permits.ne_current isUnused)]
  exact permits.fresh slot isUnused

/-- A thread moves without entering or leaving. -/
theorem move (permits : Permits initialValue gtTable gtCurrent semaphore places)
    {slot : Fin N} {target : WorkerLoc × Activity N} (sameLoc : target.1 = (places slot).1)
    (notQueued : slot ∉ semaphore.queue)
    (placed : Placed gtTable slot target) :
    Permits initialValue gtTable gtCurrent semaphore (Function.update places slot target) := by
  have locs (other : Fin N) : (Function.update places slot target other).1 = (places other).1 := by
    by_cases same : other = slot
    · subst same
      simpa using sameLoc
    · simp [same]
  refine ⟨permits.nonneg, permits.nodup, permits.queued, ?_, ?_, ?_, ?_, permits.live⟩
  · intro other queued
    have different : other ≠ slot := by
      rintro rfl
      exact notQueued queued
    simpa [different] using permits.waiting other queued
  · have same : admitted semaphore (Function.update places slot target) =
        admitted semaphore places := by
      unfold admitted
      simp only [locs]
    rw [same]
    exact permits.balance
  · exact permits.placed_update placed
  · intro other isUnused
    rw [locs]
    exact permits.fresh other isUnused

/-- A thread outside is neither queued nor admitted. -/
theorem notQueued (permits : Permits initialValue gtTable gtCurrent semaphore places)
    {slot : Fin N} (outside : places slot ≠ (.inside, .waitReturn)) :
    slot ∉ semaphore.queue :=
  fun queued => outside (permits.waiting slot queued)

/-- Every thread but the initial one is a worker. -/
theorem worker (permits : Permits initialValue gtTable gtCurrent semaphore places)
    {slot : Fin N} (notMain : (places slot).1 ≠ .main) : slot ≠ 0 := by
  have placed := permits.placed slot
  revert placed notMain
  obtain ⟨loc, activity⟩ := places slot
  cases loc with
  | main => exact fun notMain => absurd rfl notMain
  | outside | inside => exact fun _ placed => placed.1

/-- `sem_wait` with a permit left. -/
theorem letIn (permits : Permits initialValue gtTable gtCurrent semaphore places)
    (available : 0 < semaphore.value) (outside : (places gtCurrent).1 = .outside) :
    Permits initialValue gtTable gtCurrent { semaphore with value := semaphore.value - 1 }
      (Function.update places gtCurrent (.inside, .waitReturn)) := by
  have notQueued : gtCurrent ∉ semaphore.queue :=
    permits.notQueued fun same => by simp [same] at outside
  have worker : gtCurrent ≠ 0 := permits.worker (by simp [outside])
  have joined : admitted { semaphore with value := semaphore.value - 1 }
      (Function.update places gtCurrent (.inside, .waitReturn)) =
        insert gtCurrent (admitted semaphore places) := by
    ext slot
    by_cases same : slot = gtCurrent
    · subst same
      simp [admitted, notQueued]
    · simp [admitted, same]
  have notYet : gtCurrent ∉ admitted semaphore places := by simp [admitted, outside]
  refine ⟨?_, permits.nodup, permits.queued, ?_, ?_, ?_, ?_, permits.live⟩
  · show 0 ≤ semaphore.value - 1
    omega
  · intro slot queued
    have different : slot ≠ gtCurrent := ne_of_mem_of_not_mem queued notQueued
    simpa [different] using permits.waiting slot queued
  · rw [joined, Finset.card_insert_of_notMem notYet]
    have balance := permits.balance
    push_cast
    omega
  · exact permits.placed_update ⟨worker, .inr rfl⟩
  · exact fun slot isUnused => permits.fresh_update isUnused _

/-- `sem_wait` without a permit: the caller is inside, queued and Blocked. -/
theorem enqueue (permits : Permits initialValue gtTable gtCurrent semaphore places)
    (outside : (places gtCurrent).1 = .outside) (now : Timeval) :
    Permits initialValue (gtTable.modify gtCurrent (updateThreadState now .blocked)) gtCurrent
      { semaphore with queue := semaphore.queue ++ [gtCurrent] }
      (Function.update places gtCurrent (.inside, .waitReturn)) := by
  have notQueued : gtCurrent ∉ semaphore.queue :=
    permits.notQueued fun same => by simp [same] at outside
  have worker : gtCurrent ≠ 0 := permits.worker (by simp [outside])
  have placed : Placed gtTable gtCurrent (.inside, .waitReturn) := ⟨worker, .inr rfl⟩
  have kept : admitted { semaphore with queue := semaphore.queue ++ [gtCurrent] }
      (Function.update places gtCurrent (.inside, .waitReturn)) =
        admitted semaphore places := by
    ext slot
    by_cases same : slot = gtCurrent
    · subst same
      simp [admitted, outside]
    · simp [admitted, same]
  refine ⟨permits.nonneg, ?_, ?_, ?_, ?_, ?_, ?_, by simp⟩
  · simpa [List.nodup_append, permits.nodup] using
      fun slot queued => ne_of_mem_of_not_mem queued notQueued
  · intro slot
    by_cases same : slot = gtCurrent
    · subst same
      simp
    · simpa [same] using permits.queued slot
  · intro slot queued
    by_cases same : slot = gtCurrent
    · simp [same]
    · simp only [List.mem_append, List.mem_singleton, same, or_false] at queued
      simpa [same] using permits.waiting slot queued
  · rw [kept]
    exact permits.balance
  · intro slot
    refine placed_congr (permits.placed_update placed slot) fun slot isUnused => ?_
    simpa [permits.ne_current isUnused] using isUnused
  · intro slot isUnused
    by_cases same : slot = gtCurrent
    · subst same
      simp at isUnused
    · simp only [Table.modify_of_ne _ same] at isUnused
      exact permits.fresh_update isUnused _

/-- `sem_post` with nobody waiting. -/
theorem release (permits : Permits initialValue gtTable gtCurrent semaphore places)
    (inside : places gtCurrent = (.inside, .code)) (nobody : semaphore.queue = []) :
    Permits initialValue gtTable gtCurrent { semaphore with value := semaphore.value + 1 }
      (Function.update places gtCurrent (.outside, .postReturn)) := by
  have worker : gtCurrent ≠ 0 := permits.worker (by simp [inside])
  have left : admitted { semaphore with value := semaphore.value + 1 }
      (Function.update places gtCurrent (.outside, .postReturn)) =
        (admitted semaphore places).erase gtCurrent := by
    ext slot
    by_cases same : slot = gtCurrent
    · subst same
      simp [admitted]
    · simp [admitted, same]
  have member : gtCurrent ∈ admitted semaphore places := by simp [admitted, inside, nobody]
  refine ⟨?_, permits.nodup, permits.queued, ?_, ?_, ?_, ?_, permits.live⟩
  · show 0 ≤ semaphore.value + 1
    have nonneg := permits.nonneg
    omega
  · simp [nobody]
  · have balance := permits.balance
    rw [left]
    rw [← Finset.card_erase_add_one member] at balance
    push_cast at balance
    show semaphore.value + 1 + _ = _
    omega
  · exact permits.placed_update ⟨worker, .inr rfl⟩
  · exact fun slot isUnused => permits.fresh_update isUnused _

/-- `sem_post` that hands its permit to the first thread of the queue. -/
theorem handOver (permits : Permits initialValue gtTable gtCurrent semaphore places)
    (inside : places gtCurrent = (.inside, .code)) {head : Fin N} {queue : List (Fin N)}
    (waiting : semaphore.queue = head :: queue) (now : Timeval) :
    Permits initialValue (gtTable.modify head (updateThreadState now .ready)) gtCurrent
      { semaphore with queue := queue }
      (Function.update places gtCurrent (.outside, .postReturn)) := by
  have worker : gtCurrent ≠ 0 := permits.worker (by simp [inside])
  have placed : Placed gtTable gtCurrent (.outside, .postReturn) := ⟨worker, .inr rfl⟩
  have nodup := permits.nodup
  rw [waiting, List.nodup_cons] at nodup
  have headQueued : head ∈ semaphore.queue := by simp [waiting]
  have headInside := permits.waiting head headQueued
  have headNe : head ≠ gtCurrent := by
    rintro rfl
    simp [inside] at headInside
  have notQueued : gtCurrent ∉ semaphore.queue := permits.notQueued (by simp [inside])
  have changed : admitted { semaphore with queue := queue }
      (Function.update places gtCurrent (.outside, .postReturn)) =
        insert head ((admitted semaphore places).erase gtCurrent) := by
    ext slot
    by_cases same : slot = gtCurrent
    · subst same
      simp [admitted, headNe.symm]
    · by_cases isHead : slot = head
      · subst isHead
        simp [admitted, same, headInside, nodup.1]
      · simp [admitted, same, isHead, waiting]
  have notYet : head ∉ (admitted semaphore places).erase gtCurrent := by
    simp [admitted, waiting]
  have member : gtCurrent ∈ admitted semaphore places := by
    simpa [admitted, inside] using notQueued
  refine ⟨permits.nonneg, nodup.2, ?_, ?_, ?_, ?_, ?_, ?_⟩
  · intro slot
    by_cases isHead : slot = head
    · subst isHead
      simp [nodup.1]
    · have queued := permits.queued slot
      simp only [waiting, List.mem_cons, isHead, false_or] at queued
      simpa [isHead] using queued
  · intro slot queued
    have queued : slot ∈ semaphore.queue := by simp [waiting, queued]
    have different : slot ≠ gtCurrent := ne_of_mem_of_not_mem queued notQueued
    simpa [different] using permits.waiting slot queued
  · have balance := permits.balance
    rw [changed, Finset.card_insert_of_notMem notYet, Finset.card_erase_add_one member]
    exact balance
  · intro slot
    refine placed_congr (permits.placed_update placed slot) fun slot isUnused => ?_
    have different : slot ≠ head := by
      rintro rfl
      simp [(permits.queued slot).mp headQueued] at isUnused
    simpa [different] using isUnused
  · intro slot isUnused
    by_cases isHead : slot = head
    · subst isHead
      simp at isUnused
    · simp only [Table.modify_of_ne _ isHead] at isUnused
      exact permits.fresh_update isUnused _
  · simpa [headNe.symm] using permits.live

/-- The last statement of `gt_create`: a slot that was Unused becomes Ready. -/
theorem create (permits : Permits initialValue gtTable gtCurrent semaphore places)
    {p : Fin N} {priority : Activity N} (creating : places gtCurrent = (.main, priority))
    (isUnused : (gtTable p).state = .unused) (now : Timeval) :
    Permits initialValue (gtTable.modify p (enterState now .ready)) gtCurrent semaphore
      (Function.update places gtCurrent (.main, .code)) := by
  have isMain : gtCurrent = 0 := by
    have placed := permits.placed gtCurrent
    rw [creating] at placed
    exact placed.1
  have moved : Permits initialValue gtTable gtCurrent semaphore
      (Function.update places gtCurrent (.main, .code)) :=
    permits.move (by simp [creating]) (permits.notQueued (by simp [creating])) ⟨isMain, trivial⟩
  refine ⟨moved.nonneg, moved.nodup, ?_, moved.waiting, moved.balance, ?_, ?_, ?_⟩
  · intro slot
    by_cases same : slot = p
    · subst same
      simpa [isUnused] using moved.queued slot
    · simpa [same] using moved.queued slot
  · intro slot
    by_cases same : slot = gtCurrent
    · subst same
      simpa [Placed] using isMain
    · have placed := moved.placed slot
      have worker : slot ≠ 0 := isMain ▸ same
      revert placed
      generalize Function.update places gtCurrent (WorkerLoc.main, Activity.code) slot = target
      obtain ⟨loc, activity⟩ := target
      cases loc with
      | main => exact fun placed => absurd placed.1 worker
      | outside | inside => exact id
  · intro slot isUnused
    by_cases same : slot = p
    · subst same
      simp at isUnused
    · simp only [Table.modify_of_ne _ same] at isUnused
      exact moved.fresh slot isUnused
  · by_cases same : gtCurrent = p
    · subst same
      simp
    · simpa [same] using moved.live

/-- At most as many threads as the initial value are past `sem_wait`. -/
theorem card_le (permits : Permits initialValue gtTable gtCurrent semaphore places) :
    (Finset.univ.filter fun slot => places slot = (.inside, .code)).card ≤ initialValue := by
  have contained : (Finset.univ.filter fun slot => places slot = (.inside, .code)) ⊆
      admitted semaphore places := by
    intro slot member
    have inside : places slot = (.inside, .code) := by simpa using member
    have notQueued : slot ∉ semaphore.queue := permits.notQueued (by simp [inside])
    simpa [admitted, inside] using notQueued
  have bound := Finset.card_le_card contained
  have balance := permits.balance
  have nonneg := permits.nonneg
  omega

end Permits

end Permits

/-! ### Activations -/

namespace Statement

/-- What the innermost activation knows about the slot it is deciding on. -/
def Sure (gtTable : Table N) (gtCurrent : Fin N) : Statement N → Prop
  | .select (.rrCompare thread) | .select (.prioTest thread) | .select (.prioBump thread)
  | .select (.prioCompare thread) =>
      thread = gtCurrent → (gtTable thread).state ≠ .blocked
  | .select (.prioReset thread) => Runnable (gtTable thread)
  | .testCurrent p | .runTest p | .runWrite p => Runnable (gtTable p)
  | .readyTest thread p | .readyWrite thread p =>
      Runnable (gtTable thread) ∧ Runnable (gtTable p)
  | .prepare p | .setCurrent _ p | .switch _ p => (gtTable p).state = .running
  | .finish => (gtTable gtCurrent).state = .running
  | _ => True

/-- An activation interrupted before its decision loses nothing: when it goes on,
its thread is the current one and Running. -/
theorem Undecided.sure {statement : Statement N} (undecided : statement.Undecided)
    {gtTable : Table N} {gtCurrent : Fin N}
    (running : (gtTable gtCurrent).state = .running) : statement.Sure gtTable gtCurrent := by
  cases statement with
  | resetSig | start => trivial
  | finish => exact running
  | testCurrent | readyTest | readyWrite => exact undecided.elim
  | runTest | runWrite | prepare | setCurrent | switch => exact absurd trivial undecided
  | select cursor =>
      cases cursor with
      | rrTest | rrNext | prioNext | lotDraw | lotTest => trivial
      | prioReset => exact undecided.elim
      | rrCompare thread | prioTest thread | prioBump thread | prioCompare thread =>
          rintro rfl
          simp [running]

end Statement

/-- A selector settles on a runnable slot. -/
theorem scan_sure {Loc : Type} {machine : Machine N Loc} {draw : Nat} {cursor : Cursor N}
    (live : (machine.gtTable machine.gtCurrent).state ≠ .unused)
    (sure : (Statement.select cursor).Sure machine.gtTable machine.gtCurrent) :
    ∀ statement ∈ (machine.scan draw cursor).cpu.activations.head?,
      statement.Sure (machine.scan draw cursor).gtTable machine.gtCurrent := by
  have at_ {after : Machine N Loc} {target : Statement N}
      (holds : target.Sure after.gtTable machine.gtCurrent) :
      ∀ statement ∈ (after.goto target).cpu.activations.head?,
        statement.Sure (after.goto target).gtTable machine.gtCurrent := by
    rintro statement ⟨⟩
    exact holds
  have current {thread : Fin N} (isCurrent : thread = machine.gtCurrent)
      (notBlocked : thread = machine.gtCurrent → (machine.gtTable thread).state ≠ .blocked) :
      Runnable (machine.gtTable thread) :=
    .of_not (notBlocked isCurrent) (isCurrent ▸ live)
  unfold Machine.scan
  cases cursor with
  | rrTest thread =>
      dsimp only
      split
      · rename_i isReady
        exact at_ (.inl isReady)
      · exact at_ trivial
  | rrNext thread =>
      dsimp only
      split
      · exact at_ trivial
      · rename_i notBlocked
        exact at_ fun _ => notBlocked
  | rrCompare thread =>
      dsimp only
      split
      · rename_i isCurrent
        exact at_ (current isCurrent sure)
      · exact at_ trivial
  | prioNext thread =>
      dsimp only
      split
      · exact at_ trivial
      · rename_i notBlocked
        exact at_ fun _ => notBlocked
  | prioTest thread =>
      dsimp only
      split
      · rename_i eligible
        exact at_ (.inl eligible.1)
      · exact at_ sure
  | prioReset thread =>
      refine at_ ?_
      simpa [Statement.Sure, Runnable] using sure
  | prioBump thread =>
      refine at_ ?_
      simpa [Statement.Sure] using sure
  | prioCompare thread =>
      dsimp only
      split
      · rename_i isCurrent
        exact at_ (current isCurrent sure)
      · exact at_ trivial
  | lotDraw thread => exact at_ trivial
  | lotTest winningTicket p thread =>
      dsimp only
      split
      · split
        · rename_i drawn
          exact at_ drawn.2.1
        · exact at_ trivial
      · exact at_ trivial

/-! ### The invariant of a run

In the runs described a thread that has blocked is preempted before it does anything else, and
no alarm lands between a selector's decision and the switch.  An activation that is interrupted
has then not decided, and decides on the table it finds when it goes on.
-/

/-- A step on the running stack that leaves the other contexts alone moves at
most the running thread. -/
theorem place_of_sameSaved {Loc : Type} {machine after : Machine N Loc}
    (stack : after.cpu.stack = machine.cpu.stack) (saved : after.saved = machine.saved) :
    place after =
      Function.update (place machine) machine.cpu.stack (after.cpu.loc, after.cpu.activity) := by
  funext slot
  by_cases same : slot = machine.cpu.stack
  · subst same
    simp [place, contextOf, stack]
  · simp [place, contextOf, stack, saved, same]

/-- Where the running thread stands. -/
theorem place_running {Loc : Type} {machine : Machine N Loc} :
    place machine machine.cpu.stack = (machine.cpu.loc, machine.cpu.activity) := by
  simp [place, contextOf]

/-- A step of `gt_schedule` on the running stack moves nobody. -/
theorem place_of_sameThread {Loc : Type} {machine after : Machine N Loc}
    (stack : after.cpu.stack = machine.cpu.stack) (saved : after.saved = machine.saved)
    (loc : after.cpu.loc = machine.cpu.loc) (activity : after.cpu.activity = machine.cpu.activity) :
    place after = place machine := by
  rw [place_of_sameSaved stack saved, loc, activity, ← place_running, Function.update_eq_self]

/-- The switch moves nobody: the suspended thread and the resumed one stand where
they stood. -/
theorem place_switchContext {Loc : Type} {machine : Machine N Loc} {rsp : Nat} {new : Fin N}
    (savedStack : ∀ slot, (machine.saved slot).stack = slot) :
    place (machine.switchContext rsp machine.cpu.stack new) = place machine := by
  funext slot
  unfold Machine.switchContext place contextOf
  dsimp only
  by_cases self : new = machine.cpu.stack
  · subst self
    by_cases same : slot = machine.cpu.stack
    · simp [same]
    · simp [same]
  · have savedNew : (Function.update machine.saved machine.cpu.stack
        { machine.cpu with activations := .finish :: machine.cpu.activations.tail } new).stack =
          new := by
      simp [self, savedStack]
    rw [savedNew]
    by_cases same : slot = machine.cpu.stack
    · subst same
      simp [Ne.symm self]
    · by_cases isNew : slot = new
      · subst isNew
        simp [same]
      · simp [same, isNew]

section Exclusion

variable [NeZero N]

/-- On top of `SwitchInvariant`: interrupted activations are undecided, the
innermost one is sure of its slot, and the permit law holds of the one semaphore. -/
structure Exclusion (initialValue : Nat) (machine : Machine N WorkerLoc) : Prop where
  switch : SwitchInvariant machine
  savedUndecided : ∀ slot, ∀ statement ∈ (machine.saved slot).activations, statement.Undecided
  outerUndecided : ∀ statement ∈ machine.cpu.activations.tail, statement.Undecided
  sure : ∀ statement ∈ machine.cpu.activations.head?,
    statement.Sure machine.gtTable machine.gtCurrent
  permits : ∃ semaphore, machine.semaphores = [semaphore] ∧
    Permits initialValue machine.gtTable machine.gtCurrent semaphore (place machine)

namespace Exclusion

variable {initialValue : Nat} {machine : Machine N WorkerLoc}

/-- An activation may start wherever the innermost one is undecided. -/
theorem enter (exclusion : Exclusion initialValue machine) {masked : Bool}
    (switch : SwitchInvariant { machine.enter with masked := masked })
    (undecided : ∀ statement ∈ machine.cpu.activations.head?, statement.Undecided) :
    Exclusion initialValue { machine.enter with masked := masked } where
  switch := switch
  savedUndecided := exclusion.savedUndecided
  outerUndecided := by
    intro statement member
    have outer := exclusion.outerUndecided
    simp only [Machine.enter_cpu_activations, List.tail_cons] at member
    cases frames : machine.cpu.activations with
    | nil => simp [frames] at member
    | cons innermost rest =>
        rw [frames] at member outer undecided
        rcases List.mem_cons.mp member with rfl | member
        · exact undecided _ rfl
        · exact outer statement member
  sure := by
    rintro statement ⟨⟩
    trivial
  permits := by
    obtain ⟨semaphore, semaphores, permits⟩ := exclusion.permits
    exact ⟨semaphore, semaphores, permits.congr (place_of_sameThread rfl rfl rfl rfl)⟩

/-- The innermost activation moves on and every slot keeps its standing. -/
theorem goto (exclusion : Exclusion initialValue machine) {statement : Statement N}
    {gtTable : Table N} {gtCurrent : Fin N} {masked : Bool}
    (switch : SwitchInvariant { machine.goto statement with
      gtTable := gtTable, gtCurrent := gtCurrent, masked := masked })
    (standing : SameStanding machine.gtTable gtTable)
    (live : (gtTable gtCurrent).state ≠ .unused) (sure : statement.Sure gtTable gtCurrent) :
    Exclusion initialValue { machine.goto statement with
      gtTable := gtTable, gtCurrent := gtCurrent, masked := masked } where
  switch := switch
  savedUndecided := exclusion.savedUndecided
  outerUndecided := exclusion.outerUndecided
  sure := by
    rintro statement ⟨⟩
    exact sure
  permits := by
    obtain ⟨semaphore, semaphores, permits⟩ := exclusion.permits
    exact ⟨semaphore, semaphores,
      (permits.reschedule standing live).congr (place_of_sameThread rfl rfl rfl rfl)⟩

theorem live (exclusion : Exclusion initialValue machine) :
    (machine.gtTable machine.gtCurrent).state ≠ .unused :=
  let ⟨_, _, permits⟩ := exclusion.permits
  permits.live

omit [NeZero N] in
/-- What an undecided activation needs to go on is that its thread is Running. -/
theorem sure_of_undecided {activations : List (Statement N)} {gtTable : Table N}
    {gtCurrent : Fin N} (undecided : ∀ statement ∈ activations, statement.Undecided)
    (running : (gtTable gtCurrent).state = .running) :
    ∀ statement ∈ activations.head?, statement.Sure gtTable gtCurrent :=
  fun statement member => (undecided statement (List.mem_of_mem_head? member)).sure running

/-- The switch. -/
theorem switchContext (exclusion : Exclusion initialValue machine) {rsp : Nat}
    (switch : SwitchInvariant (machine.switchContext rsp machine.cpu.stack machine.gtCurrent))
    (running : (machine.gtTable machine.gtCurrent).state = .running) :
    Exclusion initialValue (machine.switchContext rsp machine.cpu.stack machine.gtCurrent) := by
  have states (slot : Fin N) :
      (gtSwitch rsp machine.cpu.stack machine.gtTable slot).state =
        (machine.gtTable slot).state := gtSwitch_state ..
  have saved (slot : Fin N) : ∀ statement ∈
      ((machine.switchContext rsp machine.cpu.stack machine.gtCurrent).saved slot).activations,
      statement.Undecided := by
    by_cases same : slot = machine.cpu.stack
    · subst same
      simpa [Machine.switchContext, Statement.Undecided, Statement.BeforeSwitch] using
        exclusion.outerUndecided
    · simpa [Machine.switchContext, same] using exclusion.savedUndecided slot
  have running : (gtSwitch rsp machine.cpu.stack machine.gtTable machine.gtCurrent).state =
      .running := (states _).trans running
  obtain ⟨semaphore, semaphores, permits⟩ := exclusion.permits
  refine ⟨switch, saved, fun statement member => saved _ statement (List.mem_of_mem_tail member),
    sure_of_undecided (saved _) running, semaphore, semaphores, ?_⟩
  rw [place_switchContext exclusion.switch.savedStack]
  exact permits.reschedule (.of_states states) (states _ ▸ permits.live)

/-- Every statement of `gt_schedule` keeps the exclusion. -/
theorem scheduleStatement {algorithm : Algorithm} {inputs : StatementInputs}
    (exclusion : Exclusion initialValue machine) {statement : Statement N}
    {outer : List (Statement N)} (frames : machine.cpu.activations = statement :: outer) :
    Exclusion initialValue (machine.scheduleStatement algorithm inputs statement) := by
  have switch : SwitchInvariant (machine.scheduleStatement algorithm inputs statement) :=
    exclusion.switch.scheduleStatement frames
  have holds := exclusion.switch.innermost
  unfold Innermost at holds
  rw [frames] at holds
  have sure := exclusion.sure statement (by simp [frames])
  have live := exclusion.live
  have same : SameStanding machine.gtTable machine.gtTable := .of_states fun _ => rfl
  unfold Machine.scheduleStatement at switch ⊢
  cases statement with
  | resetSig => exact exclusion.goto switch same live trivial
  | start =>
      refine exclusion.goto switch same live ?_
      cases algorithm <;> trivial
  | select cursor =>
      obtain ⟨next, gtTable, scanned, states, -⟩ := machine.scan_spec inputs.draw cursor
      have settled : ∀ statement ∈ (machine.scan inputs.draw cursor).cpu.activations.head?,
          statement.Sure (machine.scan inputs.draw cursor).gtTable machine.gtCurrent :=
        scan_sure live sure
      dsimp only at switch ⊢
      rw [scanned] at switch settled ⊢
      exact exclusion.goto switch (.of_states states) (states _ ▸ live) (settled next rfl)
  | testCurrent p =>
      dsimp only at switch ⊢
      split at switch
      · rename_i leaves
        rw [if_pos leaves]
        exact exclusion.goto switch same live ⟨.of_not leaves.2 leaves.1, sure⟩
      · rename_i stays
        rw [if_neg stays]
        exact exclusion.goto switch same live sure
  | readyTest thread p =>
      dsimp only at switch ⊢
      split at switch
      · rename_i isReady
        rw [if_pos isReady]
        exact exclusion.goto switch same live sure.2
      · rename_i notReady
        rw [if_neg notReady]
        exact exclusion.goto switch same live sure
  | readyWrite thread p =>
      have standing : SameStanding machine.gtTable
          (machine.gtTable.modify thread (enterState (inputs.clock 0) .ready)) :=
        .modify sure.1 (.inl rfl)
      refine exclusion.goto switch standing ?_ ?_
      · exact fun isUnused => live ((standing.iff (by simp) (by simp) _).mp isUnused)
      · by_cases same : p = thread
        · subst same
          simp [Statement.Sure, Runnable]
        · simpa [Statement.Sure, Runnable, same] using sure.2
  | runTest p =>
      dsimp only at switch ⊢
      split at switch
      · rename_i isRunning
        rw [if_pos isRunning]
        exact exclusion.goto switch same live isRunning
      · rename_i notRunning
        rw [if_neg notRunning]
        exact exclusion.goto switch same live sure
  | runWrite p =>
      have standing : SameStanding machine.gtTable
          (machine.gtTable.modify p (enterState (inputs.clock 0) .running)) :=
        .modify sure (.inr rfl)
      refine exclusion.goto switch standing ?_ ?_
      · exact fun isUnused => live ((standing.iff (by simp) (by simp) _).mp isUnused)
      · simp [Statement.Sure]
  | prepare p => exact exclusion.goto switch same live sure
  | setCurrent old p =>
      have running : (machine.gtTable p).state = .running := sure
      exact exclusion.goto switch same (by simp [running]) sure
  | switch old new =>
      obtain ⟨⟨rfl, rfl⟩, -⟩ := holds
      exact exclusion.switchContext switch sure
  | finish =>
      have outer := exclusion.outerUndecided
      obtain ⟨semaphore, semaphores, permits⟩ := exclusion.permits
      refine ⟨switch, exclusion.savedUndecided,
        fun statement member => outer statement (List.mem_of_mem_tail member),
        sure_of_undecided outer sure, semaphore, semaphores, ?_⟩
      exact permits.congr (place_of_sameThread rfl rfl rfl rfl)

/-- Thread code runs on the stack of the current slot. -/
theorem place_current (exclusion : Exclusion initialValue machine)
    (code : machine.cpu.activations = []) :
    place machine machine.gtCurrent = (machine.cpu.loc, machine.cpu.activity) := by
  rw [← (exclusion.switch.inCode code).1]
  exact place_running

theorem placed_current (exclusion : Exclusion initialValue machine)
    (code : machine.cpu.activations = []) :
    Placed machine.gtTable machine.gtCurrent (machine.cpu.loc, machine.cpu.activity) := by
  obtain ⟨semaphore, -, permits⟩ := exclusion.permits
  exact exclusion.place_current code ▸ permits.placed machine.gtCurrent

/-- A step of thread code that leaves the other contexts alone, given what it does
to the permits. -/
theorem thread (exclusion : Exclusion initialValue machine) {after : Machine N WorkerLoc}
    (code : machine.cpu.activations = []) (switch : SwitchInvariant after)
    (activations : after.cpu.activations = []) (stack : after.cpu.stack = machine.cpu.stack)
    (saved : after.saved = machine.saved)
    (permits : ∃ semaphore, after.semaphores = [semaphore] ∧
      Permits initialValue after.gtTable after.gtCurrent semaphore
        (Function.update (place machine) machine.gtCurrent (after.cpu.loc, after.cpu.activity))) :
    Exclusion initialValue after := by
  obtain ⟨semaphore, semaphores, permits⟩ := permits
  rw [← (exclusion.switch.inCode code).1] at permits
  refine ⟨switch, saved ▸ exclusion.savedUndecided, by simp [activations], by simp [activations],
    semaphore, semaphores, permits.congr (place_of_sameSaved stack saved)⟩

/-- Only the initial thread is inside `gt_create` or `gt_return`. -/
theorem isMain {gtTable : Table N} {slot : Fin N} {loc : WorkerLoc} {activity : Activity N}
    (placed : Placed gtTable slot (loc, activity)) (notCode : activity ≠ .code)
    (notWaiting : activity ≠ .waitReturn) (notPosting : activity ≠ .postReturn) : loc = .main := by
  cases loc with
  | main => rfl
  | outside => exact absurd placed.2 (by simp [notCode, notPosting])
  | inside => exact absurd placed.2 (by simp [notCode, notWaiting])

/-- `gt_create` sets up the context of an Unused slot: the slot becomes a thread
that has not started. -/
theorem createContext (exclusion : Exclusion initialValue machine)
    (code : machine.cpu.activations = []) {p : Fin N} {update : Gt → Gt} {activity : Activity N}
    (isUnused : (machine.gtTable p).state = .unused)
    (state : (update (machine.gtTable p)).state = (machine.gtTable p).state)
    (isMain : machine.cpu.loc = .main)
    (allowed : Placed machine.gtTable machine.gtCurrent (.main, activity))
    (switch : SwitchInvariant ({ machine.modify p update with
      saved := Function.update machine.saved p
        { stack := p, activations := [], loc := .outside, activity := .code } }.doing activity)) :
    Exclusion initialValue ({ machine.modify p update with
      saved := Function.update machine.saved p
        { stack := p, activations := [], loc := .outside, activity := .code } }.doing
          activity) := by
  obtain ⟨semaphore, semaphores, permits⟩ := exclusion.permits
  have here := exclusion.place_current code
  have onStack := (exclusion.switch.inCode code).1
  have different : p ≠ machine.gtCurrent := by
    rintro rfl
    exact permits.live isUnused
  have outside : (place machine p).1 = .outside := permits.fresh p isUnused
  have notWaiting : p ∉ semaphore.queue := fun queued => by
    simp [(permits.queued p).mp queued] at isUnused
  have cleared : Permits initialValue machine.gtTable machine.gtCurrent semaphore
      (Function.update (place machine) p (.outside, .code)) :=
    permits.move outside.symm notWaiting ⟨permits.worker (by simp [outside]), .inl rfl⟩
  have stepped : Permits initialValue machine.gtTable machine.gtCurrent semaphore
      (Function.update (Function.update (place machine) p (.outside, .code)) machine.gtCurrent
        (.main, activity)) := by
    refine cleared.move (by simp [different.symm, here, isMain]) ?_ allowed
    exact cleared.notQueued (by simp [different.symm, here, isMain])
  have states (slot : Fin N) :
      (machine.gtTable.modify p update slot).state = (machine.gtTable slot).state :=
    Table.modify_state state slot
  refine ⟨switch, ?_, by simp [code], by simp [code], semaphore, semaphores,
    (stepped.reschedule (.of_states states) (states _ ▸ permits.live)).congr ?_⟩
  · intro slot
    by_cases same : slot = p
    · subst same
      simp
    · simpa [same] using exclusion.savedUndecided slot
  · funext slot
    by_cases isCurrent : slot = machine.gtCurrent
    · subst isCurrent
      simp [place, contextOf, onStack, isMain]
    · by_cases same : slot = p
      · subst same
        simp [place, contextOf, onStack, isCurrent]
      · simp [place, contextOf, onStack, isCurrent, same]

/-- A statement that only moves the current thread on: nothing else that the permits
depend on changes. -/
theorem move (exclusion : Exclusion initialValue machine) {after : Machine N WorkerLoc}
    (code : machine.cpu.activations = [])
    (notBlocked : (machine.gtTable machine.gtCurrent).state ≠ .blocked)
    (switch : SwitchInvariant after) (activations : after.cpu.activations = [])
    (stack : after.cpu.stack = machine.cpu.stack) (saved : after.saved = machine.saved)
    (kept : after.semaphores = machine.semaphores ∧ after.gtCurrent = machine.gtCurrent ∧
      after.cpu.loc = machine.cpu.loc)
    (states : ∀ slot, (after.gtTable slot).state = (machine.gtTable slot).state)
    (allowed : Placed machine.gtTable machine.gtCurrent
      (machine.cpu.loc, after.cpu.activity)) : Exclusion initialValue after := by
  obtain ⟨semaphore, semaphores, permits⟩ := exclusion.permits
  obtain ⟨sameSemaphores, sameCurrent, sameLoc⟩ := kept
  have notQueued : machine.gtCurrent ∉ semaphore.queue :=
    fun queued => notBlocked ((permits.queued _).mp queued)
  have stepped : Permits initialValue machine.gtTable machine.gtCurrent semaphore
      (Function.update (place machine) machine.gtCurrent
        (machine.cpu.loc, after.cpu.activity)) :=
    permits.move (by simp [exclusion.place_current code]) notQueued allowed
  have rescheduled := stepped.reschedule (.of_states states) (states _ ▸ permits.live)
  exact exclusion.thread code switch activations stack saved ⟨semaphore,
    sameSemaphores ▸ semaphores, by rw [sameCurrent, sameLoc]; exact rescheduled⟩

/-- The thread inside `gt_create` or `gt_return` is the initial one. -/
theorem main_of_activity (exclusion : Exclusion initialValue machine)
    (code : machine.cpu.activations = []) {activity : Activity N}
    (doing : machine.cpu.activity = activity) (notCode : activity ≠ .code)
    (notWaiting : activity ≠ .waitReturn) (notPosting : activity ≠ .postReturn) :
    machine.cpu.loc = .main ∧ Placed machine.gtTable machine.gtCurrent (.main, activity) := by
  subst doing
  have placed := exclusion.placed_current code
  have loc := isMain placed notCode notWaiting notPosting
  exact ⟨loc, loc ▸ placed⟩

/-- The thread about to return from `sem_wait` is a worker and counts as inside. -/
theorem inside_of_waitReturn (exclusion : Exclusion initialValue machine)
    (code : machine.cpu.activations = []) (waiting : machine.cpu.activity = .waitReturn) :
    machine.cpu.loc = .inside ∧ machine.gtCurrent ≠ 0 := by
  have placed := exclusion.placed_current code
  rw [waiting] at placed
  cases loc : machine.cpu.loc with
  | main | outside => simp [Placed, loc] at placed
  | inside =>
      rw [loc] at placed
      exact ⟨rfl, placed.1⟩

/-- The thread about to return from `sem_post` is a worker and counts as outside. -/
theorem outside_of_postReturn (exclusion : Exclusion initialValue machine)
    (code : machine.cpu.activations = []) (posting : machine.cpu.activity = .postReturn) :
    machine.cpu.loc = .outside ∧ machine.gtCurrent ≠ 0 := by
  have placed := exclusion.placed_current code
  rw [posting] at placed
  cases loc : machine.cpu.loc with
  | main | inside => simp [Placed, loc] at placed
  | outside =>
      rw [loc] at placed
      exact ⟨rfl, placed.1⟩

/-- The statements of `gt_create` and `gt_return`, and the returns from the
semaphore operations, keep the exclusion. -/
theorem threadStatement (exclusion : Exclusion initialValue machine)
    (code : machine.cpu.activations = [])
    (notBlocked : (machine.gtTable machine.gtCurrent).state ≠ .blocked)
    {inputs : StatementInputs} {after : Machine N WorkerLoc}
    (stepped : machine.threadStatement workers.entry inputs = some after) :
    Exclusion initialValue after := by
  have switch : SwitchInvariant after := exclusion.switch.threadStatement code stepped
  -- Most statements only move the thread on.
  have moved := exclusion.move code notBlocked switch
  have ofMain {activity : Activity N} (doing : machine.cpu.activity = activity) :=
    exclusion.main_of_activity code doing
  unfold Machine.threadStatement at stepped
  split at stepped
  · cases stepped
  · rename_i p priority activity
    obtain ⟨loc, isZero, -⟩ := ofMain activity (by simp) (by simp) (by simp)
    split at stepped
    · rename_i inside
      split at stepped
      · rename_i isUnused
        cases stepped
        exact moved code rfl rfl ⟨rfl, rfl, rfl⟩ (fun _ => rfl) (loc ▸ ⟨isZero, isUnused⟩)
      · cases stepped
        exact moved code rfl rfl ⟨rfl, rfl, rfl⟩ (fun _ => rfl) (loc ▸ ⟨isZero, trivial⟩)
    · cases stepped
      exact moved code rfl rfl ⟨rfl, rfl, rfl⟩ (fun _ => rfl) (loc ▸ ⟨isZero, trivial⟩)
  · rename_i p priority activity
    obtain ⟨loc, isZero, isUnused⟩ := ofMain activity (by simp) (by simp) (by simp)
    split at stepped
    · cases stepped
      exact moved code rfl rfl ⟨rfl, rfl, rfl⟩ (fun _ => rfl) (loc ▸ ⟨isZero, trivial⟩)
    · cases stepped
      exact moved code rfl rfl ⟨rfl, rfl, rfl⟩ (fun _ => rfl) (loc ▸ ⟨isZero, isUnused⟩)
  · rename_i p priority base activity
    obtain ⟨loc, isZero, isUnused⟩ := ofMain activity (by simp) (by simp) (by simp)
    cases stepped
    exact exclusion.createContext code isUnused rfl loc ⟨isZero, isUnused⟩ switch
  · rename_i p priority activity
    obtain ⟨loc, isZero, isUnused⟩ := ofMain activity (by simp) (by simp) (by simp)
    cases stepped
    exact moved code rfl rfl ⟨rfl, rfl, rfl⟩ (Table.modify_state rfl)
      (loc ▸ ⟨isZero, isUnused⟩)
  · rename_i p activity
    obtain ⟨loc, isZero, isUnused⟩ := ofMain activity (by simp) (by simp) (by simp)
    cases stepped
    exact moved code rfl rfl ⟨rfl, rfl, rfl⟩ (Table.modify_state rfl)
      (loc ▸ ⟨isZero, isUnused⟩)
  · rename_i p activity
    obtain ⟨loc, isZero, isUnused⟩ := ofMain activity (by simp) (by simp) (by simp)
    cases stepped
    exact moved code rfl rfl ⟨rfl, rfl, rfl⟩ (Table.modify_state rfl)
      (loc ▸ ⟨isZero, isUnused⟩)
  · rename_i p activity
    obtain ⟨loc, isZero, isUnused⟩ := ofMain activity (by simp) (by simp) (by simp)
    cases stepped
    exact moved code rfl rfl ⟨rfl, rfl, rfl⟩ (Table.modify_state rfl)
      (loc ▸ ⟨isZero, isUnused⟩)
  · rename_i p activity
    obtain ⟨loc, isZero, isUnused⟩ := ofMain activity (by simp) (by simp) (by simp)
    cases stepped
    exact moved code rfl rfl ⟨rfl, rfl, rfl⟩ (fun _ => rfl) (loc ▸ ⟨isZero, isUnused⟩)
  · rename_i p activity
    obtain ⟨loc, isZero, isUnused⟩ := ofMain activity (by simp) (by simp) (by simp)
    cases stepped
    exact moved code rfl rfl ⟨rfl, rfl, rfl⟩ (Table.modify_state rfl)
      (loc ▸ ⟨isZero, isUnused⟩)
  · rename_i p activity
    obtain ⟨loc, isZero, isUnused⟩ := ofMain activity (by simp) (by simp) (by simp)
    split at stepped
    · cases stepped
      exact moved code rfl rfl ⟨rfl, rfl, rfl⟩ (fun _ => rfl) (loc ▸ ⟨isZero, trivial⟩)
    · cases stepped
      exact moved code rfl rfl ⟨rfl, rfl, rfl⟩ (fun _ => rfl) (loc ▸ ⟨isZero, isUnused⟩)
  · rename_i p activity
    obtain ⟨loc, isZero, isUnused⟩ := ofMain activity (by simp) (by simp) (by simp)
    cases stepped
    obtain ⟨semaphore, semaphores, permits⟩ := exclusion.permits
    refine exclusion.thread code switch code rfl rfl ⟨semaphore, semaphores, ?_⟩
    simp only [Machine.doing_cpu_loc, Machine.doing_cpu_activity, Machine.modify_cpu, loc]
    exact permits.create (by rw [exclusion.place_current code, loc]) isUnused _
  · rename_i activity
    cases stepped
    obtain ⟨inside, worker⟩ := exclusion.inside_of_waitReturn code activity
    exact moved code rfl rfl ⟨rfl, rfl, rfl⟩ (fun _ => rfl) (inside ▸ ⟨worker, .inl rfl⟩)
  · rename_i activity
    cases stepped
    obtain ⟨outside, worker⟩ := exclusion.outside_of_postReturn code activity
    exact moved code rfl rfl ⟨rfl, rfl, rfl⟩ (fun _ => rfl) (outside ▸ ⟨worker, .inl rfl⟩)
  · rename_i activity
    obtain ⟨loc, isZero, -⟩ := ofMain activity (by simp) (by simp) (by simp)
    rw [if_neg (by simp [isZero])] at stepped
    cases stepped
    exact moved code rfl rfl ⟨rfl, rfl, rfl⟩ (fun _ => rfl) (loc ▸ ⟨isZero, trivial⟩)
  · rename_i activity
    exact (ofMain activity (by simp) (by simp) (by simp)).2.2.elim
  · rename_i activity
    exact (ofMain activity (by simp) (by simp) (by simp)).2.2.elim
  · rename_i activity
    exact (ofMain activity (by simp) (by simp) (by simp)).2.2.elim
  · rename_i activity
    exact (ofMain activity (by simp) (by simp) (by simp)).2.2.elim
  · cases stepped
    exact exclusion.enter switch (by simp [code])

/-- The calls of the threads keep the exclusion. -/
theorem makeCall (exclusion : Exclusion initialValue machine)
    (code : machine.cpu.activations = []) (inCode : machine.cpu.activity = .code)
    {now : Timeval} {call : Call} {loc : WorkerLoc} {after : Machine N WorkerLoc}
    (next : workers.next machine.cpu.loc call = some loc)
    (called : Machine.makeCall { machine with cpu := { machine.cpu with loc := loc } } now call =
      some after) (switch : SwitchInvariant after) : Exclusion initialValue after := by
  obtain ⟨semaphore, semaphores, permits⟩ := exclusion.permits
  have here := exclusion.place_current code
  rw [inCode] at here
  have placed := permits.placed machine.gtCurrent
  rw [here] at placed
  cases located : machine.cpu.loc with
  | main =>
      rw [located] at here next placed
      have notQueued : machine.gtCurrent ∉ semaphore.queue := permits.notQueued (by simp [here])
      have moved (activity : Activity N)
          (allowed : Placed machine.gtTable machine.gtCurrent (.main, activity)) :
          Permits initialValue machine.gtTable machine.gtCurrent semaphore
            (Function.update (place machine) machine.gtCurrent (.main, activity)) :=
        permits.move (by simp [here]) notQueued allowed
      cases call with
      | gtCreate priority =>
          cases next
          cases called
          exact exclusion.thread code switch code rfl rfl
            ⟨semaphore, semaphores, moved _ ⟨placed.1, trivial⟩⟩
      | gtReturn =>
          cases next
          cases called
          exact exclusion.thread code switch code rfl rfl
            ⟨semaphore, semaphores, moved _ ⟨placed.1, trivial⟩⟩
      | schedule | semWait | semPost => cases next
  | outside =>
      rw [located] at here next
      have outside : (place machine machine.gtCurrent).1 = .outside := by rw [here]
      match call with
      | .semWait 0 =>
          cases next
          obtain ⟨waited, body, rfl⟩ := Option.map_eq_some_iff.mp called
          simp only [Machine.semWait, semaphores, List.getElem?_cons_zero, List.set_cons_zero,
            Option.bind_eq_bind, Option.bind_some] at body
          split at body
          · rename_i available
            cases body
            exact exclusion.thread code switch code rfl rfl
              ⟨_, rfl, permits.letIn available outside⟩
          · cases body
            exact exclusion.thread code switch code rfl rfl
              ⟨_, rfl, permits.enqueue outside now⟩
      | .gtCreate _ | .gtReturn | .schedule | .semWait (_ + 1) | .semPost _ => cases next
  | inside =>
      rw [located] at here next
      match call with
      | .semPost 0 =>
          cases next
          obtain ⟨posted, body, rfl⟩ := Option.map_eq_some_iff.mp called
          simp only [Machine.semPost, semaphores, List.getElem?_cons_zero, List.set_cons_zero,
            Option.bind_eq_bind, Option.bind_some] at body
          split at body
          · rename_i nobody
            cases body
            exact exclusion.thread code switch code rfl rfl
              ⟨_, rfl, permits.release here nobody⟩
          · rename_i head queue waiting
            cases body
            exact exclusion.thread code switch code rfl rfl
              ⟨_, rfl, permits.handOver here waiting now⟩
      | .gtCreate _ | .gtReturn | .schedule | .semPost (_ + 1) | .semWait _ => cases next

/-- Every permitted step keeps the exclusion. -/
theorem step {algorithm : Algorithm} {before after : Machine N WorkerLoc} {event : Event}
    (exclusion : Exclusion initialValue before) (permitted : PreemptedWhenBlocked before event)
    (stepped : (preemptive algorithm workers).step before event = some after) :
    Exclusion initialValue after := by
  have switch : SwitchInvariant after := exclusion.switch.step permitted.sparesSwitch stepped
  simp only [preemptive] at stepped
  split at stepped
  · cases event with
    | alarm =>
        dsimp only at stepped
        split at stepped
        · cases stepped
        · cases stepped
          exact exclusion.enter switch permitted
    | call call now =>
        dsimp only at stepped
        split at stepped
        · rename_i inCode
          obtain ⟨loc, next, called⟩ := Option.bind_eq_some_iff.mp stepped
          exact exclusion.makeCall inCode.1 inCode.2 next called switch
        · cases stepped
    | statement inputs =>
        dsimp only at stepped
        split at stepped
        · rename_i code
          exact exclusion.threadStatement code (permitted code) stepped
        · rename_i statement outer frames
          exact Option.some.inj stepped ▸ exclusion.scheduleStatement frames
  · cases stepped

/-- After `sem_init` and `gt_init` all permits are there and nobody is inside. -/
theorem boot (initialValue : Nat) (clock : Nat → Timeval) :
    Exclusion initialValue
      (bootMachine workers clock [⟨initialValue, []⟩] : Machine N WorkerLoc) where
  switch := .boot workers clock _
  savedUndecided _ := by simp [bootMachine]
  outerUndecided := by simp [bootMachine]
  sure := by simp [bootMachine]
  permits := by
    have places (slot : Fin N) :
        place (bootMachine workers clock [⟨initialValue, []⟩] : Machine N WorkerLoc) slot =
          if slot = 0 then (.main, .code) else (.outside, .code) := by
      by_cases same : slot = 0
      · simp [place, contextOf, bootMachine, same]
      · simp [place, contextOf, bootMachine, same]
    have states (slot : Fin N) : ((gtInit clock : Sched N).gtTable slot).state =
        if slot = 0 then .running else .unused := by
      by_cases same : slot = 0
      · simp [gtInit, same]
      · simp [gtInit, same, Gt.zero]
    refine ⟨_, rfl, ⟨Int.natCast_nonneg _, List.nodup_nil, ?_, by simp, ?_, ?_, ?_, ?_⟩⟩
    · intro slot
      rw [show (bootMachine workers clock [⟨initialValue, []⟩] : Machine N WorkerLoc).gtTable =
        (gtInit clock : Sched N).gtTable from rfl, states]
      split <;> simp
    · have nobody : admitted ⟨initialValue, []⟩
          (place (bootMachine workers clock [⟨initialValue, []⟩] : Machine N WorkerLoc)) = ∅ := by
        refine Finset.filter_eq_empty_iff.mpr fun slot _ => ?_
        rw [places]
        split <;> simp
      simp [nobody]
    · intro slot
      rw [places]
      split
      · exact ⟨‹_›, trivial⟩
      · exact ⟨‹_›, .inl rfl⟩
    · intro slot isUnused
      rw [show (bootMachine workers clock [⟨initialValue, []⟩] : Machine N WorkerLoc).gtTable =
        (gtInit clock : Sched N).gtTable from rfl, states] at isUnused
      rw [places]
      split at isUnused
      · cases isUnused
      · rename_i isWorker
        simp [isWorker]
    · simp [bootMachine, states]

end Exclusion

/-- For every initial value, number of threads, selector and placement of alarms:
as long as a thread that `sem_wait` has blocked is preempted before it executes
anything, and no alarm lands between a selector's decision and the switch, at
most as many threads as the initial value are in the critical section. -/
theorem semaphore_excludes (algorithm : Algorithm) (initialValue : Nat) (clock : Nat → Timeval)
    (machine : Machine N WorkerLoc)
    (reached : (preemptive algorithm workers).Reached PreemptedWhenBlocked
      (bootMachine workers clock [⟨initialValue, []⟩]) machine) :
    (inCritical machine).card ≤ initialValue := by
  have exclusion : Exclusion initialValue machine :=
    reached.invariant (.boot initialValue clock)
      fun _ _ _ exclusion permitted stepped => exclusion.step permitted stepped
  obtain ⟨semaphore, -, permits⟩ := exclusion.permits
  exact permits.card_le

end Exclusion

/-- The initial thread creates two workers and waits in `gt_return`, whose
`gt_schedule` switches to the first; it takes the only permit. -/
def firstWorkerEnters : List Event :=
  .call (.gtCreate 0) initTimeval :: statements 12 0 ++
    .call (.gtCreate 0) initTimeval :: statements 13 0 ++
    .call .gtReturn initTimeval :: statements 16 0 ++
    .call (.semWait 0) initTimeval :: statements 1 0

/-- The second worker is preempted inside `sem_wait`, where it has been queued. -/
theorem semaphore_excludes_queued_worker :
    ∃ machine : Machine maxGThreads WorkerLoc,
      (machine.gtTable 2).state = .blocked ∧ (inCritical machine).card ≤ 1 := by
  obtain ⟨machine, reached, blocked⟩ := PartialMachine.exists_reached_of_any
    (preemptive .roundRobin workers) PreemptedWhenBlocked
    (bootMachine workers (fun _ => initTimeval) [⟨(1 : Nat), []⟩])
    (firstWorkerEnters ++ .alarm :: statements 14 0 ++
      .call (.semWait 0) initTimeval :: .alarm :: statements 1 0)
    (fun machine : Machine maxGThreads WorkerLoc => (machine.gtTable 2).state = .blocked)
    (by decide)
  exact ⟨machine, blocked,
    semaphore_excludes .roundRobin 1 (fun _ => initTimeval) machine reached⟩

/-- A thread that `sem_wait` has blocked returns from it into the critical section
when no alarm arrives first: `sem_wait` does not yield. -/
theorem blocked_thread_enters :
    ¬ ∀ machine : Machine maxGThreads WorkerLoc,
      (preemptive .roundRobin workers).Reached PartialMachine.anyStep
        (bootMachine workers (fun _ => initTimeval) [⟨(1 : Nat), []⟩]) machine →
          (inCritical machine).card ≤ 1 := by
  intro claimed
  obtain ⟨machine, reached, both⟩ := PartialMachine.exists_reached_of_any
    (preemptive .roundRobin workers) PartialMachine.anyStep
    (bootMachine workers (fun _ => initTimeval) [⟨(1 : Nat), []⟩])
    (firstWorkerEnters ++ .alarm :: statements 14 0 ++
      .call (.semWait 0) initTimeval :: statements 1 0)
    (fun machine : Machine maxGThreads WorkerLoc => ¬ (inCritical machine).card ≤ 1)
    (by decide)
  exact both (claimed machine reached)

end Ivos.Scheduler
