/-
Module: Ivos.Scheduler.FifoQueue
Purpose: The linked queue of `g_queue.c` as a component, and the list it stands for in
  every sequence of calls.
Trusted boundary: none
Main exports: QueueCall, queueComponent, fifo, WaitQueue.Represents,
  queue_refines_fifo
-/
import Ivos.Library.DataRefinement
import Ivos.Scheduler.WaitQueue

namespace Ivos.Scheduler

/-! ### Which items are allocated -/

section Allocation

variable {Index : Type} {queue after : WaitQueue Index}

/-- A write neither allocates nor frees. -/
theorem modify_allocated {item : Option Nat} {update : Cell Nat Index → Cell Nat Index}
    (modified : queue.modify item update = some after) (address : Nat) :
    after.items address = none ↔ queue.items address = none := by
  obtain ⟨written, isItem, modified⟩ := Option.bind_eq_some_iff.mp modified
  obtain ⟨cell, stored, modified⟩ := Option.bind_eq_some_iff.mp modified
  cases modified
  by_cases same : address = written
  · subst same
    simp [stored]
  · simp [same]

/-- A push allocates what `malloc` returned. -/
theorem queuePush_allocated {item : Nat} {garbage : Option Nat} {threadIdx : Index}
    (pushed : queuePush item garbage threadIdx queue = some after) (address : Nat) :
    after.items address = none ↔ address ≠ item ∧ queue.items address = none := by
  have malloced : Function.update queue.items item (some ⟨threadIdx, garbage⟩) address = none ↔
      address ≠ item ∧ queue.items address = none := by
    by_cases same : address = item
    · simp [same]
    · simp [same]
  rw [← malloced]
  unfold queuePush at pushed
  dsimp only at pushed
  split at pushed
  · obtain ⟨linked, linking, initialised⟩ := Option.bind_eq_some_iff.mp pushed
    cases linking
    exact modify_allocated initialised address
  · obtain ⟨linked, linking, initialised⟩ := Option.bind_eq_some_iff.mp pushed
    obtain ⟨modified, modifies, isLinked⟩ := Option.map_eq_some_iff.mp linking
    subst isLinked
    rw [modify_allocated initialised address]
    exact modify_allocated modifies address

/-- A pop frees the item at the head. -/
theorem queuePop_allocated {thread : Nat} {result : Option Index}
    (isHead : queue.head = some thread) (popped : queuePop queue = some (result, after))
    (address : Nat) :
    after.items address = none ↔ address = thread ∨ queue.items address = none := by
  have notEmpty : queueIsEmpty queue = false := by simp [queueIsEmpty, isHead]
  unfold queuePop at popped
  rw [notEmpty, if_neg Bool.false_ne_true, isHead] at popped
  obtain ⟨_, isThread, popped⟩ := Option.bind_eq_some_iff.mp popped
  cases isThread
  obtain ⟨cell, stored, popped⟩ := Option.bind_eq_some_iff.mp popped
  cases popped
  by_cases same : address = thread
  · simp [same]
  · dsimp only
    rw [Function.update_of_ne same]
    split
    · simp [same]
    · simp [same]

end Allocation

/-! ### The queue as a component

The abstract queue is a list.  A push puts an index at its end, and a pop takes the first one
or says that there is none; where the items lie in memory, a caller cannot see.
-/

/-- A call, with what `malloc` returns and what stands there in `next`. -/
inductive QueueCall where
  | push (item : Nat) (garbage : Option Nat) (threadIdx : Int)
  | pop
deriving Repr, DecidableEq

/-- `queue_push`, which returns nothing, and `queue_pop`, which returns an `int`. -/
def queueComponent : Component QueueCall (Option Int) (WaitQueue Int) where
  call
    | .push item garbage threadIdx, queue =>
        (queuePush item garbage threadIdx queue).map fun after => (none, after)
    | .pop, queue =>
        (queuePop queue).map fun (threadIdx, after) => (some (threadIdx.getD (-1)), after)

/-- `malloc` returns memory that is not in use. -/
def MallocIsFresh (queue : WaitQueue Int) : QueueCall → Prop
  | .push item _ _ => queue.items item = none
  | .pop => True

instance (queue : WaitQueue Int) : DecidablePred (MallocIsFresh queue)
  | .push item _ _ => inferInstanceAs (Decidable (queue.items item = none))
  | .pop => inferInstanceAs (Decidable True)

/-- What the queue is for: first in, first out. -/
def fifo : QueueCall → List Int → Option Int × List Int
  | .push _ _ threadIdx, waiting => (none, waiting ++ [threadIdx])
  | .pop, waiting => (some (waiting.headD (-1)), waiting.tail)

/-- The queue has these items, and no others are in memory. -/
structure WaitQueue.Represents (queue : WaitQueue Int) (items : List (Nat × Int)) : Prop where
  linked : Linked queue.items queue.head items
  acyclic : (items.map Prod.fst).Nodup
  tail : queue.tail = (items.map Prod.fst).getLast?
  nullTogether : queue.tail = none ↔ queue.head = none
  noneLost : ∀ address, queue.items address ≠ none ↔ address ∈ items.map Prod.fst

/-- The last item and the first one are missing together. -/
theorem WaitQueue.Holds.represents {queue : WaitQueue Int} {items : List (Nat × Int)}
    (holds : queue.Holds items)
    (noneLost : ∀ address, queue.items address ≠ none ↔ address ∈ items.map Prod.fst) :
    queue.Represents items where
  linked := holds.linked
  acyclic := holds.linked.nodup
  tail := by rw [holds.tail, List.getLast?_map]
  nullTogether := by
    have isEmpty : queue.head = none ↔ items = [] := by
      rw [← queueIsEmpty_iff holds, queueIsEmpty, Option.isNone_iff_eq_none]
    rw [isEmpty, holds.tail, Option.map_eq_none_iff, List.getLast?_eq_none_iff]
  noneLost := noneLost

theorem WaitQueue.Represents.holds {queue : WaitQueue Int} {items : List (Nat × Int)}
    (represents : queue.Represents items) : queue.Holds items where
  linked := represents.linked
  tail := by rw [represents.tail, List.getLast?_map]

/-- The queue stands for this list. -/
def StandsFor (queue : WaitQueue Int) (waiting : List Int) : Prop :=
  ∃ items, queue.Represents items ∧ items.map Prod.snd = waiting

theorem push_represents {queue : WaitQueue Int} {items : List (Nat × Int)} {item : Nat}
    (represents : queue.Represents items) (fresh : queue.items item = none)
    (garbage : Option Nat) (threadIdx : Int) :
    ∃ after, queuePush item garbage threadIdx queue = some after ∧
      after.Represents (items ++ [(item, threadIdx)]) := by
  obtain ⟨after, pushed, holds⟩ := queuePush_spec represents.holds fresh garbage threadIdx
  refine ⟨after, pushed, holds.represents fun address => ?_⟩
  have others := represents.noneLost address
  rw [ne_eq, queuePush_allocated pushed, not_and_or, not_not, ← ne_eq, others, List.map_append,
    List.mem_append, Or.comm]
  simp

theorem pop_represents {queue : WaitQueue Int} {items : List (Nat × Int)} {item : Nat}
    {threadIdx : Int} (represents : queue.Represents ((item, threadIdx) :: items)) :
    ∃ after, queuePop queue = some (some threadIdx, after) ∧ after.Represents items := by
  obtain ⟨after, popped, holds⟩ := queuePop_spec represents.holds
  refine ⟨after, popped, holds.represents fun address => ?_⟩
  have others := represents.noneLost address
  have once : item ∉ items.map Prod.fst := represents.linked.notMem_rest
  rw [ne_eq, queuePop_allocated represents.linked.1 popped, not_or, ← ne_eq (queue.items address),
    others, List.map_cons, List.mem_cons]
  constructor
  · rintro ⟨other, either⟩
    exact either.resolve_left other
  · intro member
    exact ⟨fun same => once (same ▸ member), .inr member⟩

/-- Each call keeps the queue in step with the list. -/
theorem queueComponent_refines : Refines queueComponent MallocIsFresh fifo StandsFor where
  call := by
    rintro queue _ call ⟨items, represents, rfl⟩ allowed
    cases call with
    | push item garbage threadIdx =>
        obtain ⟨after, pushed, still⟩ := push_represents represents allowed garbage threadIdx
        refine ⟨after, ?_, _, still, by simp [fifo]⟩
        simp only [queueComponent, pushed, Option.map_some, fifo]
    | pop =>
        cases items with
        | nil =>
            have popped : queuePop queue = some (none, queue) :=
              if_pos ((queueIsEmpty_iff represents.holds).mpr rfl)
            refine ⟨queue, ?_, [], represents, rfl⟩
            simp [queueComponent, popped, fifo]
        | cons first items =>
            obtain ⟨after, popped, still⟩ := pop_represents represents
            refine ⟨after, ?_, items, still, by simp [fifo]⟩
            simp [queueComponent, popped, fifo]

theorem queueInit_standsFor : StandsFor queueInit [] :=
  ⟨[], queueInit_holds.represents (by simp [queueInit]), rfl⟩

/-- In every sequence of calls the queue is a list without a cycle that ends where
`tail` points to and has all items there are; its values are those of the reference
list, and each call returns what the reference list gives. -/
theorem queue_refines_fifo (calls : List QueueCall)
    (fresh : queueComponent.Possible MallocIsFresh calls queueInit) :
    ∃ queue items,
      queueComponent.run calls queueInit = some ((runAbstract fifo calls []).1, queue) ∧
      queue.Represents items ∧ items.map Prod.snd = (runAbstract fifo calls []).2 := by
  obtain ⟨queue, ran, items, represents, values⟩ :=
    queueComponent_refines.run queueInit_standsFor fresh
  exact ⟨queue, items, ran, represents, values⟩

/-- Two pushes around pops, with an address used again. -/
theorem queue_refines_fifo_reuse : ∃ queue items,
    queueComponent.run [.push 7 (some 9) 1, .push 8 none 2, .pop, .push 7 none 3, .pop, .pop, .pop]
      queueInit = some ([none, none, some 1, none, some 2, some 3, some (-1)], queue) ∧
    queue.Represents items ∧ items.map Prod.snd = [] :=
  queue_refines_fifo
    [.push 7 (some 9) 1, .push 8 none 2, .pop, .push 7 none 3, .pop, .pop, .pop] (by decide)

end Ivos.Scheduler
