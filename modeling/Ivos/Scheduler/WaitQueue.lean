/-
Module: Ivos.Scheduler.WaitQueue
Purpose: The queue of `g_queue.c` with its items in memory, and the list it holds.
Trusted boundary: none
Main exports: WaitQueue, queueInit, queueIsEmpty, queuePush, queuePop,
  WaitQueue.Holds, queuePush_spec, queuePop_spec
-/
import Ivos.Library.LinkedList
import Mathlib.Data.List.Induction

namespace Ivos.Scheduler

variable {Index : Type}

/-!
The items live on the heap.  `malloc` hands out an item at an address of its choice with
anything in `next`; `free` takes the item away.  A pointer that is null or dangling stops
the operation, which is then `none`.  That `malloc` returns an address without an item is
an assumption of the operations that push.
-/

/-- `struct queue_t`, with the `struct queue_item`s that `queue_push` has allocated
and `queue_pop` has not freed. -/
structure WaitQueue (Index : Type) where
  items : Heap Nat Index
  head : Option Nat
  tail : Option Nat

/-- `queue_init`. -/
def queueInit : WaitQueue Index := { items := fun _ => none, head := none, tail := none }

/-- `queue_is_empty`. -/
def queueIsEmpty (queue : WaitQueue Index) : Bool := queue.head.isNone

/-- Write to an item; `none` when the pointer is null or dangling. -/
def WaitQueue.modify (queue : WaitQueue Index) (item : Option Nat)
    (update : Cell Nat Index → Cell Nat Index) : Option (WaitQueue Index) := do
  let address ← item
  let cell ← queue.items address
  return { queue with items := Function.update queue.items address (some (update cell)) }

/-- `queue_push`.  `item` is what `malloc` returned, and `garbage` what stood in its
`next`. -/
def queuePush (item : Nat) (garbage : Option Nat) (threadIdx : Index) (queue : WaitQueue Index) :
    Option (WaitQueue Index) := do
  let queue :=
    { queue with items := Function.update queue.items item (some ⟨threadIdx, garbage⟩) }
  let queue ←
    if queueIsEmpty queue then some { queue with head := some item, tail := some item }
    else
      (queue.modify queue.tail fun cell => { cell with next := some item }).map fun queue =>
        { queue with tail := some item }
  queue.modify (some item) fun cell => { cell with next := none }

/-- `queue_pop`; the index is `none` for the return value -1. -/
def queuePop (queue : WaitQueue Index) : Option (Option Index × WaitQueue Index) :=
  if queueIsEmpty queue then some (none, queue)
  else do
    let thread ← queue.head
    let cell ← queue.items thread
    let queue := { queue with head := cell.next }
    let queue := if queueIsEmpty queue then { queue with tail := none } else queue
    return (some cell.value, { queue with items := Function.update queue.items thread none })

/-- The queue holds these items, first in first. -/
structure WaitQueue.Holds (queue : WaitQueue Index) (items : List (Nat × Index)) : Prop where
  linked : Linked queue.items queue.head items
  tail : queue.tail = items.getLast?.map Prod.fst

theorem queueInit_holds : (queueInit : WaitQueue Index).Holds [] := ⟨rfl, rfl⟩

theorem queueIsEmpty_iff {queue : WaitQueue Index} {items : List (Nat × Index)}
    (holds : queue.Holds items) : queueIsEmpty queue = true ↔ items = [] := by
  cases items with
  | nil =>
      have noHead : queue.head = none := holds.linked
      exact iff_of_true (by simp [queueIsEmpty, noHead]) rfl
  | cons item items =>
      obtain ⟨isHead, -⟩ := holds.linked
      simp [queueIsEmpty, isHead]

/-- A push with fresh memory goes to the end. -/
theorem queuePush_spec {queue : WaitQueue Index} {items : List (Nat × Index)} {item : Nat}
    (holds : queue.Holds items) (fresh : queue.items item = none) (garbage : Option Nat)
    (threadIdx : Index) :
    ∃ after, queuePush item garbage threadIdx queue = some after ∧
      after.Holds (items ++ [(item, threadIdx)]) := by
  obtain ⟨memory, head, tail⟩ := queue
  obtain ⟨linked, isTail⟩ := holds
  dsimp only at linked isTail fresh
  cases items using List.reverseRecOn with
  | nil =>
      obtain rfl : head = none := linked
      refine ⟨⟨Function.update memory item (some ⟨threadIdx, none⟩), some item, some item⟩, ?_, ?_,
        rfl⟩
      · simp [queuePush, queueIsEmpty, WaitQueue.modify]
      · exact ⟨rfl, none, Function.update_self .., rfl⟩
  | append_singleton items last =>
      have notEmpty : head.isNone = false := by
        cases items with
        | nil => rw [linked.1]; rfl
        | cons => rw [linked.1]; rfl
      obtain rfl : tail = some last.1 := by simpa using isTail
      have other : last.1 ≠ item := by
        rintro rfl
        cases fresh.symm.trans linked.last
      have final : Function.update (Function.update (Function.update memory item
          (some ⟨threadIdx, garbage⟩)) last.1 (some ⟨last.2, some item⟩)) item
            (some ⟨threadIdx, none⟩) =
          Function.update (Function.update memory last.1 (some ⟨last.2, some item⟩)) item
            (some ⟨threadIdx, none⟩) := by
        rw [Function.update_comm other.symm, Function.update_idem]
      rw [List.append_assoc, List.singleton_append]
      refine ⟨⟨Function.update (Function.update memory last.1 (some ⟨last.2, some item⟩)) item
        (some ⟨threadIdx, none⟩), head, some item⟩, ?_, linked.snoc fresh, by simp⟩
      rw [← final]
      simp [queuePush, queueIsEmpty, notEmpty, WaitQueue.modify, other, other.symm, linked.last]

/-- A pop takes the first item and frees it. -/
theorem queuePop_spec {queue : WaitQueue Index} {items : List (Nat × Index)} {item : Nat}
    {threadIdx : Index} (holds : queue.Holds ((item, threadIdx) :: items)) :
    ∃ after, queuePop queue = some (some threadIdx, after) ∧ after.Holds items := by
  obtain ⟨memory, head, tail⟩ := queue
  obtain ⟨linked, isTail⟩ := holds
  dsimp only at linked isTail
  obtain rfl : head = some item := linked.1
  obtain ⟨next, cell, rest⟩ := linked.free
  dsimp only at cell rest
  cases items with
  | nil =>
      obtain rfl : next = none := id rest
      refine ⟨⟨Function.update memory item none, none, none⟩, ?_, rest, rfl⟩
      simp [queuePop, queueIsEmpty, cell]
  | cons first items =>
      obtain ⟨rfl, others⟩ := rest
      refine ⟨⟨Function.update memory item none, some first.1, tail⟩, ?_, ⟨rfl, others⟩,
        by simpa using isTail⟩
      simp [queuePop, queueIsEmpty, cell]

end Ivos.Scheduler
