/-
Module: Ivos.Library.LinkedList
Purpose: Singly linked lists in a heap, read as lists of addresses and values.
Trusted boundary: none
Main exports: Cell, Heap, Linked, Linked.unique, Linked.nodup, Linked.congr,
  Linked.last, Linked.snoc, Linked.free
-/
import Mathlib.Data.List.Basic
import Mathlib.Logic.Function.Basic

namespace Ivos

universe addressLevel valueLevel

/-- A cell that points to the next one. -/
structure Cell (Address : Type addressLevel) (Value : Type valueLevel) where
  value : Value
  next : Option Address

/-- The allocated cells. -/
abbrev Heap (Address : Type addressLevel) (Value : Type valueLevel) :=
  Address → Option (Cell Address Value)

variable {Address : Type addressLevel} {Value : Type valueLevel} {heap : Heap Address Value}
  {start : Option Address} {items : List (Address × Value)}

/-- The pointer `start` leads through these cells, with these values in them, to the
null pointer. -/
def Linked (heap : Heap Address Value) : Option Address → List (Address × Value) → Prop
  | start, [] => start = none
  | start, (address, value) :: rest =>
      start = some address ∧ ∃ next, heap address = some ⟨value, next⟩ ∧ Linked heap next rest

namespace Linked

/-- A pointer leads through one list of cells. -/
theorem unique {other : List (Address × Value)} (linked : Linked heap start items)
    (also : Linked heap start other) : items = other := by
  induction items generalizing start other with
  | nil =>
      cases other with
      | nil => rfl
      | cons item others => cases linked.symm.trans also.1
  | cons item items inductionHypothesis =>
      cases other with
      | nil => cases also.symm.trans linked.1
      | cons otherItem others =>
          obtain ⟨isStart, next, cell, rest⟩ := linked
          obtain ⟨isOtherStart, otherNext, otherCell, otherRest⟩ := also
          obtain sameAddress := Option.some.inj (isStart.symm.trans isOtherStart)
          rw [← sameAddress, cell] at otherCell
          obtain ⟨sameValue, sameNext⟩ := Cell.mk.inj (Option.some.inj otherCell)
          rw [inductionHypothesis rest (sameNext ▸ otherRest)]
          exact congrArg (· :: others) (Prod.ext sameAddress sameValue)

/-- From a cell on. -/
theorem suffix {front back : List (Address × Value)} {item : Address × Value}
    (linked : Linked heap start (front ++ item :: back)) :
    Linked heap (some item.1) (item :: back) := by
  induction front generalizing start with
  | nil =>
      obtain ⟨-, next, cell, rest⟩ := linked
      exact ⟨rfl, next, cell, rest⟩
  | cons _ front inductionHypothesis =>
      obtain ⟨-, next, -, rest⟩ := linked
      exact inductionHypothesis rest

/-- The first cell does not come again. -/
theorem notMem_rest {item : Address × Value} (linked : Linked heap start (item :: items)) :
    item.1 ∉ items.map Prod.fst := by
  intro again
  obtain ⟨other, member, sameAddress⟩ := List.mem_map.mp again
  obtain ⟨front, back, rfl⟩ := List.append_of_mem member
  have whole : Linked heap start ((item :: front) ++ other :: back) := linked
  have later := whole.suffix
  rw [sameAddress, ← linked.1] at later
  have lengths := congrArg List.length (whole.unique later)
  simp at lengths
  omega

/-- The cells of a list are all different. -/
theorem nodup (linked : Linked heap start items) : (items.map Prod.fst).Nodup := by
  induction items generalizing start with
  | nil => exact List.nodup_nil
  | cons item items inductionHypothesis =>
      obtain ⟨-, next, -, rest⟩ := id linked
      rw [List.map_cons, List.nodup_cons]
      exact ⟨linked.notMem_rest, inductionHypothesis rest⟩

/-- Only the cells of the list matter. -/
theorem congr {after : Heap Address Value} (linked : Linked heap start items)
    (same : ∀ address ∈ items.map Prod.fst, after address = heap address) :
    Linked after start items := by
  induction items generalizing start with
  | nil => exact linked
  | cons item items inductionHypothesis =>
      obtain ⟨isStart, next, cell, rest⟩ := linked
      refine ⟨isStart, next, (same item.1 (by simp)).trans cell, ?_⟩
      apply inductionHypothesis rest
      intro address member
      exact same address (List.mem_cons_of_mem _ member)

/-- The cells of the list are allocated. -/
theorem allocated (linked : Linked heap start items) {item : Address × Value}
    (member : item ∈ items) : ∃ next, heap item.1 = some ⟨item.2, next⟩ := by
  obtain ⟨front, back, rfl⟩ := List.append_of_mem member
  obtain ⟨-, next, cell, -⟩ := linked.suffix
  exact ⟨next, cell⟩

/-- The last cell points nowhere. -/
theorem last {item : Address × Value} (linked : Linked heap start (items ++ [item])) :
    heap item.1 = some ⟨item.2, none⟩ := by
  obtain ⟨-, next, cell, rest⟩ := linked.suffix
  rw [cell, show next = none from rest]

variable [DecidableEq Address]

/-- A cell appended behind the last one. -/
theorem snoc {item : Address × Value} {address : Address} {value : Value}
    (linked : Linked heap start (items ++ [item])) (fresh : heap address = none) :
    Linked (Function.update (Function.update heap item.1 (some ⟨item.2, some address⟩)) address
      (some ⟨value, none⟩)) start (items ++ [item, (address, value)]) := by
  have old {allocatedItem : Address × Value} (member : allocatedItem ∈ items ++ [item]) :
      allocatedItem.1 ≠ address := by
    rintro rfl
    obtain ⟨next, cell⟩ := linked.allocated member
    cases fresh.symm.trans cell
  induction items generalizing start with
  | nil =>
      obtain ⟨isStart, -⟩ := linked
      refine ⟨isStart, some address, ?_, rfl, none, ?_, rfl⟩
      · rw [Function.update_of_ne (old (by simp)), Function.update_self]
      · rw [Function.update_self]
  | cons first items inductionHypothesis =>
      have other : first.1 ≠ item.1 := fun same =>
        linked.notMem_rest (List.mem_map.mpr ⟨item, by simp, same.symm⟩)
      obtain ⟨isStart, next, cell, rest⟩ := linked
      refine ⟨isStart, next, ?_, inductionHypothesis rest fun member => ?_⟩
      · rw [Function.update_of_ne (old (by simp)), Function.update_of_ne other]
        exact cell
      · exact old (List.mem_cons_of_mem _ member)

/-- The first cell freed. -/
theorem free {item : Address × Value} (linked : Linked heap start (item :: items)) :
    ∃ next, heap item.1 = some ⟨item.2, next⟩ ∧
      Linked (Function.update heap item.1 none) next items := by
  obtain ⟨-, next, cell, rest⟩ := id linked
  refine ⟨next, cell, rest.congr fun address member => ?_⟩
  apply Function.update_of_ne
  rintro rfl
  exact linked.notMem_rest member

end Linked

end Ivos
