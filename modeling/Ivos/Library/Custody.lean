/-
Module: Ivos.Library.Custody
Purpose: Numbered items that are handed from queue to queue, each of them in exactly
  one queue at any time.
Trusted boundary: none
Main exports: Custody, Transfer, Custody.apply, Custody.Kept, Custody.Kept.apply
-/
import Mathlib.Data.List.Nodup
import Mathlib.Logic.Function.Basic

namespace Ivos

universe placeLevel

/-- Which items every place holds, oldest first, and how many have been issued.  An item is
the number of items issued before it. -/
structure Custody (Place : Type placeLevel) where
  holds : Place → List Nat
  issued : Nat

/-- What can happen to items. -/
inductive Transfer (Place : Type placeLevel) where
  /-- A new item comes to a place. -/
  | issue (place : Place)
  /-- The oldest item of a place goes to another, if there is one. -/
  | move (source target : Place)
deriving Repr, DecidableEq

namespace Custody

variable {Place : Type placeLevel} [DecidableEq Place]

/-- No item has been issued. -/
def empty : Custody Place := ⟨fun _ => [], 0⟩

/-- Put an item behind those of a place. -/
def put (place : Place) (item : Nat) (holds : Place → List Nat) : Place → List Nat :=
  Function.update holds place (holds place ++ [item])

/-- One transfer. -/
def apply (custody : Custody Place) : Transfer Place → Custody Place
  | .issue place => ⟨put place custody.issued custody.holds, custody.issued + 1⟩
  | .move source target =>
      match custody.holds source with
      | [] => custody
      | item :: rest =>
          { custody with holds := put target item (Function.update custody.holds source rest) }

theorem apply_move_nil {custody : Custody Place} {source : Place}
    (held : custody.holds source = []) (target : Place) :
    custody.apply (.move source target) = custody := by
  simp only [apply, held]

theorem apply_move_cons {custody : Custody Place} {source : Place} {item : Nat} {rest : List Nat}
    (held : custody.holds source = item :: rest) (target : Place) :
    custody.apply (.move source target) =
      { custody with holds := put target item (Function.update custody.holds source rest) } := by
  simp only [apply, held]

/-- Every item issued is in one place, and there once. -/
structure Kept (custody : Custody Place) : Prop where
  once : ∀ place, (custody.holds place).Nodup
  apart : ∀ first second item, item ∈ custody.holds first → item ∈ custody.holds second →
    first = second
  issued : ∀ place item, item ∈ custody.holds place → item < custody.issued
  somewhere : ∀ item < custody.issued, ∃ place, item ∈ custody.holds place

omit [DecidableEq Place] in
theorem kept_empty : (empty : Custody Place).Kept where
  once := fun _ => List.nodup_nil
  apart := fun _ _ _ member => absurd member List.not_mem_nil
  issued := fun _ _ member => absurd member List.not_mem_nil
  somewhere := fun item below => absurd below (Nat.not_lt_zero item)

theorem mem_put {place other : Place} {item member : Nat} {holds : Place → List Nat} :
    member ∈ put place item holds other ↔
      member ∈ holds other ∨ other = place ∧ member = item := by
  unfold put
  by_cases isPlace : other = place
  · subst isPlace
    rw [Function.update_self, List.mem_append, List.mem_singleton]
    exact ⟨fun inside => inside.imp_right fun isItem => ⟨rfl, isItem⟩,
      fun inside => inside.imp_right And.right⟩
  · rw [Function.update_of_ne isPlace]
    exact ⟨.inl, fun inside => inside.elim id fun isItem => absurd isItem.1 isPlace⟩

theorem nodup_put {place : Place} {item : Nat} {holds : Place → List Nat}
    (once : ∀ place, (holds place).Nodup) (fresh : item ∉ holds place) (other : Place) :
    (put place item holds other).Nodup := by
  unfold put
  by_cases isPlace : other = place
  · subst isPlace
    rw [Function.update_self]
    exact List.nodup_append.mpr ⟨once other, List.nodup_singleton item,
      fun member inside last isLast => by
        rw [List.mem_singleton] at isLast
        rintro rfl
        exact fresh (isLast ▸ inside)⟩
  · rw [Function.update_of_ne isPlace]
    exact once other

namespace Kept

variable {custody : Custody Place} (kept : custody.Kept)

include kept

/-- A new item is in none of the places. -/
theorem issue (place : Place) : (custody.apply (.issue place)).Kept := by
  have fresh : ∀ other, custody.issued ∉ custody.holds other := fun other inside =>
    Nat.lt_irrefl _ (kept.issued other _ inside)
  refine ⟨fun other => nodup_put kept.once (fresh place) other, ?_, ?_, ?_⟩
  · intro first second item inFirst inSecond
    rcases mem_put.mp inFirst with inFirst | ⟨isFirst, isNew⟩
    · rcases mem_put.mp inSecond with inSecond | ⟨-, isNew⟩
      · exact kept.apart first second item inFirst inSecond
      · exact absurd (isNew ▸ inFirst) (fresh first)
    · rcases mem_put.mp inSecond with inSecond | ⟨isSecond, -⟩
      · exact absurd (isNew ▸ inSecond) (fresh second)
      · exact isFirst.trans isSecond.symm
  · intro other item inside
    rcases mem_put.mp inside with inside | ⟨-, rfl⟩
    · exact Nat.lt_succ_of_lt (kept.issued other item inside)
    · exact Nat.lt_succ_self _
  · intro item below
    rcases Nat.lt_succ_iff_lt_or_eq.mp below with below | rfl
    · obtain ⟨other, inside⟩ := kept.somewhere item below
      exact ⟨other, mem_put.mpr (.inl inside)⟩
    · exact ⟨place, mem_put.mpr (.inr ⟨rfl, rfl⟩)⟩

/-- The oldest item of a place is nowhere once it has been taken. -/
theorem take {source : Place} {item : Nat} {rest : List Nat}
    (held : custody.holds source = item :: rest) (other : Place) (member : Nat) :
    member ∈ Function.update custody.holds source rest other ↔
      member ∈ custody.holds other ∧ member ≠ item := by
  have once := kept.once source
  rw [held] at once
  have inSource : item ∈ custody.holds source := held ▸ List.mem_cons_self
  by_cases isSource : other = source
  · subst isSource
    rw [Function.update_self, held, List.mem_cons]
    constructor
    · intro inRest
      exact ⟨.inr inRest, fun isItem => (List.nodup_cons.mp once).1 (isItem ▸ inRest)⟩
    · rintro ⟨isItem | inRest, different⟩
      · exact absurd isItem different
      · exact inRest
  · rw [Function.update_of_ne isSource]
    refine ⟨fun inside => ⟨inside, ?_⟩, And.left⟩
    rintro rfl
    exact isSource (kept.apart other source member inside inSource)

/-- An item that is moved goes from one place to another. -/
theorem move (source target : Place) : (custody.apply (.move source target)).Kept := by
  cases held : custody.holds source with
  | nil =>
      rw [apply_move_nil held]
      exact kept
  | cons item rest =>
      have taken := kept.take held
      have inSource : item ∈ custody.holds source := held ▸ List.mem_cons_self
      rw [apply_move_cons held]
      refine ⟨?_, ?_, ?_, ?_⟩
      · refine fun other => nodup_put (fun place => ?_) (fun inside => ?_) other
        · by_cases isSource : place = source
          · subst isSource
            have once := kept.once place
            rw [held] at once
            rw [Function.update_self]
            exact (List.nodup_cons.mp once).2
          · rw [Function.update_of_ne isSource]
            exact kept.once place
        · exact ((taken target item).mp inside).2 rfl
      · intro first second member inFirst inSecond
        rcases mem_put.mp inFirst with inFirst | ⟨rfl, rfl⟩
        · obtain ⟨inFirst, different⟩ := (taken first member).mp inFirst
          rcases mem_put.mp inSecond with inSecond | ⟨-, isItem⟩
          · exact kept.apart first second member inFirst ((taken second member).mp inSecond).1
          · exact absurd isItem different
        · rcases mem_put.mp inSecond with inSecond | ⟨rfl, -⟩
          · exact absurd rfl ((taken second member).mp inSecond).2
          · rfl
      · intro other member inside
        rcases mem_put.mp inside with inside | ⟨-, rfl⟩
        · exact kept.issued other member ((taken other member).mp inside).1
        · exact kept.issued source member inSource
      · intro member below
        by_cases isItem : member = item
        · exact ⟨target, mem_put.mpr (.inr ⟨rfl, isItem⟩)⟩
        · obtain ⟨other, inside⟩ := kept.somewhere member below
          exact ⟨other, mem_put.mpr (.inl ((taken other member).mpr ⟨inside, isItem⟩))⟩

/-- Every transfer. -/
theorem apply (transfer : Transfer Place) : (custody.apply transfer).Kept := by
  cases transfer with
  | issue place => exact kept.issue place
  | move source target => exact kept.move source target

end Kept

/-! ### How much a place holds -/

theorem length_put (place other : Place) (item : Nat) (holds : Place → List Nat) :
    (put place item holds other).length =
      (holds other).length + if other = place then 1 else 0 := by
  unfold put
  by_cases isPlace : other = place
  · subst isPlace
    simp
  · simp [isPlace]

/-- A move between two places takes one item off the first, if there is one. -/
theorem length_move (custody : Custody Place) {source target : Place} (different : source ≠ target)
    (other : Place) :
    ((custody.apply (.move source target)).holds other).length =
      if other = source then (custody.holds source).length - 1
      else (custody.holds other).length +
        if other = target then min 1 (custody.holds source).length else 0 := by
  cases held : custody.holds source with
  | nil =>
      rw [apply_move_nil held]
      by_cases isSource : other = source
      · simp [isSource, held]
      · simp [isSource]
  | cons item rest =>
      rw [apply_move_cons held, length_put]
      by_cases isSource : other = source
      · subst isSource
        simp [different]
      · simp [isSource]

end Custody

end Ivos
