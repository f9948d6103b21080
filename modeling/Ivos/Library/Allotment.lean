/-
Module: Ivos.Library.Allotment
Purpose: Intervals that owners hold of an ordered range, handed out from a bound that
  only moves up.
Trusted boundary: none
Main exports: Allotted, Allotted.owner_unique, Allotted.keep, Allotted.grant
-/
import Mathlib.Order.Basic

namespace Ivos

universe ownerLevel valueLevel

variable {Owner : Type ownerLevel} {Value : Type valueLevel} [Preorder Value]

/-- Every owner holds a nonempty interval below the bound, and no two intervals
meet. -/
structure Allotted (owns : Owner → Prop) (low high : Owner → Value) (bound : Value) : Prop where
  ordered : ∀ owner, owns owner → low owner ≤ high owner
  below : ∀ owner, owns owner → high owner < bound
  apart : ∀ first second, first ≠ second → owns first → owns second →
    high first < low second ∨ high second < low first

namespace Allotted

variable {owns ownsAfter : Owner → Prop} {low high lowAfter highAfter : Owner → Value}
  {bound boundAfter : Value}

/-- A value has one owner. -/
theorem owner_unique (allotted : Allotted owns low high bound) {first second : Owner}
    {value : Value} (ownsFirst : owns first) (ownsSecond : owns second)
    (inFirst : low first ≤ value ∧ value ≤ high first)
    (inSecond : low second ≤ value ∧ value ≤ high second) : first = second := by
  by_contra different
  rcases allotted.apart first second different ownsFirst ownsSecond with before | before
  · exact lt_irrefl value (inFirst.2.trans_lt (before.trans_le inSecond.1))
  · exact lt_irrefl value (inSecond.2.trans_lt (before.trans_le inFirst.1))

/-- Owners may go and the bound may move up. -/
theorem keep (allotted : Allotted owns low high bound)
    (fewer : ∀ owner, ownsAfter owner → owns owner)
    (same : ∀ owner, ownsAfter owner → lowAfter owner = low owner ∧ highAfter owner = high owner)
    (higher : bound ≤ boundAfter) : Allotted ownsAfter lowAfter highAfter boundAfter where
  ordered owner owned := by
    rw [(same owner owned).1, (same owner owned).2]
    exact allotted.ordered owner (fewer owner owned)
  below owner owned := by
    rw [(same owner owned).2]
    exact (allotted.below owner (fewer owner owned)).trans_le higher
  apart first second different ownsFirst ownsSecond := by
    rw [(same first ownsFirst).1, (same first ownsFirst).2, (same second ownsSecond).1,
      (same second ownsSecond).2]
    exact allotted.apart first second different (fewer first ownsFirst) (fewer second ownsSecond)

/-- A new interval from the bound on, in place of what its owner held before. -/
theorem grant (allotted : Allotted owns low high bound) {owner : Owner}
    (others : ∀ other, other ≠ owner → ownsAfter other →
      owns other ∧ lowAfter other = low other ∧ highAfter other = high other)
    (fromBound : bound ≤ lowAfter owner) (ordered : lowAfter owner ≤ highAfter owner)
    (belowAfter : highAfter owner < boundAfter) :
    Allotted ownsAfter lowAfter highAfter boundAfter where
  ordered other owned := by
    by_cases isNew : other = owner
    · exact isNew ▸ ordered
    · obtain ⟨owned, sameLow, sameHigh⟩ := others other isNew owned
      rw [sameLow, sameHigh]
      exact allotted.ordered other owned
  below other owned := by
    by_cases isNew : other = owner
    · exact isNew ▸ belowAfter
    · obtain ⟨owned, -, sameHigh⟩ := others other isNew owned
      rw [sameHigh]
      exact (allotted.below other owned).trans (fromBound.trans_lt (ordered.trans_lt belowAfter))
  apart first second different ownsFirst ownsSecond := by
    -- An interval handed out earlier ends below the bound.
    have earlier (other : Owner) (isOld : other ≠ owner) (owned : ownsAfter other) :
        highAfter other < lowAfter owner := by
      obtain ⟨owned, -, sameHigh⟩ := others other isOld owned
      rw [sameHigh]
      exact (allotted.below other owned).trans_le fromBound
    by_cases firstNew : first = owner
    · subst firstNew
      exact .inr (earlier second different.symm ownsSecond)
    · by_cases secondNew : second = owner
      · subst secondNew
        exact .inl (earlier first different ownsFirst)
      · obtain ⟨ownedFirst, firstLow, firstHigh⟩ := others first firstNew ownsFirst
        obtain ⟨ownedSecond, secondLow, secondHigh⟩ := others second secondNew ownsSecond
        rw [firstLow, firstHigh, secondLow, secondHigh]
        exact allotted.apart first second different ownedFirst ownedSecond

end Allotted

end Ivos
