/-
Module: Ivos.Library.LexicalPath
Purpose: Paths read component by component, and when one ends inside a directory.
Trusted boundary: none
Main exports: PathMove, Location, Location.walk, Location.Inside, NeverAbove, Returns,
  Location.walk_ups_eq_zero_iff, Location.inside_iff
-/
import Mathlib.Data.List.Induction
import Mathlib.Data.List.Count

namespace Ivos

universe nameLevel

variable {Name : Type nameLevel}

/-- What a component of a path does: nothing, go to the parent directory, or go
down. -/
inductive PathMove (Name : Type nameLevel) where
  | stay
  | up
  | down (name : Name)
deriving Repr, DecidableEq

namespace PathMove

def isUp : PathMove Name → Bool
  | .up => true
  | _ => false

def isDown : PathMove Name → Bool
  | .down _ => true
  | _ => false

end PathMove

/-- A place relative to the directory a path starts in: so many directories above
it, and from there down the names, innermost first. -/
structure Location (Name : Type nameLevel) where
  ups : Nat
  names : List Name
deriving Repr, DecidableEq

/-- No prefix of the moves goes up more often than down. -/
def NeverAbove (moves : List (PathMove Name)) : Prop :=
  ∀ first, first <+: moves → first.countP PathMove.isUp ≤ first.countP PathMove.isDown

/-- The moves never go above where they start, and end there. -/
def Returns (moves : List (PathMove Name)) : Prop :=
  NeverAbove moves ∧ moves.countP PathMove.isUp = moves.countP PathMove.isDown

theorem NeverAbove.of_prefix {first moves : List (PathMove Name)} (below : NeverAbove moves)
    (isPrefix : first <+: moves) : NeverAbove first :=
  fun earlier earlierPrefix => below earlier (earlierPrefix.trans isPrefix)

theorem NeverAbove.nil : NeverAbove ([] : List (PathMove Name)) := by
  intro first isPrefix
  rw [List.prefix_nil.mp isPrefix]
  exact Nat.le_refl _

theorem NeverAbove.append_singleton {moves : List (PathMove Name)} {move : PathMove Name}
    (below : NeverAbove moves)
    (last : (moves ++ [move]).countP PathMove.isUp ≤ (moves ++ [move]).countP PathMove.isDown) :
    NeverAbove (moves ++ [move]) := by
  intro first isPrefix
  rcases List.prefix_concat_iff.mp isPrefix with rfl | earlier
  · exact last
  · exact below first earlier

namespace Location

/-- Where a path starts. -/
def here : Location Name := ⟨0, []⟩

/-- One component, without a look at the file system. -/
def move (location : Location Name) : PathMove Name → Location Name
  | .stay => location
  | .up =>
      match location.names with
      | [] => ⟨location.ups + 1, []⟩
      | _ :: names => ⟨location.ups, names⟩
  | .down name => ⟨location.ups, name :: location.names⟩

def walk (location : Location Name) (moves : List (PathMove Name)) : Location Name :=
  moves.foldl move location

/-- The directory `base` or something below it. -/
def Inside (base : Name) (location : Location Name) : Prop :=
  location.ups = 0 ∧ location.names.getLast? = some base

instance [DecidableEq Name] (base : Name) (location : Location Name) :
    Decidable (location.Inside base) :=
  inferInstanceAs (Decidable (_ ∧ _))

@[simp] theorem walk_nil (location : Location Name) : location.walk [] = location := rfl

theorem walk_append (location : Location Name) (first second : List (PathMove Name)) :
    location.walk (first ++ second) = (location.walk first).walk second :=
  List.foldl_append

theorem walk_singleton (location : Location Name) (step : PathMove Name) :
    location.walk [step] = location.move step := rfl

theorem ups_le_move (location : Location Name) (step : PathMove Name) :
    location.ups ≤ (location.move step).ups := by
  obtain ⟨ups, names⟩ := location
  cases step with
  | stay | down => exact Nat.le_refl _
  | up =>
      cases names with
      | nil => exact Nat.le_succ ups
      | cons => exact Nat.le_refl _

theorem ups_le_walk (location : Location Name) (moves : List (PathMove Name)) :
    location.ups ≤ (location.walk moves).ups := by
  induction moves generalizing location with
  | nil => exact Nat.le_refl _
  | cons step moves inductionHypothesis =>
      exact Nat.le_trans (location.ups_le_move step) (inductionHypothesis _)

/-- Each move changes the height by one or not at all. -/
theorem length_walk (moves : List (PathMove Name)) :
    (here.walk moves).names.length + moves.countP PathMove.isUp =
      moves.countP PathMove.isDown + (here.walk moves).ups := by
  induction moves using List.reverseRecOn with
  | nil => rfl
  | append_singleton moves step inductionHypothesis =>
      rw [walk_append, walk_singleton, List.countP_append, List.countP_append]
      generalize (here.walk moves : Location Name) = location at inductionHypothesis
      obtain ⟨ups, names⟩ := location
      cases step with
      | stay => simpa [move, PathMove.isUp, PathMove.isDown] using inductionHypothesis
      | down name =>
          simp [move, PathMove.isUp, PathMove.isDown] at inductionHypothesis ⊢
          omega
      | up =>
          cases names with
          | nil =>
              simp [move, PathMove.isUp, PathMove.isDown] at inductionHypothesis ⊢
              omega
          | cons =>
              simp [move, PathMove.isUp, PathMove.isDown] at inductionHypothesis ⊢
              omega

/-- A path leaves its start upwards exactly if some prefix goes up too often. -/
theorem walk_ups_eq_zero_iff {moves : List (PathMove Name)} :
    (here.walk moves).ups = 0 ↔ NeverAbove moves := by
  constructor
  · rintro atStart first ⟨rest, rfl⟩
    have heights := length_walk first
    have later := (here.walk first).ups_le_walk rest
    rw [← walk_append, atStart] at later
    omega
  · intro below
    induction moves using List.reverseRecOn with
    | nil => rfl
    | append_singleton moves step inductionHypothesis =>
        have atStart := inductionHypothesis (below.of_prefix (List.prefix_append ..))
        have heights := length_walk moves
        rw [walk_append, walk_singleton]
        cases step with
        | stay | down => exact atStart
        | up =>
            unfold move
            cases found : (here.walk moves).names with
            | nil =>
                have last := below _ (List.prefix_refl _)
                simp [List.countP_append, PathMove.isUp, PathMove.isDown] at last
                simp [found, atStart] at heights
                omega
            | cons => exact atStart

theorem walk_eq_here_iff {moves : List (PathMove Name)} :
    here.walk moves = here ↔ Returns moves := by
  have heights := length_walk moves
  constructor
  · intro back
    rw [back] at heights
    refine ⟨walk_ups_eq_zero_iff.mp (by rw [back]; rfl), ?_⟩
    simpa [here] using heights
  · rintro ⟨below, level⟩
    have atStart := walk_ups_eq_zero_iff.mpr below
    have noNames : (here.walk moves).names = [] := by
      apply List.eq_nil_of_length_eq_zero
      omega
    cases found : (here.walk moves : Location Name) with
    | mk ups names =>
        rw [found] at atStart noNames
        rw [here]
        exact congrArg₂ Location.mk atStart noNames

/-- Moves that never go above their start leave what is below it alone. -/
theorem walk_of_neverAbove (location : Location Name) {moves : List (PathMove Name)}
    (below : NeverAbove moves) :
    location.walk moves = ⟨location.ups, (here.walk moves).names ++ location.names⟩ := by
  induction moves using List.reverseRecOn with
  | nil => rfl
  | append_singleton moves step inductionHypothesis =>
      rw [walk_append, inductionHypothesis (below.of_prefix (List.prefix_append ..)), walk_append,
        walk_singleton, walk_singleton]
      cases step with
      | stay | down => rfl
      | up =>
          have atStart := walk_ups_eq_zero_iff.mpr below
          rw [walk_append, walk_singleton] at atStart
          unfold move at atStart ⊢
          cases found : (here.walk moves).names with
          | nil =>
              rw [found] at atStart
              cases atStart
          | cons => rfl

/-- Where a path leads that goes down into `base` from its start and stays below. -/
theorem walk_into {base : Name} {before after : List (PathMove Name)} (returns : Returns before)
    (below : NeverAbove after) :
    here.walk (before ++ .down base :: after) = ⟨0, (here.walk after).names ++ [base]⟩ := by
  have split : before ++ .down base :: after = (before ++ [.down base]) ++ after := by simp
  rw [split, walk_append, walk_of_neverAbove _ below, walk_append, walk_eq_here_iff.mpr returns]
  rfl

/-- Behind the component `base` one more `..` stays below it if a name is left to leave. -/
theorem neverAbove_up {base innermost : Name} {names : List Name}
    {after : List (PathMove Name)} (below : NeverAbove after)
    (found : (here.walk after).names ++ [base] = innermost :: names) (left : names ≠ []) :
    NeverAbove (after ++ [.up]) := by
  have heights := length_walk after
  rw [walk_ups_eq_zero_iff.mpr below] at heights
  have deeper : 0 < (here.walk after).names.length := by
    by_contra empty
    have noNames : (here.walk after).names = [] := by
      apply List.eq_nil_of_length_eq_zero
      omega
    rw [noNames] at found
    cases found
    exact left rfl
  apply below.append_singleton
  simp only [List.countP_append, List.countP_singleton, PathMove.isUp, PathMove.isDown, if_true]
  omega

/-- A path that ends inside `base` has gone into it for good at one of its components. -/
theorem exists_entry_of_inside {base : Name} {moves : List (PathMove Name)}
    (inside : (here.walk moves).Inside base) :
    ∃ before after, moves = before ++ .down base :: after ∧ Returns before ∧
      NeverAbove after := by
  induction moves using List.reverseRecOn with
  | nil => cases inside.2
  | append_singleton moves step inductionHypothesis =>
      rw [walk_append, walk_singleton] at inside
      -- The component `base` stands before the last move.
      have extend (insideBefore : (here.walk moves).Inside base)
          (lastBelow : ∀ before after, moves = before ++ .down base :: after → Returns before →
            NeverAbove after → NeverAbove (after ++ [step])) :
          ∃ before after, moves ++ [step] = before ++ .down base :: after ∧ Returns before ∧
            NeverAbove after := by
        obtain ⟨before, after, same, returns, below⟩ := inductionHypothesis insideBefore
        exact ⟨before, after ++ [step], by rw [same]; simp, returns,
          lastBelow before after same returns below⟩
      cases step with
      | stay =>
          apply extend inside
          intro _ after _ _ below
          apply below.append_singleton
          simpa [List.countP_append, PathMove.isUp, PathMove.isDown] using
            below after (List.prefix_refl _)
      | down name =>
          obtain ⟨atStart, last⟩ := inside
          cases found : (here.walk moves).names with
          | nil =>
              obtain rfl : name = base := by simpa [move, found] using last
              have back : here.walk moves = here := by
                cases walked : (here.walk moves : Location Name) with
                | mk ups names =>
                    simp [move, walked] at atStart found
                    rw [atStart, found, here]
              exact ⟨moves, [], rfl, walk_eq_here_iff.mp back, .nil⟩
          | cons innermost names =>
              apply extend
              · exact ⟨atStart, by simpa [move, found] using last⟩
              · intro _ after _ _ below
                apply below.append_singleton
                have := below after (List.prefix_refl _)
                simp [List.countP_append, PathMove.isUp, PathMove.isDown]
                omega
      | up =>
          obtain ⟨atStart, last⟩ := inside
          unfold move at atStart last
          cases found : (here.walk moves).names with
          | nil =>
              rw [found] at atStart
              cases atStart
          | cons innermost names =>
              rw [found] at atStart last
              apply extend
              · refine ⟨atStart, ?_⟩
                rw [found, List.getLast?_cons, last]
                rfl
              · intro before after same returns below
                rw [same, walk_into returns below] at found
                apply neverAbove_up below found
                rintro rfl
                cases last

/-- A path ends inside `base` exactly if, before one of its components `base`, it
comes back to its start without going above it, and behind that component never
goes above it. -/
theorem inside_iff {base : Name} {moves : List (PathMove Name)} :
    (here.walk moves).Inside base ↔
      ∃ before after, moves = before ++ .down base :: after ∧ Returns before ∧
        NeverAbove after := by
  constructor
  · exact exists_entry_of_inside
  · rintro ⟨before, after, rfl, returns, below⟩
    rw [walk_into returns below]
    exact ⟨rfl, by simp⟩

end Location

end Ivos
