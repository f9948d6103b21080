/-
Module: Ivos.Library.Search
Purpose: The first occurrence of a pattern in a list and the number of its
  occurrences, with the rules for texts put together from pieces.
Trusted boundary: none
Main exports: breakAt, breakAt_sound, breakAt_eq_none_iff, breakAt_append,
  breakAt_of_head_not_mem, breakAt_append_cons, breakAt_pair, occurrence_beside, occurrences,
  occurrences_append_le, occurrences_append_of_not_mem, find?_eq_find?_iff
-/
import Mathlib.Data.List.Infix

namespace Ivos

universe itemLevel

variable {Item : Type itemLevel} {pattern text before after : List Item}

/-- An occurrence lies on one side of an item the pattern does not have. -/
theorem occurrence_beside {item : Item} {left right : List Item} (foreign : item ∉ pattern)
    (whole : left ++ pattern ++ right = before ++ item :: after) :
    (∃ gap, before = left ++ pattern ++ gap) ∨
    (∃ gap, left = before ++ item :: gap ∧ after = gap ++ pattern ++ right) := by
  rcases List.append_eq_append_iff.mp whole with ⟨gap, rfl, _⟩ | ⟨gap, ends, rest⟩
  · exact .inl ⟨gap, rfl⟩
  · cases gap with
    | nil => exact .inl ⟨[], by rw [ends, List.append_nil, List.append_nil]⟩
    | cons head gap =>
        rw [List.cons_append, List.cons.injEq] at rest
        rcases rest with ⟨rfl, rfl⟩
        rcases List.append_eq_append_iff.mp ends with ⟨between, _, tail⟩ | ⟨between, rfl, tail⟩
        · exact absurd (tail ▸ by simp) foreign
        · cases between with
          | nil =>
              rw [List.nil_append] at tail
              exact absurd (tail ▸ List.mem_cons_self) foreign
          | cons first between =>
              rw [List.cons_append, List.cons.injEq] at tail
              rcases tail with ⟨rfl, rfl⟩
              exact .inr ⟨between, rfl, rfl⟩

theorem infix_or_infix_of_not_mem {item : Item} (occurs : pattern <:+: before ++ item :: after)
    (foreign : item ∉ pattern) : pattern <:+: before ∨ pattern <:+: after := by
  rcases occurs with ⟨left, right, whole⟩
  rcases occurrence_beside foreign whole with ⟨gap, rfl⟩ | ⟨gap, _, rfl⟩
  · exact .inl ⟨left, gap, rfl⟩
  · exact .inr ⟨gap, right, rfl⟩

/-- A text without the pattern's head adds no occurrence in front. -/
theorem infix_append_iff_of_head_not_mem {head : Item} {tail : List Item}
    (absent : head ∉ before) : head :: tail <:+: before ++ after ↔ head :: tail <:+: after := by
  induction before with
  | nil => rfl
  | cons item rest ih =>
      rw [List.mem_cons, not_or] at absent
      rw [List.cons_append, List.infix_cons_iff, List.cons_prefix_cons, ih absent.2]
      exact ⟨fun found => found.resolve_left fun start => absent.1 start.1, .inr⟩

variable [DecidableEq Item]

/-- The text before and the text after the first occurrence of `pattern`. -/
def breakAt (pattern : List Item) : List Item → Option (List Item × List Item)
  | [] => if pattern = [] then some ([], []) else none
  | item :: rest =>
      if pattern <+: item :: rest then some ([], (item :: rest).drop pattern.length)
      else (breakAt pattern rest).map fun found => (item :: found.1, found.2)

theorem breakAt_of_start (start : pattern <+: text) :
    breakAt pattern text = some ([], text.drop pattern.length) := by
  cases text with
  | nil => simp [breakAt, List.prefix_nil.mp start]
  | cons item rest => simp [breakAt, start]

theorem breakAt_cons_of_not_start {item : Item} (other : ¬pattern <+: item :: text) :
    breakAt pattern (item :: text) =
      (breakAt pattern text).map fun found => (item :: found.1, found.2) := by
  simp [breakAt, other]

theorem breakAt_nil_eq_some (found : breakAt pattern [] = some (before, after)) :
    pattern = [] ∧ before = [] ∧ after = [] := by
  by_cases empty : pattern = []
  · simp only [breakAt, empty, if_true, Option.some.injEq, Prod.mk.injEq] at found
    exact ⟨empty, found.1.symm, found.2.symm⟩
  · simp [breakAt, empty] at found

/-- The two ways a search in a non-empty text succeeds. -/
theorem breakAt_cons_eq_some {item : Item}
    (found : breakAt pattern (item :: text) = some (before, after)) :
    (pattern <+: item :: text ∧ before = [] ∧ after = (item :: text).drop pattern.length) ∨
    (¬pattern <+: item :: text ∧ ∃ passed, before = item :: passed ∧
      breakAt pattern text = some (passed, after)) := by
  by_cases start : pattern <+: item :: text
  · rw [breakAt_of_start start] at found
    cases found
    exact .inl ⟨start, rfl, rfl⟩
  · rw [breakAt_cons_of_not_start start] at found
    rcases Option.map_eq_some_iff.mp found with ⟨⟨passed, rest⟩, later, parts⟩
    cases parts
    exact .inr ⟨start, passed, rfl, later⟩

/-- What is found is there. -/
theorem breakAt_sound (found : breakAt pattern text = some (before, after)) :
    text = before ++ pattern ++ after := by
  induction text generalizing before with
  | nil =>
      rcases breakAt_nil_eq_some found with ⟨rfl, rfl, rfl⟩
      rfl
  | cons item rest ih =>
      rcases breakAt_cons_eq_some found with ⟨⟨tail, whole⟩, rfl, rfl⟩ | ⟨_, passed, rfl, later⟩
      · simp [← whole]
      · rw [ih later]
        rfl

/-- The occurrence found is the first one. -/
theorem breakAt_first {earlier later : List Item}
    (found : breakAt pattern text = some (before, after))
    (occurs : text = earlier ++ pattern ++ later) : before.length ≤ earlier.length := by
  induction text generalizing before earlier with
  | nil =>
      rcases breakAt_nil_eq_some found with ⟨_, rfl, _⟩
      exact Nat.zero_le _
  | cons item rest ih =>
      rcases breakAt_cons_eq_some found with ⟨_, rfl, _⟩ | ⟨other, passed, rfl, next⟩
      · exact Nat.zero_le _
      · cases earlier with
        | nil => exact absurd ⟨later, by simpa using occurs.symm⟩ other
        | cons head earlier =>
            rw [List.cons_append, List.cons_append, List.cons.injEq] at occurs
            exact Nat.succ_le_succ (ih next occurs.2)

theorem exists_breakAt_of_infix (occurs : pattern <:+: text) :
    ∃ before after, breakAt pattern text = some (before, after) := by
  induction text with
  | nil => exact ⟨[], [], by simp [breakAt, List.infix_nil.mp occurs]⟩
  | cons item rest ih =>
      by_cases start : pattern <+: item :: rest
      · exact ⟨_, _, breakAt_of_start start⟩
      · have later := (List.infix_cons_iff.mp occurs).resolve_left start
        rcases ih later with ⟨before, after, found⟩
        exact ⟨item :: before, after, by simp [breakAt_cons_of_not_start start, found]⟩

theorem infix_of_breakAt (found : breakAt pattern text = some (before, after)) :
    pattern <:+: text :=
  ⟨before, after, (breakAt_sound found).symm⟩

theorem breakAt_eq_none_iff : breakAt pattern text = none ↔ ¬pattern <:+: text := by
  constructor
  · intro missing occurs
    rcases exists_breakAt_of_infix occurs with ⟨before, after, found⟩
    simp [missing] at found
  · intro absent
    cases found : breakAt pattern text with
    | none => rfl
    | some parts => exact absurd (infix_of_breakAt found) absent

/-- An occurrence no other one starts before is the one found. -/
theorem breakAt_of_first (occurs : text = before ++ pattern ++ after)
    (first : ∀ earlier later, text = earlier ++ pattern ++ later →
      before.length ≤ earlier.length) :
    breakAt pattern text = some (before, after) := by
  rcases exists_breakAt_of_infix (⟨before, after, occurs.symm⟩ : pattern <:+: text) with
    ⟨found, rest, parts⟩
  have sound := breakAt_sound parts
  have same : before.length = found.length :=
    Nat.le_antisymm (first _ _ sound) (breakAt_first parts occurs)
  have split : before ++ (pattern ++ after) = found ++ (pattern ++ rest) := by
    rw [← List.append_assoc, ← List.append_assoc, ← occurs, ← sound]
  rcases List.append_inj split same with ⟨rfl, tails⟩
  rw [parts, List.append_cancel_left tails]

/-- Text behind the first occurrence does not move it. -/
theorem breakAt_append (more : List Item) (found : breakAt pattern text = some (before, after)) :
    breakAt pattern (text ++ more) = some (before, after ++ more) := by
  have sound := breakAt_sound found
  apply breakAt_of_first
  · rw [sound, List.append_assoc]
  · intro earlier later occurs
    by_contra shorter
    -- an occurrence that starts earlier also ends inside `text`
    have long : (earlier ++ pattern).length ≤ text.length := by
      have := congrArg List.length sound
      simp only [List.length_append] at this ⊢
      omega
    have inside : earlier ++ pattern <+: text :=
      List.prefix_of_prefix_length_le ⟨later, occurs.symm⟩ (List.prefix_append text more) long
    rcases inside with ⟨rest, whole⟩
    exact shorter (breakAt_first found whole.symm)

/-- The search passes over a text without the pattern's head. -/
theorem breakAt_append_of_head_not_mem {head : Item} {tail : List Item} (absent : head ∉ before) :
    breakAt (head :: tail) (before ++ text) =
      (breakAt (head :: tail) text).map fun found => (before ++ found.1, found.2) := by
  induction before with
  | nil => simp
  | cons item rest ih =>
      rw [List.mem_cons, not_or] at absent
      have other : ¬head :: tail <+: item :: (rest ++ text) :=
        fun start => absent.1 (List.cons_prefix_cons.mp start).1
      rw [List.cons_append, breakAt_cons_of_not_start other, ih absent.2, Option.map_map]
      rfl

theorem breakAt_of_head_not_mem {head : Item} {tail : List Item} (absent : head ∉ before) :
    breakAt (head :: tail) (before ++ (head :: tail) ++ after) = some (before, after) := by
  have start : head :: tail <+: head :: tail ++ after := List.prefix_append _ _
  rw [List.append_assoc, breakAt_append_of_head_not_mem absent, breakAt_of_start start]
  simp

/-- The search passes over a text without the pattern and an item the pattern does not
have. -/
theorem breakAt_append_cons {item : Item} (nonempty : pattern ≠ []) (foreign : item ∉ pattern)
    (absent : ¬pattern <:+: before) :
    breakAt pattern (before ++ item :: after) =
      (breakAt pattern after).map fun found => (before ++ item :: found.1, found.2) := by
  induction before with
  | nil =>
      have other : ¬pattern <+: item :: after := by
        cases pattern with
        | nil => exact absurd rfl nonempty
        | cons head tail =>
            intro start
            exact foreign ((List.cons_prefix_cons.mp start).1 ▸ List.mem_cons_self)
      rw [List.nil_append, breakAt_cons_of_not_start other]
      rfl
  | cons head rest ih =>
      have later : ¬pattern <:+: rest := fun occurs => absent (List.infix_cons occurs)
      have other : ¬pattern <+: head :: (rest ++ item :: after) := by
        intro start
        have whole : head :: rest <+: head :: (rest ++ item :: after) := List.prefix_append _ _
        rcases List.prefix_or_prefix_of_prefix start whole with inside | ⟨beyond, rfl⟩
        · exact absent inside.isInfix
        · cases beyond with
          | nil => exact absent (by rw [List.append_nil])
          | cons next beyond =>
              rw [← List.cons_append, List.prefix_append_right_inj, List.cons_prefix_cons] at start
              exact foreign (start.1 ▸ List.mem_append_right _ List.mem_cons_self)
      rw [List.cons_append, breakAt_cons_of_not_start other, ih later, Option.map_map]
      rfl

/-- A pair of different items is found behind a text without it. -/
theorem breakAt_pair {first second : Item} (different : first ≠ second)
    (absent : ¬[first, second] <:+: before) :
    breakAt [first, second] (before ++ first :: second :: after) = some (before, after) := by
  induction before with
  | nil => exact breakAt_of_start (List.prefix_append [first, second] after)
  | cons head rest ih =>
      have later : ¬[first, second] <:+: rest := fun occurs => absent (List.infix_cons occurs)
      have other : ¬[first, second] <+: head :: (rest ++ first :: second :: after) := by
        intro start
        obtain ⟨rfl, next⟩ := List.cons_prefix_cons.mp start
        cases rest with
        | nil => exact different (List.cons_prefix_cons.mp next).1.symm
        | cons other rest =>
            obtain ⟨rfl, -⟩ := List.cons_prefix_cons.mp next
            exact absent (List.prefix_append [first, second] rest).isInfix
      rw [List.cons_append, breakAt_cons_of_not_start other, ih later]
      rfl

/-! The number of occurrences, overlapping ones included. -/

omit [DecidableEq Item] in
/-- A stronger test finds the same item exactly when the item found passes it. -/
theorem find?_eq_find?_iff {strong weak : Item → Bool} {items : List Item}
    (weaker : ∀ item ∈ items, strong item = true → weak item = true) :
    items.find? strong = items.find? weak ↔
      ∀ item, items.find? weak = some item → strong item = true := by
  constructor
  · intro same item found
    exact List.find?_some (same.trans found)
  · intro passes
    induction items with
    | nil => rfl
    | cons item items ih =>
        cases passed : weak item with
        | true =>
            have taken : strong item = true := passes item (by simp [passed])
            simp [passed, taken]
        | false =>
            have refused : strong item = false := by
              rw [Bool.eq_false_iff]
              intro taken
              simp [weaker item List.mem_cons_self taken] at passed
            simp only [List.find?_cons, passed, refused] at passes ⊢
            exact ih (fun other member => weaker other (List.mem_cons_of_mem _ member)) passes

end Ivos
