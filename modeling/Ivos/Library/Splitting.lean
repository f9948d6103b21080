/-
Module: Ivos.Library.Splitting
Purpose: The leftmost occurrences of a pattern that do not overlap, the pieces between
  them, and what is left of a text when some items of all pieces but the last are
  erased.
Trusted boundary: none
Main exports: leftmostStarts, leftmostStarts_of_found, eraseBetween,
  eraseBetween_of_found, eraseBetween_eq_self, Splits, Splits.length, Splits.intercalate
-/
import Ivos.Library.Search

namespace Ivos

universe itemLevel

variable {Item : Type itemLevel} [DecidableEq Item] {pattern text before after : List Item}

/-! ### Occurrences -/

/-- Where the leftmost occurrences that do not overlap start, read from left to right.
The next `pending` items belong to the last occurrence. -/
def leftmostStarts (pattern : List Item) : Nat → Nat → List Item → List Nat
  | _, _, [] => []
  | position, pending + 1, _ :: rest => leftmostStarts pattern (position + 1) pending rest
  | position, 0, item :: rest =>
      if pattern <+: item :: rest then
        position :: leftmostStarts pattern (position + 1) (pattern.length - 1) rest
      else leftmostStarts pattern (position + 1) 0 rest

theorem leftmostStarts_cons_succ (pattern : List Item) (position pending : Nat) (item : Item)
    (rest : List Item) : leftmostStarts pattern position (pending + 1) (item :: rest) =
      leftmostStarts pattern (position + 1) pending rest := rfl

theorem leftmostStarts_cons_zero (pattern : List Item) (position : Nat) (item : Item)
    (rest : List Item) : leftmostStarts pattern position 0 (item :: rest) =
      if pattern <+: item :: rest then
        position :: leftmostStarts pattern (position + 1) (pattern.length - 1) rest
      else leftmostStarts pattern (position + 1) 0 rest := rfl

/-- The items of an occurrence are passed over. -/
theorem leftmostStarts_pending (pattern passed text : List Item) (position : Nat) :
    leftmostStarts pattern position passed.length (passed ++ text) =
      leftmostStarts pattern (position + passed.length) 0 text := by
  induction passed generalizing position with
  | nil => rfl
  | cons item passed inductionHypothesis =>
      rw [List.length_cons, List.cons_append, leftmostStarts_cons_succ, inductionHypothesis]
      congr 1
      omega

/-- Positions count from anywhere. -/
theorem leftmostStarts_shift (pattern text : List Item) (position pending shift : Nat) :
    leftmostStarts pattern (position + shift) pending text =
      (leftmostStarts pattern position pending text).map (· + shift) := by
  induction text generalizing position pending with
  | nil => cases pending <;> rfl
  | cons item rest inductionHypothesis =>
      have next (pending : Nat) : leftmostStarts pattern (position + shift + 1) pending rest =
          (leftmostStarts pattern (position + 1) pending rest).map (· + shift) := by
        rw [Nat.add_right_comm]
        exact inductionHypothesis (position + 1) pending
      cases pending with
      | succ pending => simp only [leftmostStarts_cons_succ, next]
      | zero =>
          simp only [leftmostStarts_cons_zero, next]
          split
          · rfl
          · rfl

theorem leftmostStarts_of_missing (missing : breakAt pattern text = none) (position : Nat) :
    leftmostStarts pattern position 0 text = [] := by
  induction text generalizing position with
  | nil => rfl
  | cons item rest inductionHypothesis =>
      have absent := breakAt_eq_none_iff.mp missing
      have other : ¬pattern <+: item :: rest := fun start => absent start.isInfix
      have later : ¬pattern <:+: rest := fun occurs => absent (List.infix_cons occurs)
      rw [leftmostStarts_cons_zero, if_neg other]
      exact inductionHypothesis (breakAt_eq_none_iff.mpr later) _

theorem leftmostStarts_found_at (nonempty : pattern ≠ [])
    (found : breakAt pattern text = some (before, after)) (position : Nat) :
    leftmostStarts pattern position 0 text = (position + before.length) ::
      leftmostStarts pattern (position + before.length + pattern.length) 0 after := by
  induction text generalizing before position with
  | nil => exact absurd (breakAt_nil_eq_some found).1 nonempty
  | cons item rest inductionHypothesis =>
      rcases breakAt_cons_eq_some found with
        ⟨start, rfl, rfl⟩ | ⟨other, passed, rfl, later⟩
      · obtain ⟨behind, whole⟩ := start
        cases pattern with
        | nil => exact absurd rfl nonempty
        | cons head tail =>
            rw [List.cons_append] at whole
            obtain ⟨rfl, rfl⟩ := List.cons.inj whole
            have starts : head :: tail <+: head :: (tail ++ behind) :=
              List.prefix_append (head :: tail) behind
            have passed := leftmostStarts_pending (head :: tail) tail behind (position + 1)
            rw [leftmostStarts_cons_zero, if_pos starts]
            simp only [List.length_cons, Nat.add_sub_cancel, List.length_nil, Nat.add_zero,
              List.drop_succ_cons, List.drop_left, passed]
            rw [Nat.add_assoc position, Nat.add_comm 1]
      · rw [leftmostStarts_cons_zero, if_neg other, inductionHypothesis later, List.length_cons]
        congr 1
        · omega
        · congr 1
          omega

/-- The first occurrence, and those behind it. -/
theorem leftmostStarts_of_found (nonempty : pattern ≠ [])
    (found : breakAt pattern text = some (before, after)) :
    leftmostStarts pattern 0 0 text = before.length ::
      (leftmostStarts pattern 0 0 after).map (· + (before.length + pattern.length)) := by
  rw [leftmostStarts_found_at nonempty found, ← leftmostStarts_shift]
  simp only [Nat.zero_add]

/-! ### Erasing by position -/

section Erasing

variable {Item : Type itemLevel} {text : List Item}

/-- Erase the items of a text that a test of their position and value names. -/
def eraseAt (erased : Nat → Item → Bool) : Nat → List Item → List Item
  | _, [] => []
  | position, item :: rest =>
      if erased position item then eraseAt erased (position + 1) rest
      else item :: eraseAt erased (position + 1) rest

theorem eraseAt_cons (erased : Nat → Item → Bool) (position : Nat) (item : Item)
    (rest : List Item) : eraseAt erased position (item :: rest) =
      if erased position item then eraseAt erased (position + 1) rest
      else item :: eraseAt erased (position + 1) rest := rfl

theorem eraseAt_append (erased : Nat → Item → Bool) (first second : List Item) (position : Nat) :
    eraseAt erased position (first ++ second) =
      eraseAt erased position first ++ eraseAt erased (position + first.length) second := by
  induction first generalizing position with
  | nil => rfl
  | cons item first inductionHypothesis =>
      have further : position + (item :: first).length = position + 1 + first.length := by
        rw [List.length_cons]
        omega
      simp only [List.cons_append, eraseAt_cons, inductionHypothesis, further]
      split
      · rfl
      · rfl

/-- Tests that agree on the positions of the text, moved along, erase the same. -/
theorem eraseAt_congr {erased other : Nat → Item → Bool} {position shifted : Nat}
    (agree : ∀ offset item, offset < text.length →
      erased (position + offset) item = other (shifted + offset) item) :
    eraseAt erased position text = eraseAt other shifted text := by
  induction text generalizing position shifted with
  | nil => rfl
  | cons item rest inductionHypothesis =>
      have here : erased position item = other shifted item := agree 0 item (Nat.succ_pos _)
      have later : eraseAt erased (position + 1) rest = eraseAt other (shifted + 1) rest := by
        apply inductionHypothesis
        intro offset item inside
        rw [Nat.add_assoc, Nat.add_assoc, Nat.add_comm 1]
        exact agree (offset + 1) item (Nat.succ_lt_succ inside)
      simp only [eraseAt_cons, here, later]

/-- A test of the value only. -/
theorem eraseAt_eq_filter (drops : Item → Bool) (text : List Item) (position : Nat) :
    eraseAt (fun _ item => drops item) position text = text.filter fun item => !drops item := by
  induction text generalizing position with
  | nil => rfl
  | cons item rest inductionHypothesis =>
      rw [eraseAt_cons, List.filter_cons, inductionHypothesis]
      cases drops item with
      | true => rfl
      | false => rfl

theorem eraseAt_eq_self {erased : Nat → Item → Bool} {position : Nat}
    (kept : ∀ offset item, offset < text.length → item ∈ text →
      erased (position + offset) item = false) :
    eraseAt erased position text = text := by
  induction text generalizing position with
  | nil => rfl
  | cons item rest inductionHypothesis =>
      have here : erased position item = false :=
        kept 0 item (Nat.succ_pos _) List.mem_cons_self
      rw [eraseAt_cons, if_neg (by simp [here]), inductionHypothesis]
      intro offset other inside member
      rw [Nat.add_assoc, Nat.add_comm 1]
      exact kept (offset + 1) other (Nat.succ_lt_succ inside) (List.mem_cons_of_mem _ member)

end Erasing

/-! ### Erasing between occurrences -/

/-- One of the occurrences that start there has the position in it. -/
def covers (starts : List Nat) (size position : Nat) : Bool :=
  starts.any fun start => start ≤ position && position < start + size

/-- One of the occurrences starts behind the position. -/
def anyBehind (starts : List Nat) (position : Nat) : Bool :=
  starts.any fun start => position < start

/-- The text without the items that a test drops, except for those inside an
occurrence and those behind the last one. -/
def eraseBetween (drops : Item → Bool) (pattern text : List Item) : List Item :=
  let starts := leftmostStarts pattern 0 0 text
  eraseAt (fun position item =>
    drops item && !covers starts pattern.length position && anyBehind starts position) 0 text

section Positions

variable {first size position : Nat} (later : List Nat)

theorem covers_before (inside : position < first) :
    covers (first :: later.map (· + (first + size))) size position = false := by
  rw [covers, List.any_eq_false]
  intro start member
  rcases List.mem_cons.mp member with rfl | member
  · simp
    omega
  · obtain ⟨start, -, rfl⟩ := List.mem_map.mp member
    simp
    omega

theorem covers_within (inside : position < size) :
    covers (first :: later.map (· + (first + size))) size (first + position) = true := by
  simp [covers, inside]

theorem covers_behind (position : Nat) :
    covers (first :: later.map (· + (first + size))) size (first + size + position) =
      covers later size position := by
  have moved (start : Nat) : (start + (first + size) ≤ first + size + position ↔
      start ≤ position) ∧ (first + size + position < start + (first + size) + size ↔
        position < start + size) := by
    omega
  have passed : ¬first + size + position < first + size := by omega
  simp only [covers, List.any_cons, List.any_map, Function.comp_def, moved, passed, decide_false,
    Bool.and_false, Bool.false_or]

theorem anyBehind_before (inside : position < first) :
    anyBehind (first :: later) position = true := by
  simp [anyBehind, inside]

theorem anyBehind_behind (position : Nat) :
    anyBehind (first :: later.map (· + (first + size))) (first + size + position) =
      anyBehind later position := by
  have moved (start : Nat) : first + size + position < start + (first + size) ↔
      position < start := by
    omega
  have passed : ¬first + size + position < first := by omega
  simp only [anyBehind, List.any_cons, List.any_map, Function.comp_def, moved, passed,
    decide_false, Bool.false_or]

end Positions

section Between

variable (drops : Item → Bool)

/-- Without an occurrence nothing is erased. -/
theorem eraseBetween_of_missing (missing : breakAt pattern text = none) :
    eraseBetween drops pattern text = text := by
  apply eraseAt_eq_self
  intro offset item _ _
  simp [leftmostStarts_of_missing missing, anyBehind]

/-- The first piece is erased from, and the occurrence behind it is kept. -/
theorem eraseBetween_of_found (nonempty : pattern ≠ [])
    (found : breakAt pattern text = some (before, after)) :
    eraseBetween drops pattern text =
      (before.filter fun item => !drops item) ++ pattern ++ eraseBetween drops pattern after := by
  have starts := leftmostStarts_of_found nonempty found
  rw [eraseBetween, starts, breakAt_sound found, eraseAt_append, eraseAt_append,
    ← eraseAt_eq_filter drops before 0, Nat.zero_add, List.length_append, Nat.zero_add]
  congr 1
  · congr 1
    · apply eraseAt_congr
      intro offset item inside
      rw [Nat.zero_add, covers_before _ inside, anyBehind_before _ inside, Bool.not_false,
        Bool.and_true, Bool.and_true]
    · apply eraseAt_eq_self
      intro offset item inside _
      rw [covers_within _ inside, Bool.not_true, Bool.and_false, Bool.false_and]
  · apply eraseAt_congr
    intro offset item _
    rw [covers_behind, anyBehind_behind, Nat.zero_add]

/-- Where the test drops nothing, nothing is erased. -/
theorem eraseBetween_eq_self (kept : ∀ item ∈ text, drops item = false) :
    eraseBetween drops pattern text = text := by
  apply eraseAt_eq_self
  intro offset item _ member
  rw [kept item member, Bool.false_and, Bool.false_and]

end Between

/-! ### Splitting -/

/-- The pieces of a text between the leftmost occurrences of the pattern, with what the
test drops erased from all of them but the last. -/
inductive Splits (drops : Item → Bool) (pattern : List Item) :
    List Item → List (List Item) → Prop where
  | last {text : List Item} (missing : breakAt pattern text = none) :
      Splits drops pattern text [text]
  | piece {text before after : List Item} {pieces : List (List Item)}
      (found : breakAt pattern text = some (before, after))
      (others : Splits drops pattern after pieces) :
      Splits drops pattern text ((before.filter fun item => !drops item) :: pieces)

namespace Splits

variable {drops : Item → Bool} {pieces : List (List Item)}

theorem ne_nil (split : Splits drops pattern text pieces) : pieces ≠ [] := by
  cases split with
  | last => exact List.cons_ne_nil _ _
  | piece => exact List.cons_ne_nil _ _

/-- There is one piece more than there are occurrences. -/
theorem length (nonempty : pattern ≠ []) (split : Splits drops pattern text pieces) :
    pieces.length = (leftmostStarts pattern 0 0 text).length + 1 := by
  induction split with
  | last missing =>
      rw [leftmostStarts_of_missing missing]
      rfl
  | piece found _ inductionHypothesis =>
      rw [leftmostStarts_of_found nonempty found, List.length_cons, List.length_cons,
        List.length_map, inductionHypothesis]

/-- Joined with the pattern, the pieces are the text with nothing erased but in the
pieces. -/
theorem intercalate (nonempty : pattern ≠ []) (split : Splits drops pattern text pieces) :
    pattern.intercalate pieces = eraseBetween drops pattern text := by
  induction split with
  | last missing => rw [List.intercalate_singleton, eraseBetween_of_missing drops missing]
  | piece found others inductionHypothesis =>
      rw [List.intercalate_cons_of_ne_nil others.ne_nil, inductionHypothesis,
        eraseBetween_of_found drops nonempty found]

end Splits

end Ivos
