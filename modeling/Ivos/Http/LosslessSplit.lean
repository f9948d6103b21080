/-
Module: Ivos.Http.LosslessSplit
Purpose: The loop of `string_split` on its own input, when it ends, and what its tokens
  keep of the input.
Trusted boundary: none
Main exports: Splitting, stringSplitInPlace, stringSplitInPlace_eq, stringSplit_splits,
  string_split_lossless
-/
import Ivos.Http.Request
import Ivos.Library.Splitting
import Ivos.Library.WhileLoop

namespace Ivos.Http

/-! ### The loop -/

/-- The variables of `string_split` that a round changes. -/
structure Splitting where
  input : Bytes
  tokens : List Bytes
deriving Repr, DecidableEq

/-- `input.find(delimiter) != std::string::npos`. -/
def Splitting.finds (delimiter : Bytes) (splitting : Splitting) : Bool :=
  (breakAt delimiter splitting.input).isSome

/-- The body of the loop. -/
def Splitting.turn (delimiter : Bytes) (splitting : Splitting) : Splitting :=
  match breakAt delimiter splitting.input with
  | none => splitting
  | some (token, rest) =>
      { input := rest, tokens := splitting.tokens ++ [eraseControl token] }

/-- `string_split`: the tokens it returns, and `input` as it leaves it.  `none` is a loop
that has not ended. -/
def stringSplitInPlace (delimiter : Bytes) (fuel : Nat) (input : Bytes) :
    Option (List Bytes × Bytes) :=
  (whileLoop (Splitting.finds delimiter) (Splitting.turn delimiter) fuel ⟨input, []⟩).map
    fun splitting => (splitting.tokens ++ [splitting.input], splitting.input)

section Loop

variable {delimiter : Bytes}

theorem Splitting.turn_of_found {splitting : Splitting} {token rest : Bytes}
    (found : breakAt delimiter splitting.input = some (token, rest)) :
    splitting.turn delimiter = ⟨rest, splitting.tokens ++ [eraseControl token]⟩ := by
  simp only [Splitting.turn, found]

/-- A round takes the delimiter at least. -/
theorem Splitting.turn_shorter (nonempty : delimiter ≠ []) {splitting : Splitting}
    (finds : splitting.finds delimiter = true) :
    (splitting.turn delimiter).input.length < splitting.input.length := by
  obtain ⟨⟨token, rest⟩, found⟩ := Option.isSome_iff_exists.mp finds
  rw [Splitting.turn_of_found found]
  exact length_rest_lt nonempty found

/-- Whatever is left of the input, the tokens so far and its split are the result. -/
theorem Splitting.turn_result (nonempty : delimiter ≠ []) {splitting : Splitting}
    (finds : splitting.finds delimiter = true) :
    (splitting.turn delimiter).tokens ++
        stringSplit (splitting.turn delimiter).input delimiter =
      splitting.tokens ++ stringSplit splitting.input delimiter := by
  obtain ⟨⟨token, rest⟩, found⟩ := Option.isSome_iff_exists.mp finds
  rw [Splitting.turn_of_found found, stringSplit_of_found nonempty found, List.append_assoc]
  rfl

/-- The loop ends, and the input is the last token then. -/
theorem stringSplitInPlace_eq (nonempty : delimiter ≠ []) {fuel : Nat} {input : Bytes}
    (enough : input.length < fuel) :
    ∃ left, stringSplitInPlace delimiter fuel input = some (stringSplit input delimiter, left) ∧
      (stringSplit input delimiter).getLast? = some left := by
  have returns : ∃ splitting, whileLoop (Splitting.finds delimiter) (Splitting.turn delimiter)
      fuel ⟨input, []⟩ = some splitting :=
    whileLoop_of_measure (fun _ => True) (fun splitting => splitting.input.length)
      (fun _ _ finds => ⟨trivial, Splitting.turn_shorter nonempty finds⟩) trivial enough
  obtain ⟨splitting, ends⟩ := returns
  obtain ⟨result, stops⟩ := whileLoop_invariant
    (fun splitting => splitting.tokens ++ stringSplit splitting.input delimiter =
      stringSplit input delimiter)
    (fun _ same finds => (Splitting.turn_result nonempty finds).trans same)
    (List.nil_append _) ends
  have missing : breakAt delimiter splitting.input = none := by
    rwa [Splitting.finds, Option.isSome_eq_false_iff, Option.isNone_iff_eq_none] at stops
  rw [stringSplit_of_missing missing] at result
  refine ⟨splitting.input, ?_, ?_⟩
  · rw [stringSplitInPlace, ends, Option.map_some, result]
  · rw [← result, List.getLast?_concat]

/-- The tokens are the pieces between the leftmost occurrences. -/
theorem stringSplit_splits (nonempty : delimiter ≠ []) (input : Bytes) :
    Splits iscntrl delimiter input (stringSplit input delimiter) := by
  induction size : input.length using Nat.strong_induction_on generalizing input with
  | _ length inductionHypothesis =>
      cases found : breakAt delimiter input with
      | none =>
          rw [stringSplit_of_missing found]
          exact .last found
      | some parts =>
          have shorter := length_rest_lt nonempty found
          rw [stringSplit_of_found nonempty found]
          exact .piece found (inductionHypothesis _ (size ▸ shorter) parts.2 rfl)

end Loop

/-! ### What is kept

The loop is judged by a scan that knows no loop: the places where the delimiter stands, from
left to right without overlap.
-/

/-- `string_split` ends on every input with every delimiter that is not empty.  It
returns one token more than there are leftmost occurrences that do not overlap; joined
with the delimiter, the tokens are the input, but for the control characters between
the occurrences and in front of them; and the input is left equal to the last token. -/
theorem string_split_lossless (input delimiter : Bytes) (nonempty : delimiter ≠ []) (fuel : Nat)
    (enough : input.length < fuel) :
    ∃ tokens left, stringSplitInPlace delimiter fuel input = some (tokens, left) ∧
      tokens.length = (leftmostStarts delimiter 0 0 input).length + 1 ∧
      ((∀ c ∈ input, iscntrl c = false) → delimiter.intercalate tokens = input) ∧
      delimiter.intercalate tokens = eraseBetween iscntrl delimiter input ∧
      tokens.getLast? = some left := by
  obtain ⟨left, returned, isLast⟩ := stringSplitInPlace_eq nonempty enough
  have split := stringSplit_splits nonempty input
  have joined := split.intercalate nonempty
  refine ⟨_, left, returned, split.length nonempty, ?_, joined, isLast⟩
  intro printable
  rw [joined, eraseBetween_eq_self iscntrl printable]

/-- Of three occurrences two do not overlap, and of two line ends the one in the last
piece is kept. -/
theorem string_split_lossless_overlapping :
    ∃ tokens left, stringSplitInPlace (ascii "aa") 8 (ascii "aaa\naa\n") = some (tokens, left) ∧
      tokens.length = (leftmostStarts (ascii "aa") 0 0 (ascii "aaa\naa\n")).length + 1 ∧
      ((∀ c ∈ ascii "aaa\naa\n", iscntrl c = false) →
        (ascii "aa").intercalate tokens = ascii "aaa\naa\n") ∧
      (ascii "aa").intercalate tokens = eraseBetween iscntrl (ascii "aa") (ascii "aaa\naa\n") ∧
      tokens.getLast? = some left :=
  string_split_lossless (ascii "aaa\naa\n") (ascii "aa") (by decide) 8 (by decide)

end Ivos.Http
