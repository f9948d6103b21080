/-
Module: Ivos.Library.RunningMoments
Purpose: The mean and the sum of squared deviations of a list of samples, and the
  recurrence that keeps both one sample at a time.
Trusted boundary: none
Main exports: mean, squaredDeviations, Moments, Moments.record, Moments.ofSamples,
  Moments.ofSamples_exact, mean_perm, squaredDeviations_perm
-/
import Mathlib.Algebra.BigOperators.Group.List.Basic
import Mathlib.Algebra.CharZero.Defs
import Mathlib.Algebra.Field.Basic
import Mathlib.Tactic.FieldSimp
import Mathlib.Tactic.Ring

namespace Ivos

universe fieldLevel

variable {K : Type fieldLevel} [Field K]

/-! ### Whole lists of samples -/

/-- The arithmetic mean. -/
def mean (samples : List K) : K := samples.sum / samples.length

/-- The sum of the squared deviations from a center. -/
def squaredDeviationsFrom (center : K) (samples : List K) : K :=
  (samples.map fun sample => (sample - center) ^ 2).sum

/-- The sum of the squared deviations from the mean. -/
def squaredDeviations (samples : List K) : K := squaredDeviationsFrom (mean samples) samples

/-- The mean does not depend on the order of the samples. -/
theorem mean_perm {first second : List K} (reordered : first.Perm second) :
    mean first = mean second := by
  unfold mean
  rw [reordered.sum_eq, reordered.length_eq]

/-- Nor do the deviations. -/
theorem squaredDeviations_perm {first second : List K} (reordered : first.Perm second) :
    squaredDeviations first = squaredDeviations second := by
  unfold squaredDeviations squaredDeviationsFrom
  rw [mean_perm reordered]
  exact (reordered.map _).sum_eq

@[simp] theorem squaredDeviationsFrom_append (center : K) (first second : List K) :
    squaredDeviationsFrom center (first ++ second) =
      squaredDeviationsFrom center first + squaredDeviationsFrom center second := by
  unfold squaredDeviationsFrom
  rw [List.map_append, List.sum_append]

@[simp] theorem squaredDeviationsFrom_singleton (center sample : K) :
    squaredDeviationsFrom center [sample] = (sample - center) ^ 2 :=
  List.sum_singleton

/-- Moving the center, for any samples. -/
theorem squaredDeviationsFrom_move (first second : K) (samples : List K) :
    squaredDeviationsFrom second samples =
      squaredDeviationsFrom first samples
        + 2 * (first - second) * (samples.sum - samples.length * first)
        + samples.length * (first - second) ^ 2 := by
  unfold squaredDeviationsFrom
  induction samples with
  | nil => simp
  | cons sample rest inductionHypothesis =>
      rw [List.map_cons, List.sum_cons, inductionHypothesis, List.map_cons, List.sum_cons,
        List.sum_cons, List.length_cons]
      push_cast
      ring

variable [CharZero K]

/-- As many times the mean is the sum, with no sample as well. -/
theorem length_mul_mean (samples : List K) : samples.length * mean samples = samples.sum := by
  unfold mean
  cases samples with
  | nil => simp
  | cons sample rest =>
      apply mul_div_cancel₀
      exact Nat.cast_ne_zero.mpr (Nat.succ_ne_zero _)

/-- Any other center adds its distance from the mean. -/
theorem squaredDeviationsFrom_eq (center : K) (samples : List K) :
    squaredDeviationsFrom center samples =
      squaredDeviations samples + samples.length * (mean samples - center) ^ 2 := by
  rw [squaredDeviationsFrom_move (mean samples), length_mul_mean, sub_self, mul_zero, add_zero]
  rfl

/-! ### One sample more -/

/-- The mean moves towards a new sample. -/
theorem mean_append (samples : List K) (sample : K) :
    mean (samples ++ [sample]) =
      mean samples + (sample - mean samples) / (samples.length + 1 : Nat) := by
  have positive : ((samples.length + 1 : Nat) : K) ≠ 0 :=
    Nat.cast_ne_zero.mpr (Nat.succ_ne_zero _)
  have sum : (samples ++ [sample]).sum = samples.length * mean samples + sample := by
    rw [List.sum_append, List.sum_singleton, length_mul_mean]
  rw [mean, sum, List.length_append, List.length_singleton]
  field_simp
  push_cast
  ring

/-- The deviations grow by the product of the sample's distances from the old and the
new mean. -/
theorem squaredDeviations_append (samples : List K) (sample : K) :
    squaredDeviations (samples ++ [sample]) =
      squaredDeviations samples
        + (sample - mean samples) * (sample - mean (samples ++ [sample])) := by
  have positive : ((samples.length + 1 : Nat) : K) ≠ 0 :=
    Nat.cast_ne_zero.mpr (Nat.succ_ne_zero _)
  unfold squaredDeviations
  rw [squaredDeviationsFrom_append, squaredDeviationsFrom_singleton, squaredDeviationsFrom_eq,
    squaredDeviations, mean_append]
  field_simp
  push_cast
  ring

/-! ### The recurrence -/

/-- A mean and a sum of squared deviations. -/
@[ext] structure Moments (K : Type fieldLevel) where
  mean : K
  deviations : K

namespace Moments

/-- The moments before the first sample. -/
def zero : Moments K := ⟨0, 0⟩

/-- Take in a sample, the one of this number. -/
def record (moments : Moments K) (sample : K) (number : Nat) : Moments K :=
  let delta := sample - moments.mean
  let mean := moments.mean + delta / number
  ⟨mean, moments.deviations + delta * (sample - mean)⟩

/-- The moments of the samples. -/
def ofSamples (samples : List K) : Moments K := ⟨Ivos.mean samples, squaredDeviations samples⟩

omit [CharZero K] in
@[simp] theorem ofSamples_nil : ofSamples ([] : List K) = zero := by
  unfold ofSamples zero squaredDeviations squaredDeviationsFrom Ivos.mean
  simp

/-- The recurrence keeps the moments of all samples so far. -/
theorem record_ofSamples (samples : List K) (sample : K) :
    (ofSamples samples).record sample (samples.length + 1) = ofSamples (samples ++ [sample]) := by
  unfold ofSamples record
  rw [squaredDeviations_append, mean_append]

end Moments

end Ivos
