/-
Module: Ivos.Scheduler.SliceStatistics
Purpose: What `update_running_stats` makes of a sequence of slices: the smallest and
  the largest, the mean and the deviations from it.
Trusted boundary: none
Main exports: SliceStats.record, SliceStats.ofSlices, chargeInterval_stats,
  running_statistics_exact, ExtremesRight, extremes_right_iff, zero_slice_forgotten
-/
import Ivos.Library.RunningMoments
import Ivos.Scheduler.TimeAccounting
import Mathlib.Tactic.NormNum

namespace Ivos.Scheduler

/-! ### Sequences of slices -/

/-- What `update_thread_state` does to the statistics when a slice ends. -/
def SliceStats.record (stats : SliceStats) (elapsed : Timeval) : SliceStats :=
  let counted := { stats with count := stats.count + 1, lastTime := elapsed }
  updateRunningStats elapsed counted counted.count

/-- The statistics of a sequence of slices, from those of `init_thread_stats` on. -/
def SliceStats.ofSlices (slices : List Timeval) : SliceStats :=
  slices.foldl SliceStats.record .init

/-- The slices of the running time and of the waiting time are recorded apart. -/
theorem chargeInterval_stats (elapsed : Timeval) (thread : Gt) :
    (chargeInterval elapsed thread).runStats =
        (if thread.state = .running then thread.runStats.record elapsed else thread.runStats) ∧
      (chargeInterval elapsed thread).waitStats =
        if thread.state = .ready ∨ thread.state = .blocked then thread.waitStats.record elapsed
        else thread.waitStats := by
  unfold chargeInterval
  cases thread.state with
  | running | ready | blocked | unused => exact ⟨rfl, rfl⟩

namespace SliceStats

@[simp] theorem ofSlices_append (slices : List Timeval) (elapsed : Timeval) :
    ofSlices (slices ++ [elapsed]) = (ofSlices slices).record elapsed := by
  unfold ofSlices
  rw [List.foldl_append, List.foldl_cons, List.foldl_nil]

@[simp] theorem ofSlices_count (slices : List Timeval) :
    (ofSlices slices).count = slices.length := by
  induction slices using List.reverseRecOn with
  | nil => rfl
  | append_singleton slices elapsed inductionHypothesis =>
      rw [ofSlices_append, List.length_append, List.length_singleton, ← inductionHypothesis]
      rfl

/-! ### Mean and deviations

`update_running_stats` keeps the mean and the sum of squared deviations by Welford's
recurrences.  In exact rationals they are the mean and the sum of the slices so far.
-/

/-- The two fields of the running average. -/
def moments (stats : SliceStats) : Moments Rat := ⟨stats.avgTimeUs, stats.varTimeUs⟩

theorem moments_record (stats : SliceStats) (elapsed : Timeval) :
    (stats.record elapsed).moments =
      stats.moments.record (timevalToMicroseconds elapsed) (stats.count + 1) := rfl

/-- The fields are the moments of the slices. -/
theorem ofSlices_moments (slices : List Timeval) :
    (ofSlices slices).moments = .ofSamples (slices.map timevalToMicroseconds) := by
  induction slices using List.reverseRecOn with
  | nil => exact Moments.ofSamples_nil.symm
  | append_singleton slices elapsed inductionHypothesis =>
      have counted : (ofSlices slices).count = (slices.map timevalToMicroseconds).length := by
        rw [ofSlices_count, List.length_map]
      rw [ofSlices_append, moments_record, inductionHypothesis, counted,
        Moments.record_ofSamples, List.map_append, List.map_singleton]

end SliceStats

/-- The running average is the mean of the slices and the running variance their squared
deviations from it, and neither depends on the order of the slices. -/
theorem running_statistics_exact (slices : List Timeval) :
    ((SliceStats.ofSlices slices).avgTimeUs = mean (slices.map timevalToMicroseconds) ∧
      (SliceStats.ofSlices slices).varTimeUs =
        squaredDeviations (slices.map timevalToMicroseconds)) ∧
    ∀ reordered, reordered.Perm slices →
      (SliceStats.ofSlices reordered).avgTimeUs = (SliceStats.ofSlices slices).avgTimeUs ∧
      (SliceStats.ofSlices reordered).varTimeUs = (SliceStats.ofSlices slices).varTimeUs := by
  have average (slices : List Timeval) : (SliceStats.ofSlices slices).avgTimeUs =
      mean (slices.map timevalToMicroseconds) :=
    congrArg Moments.mean (SliceStats.ofSlices_moments slices)
  have deviations (slices : List Timeval) : (SliceStats.ofSlices slices).varTimeUs =
      squaredDeviations (slices.map timevalToMicroseconds) :=
    congrArg Moments.deviations (SliceStats.ofSlices_moments slices)
  refine ⟨⟨average slices, deviations slices⟩, fun reordered permuted => ?_⟩
  have values := permuted.map timevalToMicroseconds
  rw [average, average, deviations, deviations]
  exact ⟨mean_perm values, squaredDeviations_perm values⟩

/-- Three slices and the same in another order. -/
theorem running_statistics_exact_reordered :
    (SliceStats.ofSlices [⟨1, 0⟩, ⟨0, 4⟩, ⟨0, 2⟩]).varTimeUs =
      (SliceStats.ofSlices [⟨0, 2⟩, ⟨1, 0⟩, ⟨0, 4⟩]).varTimeUs :=
  ((running_statistics_exact [⟨0, 2⟩, ⟨1, 0⟩, ⟨0, 4⟩]).2 [⟨1, 0⟩, ⟨0, 4⟩, ⟨0, 2⟩] (by decide)).2

/-! ### Smallest and largest slice

The source takes a minimum or maximum of zero for one that has not been set, which is also
what a slice of length zero leaves behind.
-/

/-- A normalised duration that is not negative. -/
def Duration (tv : Timeval) : Prop := tv.Normalized ∧ 0 ≤ tv.tvSec

instance (tv : Timeval) : Decidable (Duration tv) := inferInstanceAs (Decidable (_ ∧ _))

/-- On normalised times the comparison of the fields is that of the times. -/
theorem before_iff {x y : Timeval} (first : x.Normalized) (second : y.Normalized) :
    x.before y = true ↔ timevalToMicroseconds x < timevalToMicroseconds y := by
  unfold Timeval.before timevalToMicroseconds Timeval.Normalized at *
  rw [decide_eq_true_iff]
  norm_cast
  omega

@[simp] theorem timevalIsZero_iff (tv : Timeval) : timevalIsZero tv = true ↔ tv = initTimeval := by
  obtain ⟨tvSec, tvUsec⟩ := tv
  unfold timevalIsZero initTimeval
  rw [decide_eq_true_iff, Timeval.mk.injEq]

namespace Duration

theorem zero : Duration initTimeval := by decide

theorem nonneg {tv : Timeval} (duration : Duration tv) : 0 ≤ timevalToMicroseconds tv := by
  obtain ⟨⟨usec, -⟩, sec⟩ := duration
  unfold timevalToMicroseconds
  norm_cast
  omega

/-- Only the zero duration takes no time. -/
theorem eq_zero {tv : Timeval} (duration : Duration tv) (none : timevalToMicroseconds tv ≤ 0) :
    tv = initTimeval := by
  obtain ⟨⟨usec, -⟩, sec⟩ := duration
  unfold timevalToMicroseconds at none
  norm_cast at none
  obtain ⟨tvSec, tvUsec⟩ := tv
  have noSec : tvSec = 0 := by
    dsimp only at *
    omega
  have noUsec : tvUsec = 0 := by
    dsimp only at *
    omega
  rw [noSec, noUsec]
  rfl

end Duration

@[simp] theorem timevalToMicroseconds_zero : timevalToMicroseconds initTimeval = 0 := by
  simp [timevalToMicroseconds, initTimeval]

/-- The time is one of the slices, and none is shorter. -/
def IsShortest (slices : List Timeval) (time : Timeval) : Prop :=
  time ∈ slices ∧ ∀ slice ∈ slices, timevalToMicroseconds time ≤ timevalToMicroseconds slice

/-- The time is one of the slices, and none is longer. -/
def IsLongest (slices : List Timeval) (time : Timeval) : Prop :=
  time ∈ slices ∧ ∀ slice ∈ slices, timevalToMicroseconds slice ≤ timevalToMicroseconds time

namespace SliceStats

variable {slices : List Timeval} {elapsed : Timeval}

/-- How a slice changes the smallest one kept: zero stands for none yet. -/
theorem minTime_record (stats : SliceStats) (elapsed : Timeval) :
    (stats.record elapsed).minTime =
      if stats.minTime = initTimeval ∨ elapsed.before stats.minTime = true then elapsed
      else stats.minTime := by
  unfold record updateRunningStats
  simp only [Bool.or_eq_true, timevalIsZero_iff]

theorem maxTime_record (stats : SliceStats) (elapsed : Timeval) :
    (stats.record elapsed).maxTime =
      if stats.maxTime = initTimeval ∨ stats.maxTime.before elapsed = true then elapsed
      else stats.maxTime := by
  unfold record updateRunningStats
  simp only [Bool.or_eq_true, timevalIsZero_iff]

theorem minTime_duration (durations : ∀ slice ∈ slices, Duration slice) :
    Duration (ofSlices slices).minTime := by
  induction slices using List.reverseRecOn with
  | nil => exact Duration.zero
  | append_singleton slices elapsed inductionHypothesis =>
      rw [List.forall_mem_append, List.forall_mem_singleton] at durations
      rw [ofSlices_append, minTime_record]
      split
      · exact durations.2
      · exact inductionHypothesis durations.1

/-- Without a zero slice the smallest one is kept. -/
theorem minTime_shortest (durations : ∀ slice ∈ slices, Duration slice) (nonempty : slices ≠ [])
    (noZero : initTimeval ∉ slices) : IsShortest slices (ofSlices slices).minTime := by
  induction slices using List.reverseRecOn with
  | nil => exact absurd rfl nonempty
  | append_singleton slices elapsed inductionHypothesis =>
      have kept := minTime_duration fun slice member =>
        durations slice (List.mem_append_left _ member)
      rw [List.forall_mem_append, List.forall_mem_singleton] at durations
      rw [List.mem_append, not_or, List.mem_singleton] at noZero
      rw [ofSlices_append, minTime_record]
      unfold IsShortest
      rw [List.forall_mem_append, List.forall_mem_singleton]
      by_cases isEmpty : slices = []
      · subst isEmpty
        rw [if_pos (.inl rfl)]
        simp
      · obtain ⟨member, least⟩ := inductionHypothesis durations.1 isEmpty noZero.1
        have notZero : (ofSlices slices).minTime ≠ initTimeval := fun isZero =>
          noZero.1 (isZero ▸ member)
        split
        · rename_i replaced
          have shorter := (before_iff durations.2.1 kept.1).mp (replaced.resolve_left notZero)
          exact ⟨by simp, fun slice earlier => shorter.le.trans (least slice earlier), le_refl _⟩
        · rename_i notReplaced
          rw [not_or, before_iff durations.2.1 kept.1, not_lt] at notReplaced
          exact ⟨List.mem_append_left _ member, least, notReplaced.2⟩

/-- The smallest slice kept is zero exactly if the last slice is. -/
theorem minTime_eq_zero_iff (durations : ∀ slice ∈ slices, Duration slice)
    (duration : Duration elapsed) :
    (ofSlices (slices ++ [elapsed])).minTime = initTimeval ↔ elapsed = initTimeval := by
  have kept := minTime_duration durations
  rw [ofSlices_append, minTime_record]
  split
  · rfl
  · rename_i notReplaced
    rw [not_or, before_iff duration.1 kept.1, not_lt] at notReplaced
    apply iff_of_false notReplaced.1
    rintro rfl
    rw [timevalToMicroseconds_zero] at notReplaced
    exact notReplaced.1 (kept.eq_zero notReplaced.2)

/-- The largest slice is always kept. -/
theorem maxTime_longest (durations : ∀ slice ∈ slices, Duration slice) (nonempty : slices ≠ []) :
    IsLongest slices (ofSlices slices).maxTime := by
  induction slices using List.reverseRecOn with
  | nil => exact absurd rfl nonempty
  | append_singleton slices elapsed inductionHypothesis =>
      rw [List.forall_mem_append, List.forall_mem_singleton] at durations
      rw [ofSlices_append, maxTime_record]
      unfold IsLongest
      rw [List.forall_mem_append, List.forall_mem_singleton]
      by_cases isEmpty : slices = []
      · subst isEmpty
        rw [if_pos (.inl rfl)]
        simp
      · obtain ⟨member, greatest⟩ := inductionHypothesis durations.1 isEmpty
        have kept := durations.1 _ member
        split
        · rename_i replaced
          -- A kept zero is no longer than any duration.
          have longer : timevalToMicroseconds (ofSlices slices).maxTime ≤
              timevalToMicroseconds elapsed := by
            rcases replaced with isZero | isBefore
            · rw [isZero, timevalToMicroseconds_zero]
              exact durations.2.nonneg
            · exact ((before_iff kept.1 durations.2.1).mp isBefore).le
          exact ⟨by simp, fun slice earlier => (greatest slice earlier).trans longer, le_refl _⟩
        · rename_i notReplaced
          rw [not_or, before_iff kept.1 durations.2.1, not_lt] at notReplaced
          exact ⟨List.mem_append_left _ member, greatest, notReplaced.2⟩

end SliceStats

/-- The smallest and the largest slice of the sequence are in the fields. -/
def ExtremesRight (slices : List Timeval) : Prop :=
  IsShortest slices (SliceStats.ofSlices slices).minTime ∧
    IsLongest slices (SliceStats.ofSlices slices).maxTime

/-- A zero duration is a shortest one, and the only shortest time then. -/
theorem isShortest_iff_of_zero {slices : List Timeval} {time : Timeval}
    (durations : ∀ slice ∈ slices, Duration slice) (hasZero : initTimeval ∈ slices) :
    IsShortest slices time ↔ time = initTimeval := by
  constructor
  · rintro ⟨member, least⟩
    apply (durations time member).eq_zero
    rw [← timevalToMicroseconds_zero]
    exact least initTimeval hasZero
  · rintro rfl
    refine ⟨hasZero, fun slice member => ?_⟩
    rw [timevalToMicroseconds_zero]
    exact (durations slice member).nonneg

/-- After any durations `max_time` is the largest, and `min_time` the smallest exactly if
none of them is zero or the last one is. -/
theorem extremes_right_iff (slices : List Timeval) (nonempty : slices ≠ [])
    (durations : ∀ slice ∈ slices, Duration slice) :
    ExtremesRight slices ↔
      (initTimeval ∈ slices → slices.getLast? = some initTimeval) := by
  have longest := SliceStats.maxTime_longest durations nonempty
  unfold ExtremesRight
  rw [and_iff_left longest]
  by_cases hasZero : initTimeval ∈ slices
  · rw [isShortest_iff_of_zero durations hasZero, forall_prop_of_true hasZero]
    obtain ⟨earlier, last, rfl⟩ := List.eq_nil_or_concat' slices |>.resolve_left nonempty
    rw [List.forall_mem_append, List.forall_mem_singleton] at durations
    rw [SliceStats.minTime_eq_zero_iff durations.1 durations.2, List.getLast?_concat,
      Option.some.injEq]
  · rw [forall_prop_of_false hasZero, iff_true]
    exact SliceStats.minTime_shortest durations nonempty hasZero

/-- A zero slice at the end of three is remembered. -/
theorem extremes_right_zero_last : ExtremesRight [⟨0, 5⟩, ⟨1, 0⟩, ⟨0, 0⟩] :=
  (extremes_right_iff [⟨0, 5⟩, ⟨1, 0⟩, ⟨0, 0⟩] (by decide) (by decide)).mpr (by decide)

/-- A zero slice before one of five microseconds is forgotten. -/
theorem zero_slice_forgotten :
    ¬ ∀ slices : List Timeval, slices ≠ [] → (∀ slice ∈ slices, Duration slice) →
      ExtremesRight slices := by
  intro claimed
  have shortest := (claimed [⟨0, 0⟩, ⟨0, 5⟩] (by decide) (by decide)).1.2 ⟨0, 0⟩ (by decide)
  have kept : (SliceStats.ofSlices [⟨0, 0⟩, ⟨0, 5⟩]).minTime = ⟨0, 5⟩ := by decide
  rw [kept] at shortest
  norm_num [timevalToMicroseconds] at shortest

end Ivos.Scheduler
