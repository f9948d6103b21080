/-
Module: Ivos.Scheduler.Thread
Purpose: The thread control block `struct gt`, its time accounting and
  `update_thread_state`.
Trusted boundary: no `int` or `long` overflows, and doubles do not round
Main exports: Timeval, EState, SliceStats, Gt, updateRunningStats,
  initThreadStats, updateThreadState
-/
import Mathlib.Algebra.Order.Ring.Rat

namespace Ivos.Scheduler

/-!
The integers of `struct gt` are unbounded here, and its doubles are exact rationals: the
runs described are those in which no `int` or `long` overflows and nothing is said about
rounding.  Which runs keep the counters inside an `int` is a question of its own.  The clock
is not assumed to advance.
-/

/-- Maximum number of threads, the size of `gt_table`.  The development is
generic in the table size; this is the value the program is built with. -/
abbrev maxGThreads : Nat := 5

/-- Size of the stack block of a created thread. -/
def stackSize : Nat := 0x400000

/-- The largest priority value (the least urgent). -/
def minPriority : Int := 10

/-- The smallest priority value (the most urgent). -/
def maxPriority : Int := 0

/-- `struct timeval`. -/
structure Timeval where
  tvSec : Int
  tvUsec : Int
deriving Repr, DecidableEq

/-- The value `init_timeval` stores. -/
def initTimeval : Timeval := ⟨0, 0⟩

def timevalSubtract (x y : Timeval) : Timeval :=
  let tvSec := x.tvSec - y.tvSec
  let tvUsec := x.tvUsec - y.tvUsec
  if tvUsec < 0 then ⟨tvSec - 1, tvUsec + 1000000⟩ else ⟨tvSec, tvUsec⟩

def timevalAdd (x y : Timeval) : Timeval :=
  let tvSec := x.tvSec + y.tvSec
  let tvUsec := x.tvUsec + y.tvUsec
  if tvUsec ≥ 1000000 then ⟨tvSec + 1, tvUsec - 1000000⟩ else ⟨tvSec, tvUsec⟩

/-- `timeval_to_microseconds`, with the double read as an exact rational. -/
def timevalToMicroseconds (tv : Timeval) : Rat :=
  tv.tvSec * 1000000 + tv.tvUsec

def timevalIsZero (tv : Timeval) : Bool :=
  tv.tvSec = 0 ∧ tv.tvUsec = 0

/-- The order of the comparisons in `update_running_stats`: seconds first. -/
def Timeval.before (x y : Timeval) : Bool :=
  x.tvSec < y.tvSec ∨ (x.tvSec = y.tvSec ∧ x.tvUsec < y.tvUsec)

/-- The fields `struct gt` keeps for one kind of slice, once for running
(`run_count`, `min_run_time`, ...) and once for waiting (`wait_count`, ...). -/
structure SliceStats where
  count : Nat
  minTime : Timeval
  maxTime : Timeval
  lastTime : Timeval
  avgTimeUs : Rat
  varTimeUs : Rat
deriving Repr, DecidableEq

/-- Slice statistics as `init_thread_stats` leaves them. -/
def SliceStats.init : SliceStats :=
  { count := 0, minTime := initTimeval, maxTime := initTimeval, lastTime := initTimeval,
    avgTimeUs := 0, varTimeUs := 0 }

/-- `update_running_stats`: minimum, maximum, and Welford's running average and
sum of squared deviations. -/
def updateRunningStats (newTime : Timeval) (stats : SliceStats) (count : Nat) : SliceStats :=
  let newValue := timevalToMicroseconds newTime
  let minTime :=
    if timevalIsZero stats.minTime || newTime.before stats.minTime then newTime
    else stats.minTime
  let maxTime :=
    if timevalIsZero stats.maxTime || stats.maxTime.before newTime then newTime
    else stats.maxTime
  let delta := newValue - stats.avgTimeUs
  let avg := stats.avgTimeUs + delta / count
  let delta2 := newValue - avg
  { stats with
    minTime := minTime
    maxTime := maxTime
    avgTimeUs := avg
    varTimeUs := stats.varTimeUs + delta * delta2 }

/-- `enum e_state`. -/
inductive EState where
  | unused
  | running
  | ready
  | blocked
deriving Repr, DecidableEq

/-- The saved context.  `gt_switch` also saves six callee-saved registers; only
the stack pointer is read by the functions modelled here. -/
structure GtContext where
  rsp : Nat
deriving Repr, DecidableEq

/-- `struct gt`. -/
structure Gt where
  ctx : GtContext
  state : EState
  creationTime : Timeval
  totalRunning : Timeval
  totalWaiting : Timeval
  lastStateChange : Timeval
  runStats : SliceStats
  waitStats : SliceStats
  priority : Int
  skipCount : Int
  ticketsLo : Int
  ticketsHi : Int
deriving Repr, DecidableEq

/-- A slot of the statically allocated, hence zeroed, `gt_table`. -/
def Gt.zero : Gt :=
  { ctx := ⟨0⟩, state := .unused, creationTime := initTimeval, totalRunning := initTimeval,
    totalWaiting := initTimeval, lastStateChange := initTimeval, runStats := .init,
    waitStats := .init, priority := 0, skipCount := 0, ticketsLo := 0, ticketsHi := 0 }

/-- `init_thread_stats`; the two arguments are its two clock readings. -/
def initThreadStats (created changed : Timeval) (thread : Gt) : Gt :=
  { thread with
    creationTime := created
    lastStateChange := changed
    totalRunning := initTimeval
    totalWaiting := initTimeval
    runStats := .init
    waitStats := .init }

/-- The accounting part of `update_thread_state`: charge the interval since the
last change to the state the thread is leaving. -/
def chargeInterval (elapsed : Timeval) (thread : Gt) : Gt :=
  match thread.state with
  | .running =>
      let stats := { thread.runStats with
        count := thread.runStats.count + 1, lastTime := elapsed }
      { thread with
        totalRunning := timevalAdd thread.totalRunning elapsed
        runStats := updateRunningStats elapsed stats stats.count }
  | .ready | .blocked =>
      let stats := { thread.waitStats with
        count := thread.waitStats.count + 1, lastTime := elapsed }
      { thread with
        totalWaiting := timevalAdd thread.totalWaiting elapsed
        waitStats := updateRunningStats elapsed stats stats.count }
  | .unused => thread

/-- The body of the `if` in `update_thread_state`. -/
def enterState (now : Timeval) (newState : EState) (thread : Gt) : Gt :=
  let elapsed := timevalSubtract now thread.lastStateChange
  { chargeInterval elapsed thread with state := newState, lastStateChange := now }

/-- `update_thread_state`; `now` is the clock reading it takes. -/
def updateThreadState (now : Timeval) (newState : EState) (thread : Gt) : Gt :=
  if thread.state = newState then thread else enterState now newState thread

@[simp] theorem initThreadStats_state (created changed : Timeval) (thread : Gt) :
    (initThreadStats created changed thread).state = thread.state := rfl

@[simp] theorem enterState_state (now : Timeval) (newState : EState) (thread : Gt) :
    (enterState now newState thread).state = newState := rfl

@[simp] theorem updateThreadState_state (now : Timeval) (newState : EState) (thread : Gt) :
    (updateThreadState now newState thread).state = newState := by
  unfold updateThreadState
  split
  · assumption
  · rfl

/-- A change of state touches no scheduling parameter and no saved context. -/
theorem chargeInterval_frame (elapsed : Timeval) (thread : Gt) :
    (chargeInterval elapsed thread).ctx = thread.ctx ∧
      (chargeInterval elapsed thread).priority = thread.priority ∧
      (chargeInterval elapsed thread).skipCount = thread.skipCount ∧
      (chargeInterval elapsed thread).ticketsLo = thread.ticketsLo ∧
      (chargeInterval elapsed thread).ticketsHi = thread.ticketsHi := by
  unfold chargeInterval
  cases thread.state <;> simp

theorem updateThreadState_frame (now : Timeval) (newState : EState) (thread : Gt) :
    (updateThreadState now newState thread).ctx = thread.ctx ∧
      (updateThreadState now newState thread).priority = thread.priority ∧
      (updateThreadState now newState thread).skipCount = thread.skipCount ∧
      (updateThreadState now newState thread).ticketsLo = thread.ticketsLo ∧
      (updateThreadState now newState thread).ticketsHi = thread.ticketsHi := by
  unfold updateThreadState
  split
  · exact ⟨rfl, rfl, rfl, rfl, rfl⟩
  · exact chargeInterval_frame (timevalSubtract now thread.lastStateChange) thread

end Ivos.Scheduler
