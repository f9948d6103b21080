/-
Module: Ivos.Http.Shutdown
Purpose: The shutdown loop of the accepting process against the workers, with the
  socket ends every process holds, and when a worker is waited for in vain.
Trusted boundary: none
Main exports: ClosingServer, shutdownMachine, Deadlocked, WakesInTime,
  shutdown_never_deadlocks, deadlocks_of_late_signal,
  shutdown_can_deadlock
-/
import Ivos.Library.PartialMachine
import Mathlib.Data.Fin.Basic
import Mathlib.Data.Fintype.Basic
import Mathlib.Logic.Function.Basic

namespace Ivos.Http

/-!
At the end of `run` the parent goes through the workers in turn: it closes its end
of the socket pair, sends SIGQUIT and waits.  The handler of SIGQUIT sets
`_should_stop`, which `handle_communication` tests before it calls `recvmsg`.  A
worker asleep there is woken by a connection, by the signal, or by the end of file
that `recvmsg` reports once no process holds the other end; a worker forked later
has inherited that end and keeps it until it exits.
-/

variable {n : Nat}

/-- Where the parent stands. -/
inductive ClosingParent (n : Nat) where
  /-- In the accept loop. -/
  | accepting
  /-- At the loop test of the shutdown loop. -/
  | closing (i : Nat)
  /-- Before `kill(_client_processes[i], SIGQUIT)`. -/
  | killing (i : Fin n)
  /-- In `waitpid(_client_processes[i])`. -/
  | waiting (i : Fin n)
deriving Repr, DecidableEq

/-- Where a worker stands. -/
inductive WorkerPhase where
  /-- Forked, the handler of SIGQUIT not installed yet. -/
  | starting
  /-- At `while (!Server::_should_stop)`. -/
  | testing
  /-- Behind the test, not asleep in `recvmsg`. -/
  | receiving
  /-- Asleep in `recvmsg`. -/
  | blocked
  /-- Serving a connection. -/
  | serving
  | exited
deriving Repr, DecidableEq

/-- One worker and what the kernel keeps for it. -/
structure ClosingWorker where
  phase : WorkerPhase
  /-- Its `_should_stop`. -/
  shouldStop : Bool
  /-- SIGQUIT has been sent and not delivered. -/
  pending : Bool
  /-- Connections sent over its socket pair and not received. -/
  queued : Nat
deriving Repr, DecidableEq

structure ClosingServer (n : Nat) where
  parent : ClosingParent n
  /-- Whether the parent has `_socket_pairs[i][0]` open. -/
  parentEnd : Fin n → Bool
  workers : Fin n → ClosingWorker

/-- One step of one process, or the delivery of a signal. -/
inductive ClosingEvent (n : Nat) where
  /-- `send_fd` to a worker. -/
  | sendFd (i : Fin n)
  /-- SIGINT ends the accept loop. -/
  | interrupt
  /-- `close(_socket_pairs[i][0])`. -/
  | close
  | kill
  /-- `waitpid` returns. -/
  | reap
  /-- A worker installs the handler of SIGQUIT. -/
  | install (i : Fin n)
  /-- A worker tests `_should_stop`. -/
  | test (i : Fin n)
  /-- A worker is in `recvmsg`: it gets a connection or an end of file, or it falls
  asleep. -/
  | recvmsg (i : Fin n)
  /-- A worker has served a connection. -/
  | served (i : Fin n)
  /-- SIGQUIT is delivered to a worker. -/
  | deliver (i : Fin n)
deriving Repr, DecidableEq

namespace ClosingServer

/-- Some process holds the other end of worker `i`'s socket. -/
def held (server : ClosingServer n) (i : Fin n) : Prop :=
  server.parentEnd i = true ∨ ∃ later, i < later ∧ (server.workers later).phase ≠ .exited

instance (server : ClosingServer n) (i : Fin n) : Decidable (server.held i) :=
  inferInstanceAs (Decidable (_ ∨ _))

/-- Change one worker. -/
def modify (server : ClosingServer n) (i : Fin n) (update : ClosingWorker → ClosingWorker) :
    ClosingServer n :=
  { server with workers := Function.update server.workers i (update (server.workers i)) }

/-- A worker moves on. -/
def goto (server : ClosingServer n) (i : Fin n) (phase : WorkerPhase) : ClosingServer n :=
  server.modify i fun worker => { worker with phase := phase }

end ClosingServer

/-- A worker in `recvmsg`.  An end of file carries no control message, so `recv_fd`
returns -1 and the loop starts again. -/
def recvmsg (server : ClosingServer n) (i : Fin n) : Option (ClosingServer n) :=
  if (server.workers i).phase = .receiving ∨ (server.workers i).phase = .blocked then
    if 0 < (server.workers i).queued then
      some (server.modify i fun worker =>
        { worker with phase := .serving, queued := worker.queued - 1 })
    else if ¬ server.held i then some (server.goto i .testing)
    else if (server.workers i).phase = .receiving then some (server.goto i .blocked)
    else none
  else none

/-- SIGQUIT reaches a worker.  Before its handler is installed it ends the worker;
asleep in `recvmsg` it makes the call fail with `EINTR`, and the loop starts
again. -/
def ClosingWorker.deliver (worker : ClosingWorker) : ClosingWorker :=
  match worker.phase with
  | .starting => { worker with phase := .exited, pending := false }
  | .blocked => { worker with phase := .testing, shouldStop := true, pending := false }
  | _ => { worker with shouldStop := true, pending := false }

/-- One step of the server. -/
def shutdownStep (server : ClosingServer n) (event : ClosingEvent n) :
    Option (ClosingServer n) :=
  match event with
  | .sendFd i =>
      if server.parent = .accepting then
        some (server.modify i fun worker => { worker with queued := worker.queued + 1 })
      else none
  | .interrupt =>
      if server.parent = .accepting then some { server with parent := .closing 0 } else none
  | .close =>
      match server.parent with
      | .closing i =>
          if inside : i < n then
            some { server with
              parent := .killing ⟨i, inside⟩
              parentEnd := Function.update server.parentEnd ⟨i, inside⟩ false }
          else none
      | _ => none
  | .kill =>
      match server.parent with
      | .killing i =>
          some { server.modify i fun worker =>
            { worker with pending := worker.phase ≠ .exited } with parent := .waiting i }
      | _ => none
  | .reap =>
      match server.parent with
      | .waiting i =>
          if (server.workers i).phase = .exited then
            some { server with parent := .closing (i.val + 1) }
          else none
      | _ => none
  | .install i =>
      if (server.workers i).phase = .starting then some (server.goto i .testing) else none
  | .test i =>
      if (server.workers i).phase = .testing then
        if (server.workers i).shouldStop then some (server.goto i .exited)
        else some (server.goto i .receiving)
      else none
  | .recvmsg i => recvmsg server i
  | .served i =>
      if (server.workers i).phase = .serving then some (server.goto i .testing) else none
  | .deliver i =>
      if (server.workers i).pending ∧ (server.workers i).phase ≠ .exited then
        some (server.modify i ClosingWorker.deliver)
      else none

/-- The parent and its workers. -/
def shutdownMachine (n : Nat) : PartialMachine (ClosingServer n) (ClosingEvent n) where
  step := shutdownStep

/-- After `start_client_processes`. -/
def started (n : Nat) : ClosingServer n where
  parent := .accepting
  parentEnd := fun _ => true
  workers := fun _ => { phase := .starting, shouldStop := false, pending := false, queued := 0 }

/-! ### What a step can do -/

/-- What a step makes of worker `i`, with the tests behind it. -/
inductive WorkerMoved (server : ClosingServer n) (i : Fin n) : ClosingEvent n → ClosingWorker → Prop
  where
  | installed (starting : (server.workers i).phase = .starting) :
      WorkerMoved server i (.install i) { server.workers i with phase := .testing }
  | stopped (testing : (server.workers i).phase = .testing)
      (stops : (server.workers i).shouldStop = true) :
      WorkerMoved server i (.test i) { server.workers i with phase := .exited }
  | entered (testing : (server.workers i).phase = .testing)
      (goesOn : (server.workers i).shouldStop = false) :
      WorkerMoved server i (.test i) { server.workers i with phase := .receiving }
  | received
      (inside : (server.workers i).phase = .receiving ∨ (server.workers i).phase = .blocked)
      (queued : 0 < (server.workers i).queued) :
      WorkerMoved server i (.recvmsg i)
        { server.workers i with phase := .serving, queued := (server.workers i).queued - 1 }
  | endOfFile
      (inside : (server.workers i).phase = .receiving ∨ (server.workers i).phase = .blocked)
      (notHeld : ¬ server.held i) :
      WorkerMoved server i (.recvmsg i) { server.workers i with phase := .testing }
  | slept (receiving : (server.workers i).phase = .receiving)
      (noneQueued : ¬ 0 < (server.workers i).queued) (held : server.held i) :
      WorkerMoved server i (.recvmsg i) { server.workers i with phase := .blocked }
  | served (serving : (server.workers i).phase = .serving) :
      WorkerMoved server i (.served i) { server.workers i with phase := .testing }
  | signalled (pending : (server.workers i).pending = true)
      (alive : (server.workers i).phase ≠ .exited) :
      WorkerMoved server i (.deliver i) (server.workers i).deliver

/-- What a step makes of the server. -/
inductive Moved (before : ClosingServer n) : ClosingEvent n → ClosingServer n → Prop where
  | sent {i : Fin n} (accepting : before.parent = .accepting) :
      Moved before (.sendFd i)
        (before.modify i fun worker => { worker with queued := worker.queued + 1 })
  | interrupted (accepting : before.parent = .accepting) :
      Moved before .interrupt { before with parent := .closing 0 }
  | closed {i : Fin n} (closing : before.parent = .closing i.val) :
      Moved before .close
        { before with
          parent := .killing i, parentEnd := Function.update before.parentEnd i false }
  | killed {i : Fin n} (killing : before.parent = .killing i) :
      Moved before .kill
        { before.modify i fun worker =>
          { worker with pending := worker.phase ≠ .exited } with parent := .waiting i }
  | reaped {i : Fin n} (waiting : before.parent = .waiting i)
      (exited : (before.workers i).phase = .exited) :
      Moved before .reap { before with parent := .closing (i.val + 1) }
  | worker {i : Fin n} {event : ClosingEvent n} {next : ClosingWorker}
      (moved : WorkerMoved before i event next) :
      Moved before event { before with workers := Function.update before.workers i next }

theorem recvmsg_cases {before after : ClosingServer n} {i : Fin n}
    (received : recvmsg before i = some after) : Moved before (.recvmsg i) after := by
  unfold recvmsg at received
  split at received
  · rename_i inside
    split at received
    · rename_i queued
      cases received
      exact .worker (.received inside queued)
    · rename_i noneQueued
      split at received
      · rename_i notHeld
        cases received
        exact .worker (.endOfFile inside notHeld)
      · rename_i held
        split at received
        · rename_i receiving
          cases received
          exact .worker (.slept receiving noneQueued (not_not.mp held))
        · cases received
  · cases received

theorem shutdownStep_cases {before after : ClosingServer n} {event : ClosingEvent n}
    (stepped : shutdownStep before event = some after) : Moved before event after := by
  cases event with
  | sendFd i =>
      simp only [shutdownStep] at stepped
      split at stepped
      · rename_i accepting
        cases stepped
        exact .sent accepting
      · cases stepped
  | interrupt =>
      simp only [shutdownStep] at stepped
      split at stepped
      · rename_i accepting
        cases stepped
        exact .interrupted accepting
      · cases stepped
  | close =>
      simp only [shutdownStep] at stepped
      split at stepped
      · rename_i i closing
        split at stepped
        · rename_i inside
          cases stepped
          exact .closed closing
        · cases stepped
      · cases stepped
  | kill =>
      simp only [shutdownStep] at stepped
      split at stepped
      · rename_i i killing
        cases stepped
        exact .killed killing
      · cases stepped
  | reap =>
      simp only [shutdownStep] at stepped
      split at stepped
      · rename_i i waiting
        split at stepped
        · rename_i exited
          cases stepped
          exact .reaped waiting exited
        · cases stepped
      · cases stepped
  | install i =>
      simp only [shutdownStep] at stepped
      split at stepped
      · rename_i starting
        cases stepped
        exact .worker (.installed starting)
      · cases stepped
  | test i =>
      simp only [shutdownStep] at stepped
      split at stepped
      · rename_i testing
        split at stepped
        · rename_i stops
          cases stepped
          exact .worker (.stopped testing stops)
        · rename_i goesOn
          cases stepped
          exact .worker (.entered testing (Bool.eq_false_iff.mpr goesOn))
      · cases stepped
  | recvmsg i => exact recvmsg_cases stepped
  | served i =>
      simp only [shutdownStep] at stepped
      split at stepped
      · rename_i serving
        cases stepped
        exact .worker (.served serving)
      · cases stepped
  | deliver i =>
      simp only [shutdownStep] at stepped
      split at stepped
      · rename_i enabled
        cases stepped
        exact .worker (.signalled enabled.1 enabled.2)
      · cases stepped

/-! ### Deadlock

The parent waits with no time limit, so that one worker that never leaves `recvmsg` keeps the
server from ending.  A signal is late when it falls between the test of `_should_stop` and the
sleep: it has then been handled for nothing.
-/

/-- Whatever happens from here on, the worker stays asleep. -/
def NothingWakes (server : ClosingServer n) (i : Fin n) : Prop :=
  ∀ later, (shutdownMachine n).Reached PartialMachine.anyStep server later →
    (later.workers i).phase = .blocked

/-- The parent waits for a worker that is asleep, is to stop, and is never woken. -/
def Deadlocked (server : ClosingServer n) (i : Fin n) : Prop :=
  server.parent = .waiting i ∧ (server.workers i).shouldStop = true ∧
    (server.workers i).phase = .blocked ∧ NothingWakes server i

/-- SIGQUIT does not reach a worker between its test of `_should_stop` and its sleep
in `recvmsg`, unless `recvmsg` will return: a connection is queued, or no process
holds the other end. -/
def WakesInTime (server : ClosingServer n) (event : ClosingEvent n) : Prop :=
  match event with
  | .deliver i =>
      (server.workers i).phase = .receiving → 0 < (server.workers i).queued ∨ ¬ server.held i
  | _ => True

instance (server : ClosingServer n) :
    (event : ClosingEvent n) → Decidable (WakesInTime server event)
  | .deliver _ => inferInstanceAs (Decidable (_ → _))
  | .sendFd _ | .interrupt | .close | .kill | .reap | .install _ | .test _ | .recvmsg _
  | .served _ => inferInstanceAs (Decidable True)

/-! ### Runs without a late signal -/

theorem WorkerMoved.alive {server : ClosingServer n} {i : Fin n} {event : ClosingEvent n}
    {next : ClosingWorker} (moved : WorkerMoved server i event next) :
    (server.workers i).phase ≠ .exited := by
  intro exited
  cases moved with
  | installed phase | stopped phase | entered phase | slept phase | served phase =>
      rw [exited] at phase
      cases phase
  | received inside | endOfFile inside =>
      rw [exited] at inside
      rcases inside with phase | phase <;> cases phase
  | signalled _ alive => exact alive exited

/-- No process comes back. -/
theorem Moved.exited {before after : ClosingServer n} {event : ClosingEvent n}
    (moved : Moved before event after) {j : Fin n} (exited : (before.workers j).phase = .exited) :
    (after.workers j).phase = .exited := by
  cases moved with
  | interrupted | closed | reaped => exact exited
  | @sent i | @killed i =>
      by_cases same : j = i
      · subst same
        simpa [ClosingServer.modify] using exited
      · simpa [ClosingServer.modify, same] using exited
  | @worker i _ next moved =>
      by_cases same : j = i
      · subst same
        exact absurd exited moved.alive
      · simpa [same] using exited

/-- No end is opened either, so an end once given up by all is not held again. -/
theorem Moved.held {before after : ClosingServer n} {event : ClosingEvent n}
    (moved : Moved before event after) {i : Fin n} (held : after.held i) : before.held i := by
  rcases held with parentEnd | ⟨later, behind, alive⟩
  · left
    cases moved with
    | @closed j =>
        by_cases same : i = j
        · subst same
          simp at parentEnd
        · simpa [same] using parentEnd
    | _ => exact parentEnd
  · exact .inr ⟨later, behind, fun exited => alive (moved.exited exited)⟩

/-- A worker that is to stop does not fall asleep. -/
def ClosingWorker.StopsAwake (worker : ClosingWorker) (held : Prop) : Prop :=
  worker.shouldStop = true → worker.phase ≠ .blocked ∧
    (worker.phase = .receiving → 0 < worker.queued ∨ ¬ held)

theorem ClosingWorker.stopsAwake_of_phase {worker : ClosingWorker} {held : Prop}
    (notBlocked : worker.phase ≠ .blocked) (notReceiving : worker.phase ≠ .receiving) :
    worker.StopsAwake held :=
  fun _ => ⟨notBlocked, fun receiving => absurd receiving notReceiving⟩

theorem WorkerMoved.stopsAwake {server : ClosingServer n} {i : Fin n} {event : ClosingEvent n}
    {next : ClosingWorker} (moved : WorkerMoved server i event next)
    (awake : (server.workers i).StopsAwake (server.held i)) (inTime : WakesInTime server event) :
    next.StopsAwake (server.held i) := by
  cases moved with
  | installed | stopped | received | endOfFile | served =>
      apply ClosingWorker.stopsAwake_of_phase
      · simp
      · simp
  | entered _ goesOn =>
      intro stops
      cases goesOn.symm.trans stops
  | slept receiving noneQueued held =>
      intro stops
      rcases (awake stops).2 receiving with queued | notHeld
      · exact absurd queued noneQueued
      · exact absurd held notHeld
  | signalled pending alive =>
      unfold ClosingWorker.deliver
      split
      · apply ClosingWorker.stopsAwake_of_phase
        · simp
        · simp
      · apply ClosingWorker.stopsAwake_of_phase
        · simp
        · simp
      · rename_i notStarting notBlocked
        exact fun _ => ⟨notBlocked, inTime⟩

theorem Moved.stopsAwake {before after : ClosingServer n} {event : ClosingEvent n}
    (moved : Moved before event after) (inTime : WakesInTime before event)
    (awake : ∀ i, (before.workers i).StopsAwake (before.held i)) (i : Fin n) :
    (after.workers i).StopsAwake (after.held i) := by
  -- An end that is no longer held only helps.
  have weaken {worker : ClosingWorker} (old : worker.StopsAwake (before.held i)) :
      worker.StopsAwake (after.held i) := fun stops =>
    ⟨(old stops).1, fun receiving => ((old stops).2 receiving).imp_right (mt moved.held)⟩
  apply weaken
  cases moved with
  | interrupted | closed | reaped => exact awake i
  | @sent j =>
      by_cases same : i = j
      · subst same
        simp only [ClosingServer.modify, Function.update_self]
        exact fun stops => ⟨(awake i stops).1, fun _ => .inl (Nat.succ_pos _)⟩
      · simpa [ClosingServer.modify, same] using awake i
  | @killed j =>
      by_cases same : i = j
      · subst same
        simp only [ClosingServer.modify, Function.update_self]
        exact awake i
      · simpa [ClosingServer.modify, same] using awake i
  | @worker j _ next moved =>
      by_cases same : i = j
      · subst same
        simp only [Function.update_self]
        exact moved.stopsAwake (awake i) inTime
      · simpa [same] using awake i

/-- In every run in which SIGQUIT comes in time, no worker that is to stop is
asleep. -/
theorem stops_awake_of_reached {server : ClosingServer n}
    (reached : (shutdownMachine n).Reached WakesInTime (started n) server) (i : Fin n) :
    (server.workers i).StopsAwake (server.held i) := by
  induction reached generalizing i with
  | start => exact fun stops => by cases stops
  | step _ inTime stepped inductionHypothesis =>
      exact (shutdownStep_cases stepped).stopsAwake inTime inductionHypothesis i

/-- So the shutdown does not deadlock. -/
theorem shutdown_never_deadlocks (server : ClosingServer n)
    (reached : (shutdownMachine n).Reached WakesInTime (started n) server) (i : Fin n) :
    ¬ Deadlocked server i := by
  rintro ⟨-, stops, blocked, -⟩
  exact (stops_awake_of_reached reached i stops).1 blocked

/-- Two workers are shut down: the first has a connection queued when its signal
comes, the second finds its end closed. -/
theorem shutdown_never_deadlocks_both : ∃ server : ClosingServer 2,
    server.parent = .closing 2 ∧ ∀ i, ¬ Deadlocked server i := by
  obtain ⟨server, reached, closed⟩ := PartialMachine.exists_reached_of_any
    (shutdownMachine 2) WakesInTime (started 2)
    [.install 0, .install 1, .test 0, .test 1, .sendFd 0, .interrupt, .close, .kill, .deliver 0,
      .recvmsg 0, .served 0, .test 0, .reap, .close, .kill, .deliver 1, .recvmsg 1, .test 1, .reap]
    (fun server => server.parent = .closing 2)
    (by decide)
  exact ⟨server, closed, shutdown_never_deadlocks server reached⟩

/-! ### Late signals

That late signals are excluded is needed.  After one, the end of file is the last thing that
could wake the worker, and a worker forked after it holds that end open until it is sent its
own SIGQUIT, which the waiting parent never does.
-/

/-- The parent waits for a worker asleep that no signal and no connection is on the
way to, and whose other end a later worker keeps that is not to stop. -/
structure Abandoned (server : ClosingServer n) (i : Fin n) : Prop where
  waiting : server.parent = .waiting i
  blocked : (server.workers i).phase = .blocked
  notPending : (server.workers i).pending = false
  noneQueued : (server.workers i).queued = 0
  keeper : ∃ later, i < later ∧ (server.workers later).phase ≠ .exited ∧
    (server.workers later).pending = false ∧ (server.workers later).shouldStop = false

/-- A worker that has got no signal goes on. -/
theorem WorkerMoved.unsignalled {server : ClosingServer n} {i : Fin n} {event : ClosingEvent n}
    {next : ClosingWorker} (moved : WorkerMoved server i event next)
    (notPending : (server.workers i).pending = false)
    (goesOn : (server.workers i).shouldStop = false) :
    next.phase ≠ .exited ∧ next.pending = false ∧ next.shouldStop = false := by
  cases moved with
  | stopped _ stops => cases goesOn.symm.trans stops
  | signalled pending => cases notPending.symm.trans pending
  | _ => exact ⟨by simp, notPending, goesOn⟩

/-- Asleep, a worker moves for a connection, a signal or an end of file only. -/
theorem WorkerMoved.wakes {server : ClosingServer n} {i : Fin n} {event : ClosingEvent n}
    {next : ClosingWorker} (moved : WorkerMoved server i event next)
    (blocked : (server.workers i).phase = .blocked) :
    (server.workers i).pending = true ∨ 0 < (server.workers i).queued ∨ ¬ server.held i := by
  cases moved with
  | installed phase | stopped phase | entered phase | slept phase | served phase =>
      cases blocked.symm.trans phase
  | received _ queued => exact .inr (.inl queued)
  | endOfFile _ notHeld => exact .inr (.inr notHeld)
  | signalled pending => exact .inl pending

theorem Moved.abandoned {before after : ClosingServer n} {event : ClosingEvent n} {i : Fin n}
    (moved : Moved before event after) (abandoned : Abandoned before i) : Abandoned after i := by
  obtain ⟨waiting, blocked, notPending, noneQueued, later, behind, alive, quiet, goesOn⟩ :=
    abandoned
  cases moved with
  | sent accepting | interrupted accepting => cases waiting.symm.trans accepting
  | closed closing => cases waiting.symm.trans closing
  | killed killing => cases waiting.symm.trans killing
  | reaped waited exited =>
      cases waiting.symm.trans waited
      cases blocked.symm.trans exited
  | @worker j _ next moved =>
      have other : i ≠ j := by
        rintro rfl
        rcases moved.wakes blocked with pending | queued | notHeld
        · cases notPending.symm.trans pending
        · exact absurd noneQueued queued.ne'
        · exact notHeld (.inr ⟨later, behind, alive⟩)
      have keeper : (Function.update before.workers j next later).phase ≠ .exited ∧
          (Function.update before.workers j next later).pending = false ∧
          (Function.update before.workers j next later).shouldStop = false := by
        by_cases isKeeper : later = j
        · subst isKeeper
          simpa using moved.unsignalled quiet goesOn
        · simpa [isKeeper] using ⟨alive, quiet, goesOn⟩
      exact {
        waiting := waiting
        blocked := by simpa [other] using blocked
        notPending := by simpa [other] using notPending
        noneQueued := by simpa [other] using noneQueued
        keeper := ⟨later, behind, keeper⟩ }

theorem Abandoned.nothingWakes {server : ClosingServer n} {i : Fin n}
    (abandoned : Abandoned server i) : NothingWakes server i := by
  intro later reached
  have still : Abandoned later i := by
    induction reached with
    | start => exact abandoned
    | step _ _ stepped inductionHypothesis =>
        exact (shutdownStep_cases stepped).abandoned inductionHypothesis
  exact still.blocked

/-- How many workers the shutdown loop has closed the end of, signalled, and waited
for. -/
structure Progress where
  closed : Nat
  signalled : Nat
  reaped : Nat

def ClosingParent.progress : ClosingParent n → Progress
  | .accepting => ⟨0, 0, 0⟩
  | .closing i => ⟨i, i, i⟩
  | .killing i => ⟨i.val + 1, i.val, i.val⟩
  | .waiting i => ⟨i.val + 1, i.val + 1, i.val⟩

/-- The worker has neither got a signal nor is one on the way. -/
def ClosingWorker.Quiet (worker : ClosingWorker) : Prop :=
  worker.pending = false ∧ worker.shouldStop = false

/-- The shutdown loop takes the workers in order. -/
structure InOrder (server : ClosingServer n) : Prop where
  closed : ∀ i : Fin n, i.val < server.parent.progress.closed → server.parentEnd i = false
  quiet : ∀ i : Fin n, server.parent.progress.signalled ≤ i.val → (server.workers i).Quiet
  reaped : ∀ i : Fin n, i.val < server.parent.progress.reaped → (server.workers i).phase = .exited

namespace InOrder

theorem started (n : Nat) : InOrder (started n) where
  closed _ below := absurd below (Nat.not_lt_zero _)
  quiet _ _ := ⟨rfl, rfl⟩
  reaped _ below := absurd below (Nat.not_lt_zero _)

/-- A step of the workers. -/
theorem keep {before after : ClosingServer n} (order : InOrder before)
    (parent : after.parent = before.parent) (parentEnd : after.parentEnd = before.parentEnd)
    (quiet : ∀ i, (before.workers i).Quiet → (after.workers i).Quiet)
    (exited : ∀ i, (before.workers i).phase = .exited → (after.workers i).phase = .exited) :
    InOrder after where
  closed i below := by
    rw [parentEnd]
    exact order.closed i (parent ▸ below)
  quiet i notBelow := quiet i (order.quiet i (parent ▸ notBelow))
  reaped i below := exited i (order.reaped i (parent ▸ below))

theorem step {before after : ClosingServer n} {event : ClosingEvent n}
    (order : InOrder before) (moved : Moved before event after) : InOrder after := by
  cases moved with
  | @sent j accepting =>
      refine order.keep rfl rfl (fun i quiet => ?_) fun i => (Moved.sent accepting).exited
      by_cases same : i = j
      · subst same
        simpa [ClosingServer.modify, ClosingWorker.Quiet] using quiet
      · simpa [ClosingServer.modify, same] using quiet
  | @worker j _ next moved =>
      refine order.keep rfl rfl (fun i quiet => ?_) fun i => (Moved.worker moved).exited
      by_cases same : i = j
      · subst same
        simp only [Function.update_self]
        exact (moved.unsignalled quiet.1 quiet.2).2
      · simpa [same] using quiet
  | interrupted accepting =>
      obtain ⟨closed, quiet, reaped⟩ := order
      rw [accepting] at closed quiet reaped
      exact ⟨closed, quiet, reaped⟩
  | @closed j closing =>
      obtain ⟨closed, quiet, reaped⟩ := order
      rw [closing] at closed quiet reaped
      refine ⟨fun i below => ?_, quiet, reaped⟩
      by_cases same : i = j
      · subst same
        simp
      · simp only [Function.update_of_ne same]
        exact closed i (Nat.lt_of_le_of_ne (Nat.lt_succ_iff.mp below) (Fin.val_ne_of_ne same))
  | @killed j killing =>
      obtain ⟨closed, quiet, reaped⟩ := order
      rw [killing] at closed quiet reaped
      refine ⟨closed, fun i notBelow => ?_, fun i below => ?_⟩
      · have other : i ≠ j := Fin.ne_of_gt notBelow
        simp only [ClosingServer.modify, Function.update_of_ne other]
        exact quiet i (Nat.le_of_succ_le notBelow)
      · exact (Moved.killed killing).exited (reaped i below)
  | @reaped j waiting exited =>
      obtain ⟨closed, quiet, reaped⟩ := order
      rw [waiting] at closed quiet reaped
      refine ⟨closed, quiet, fun i below => ?_⟩
      by_cases same : i = j
      · exact same ▸ exited
      · exact reaped i (Nat.lt_of_le_of_ne (Nat.lt_succ_iff.mp below) (Fin.val_ne_of_ne same))

end InOrder

/-- A worker with a signal on the way that has not exited is the one waited for. -/
theorem InOrder.waiting_of_pending {server : ClosingServer n} (order : InOrder server) {i : Fin n}
    (pending : (server.workers i).pending = true) (alive : (server.workers i).phase ≠ .exited) :
    server.parent = .waiting i := by
  have signalled : i.val < server.parent.progress.signalled := by
    by_contra notBelow
    cases pending.symm.trans (order.quiet i (Nat.not_lt.mp notBelow)).1
  have notReaped : ¬ i.val < server.parent.progress.reaped := fun below =>
    alive (order.reaped i below)
  cases atParent : server.parent with
  | accepting | closing | killing =>
      rw [atParent] at signalled notReaped
      exact absurd signalled notReaped
  | waiting j =>
      rw [atParent] at signalled notReaped
      rw [Fin.ext (Nat.le_antisymm (Nat.lt_succ_iff.mp signalled) (Nat.not_lt.mp notReaped))]

theorem inOrder_of_reached {server : ClosingServer n}
    (reached : (shutdownMachine n).Reached PartialMachine.anyStep (started n) server) :
    InOrder server := by
  apply reached.invariant (InOrder.started n)
  intro before event after order _ stepped
  exact order.step (shutdownStep_cases stepped)

theorem recvmsg_asleep {server : ClosingServer n} {i : Fin n}
    (receiving : (server.workers i).phase = .receiving) (noneQueued : (server.workers i).queued = 0)
    (held : server.held i) : recvmsg server i = some (server.goto i .blocked) := by
  simp [recvmsg, receiving, noneQueued, held]

/-- What deadlocks a worker in `recvmsg` that is about to fall asleep: its signal is
spent, and a later worker keeps the other end. -/
theorem deadlocked_asleep {server : ClosingServer n} {i later : Fin n}
    (waiting : server.parent = .waiting i) (stops : (server.workers i).shouldStop = true)
    (notPending : (server.workers i).pending = false) (noneQueued : (server.workers i).queued = 0)
    (behind : i < later) (alive : (server.workers later).phase ≠ .exited)
    (quiet : (server.workers later).Quiet) : Deadlocked (server.goto i .blocked) i := by
  have other : later ≠ i := behind.ne'
  have abandoned : Abandoned (server.goto i .blocked) i := {
    waiting := waiting
    blocked := by simp [ClosingServer.goto, ClosingServer.modify]
    notPending := by simpa [ClosingServer.goto, ClosingServer.modify] using notPending
    noneQueued := by simpa [ClosingServer.goto, ClosingServer.modify] using noneQueued
    keeper := ⟨later, behind, by
      simpa [ClosingServer.goto, ClosingServer.modify, other] using ⟨alive, quiet.1, quiet.2⟩⟩ }
  refine ⟨waiting, ?_, abandoned.blocked, abandoned.nothingWakes⟩
  simpa [ClosingServer.goto, ClosingServer.modify] using stops

/-- A signal that is not in time deadlocks the shutdown: the worker's next step is to
fall asleep. -/
theorem deadlocks_of_late_signal {before after : ClosingServer n} {event : ClosingEvent n}
    (reached : (shutdownMachine n).Reached PartialMachine.anyStep (started n) before)
    (late : ¬ WakesInTime before event)
    (stepped : (shutdownMachine n).step before event = some after) :
    ∃ i, ∃ later, (shutdownMachine n).Reached PartialMachine.anyStep after later ∧
      Deadlocked later i := by
  have order := inOrder_of_reached reached
  cases event with
  | deliver i =>
      simp only [WakesInTime, Classical.not_imp, not_or, not_not] at late
      obtain ⟨receiving, noneQueued, held⟩ := late
      simp only [shutdownMachine, shutdownStep] at stepped
      split at stepped
      · rename_i enabled
        cases stepped
        have waiting := order.waiting_of_pending enabled.1 enabled.2
        have worker : (before.modify i ClosingWorker.deliver).workers i =
            { before.workers i with shouldStop := true, pending := false } := by
          simp [ClosingServer.modify, ClosingWorker.deliver, receiving]
        -- The parent has closed its own copy of the end.
        obtain ⟨later, behind, alive⟩ := held.resolve_left fun parentEnd => by
          have closed := order.closed i (by rw [waiting]; exact Nat.lt_succ_self _)
          cases closed.symm.trans parentEnd
        have quiet : (before.workers later).Quiet :=
          order.quiet later (by rw [waiting]; exact behind)
        have same : (before.modify i ClosingWorker.deliver).workers later = before.workers later :=
          Function.update_of_ne behind.ne' ..
        have asleep :
            (shutdownMachine n).step (before.modify i ClosingWorker.deliver) (.recvmsg i) =
              some ((before.modify i ClosingWorker.deliver).goto i .blocked) := by
          apply recvmsg_asleep
          · rw [worker]
            exact receiving
          · rw [worker]
            exact Nat.eq_zero_of_not_pos noneQueued
          · exact .inr ⟨later, behind, same ▸ alive⟩
        refine ⟨i, _, .step .start trivial asleep, deadlocked_asleep waiting ?_ ?_ ?_ behind
          (same ▸ alive) (same ▸ quiet)⟩
        · rw [worker]
        · rw [worker]
        · rw [worker]
          exact Nat.eq_zero_of_not_pos noneQueued
      · cases stepped
  | _ => exact absurd trivial late

/-- With two workers, SIGQUIT reaches the first between its test and `recvmsg`; the
second keeps the other end of its socket. -/
theorem exists_deadlock : ∃ server,
    (shutdownMachine 2).Reached PartialMachine.anyStep (started 2) server ∧
      ∃ i, Deadlocked server i := by
  obtain ⟨before, reached, isLate, delivered⟩ := PartialMachine.exists_reached_of_any
    (shutdownMachine 2) PartialMachine.anyStep (started 2)
    [.install 0, .install 1, .test 0, .interrupt, .close, .kill]
    (fun server => ¬ WakesInTime server (.deliver 0) ∧
      ((shutdownMachine 2).step server (.deliver 0)).isSome = true)
    (by decide)
  obtain ⟨after, stepped⟩ := Option.isSome_iff_exists.mp delivered
  obtain ⟨i, later, goesOn, deadlocked⟩ := deadlocks_of_late_signal reached isLate stepped
  exact ⟨later, (reached.step trivial stepped).trans goesOn, i, deadlocked⟩

theorem shutdown_can_deadlock :
    ¬ ∀ (n : Nat) (server : ClosingServer n), 1 ≤ n →
      (shutdownMachine n).Reached PartialMachine.anyStep (started n) server →
        ∀ i, ¬ Deadlocked server i := by
  intro claimed
  obtain ⟨server, reached, i, deadlocked⟩ := exists_deadlock
  exact claimed 2 server (by omega) reached i deadlocked

end Ivos.Http
