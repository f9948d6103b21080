/-
Module: Ivos.Http.StalePids
Purpose: The dispatch of connections by pid, with the table of the workers and the
  `/available` queue as an earlier run may have left it, and when every pid received
  is in the table.
Trusted boundary: no process of an earlier run sends to `/available`
Main exports: Launch, Launch.startClientProcesses, Dispatcher, dispatchMachine,
  Addresses, KnowsLeftPids, received_pids_found_iff, stale_pid_not_found
-/
import Ivos.Http.Dispatch
import Mathlib.Data.PNat.Defs
import Mathlib.Data.List.ReduceOption

namespace Ivos.Http

/-!
`/available` is opened with `O_CREAT`, so the pids that an earlier run left in it are
still there.  Its messages all have the same priority and come out in the order in
which they went in.  A full queue blocks `mq_send`: the `mq_flags` of the attributes
are not used by `mq_open`.  The processes of the earlier run have ended: nothing but this
run sends to the queue while it is open.
-/

/-- What a run of the server finds and what its forks return. -/
structure Launch where
  /-- What `fork` returns to the parent in each round: a pid, or `none` for -1. -/
  forkResults : List (Option ℕ+)
  /-- `mq_maxmsg` of `/available`. -/
  capacity : Nat
  /-- The pids in `/available` when it is opened, oldest first. -/
  left : List ℕ+
  room : left.length ≤ capacity
deriving Repr, DecidableEq

namespace Launch

/-- `_max_connections`. -/
def maxConnections (launch : Launch) : Nat := launch.forkResults.length

/-- The workers of this run. -/
def forked (launch : Launch) : List ℕ+ := launch.forkResults.reduceOption

end Launch

/-- Where the parent stands. -/
inductive Dispatching where
  /-- Before `accept`. -/
  | accepting
  /-- Before `mq_receive`. -/
  | accepted
  /-- `mq_receive` has returned a pid. -/
  | received (pid : ℕ+)
deriving Repr, DecidableEq

/-- The parent, the workers by their index, and the kernel objects between them. -/
structure Dispatcher where
  parent : Dispatching
  /-- `_client_processes`. -/
  clientProcesses : List Nat
  /-- The pids in `/available`, oldest first. -/
  available : List ℕ+
  /-- The dispatches in each socket pair. -/
  inFlight : Nat → Nat
  workers : Nat → Worker

/-- The loop of `start_client_processes` in the parent.  The entry of a fork that failed
stays 0; `none` is an `mq_send` that blocks, with no one to receive. -/
def startRounds (capacity : Nat) :
    List (Option ℕ+) → List Nat → List ℕ+ → Option (List Nat × List ℕ+)
  | [], clientProcesses, available => some (clientProcesses, available)
  | none :: rounds, clientProcesses, available =>
      startRounds capacity rounds (clientProcesses ++ [0]) available
  | some pid :: rounds, clientProcesses, available =>
      if available.length < capacity then
        startRounds capacity rounds (clientProcesses ++ [pid.val]) (available ++ [pid])
      else none

/-- `start_client_processes`. -/
def Launch.startClientProcesses (launch : Launch) : Option Dispatcher :=
  (startRounds launch.capacity launch.forkResults [] launch.left).map
    fun (clientProcesses, available) =>
      { parent := .accepting
        clientProcesses := clientProcesses
        available := available
        inFlight := fun _ => 0
        workers := fun i => if (launch.forkResults[i]?.join).isSome then .waiting else .gone }

/-- One step of one process, with the outcome of its system call. -/
inductive DispatchEvent where
  | accept
  | acceptFails
  | mqReceive
  | mqReceiveFails
  | sendFd
  /-- The pid is queued again, unless `mq_send` is interrupted. -/
  | sendFdFails (requeued : Bool)
  | recvFd (i : Nat)
  | recvFdFails (i : Nat)
  | recvFdNoControl (i : Nat)
  /-- A worker queues its pid, unless `mq_send` is interrupted. -/
  | advertise (i : Nat) (queued : Bool)
  | exit (i : Nat)
deriving Repr, DecidableEq

namespace Dispatcher

/-- `std::distance(begin, std::find(begin, end, pid))`. -/
def clientIndex (server : Dispatcher) (pid : ℕ+) : Nat := server.clientProcesses.idxOf pid.val

/-- `mq_send` on `/available`, which blocks when the queue is full. -/
def mqSend (capacity : Nat) (pid : ℕ+) (server : Dispatcher) : Option Dispatcher :=
  if server.available.length < capacity then
    some { server with available := server.available ++ [pid] }
  else none

end Dispatcher

/-- One step of the server.  Behind the end of `_socket_pairs` there is none. -/
def dispatchStep (launch : Launch) (server : Dispatcher) (event : DispatchEvent) :
    Option Dispatcher :=
  match event with
  | .accept =>
      if server.parent = .accepting then some { server with parent := .accepted } else none
  | .acceptFails => if server.parent = .accepting then some server else none
  | .mqReceive =>
      match server.parent, server.available with
      | .accepted, pid :: available =>
          some { server with parent := .received pid, available := available }
      | _, _ => none
  | .mqReceiveFails =>
      if server.parent = .accepted then some { server with parent := .accepting } else none
  | .sendFd =>
      match server.parent with
      | .received pid =>
          let i := server.clientIndex pid
          if i < launch.maxConnections then
            some { server with
              parent := .accepting
              inFlight := Function.update server.inFlight i (server.inFlight i + 1) }
          else none
      | _ => none
  | .sendFdFails requeued =>
      match server.parent with
      | .received pid =>
          if server.clientIndex pid < launch.maxConnections then
            let server := { server with parent := .accepting }
            if requeued then server.mqSend launch.capacity pid else some server
          else none
      | _ => none
  | .recvFd i =>
      if server.workers i = .waiting ∧ 0 < server.inFlight i then
        some { server with
          inFlight := Function.update server.inFlight i (server.inFlight i - 1)
          workers := Function.update server.workers i .serving }
      else none
  | .recvFdFails i => if server.workers i = .waiting then some server else none
  | .recvFdNoControl i =>
      if server.workers i = .waiting ∧ 0 < server.inFlight i then
        some { server with
          inFlight := Function.update server.inFlight i (server.inFlight i - 1) }
      else none
  | .advertise i queued =>
      match launch.forkResults[i]?.join with
      | none => none
      | some pid =>
          if server.workers i = .serving then
            let server :=
              { server with workers := Function.update server.workers i .waiting }
            if queued then server.mqSend launch.capacity pid else some server
          else none
  | .exit i => some { server with workers := Function.update server.workers i .gone }

/-- All interleavings of the parent and the workers. -/
def dispatchMachine (launch : Launch) : PartialMachine Dispatcher DispatchEvent where
  step := dispatchStep launch

/-- A pid that was received is in the table, and its index inside it. -/
def Addresses (launch : Launch) (server : Dispatcher) : Prop :=
  ∀ pid, server.parent = .received pid →
    pid.val ∈ server.clientProcesses ∧ server.clientIndex pid < launch.maxConnections

/-- If the queue takes the pids of the new workers at all, every pid left in it is the
pid of one of them. -/
def KnowsLeftPids (launch : Launch) : Prop :=
  launch.left.length + launch.forked.length ≤ launch.capacity →
    ∀ pid ∈ launch.left, pid ∈ launch.forked

/-! ### The start -/

/-- `_client_processes` after these forks. -/
def processTable (forkResults : List (Option ℕ+)) : List Nat :=
  forkResults.map fun result => (result.map PNat.val).getD 0

theorem mem_processTable {forkResults : List (Option ℕ+)} {pid : ℕ+} :
    pid.val ∈ processTable forkResults ↔ pid ∈ forkResults.reduceOption := by
  rw [List.reduceOption_mem_iff, processTable, List.mem_map]
  constructor
  · rintro ⟨result, member, same⟩
    cases result with
    | none => exact absurd same pid.pos.ne
    | some forked => exact PNat.eq same ▸ member
  · intro member
    exact ⟨some pid, member, rfl⟩

theorem startRounds_eq (capacity : Nat) (forkResults : List (Option ℕ+))
    (clientProcesses : List Nat) (available : List ℕ+)
    (room : available.length ≤ capacity) :
    startRounds capacity forkResults clientProcesses available =
      if available.length + forkResults.reduceOption.length ≤ capacity then
        some (clientProcesses ++ processTable forkResults,
          available ++ forkResults.reduceOption)
      else none := by
  induction forkResults generalizing clientProcesses available with
  | nil => simp [startRounds, processTable, room]
  | cons result rounds inductionHypothesis =>
      cases result with
      | none =>
          rw [startRounds, inductionHypothesis _ _ room]
          simp [processTable, List.reduceOption_cons_of_none]
      | some pid =>
          rw [startRounds, List.reduceOption_cons_of_some, List.length_cons]
          split
          · rename_i notFull
            rw [inductionHypothesis _ _ (by simpa using Nat.succ_le_of_lt notFull)]
            simp [processTable, Nat.add_assoc, Nat.add_comm 1]
          · rename_i full
            rw [if_neg (by omega)]

/-- The start goes through when the queue takes all pids, and the table is complete
then. -/
theorem startClientProcesses_cases (launch : Launch) :
    (launch.left.length + launch.forked.length ≤ launch.capacity ∧
      ∃ server, launch.startClientProcesses = some server ∧ server.parent = .accepting ∧
        server.clientProcesses = processTable launch.forkResults ∧
        server.available = launch.left ++ launch.forked) ∨
    (¬launch.left.length + launch.forked.length ≤ launch.capacity ∧
      launch.startClientProcesses = none) := by
  have rounds := startRounds_eq launch.capacity launch.forkResults [] launch.left launch.room
  rw [← Launch.forked] at rounds
  by_cases fits : launch.left.length + launch.forked.length ≤ launch.capacity
  · rw [if_pos fits, List.nil_append] at rounds
    refine .inl ⟨fits, ?_⟩
    rw [Launch.startClientProcesses, rounds]
    exact ⟨_, rfl, rfl, rfl, rfl⟩
  · rw [if_neg fits] at rounds
    refine .inr ⟨fits, ?_⟩
    rw [Launch.startClientProcesses, rounds]
    rfl

/-- The search in the table ends inside it for workers only. -/
theorem clientIndex_lt_iff (launch : Launch) {server : Dispatcher}
    (table : server.clientProcesses = processTable launch.forkResults) (pid : ℕ+) :
    server.clientIndex pid < launch.maxConnections ↔ pid ∈ launch.forked := by
  have size : launch.maxConnections = server.clientProcesses.length := by
    rw [table, processTable, List.length_map, Launch.maxConnections]
  rw [Dispatcher.clientIndex, size, List.idxOf_lt_length_iff, table, mem_processTable,
    Launch.forked]

/-! ### Steps -/

/-- The table is complete, and all pids in the queue and in the parent's hand are those
of workers. -/
structure OnlyWorkers (launch : Launch) (server : Dispatcher) : Prop where
  table : server.clientProcesses = processTable launch.forkResults
  queued : ∀ pid ∈ server.available, pid ∈ launch.forked
  received : ∀ pid, server.parent = .received pid → pid ∈ launch.forked

namespace OnlyWorkers

variable {launch : Launch} {before after : Dispatcher}

theorem addresses {server : Dispatcher} (only : OnlyWorkers launch server) :
    Addresses launch server := by
  intro pid received
  have isWorker := only.received pid received
  refine ⟨?_, (clientIndex_lt_iff launch only.table pid).mpr isWorker⟩
  rw [only.table]
  exact mem_processTable.mpr isWorker

/-- The parent moves on, and holds no pid. -/
theorem release (only : OnlyWorkers launch before) {parent : Dispatching}
    (free : ∀ pid, parent ≠ .received pid) :
    OnlyWorkers launch { before with parent := parent } :=
  ⟨only.table, only.queued, fun pid received => absurd received (free pid)⟩

theorem mqSend (only : OnlyWorkers launch before) {capacity : Nat} {pid : ℕ+}
    (isWorker : pid ∈ launch.forked) (sent : before.mqSend capacity pid = some after) :
    OnlyWorkers launch after := by
  unfold Dispatcher.mqSend at sent
  split at sent
  · cases sent
    refine ⟨only.table, fun other member => ?_, only.received⟩
    rcases List.mem_append.mp member with earlier | isNew
    · exact only.queued other earlier
    · exact List.mem_singleton.mp isNew ▸ isWorker
  · cases sent

theorem step {event : DispatchEvent} (only : OnlyWorkers launch before)
    (stepped : dispatchStep launch before event = some after) : OnlyWorkers launch after := by
  unfold dispatchStep at stepped
  cases event with
  | accept | mqReceiveFails =>
      dsimp only at stepped
      split at stepped
      · cases stepped
        exact only.release (by simp)
      · cases stepped
  | acceptFails | recvFdFails =>
      dsimp only at stepped
      split at stepped
      · cases stepped
        exact only
      · cases stepped
  | mqReceive =>
      dsimp only at stepped
      split at stepped
      · rename_i pid available accepted queued
        cases stepped
        refine ⟨only.table, fun other member => ?_, fun other received => ?_⟩
        · exact only.queued other (queued ▸ List.mem_cons_of_mem pid member)
        · cases received
          exact only.queued pid (queued ▸ List.mem_cons_self)
      · cases stepped
  | sendFd =>
      dsimp only at stepped
      split at stepped
      · split at stepped
        · cases stepped
          exact ⟨only.table, only.queued, by simp⟩
        · cases stepped
      · cases stepped
  | sendFdFails requeued =>
      dsimp only at stepped
      split at stepped
      · rename_i pid received
        split at stepped
        · have released : OnlyWorkers launch { before with parent := .accepting } :=
            only.release (by simp)
          split at stepped
          · exact released.mqSend (only.received pid received) stepped
          · cases stepped
            exact released
        · cases stepped
      · cases stepped
  | recvFd i | recvFdNoControl i =>
      dsimp only at stepped
      split at stepped
      · cases stepped
        exact ⟨only.table, only.queued, only.received⟩
      · cases stepped
  | advertise i queued =>
      dsimp only at stepped
      split at stepped
      · cases stepped
      · rename_i pid isPid
        have isWorker : pid ∈ launch.forked := by
          rw [Launch.forked, List.reduceOption_mem_iff]
          exact List.mem_of_getElem? (Option.join_eq_some_iff.mp isPid)
        split at stepped
        · have waits : OnlyWorkers launch
              { before with workers := Function.update before.workers i .waiting } :=
            ⟨only.table, only.queued, only.received⟩
          split at stepped
          · exact waits.mqSend isWorker stepped
          · cases stepped
            exact waits
        · cases stepped
  | exit i =>
      cases stepped
      exact ⟨only.table, only.queued, only.received⟩

end OnlyWorkers

/-! ### Runs -/

/-- The oldest pid is received with the next connection. -/
theorem exists_received (launch : Launch) {server : Dispatcher} {pid : ℕ+} {later : List ℕ+}
    (accepting : server.parent = .accepting) (queued : server.available = pid :: later) :
    (dispatchMachine launch).Reached PartialMachine.anyStep server
      { server with parent := .received pid, available := later } := by
  have accepted : (dispatchMachine launch).step server .accept =
      some { server with parent := .accepted } := if_pos accepting
  have received : (dispatchMachine launch).step { server with parent := .accepted } .mqReceive =
      some { server with parent := .received pid, available := later } := by
    simp only [dispatchMachine, dispatchStep, queued]
  exact .step (.step .start trivial accepted) trivial received

/-- The connection is sent to the worker whose pid was received. -/
theorem exists_sent {launch : Launch} {server : Dispatcher} {pid : ℕ+}
    (table : server.clientProcesses = processTable launch.forkResults)
    (received : server.parent = .received pid) (isWorker : pid ∈ launch.forked) :
    ∃ after, (dispatchMachine launch).step server .sendFd = some after ∧
      after.parent = .accepting ∧ after.clientProcesses = server.clientProcesses ∧
      after.available = server.available := by
  have inside := (clientIndex_lt_iff launch table pid).mpr isWorker
  refine ⟨{ server with
    parent := .accepting
    inFlight := Function.update server.inFlight (server.clientIndex pid)
      (server.inFlight (server.clientIndex pid) + 1) }, ?_, rfl, rfl, rfl⟩
  simp only [dispatchMachine, dispatchStep, received, inside, if_true]

/-- Pids of workers at the front of the queue can be dispatched away. -/
theorem exists_dispatched {launch : Launch} {server : Dispatcher} {known later : List ℕ+}
    (table : server.clientProcesses = processTable launch.forkResults)
    (accepting : server.parent = .accepting) (queued : server.available = known ++ later)
    (workers : ∀ pid ∈ known, pid ∈ launch.forked) :
    ∃ after, (dispatchMachine launch).Reached PartialMachine.anyStep server after ∧
      after.parent = .accepting ∧ after.clientProcesses = processTable launch.forkResults ∧
      after.available = later := by
  induction known generalizing server with
  | nil => exact ⟨server, .start, accepting, table, queued⟩
  | cons pid known inductionHypothesis =>
      have received := exists_received launch accepting queued
      have sends : ∃ next, (dispatchMachine launch).step
          { server with parent := .received pid, available := known ++ later } .sendFd = some next ∧
          next.parent = .accepting ∧ next.clientProcesses = server.clientProcesses ∧
          next.available = known ++ later :=
        exists_sent table rfl (workers pid List.mem_cons_self)
      obtain ⟨next, sent, again, same, left⟩ := sends
      obtain ⟨after, reached, isLater⟩ := inductionHypothesis (same.trans table) again left
        fun other member => workers other (List.mem_cons_of_mem _ member)
      exact ⟨after, (received.step trivial sent).trans reached, isLater⟩

/-- A pid at the front of the queue that is not a worker's is received some time. -/
theorem exists_not_addressed {launch : Launch} {start : Dispatcher} {foreign : ℕ+}
    (table : start.clientProcesses = processTable launch.forkResults)
    (accepting : start.parent = .accepting) (queued : foreign ∈ start.available)
    (notWorker : foreign ∉ launch.forked) :
    ∃ server, (dispatchMachine launch).Reached PartialMachine.anyStep start server ∧
      ¬Addresses launch server := by
  -- the oldest such pid
  obtain ⟨pid, first⟩ : ∃ pid, start.available.find? (· ∉ launch.forked) = some pid :=
    Option.isSome_iff_exists.mp (List.find?_isSome.mpr ⟨foreign, queued, by simpa using notWorker⟩)
  obtain ⟨isForeign, known, later, split, workers⟩ := List.find?_eq_some_iff_append.mp first
  obtain ⟨before, dispatched, again, same, rest⟩ := exists_dispatched table accepting split
    fun pid member => by simpa using workers pid member
  refine ⟨_, dispatched.trans (exists_received launch again rest), fun addresses => ?_⟩
  have isWorker : pid ∈ launch.forked :=
    (clientIndex_lt_iff launch (by exact same) pid).mp (addresses pid rfl).2
  simp [isWorker] at isForeign

/-- In every run every pid received is found in the table, exactly if the pids left in
the queue are those of workers, or too many for the start to go through. -/
theorem received_pids_found_iff (launch : Launch) :
    (∀ start server, launch.startClientProcesses = some start →
      (dispatchMachine launch).Reached PartialMachine.anyStep start server →
        Addresses launch server) ↔ KnowsLeftPids launch := by
  rcases startClientProcesses_cases launch with
    ⟨fits, start, started, accepting, table, queued⟩ | ⟨tooMany, blocked⟩
  · constructor
    · intro claimed _ pid member
      by_contra foreign
      obtain ⟨server, reached, notAddressed⟩ := exists_not_addressed table accepting
        (queued ▸ List.mem_append_left _ member) foreign
      exact notAddressed (claimed start server started reached)
    · intro known other server again reached
      cases started.symm.trans again
      have only : OnlyWorkers launch server := by
        apply reached.invariant
        · refine ⟨table, fun pid member => ?_, fun pid received => ?_⟩
          · rw [queued] at member
            exact (List.mem_append.mp member).elim (known fits pid) id
          · cases accepting.symm.trans received
        · intro before event after only _ stepped
          exact only.step stepped
      exact only.addresses
  · refine iff_of_true (fun start _ started => ?_) fun fits => absurd fits tooMany
    cases blocked.symm.trans started

/-- An earlier run has left the pid 700 in a queue for two, and the second fork of this
run fails. -/
theorem stale_pid_not_found : ¬∀ (launch : Launch) (start server : Dispatcher),
    launch.startClientProcesses = some start →
      (dispatchMachine launch).Reached PartialMachine.anyStep start server →
        Addresses launch server := by
  intro claimed
  let launch : Launch :=
    { forkResults := [some 800, none], capacity := 2, left := [700], room := by decide }
  rcases startClientProcesses_cases launch with
    ⟨-, start, started, accepting, table, queued⟩ | ⟨tooMany, -⟩
  · have foreign : (700 : ℕ+) ∈ start.available := by rw [queued]; decide
    obtain ⟨server, reached, notAddressed⟩ :=
      exists_not_addressed table accepting foreign (by decide)
    exact notAddressed (claimed launch start server started reached)
  · exact absurd (by decide) tooMany

end Ivos.Http
