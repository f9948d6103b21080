/-
Module: Ivos.Http.Dispatch
Purpose: The accepting process, the `/available` queue, the socket pairs and the
  workers as one machine, and the token each live worker has in it.
Trusted boundary: none
Main exports: Server, Event, serverMachine, Situated, GetsControlMessage,
  workers_situated, dispatch_without_descriptor_loses_worker
-/
import Ivos.Library.PartialMachine
import Mathlib.Data.Fintype.Basic
import Mathlib.Data.List.FinRange
import Mathlib.Data.List.Count
import Mathlib.Data.List.Nodup
import Mathlib.Logic.Function.Basic

namespace Ivos.Http

/-!
`start_client_processes` forks the workers and queues the pid of each.  `run`
accepts a connection, takes a pid out of the queue and sends the descriptor over
the worker's socket pair; a worker serves the connection and queues its own pid
again.  A worker is named by its index in `_client_processes`, where `run` looks
the pid up.
-/

variable {n : Nat}

/-- Where the loop of `Server::run` stands. -/
inductive Parent (n : Nat) where
  /-- Before `accept`. -/
  | accepting
  /-- `accept` has returned a socket; before `mq_receive`. -/
  | accepted
  /-- `mq_receive` has returned the pid of a worker; before `send_fd`. -/
  | holding (worker : Fin n)
deriving Repr, DecidableEq

/-- Where the loop of `Server::handle_communication` stands. -/
inductive Worker where
  /-- At `recv_fd`. -/
  | waiting
  /-- Between a descriptor received and the `mq_send` of its own pid. -/
  | serving
  /-- Not forked, or ended. -/
  | gone
deriving Repr, DecidableEq

/-- The processes and the kernel objects between them. -/
structure Server (n : Nat) where
  parent : Parent n
  /-- The pids in `/available`, oldest first. -/
  available : List (Fin n)
  /-- The dispatches sent to a worker and not yet received. -/
  inFlight : Fin n → Nat
  workers : Fin n → Worker

/-- One step of one process, with the outcome of its system call. -/
inductive Event (n : Nat) where
  | accept
  | acceptFails
  | mqReceive
  /-- The connection is refused with 503. -/
  | mqReceiveFails
  | sendFd
  /-- The pid is queued again and the connection closed. -/
  | sendFdFails
  | recvFd (worker : Fin n)
  /-- `recvmsg` fails; what is in flight stays there. -/
  | recvFdFails (worker : Fin n)
  /-- `recvmsg` returns a dispatch without a control message, and `recv_fd` -1. -/
  | recvFdNoControl (worker : Fin n)
  /-- The inner loop has ended; the worker queues its pid. -/
  | advertise (worker : Fin n)
  /-- The worker ends. -/
  | exit (worker : Fin n)
deriving Repr, DecidableEq

/-- After `start_client_processes`, with the forks that succeeded. -/
def startClientProcesses (forked : Fin n → Bool) : Server n where
  parent := .accepting
  available := (List.finRange n).filter fun worker => forked worker
  inFlight := fun _ => 0
  workers worker := if forked worker then .waiting else .gone

/-- `handle_communication` after `recv_fd` on a dispatch in flight. -/
def receive (worker : Fin n) (next : Worker) (server : Server n) : Server n :=
  { server with
    inFlight := Function.update server.inFlight worker (server.inFlight worker - 1)
    workers := Function.update server.workers worker next }

/-- One step of the server. -/
def serverStep (server : Server n) (event : Event n) : Option (Server n) :=
  match event with
  | .accept =>
      if server.parent = .accepting then some { server with parent := .accepted } else none
  | .acceptFails => if server.parent = .accepting then some server else none
  | .mqReceive =>
      match server.parent, server.available with
      | .accepted, pid :: available =>
          some { server with parent := .holding pid, available := available }
      | _, _ => none
  | .mqReceiveFails =>
      if server.parent = .accepted then some { server with parent := .accepting } else none
  | .sendFd =>
      match server.parent with
      | .holding pid =>
          some { server with
            parent := .accepting
            inFlight := Function.update server.inFlight pid (server.inFlight pid + 1) }
      | _ => none
  | .sendFdFails =>
      match server.parent with
      | .holding pid =>
          some { server with parent := .accepting, available := server.available ++ [pid] }
      | _ => none
  | .recvFd worker =>
      if server.workers worker = .waiting ∧ 0 < server.inFlight worker then
        some (receive worker .serving server)
      else none
  | .recvFdFails worker => if server.workers worker = .waiting then some server else none
  | .recvFdNoControl worker =>
      if server.workers worker = .waiting ∧ 0 < server.inFlight worker then
        some (receive worker .waiting server)
      else none
  | .advertise worker =>
      if server.workers worker = .serving then
        some { server with
          available := server.available ++ [worker]
          workers := Function.update server.workers worker .waiting }
      else none
  | .exit worker =>
      some { server with workers := Function.update server.workers worker .gone }

/-- All interleavings of the parent and the workers. -/
def serverMachine (n : Nat) : PartialMachine (Server n) (Event n) where
  step := serverStep

/-! ### Situations -/

/-- The four situations of a live worker, each spelled out in full: they exclude
one another. -/
inductive Situated (server : Server n) (worker : Fin n) : Prop where
  | advertised (queued : server.available.count worker = 1)
      (notHeld : server.parent ≠ .holding worker) (nothing : server.inFlight worker = 0)
      (waits : server.workers worker = .waiting)
  | taken (notQueued : server.available.count worker = 0)
      (held : server.parent = .holding worker) (nothing : server.inFlight worker = 0)
      (waits : server.workers worker = .waiting)
  | dispatched (notQueued : server.available.count worker = 0)
      (notHeld : server.parent ≠ .holding worker) (one : server.inFlight worker = 1)
      (waits : server.workers worker = .waiting)
  | serving (notQueued : server.available.count worker = 0)
      (notHeld : server.parent ≠ .holding worker) (nothing : server.inFlight worker = 0)
      (serves : server.workers worker = .serving)

/-- Every live worker is in one of the situations. -/
def AllSituated (server : Server n) : Prop :=
  ∀ worker, server.workers worker ≠ .gone → Situated server worker

/-- What stands for a worker in the parent's hand. -/
def Server.held (server : Server n) (worker : Fin n) : Nat :=
  if server.parent = .holding worker then 1 else 0

/-- What stands for a worker in its own hand. -/
def Server.busy (server : Server n) (worker : Fin n) : Nat :=
  if server.workers worker = .serving then 1 else 0

/-- The tokens that stand for a worker. -/
def Server.tokens (server : Server n) (worker : Fin n) : Nat :=
  server.available.count worker + server.held worker + server.inFlight worker +
    server.busy worker

/-- A live worker is in one of the situations when exactly one token stands for it. -/
theorem situated_iff {server : Server n} {worker : Fin n}
    (live : server.workers worker ≠ .gone) :
    Situated server worker ↔ server.tokens worker = 1 := by
  unfold Server.tokens Server.held Server.busy
  constructor
  · intro situated
    cases situated with
    | advertised queued notHeld nothing waits => simp [queued, notHeld, nothing, waits]
    | taken notQueued held nothing waits => simp [notQueued, held, nothing, waits]
    | dispatched notQueued notHeld one waits => simp [notQueued, notHeld, one, waits]
    | serving notQueued notHeld nothing serves => simp [notQueued, notHeld, nothing, serves]
  · intro one
    cases state : server.workers worker with
    | gone => exact absurd state live
    | serving =>
        simp only [state, if_true] at one
        by_cases held : server.parent = .holding worker
        · simp only [held, if_true] at one
          omega
        · simp only [held, if_false] at one
          exact .serving (by omega) held (by omega) state
    | waiting =>
        simp only [state, reduceCtorEq, if_false] at one
        by_cases held : server.parent = .holding worker
        · simp only [held, if_true] at one
          exact .taken (by omega) held (by omega) state
        · simp only [held, if_false] at one
          by_cases nothing : server.inFlight worker = 0
          · exact .advertised (by omega) held nothing state
          · exact .dispatched (by omega) held (by omega) state

/-! ### Steps keep the tokens -/

/-- A dispatch that a worker takes off its socket carries the descriptor. -/
def GetsControlMessage (_ : Server n) (event : Event n) : Prop :=
  ∀ worker, event ≠ .recvFdNoControl worker

instance (server : Server n) (event : Event n) : Decidable (GetsControlMessage server event) := by
  unfold GetsControlMessage
  infer_instance

theorem receive_tokens {server : Server n} {receiver worker : Fin n}
    (waits : server.workers receiver = .waiting) (some : 0 < server.inFlight receiver) :
    (receive receiver .serving server).tokens worker = server.tokens worker := by
  unfold Server.tokens Server.held Server.busy receive
  by_cases same : worker = receiver
  · subst same
    simp [waits]
    omega
  · simp [same]

theorem update_gone {workers : Fin n → Worker} {changed worker : Fin n} {next : Worker}
    (wasLive : workers changed ≠ .gone)
    (live : Function.update workers changed next worker ≠ .gone) : workers worker ≠ .gone := by
  by_cases same : worker = changed
  · subst same
    exact wasLive
  · simpa [same] using live

/-- No step revives a worker, and for a live one no permitted step makes or loses
a token. -/
theorem tokens_step {before after : Server n} {event : Event n}
    (permitted : GetsControlMessage before event) (stepped : serverStep before event = some after)
    {worker : Fin n} (live : after.workers worker ≠ .gone) :
    before.workers worker ≠ .gone ∧ after.tokens worker = before.tokens worker := by
  unfold serverStep at stepped
  cases event with
  | accept =>
      dsimp only at stepped
      split at stepped
      · rename_i accepting
        cases stepped
        exact ⟨live, by simp [Server.tokens, Server.held, Server.busy, accepting]⟩
      · cases stepped
  | acceptFails =>
      dsimp only at stepped
      split at stepped
      · cases stepped
        exact ⟨live, rfl⟩
      · cases stepped
  | mqReceive =>
      dsimp only at stepped
      split at stepped
      · rename_i pid available accepted queued
        cases stepped
        refine ⟨live, ?_⟩
        by_cases same : pid = worker
        · simp [Server.tokens, Server.held, Server.busy, accepted, queued, same]
        · simp [Server.tokens, Server.held, Server.busy, accepted, queued, same]
      · cases stepped
  | mqReceiveFails =>
      dsimp only at stepped
      split at stepped
      · rename_i accepted
        cases stepped
        exact ⟨live, by simp [Server.tokens, Server.held, Server.busy, accepted]⟩
      · cases stepped
  | sendFd =>
      dsimp only at stepped
      split at stepped
      · rename_i pid held
        cases stepped
        refine ⟨live, ?_⟩
        by_cases same : worker = pid
        · subst same
          simp [Server.tokens, Server.held, Server.busy, held]
          omega
        · simp [Server.tokens, Server.held, Server.busy, held, same, Ne.symm same]
      · cases stepped
  | sendFdFails =>
      dsimp only at stepped
      split at stepped
      · rename_i pid held
        cases stepped
        refine ⟨live, ?_⟩
        by_cases same : pid = worker
        · simp [Server.tokens, Server.held, Server.busy, held, same]
        · simp [Server.tokens, Server.held, Server.busy, held, same]
      · cases stepped
  | recvFd receiver =>
      dsimp only at stepped
      split at stepped
      · rename_i ready
        cases stepped
        exact ⟨update_gone (by simp [ready.1]) live, receive_tokens ready.1 ready.2⟩
      · cases stepped
  | recvFdFails receiver =>
      dsimp only at stepped
      split at stepped
      · cases stepped
        exact ⟨live, rfl⟩
      · cases stepped
  | recvFdNoControl receiver => exact absurd rfl (permitted receiver)
  | advertise sender =>
      dsimp only at stepped
      split at stepped
      · rename_i serves
        cases stepped
        refine ⟨update_gone (by simp [serves]) live, ?_⟩
        by_cases same : worker = sender
        · subst same
          simp [Server.tokens, Server.held, Server.busy, serves]
          omega
        · simp [Server.tokens, Server.held, Server.busy, same, Ne.symm same]
      · cases stepped
  | exit ended =>
      cases stepped
      have other : worker ≠ ended := by
        rintro rfl
        simp at live
      exact ⟨by simpa [other] using live, by
        simp [Server.tokens, Server.held, Server.busy, other]⟩

/-- Exactly one token stands for every live worker. -/
def OneToken (server : Server n) : Prop :=
  ∀ worker, server.workers worker ≠ .gone → server.tokens worker = 1

/-- `start_client_processes` queues every worker it forked once. -/
theorem startClientProcesses_oneToken (forked : Fin n → Bool) :
    OneToken (startClientProcesses forked) := by
  intro worker live
  have isForked : forked worker = true := by
    by_contra notForked
    simp [startClientProcesses, notForked] at live
  have once : ((List.finRange n).filter fun worker => forked worker).count worker = 1 := by
    rw [List.count_filter isForked]
    exact List.count_eq_one_of_mem (List.nodup_finRange n) (List.mem_finRange worker)
  simp [Server.tokens, Server.held, Server.busy, startClientProcesses, once, isForked]

/-- For any number of workers and any failed forks, every live worker is in
exactly one of its situations in every interleaving in which no dispatch is
received without its control message. -/
theorem workers_situated (forked : Fin n → Bool) (server : Server n)
    (reached : (serverMachine n).Reached GetsControlMessage (startClientProcesses forked) server) :
    AllSituated server := by
  have tokens : OneToken server := by
    apply reached.invariant (startClientProcesses_oneToken forked)
    intro before event after holds permitted stepped worker live
    obtain ⟨wasLive, same⟩ := tokens_step permitted stepped live
    rw [same]
    exact holds worker wasLive
  exact fun worker live => (situated_iff live).mpr (tokens worker live)

/-- A worker that serves a connection to its end is advertised again. -/
theorem workers_situated_served :
    ∃ server : Server 2, server.available = [1, 0] ∧ AllSituated server := by
  obtain ⟨server, reached, again⟩ := PartialMachine.exists_reached_of_any (serverMachine 2)
    GetsControlMessage (startClientProcesses fun _ => true)
    [.accept, .mqReceive, .sendFd, .recvFd 0, .advertise 0]
    (fun server : Server 2 => server.available = [1, 0]) (by decide)
  exact ⟨server, again, workers_situated (fun _ => true) server reached⟩

/-- A worker that takes a dispatch off its socket without a control message waits
on, advertised no more. -/
theorem dispatch_without_descriptor_loses_worker :
    ¬ ∀ server : Server 1, (serverMachine 1).Reached PartialMachine.anyStep
      (startClientProcesses fun _ => true) server → AllSituated server := by
  intro claimed
  obtain ⟨server, reached, waits, lost⟩ := PartialMachine.exists_reached_of_any (serverMachine 1)
    PartialMachine.anyStep (startClientProcesses fun _ => true)
    [.accept, .mqReceive, .sendFd, .recvFdNoControl 0]
    (fun server : Server 1 => server.workers 0 = .waiting ∧ server.tokens 0 = 0)
    (by decide)
  have live : server.workers 0 ≠ .gone := by simp [waits]
  have one := (situated_iff live).mp (claimed server reached 0 live)
  omega

end Ivos.Http
