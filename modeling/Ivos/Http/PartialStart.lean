/-
Module: Ivos.Http.PartialStart
Purpose: The signals and waits of the shutdown loop of `Server::run`, by the table that
  `start_client_processes` leaves when some of its forks fail.
Trusted boundary: none
Main exports: ServerGroup, ShutdownCall, shutdownLoop, signalled, waitedFor,
  ShutsDownForked, shuts_down_forked_iff, failed_fork_signals_own_group
-/
import Ivos.Http.StalePids

namespace Ivos.Http

/-!
A pid of 0 means the caller's process group to `kill`, and any child in it to
`waitpid`.  Every process the server forks is in its group.  The parent handles
SIGINT only, so that SIGQUIT ends it.
-/

/-- The server with its children, by what its forks returned.  No two of them have the
same pid: a child that has ended keeps its pid until it is waited for. -/
structure ServerGroup where
  server : ℕ+
  logger : ℕ+
  /-- What the forks of `start_client_processes` returned; `none` stands for -1. -/
  forkResults : List (Option ℕ+)
  /-- Other processes of the group, such as the shell or a script's interpreter. -/
  others : List ℕ+
  distinct : (server :: logger :: forkResults.reduceOption ++ others).Nodup

namespace ServerGroup

/-- The workers. -/
def forked (group : ServerGroup) : List ℕ+ := group.forkResults.reduceOption

/-- The process group. -/
def processes (group : ServerGroup) : List ℕ+ :=
  group.server :: group.logger :: group.forked ++ group.others

end ServerGroup

/-- The calls of the shutdown loop that name a process. -/
inductive ShutdownCall where
  /-- `kill(pid, SIGQUIT)`. -/
  | kill (pid : Nat)
  /-- `waitpid(pid, NULL, 0)`. -/
  | waitpid (pid : Nat)
deriving Repr, DecidableEq

/-- The processes that `kill` sends the signal to. -/
def recipients (processes : List ℕ+) (pid : Nat) : List ℕ+ :=
  if positive : 0 < pid then [⟨pid, positive⟩] else processes

/-- The shutdown loop over the rest of `_client_processes`.  It goes no further once the
server has got the signal itself. -/
def shutdownLoop (group : ServerGroup) : List Nat → List ShutdownCall
  | [] => []
  | pid :: clientProcesses =>
      .kill pid ::
        if group.server ∈ recipients group.processes pid then []
        else .waitpid pid :: shutdownLoop group clientProcesses

/-- What the shutdown loop does behind a start with these forks. -/
def ServerGroup.shutdown (group : ServerGroup) : List ShutdownCall :=
  shutdownLoop group (processTable group.forkResults)

/-- The processes that SIGQUIT is sent to, as often as it is. -/
def signalled (processes : List ℕ+) (calls : List ShutdownCall) : List ℕ+ :=
  calls.flatMap fun
    | .kill pid => recipients processes pid
    | .waitpid _ => []

/-- The arguments of `waitpid`, in order. -/
def waitedFor (calls : List ShutdownCall) : List Nat :=
  calls.filterMap fun
    | .kill _ => none
    | .waitpid pid => some pid

/-- SIGQUIT goes to every worker once and to nothing else, exactly the workers are
waited for, and the process group is not signalled. -/
structure ShutsDownForked (group : ServerGroup) : Prop where
  signals : ∀ process, (signalled group.processes group.shutdown).count process =
    if process ∈ group.forked then 1 else 0
  waits : waitedFor group.shutdown = group.forked.map PNat.val
  sparesGroup : .kill 0 ∉ group.shutdown

/-! ### The loop -/

section Loop

variable {group : ServerGroup}

theorem recipients_pid (processes : List ℕ+) (pid : ℕ+) : recipients processes pid.val = [pid] :=
  dif_pos pid.pos

theorem server_notMem_forked (group : ServerGroup) : group.server ∉ group.forked := by
  intro member
  have apart := (List.nodup_cons.mp group.distinct).1
  exact apart (List.mem_cons_of_mem _ (List.mem_append_left _ member))

theorem nodup_forked (group : ServerGroup) : group.forked.Nodup := by
  have apart := (List.nodup_cons.mp (List.nodup_cons.mp group.distinct).2).2
  exact (List.nodup_append.mp apart).1

/-- With entries of workers only, the loop takes one after the other. -/
theorem shutdownLoop_of_workers {workers : List ℕ+} (notServer : group.server ∉ workers) :
    shutdownLoop group (workers.map PNat.val) =
      workers.flatMap fun pid => [.kill pid.val, .waitpid pid.val] := by
  induction workers with
  | nil => rfl
  | cons pid workers inductionHypothesis =>
      rw [List.mem_cons, not_or] at notServer
      have other : group.server ∉ recipients group.processes pid.val := by
        rw [recipients_pid]
        exact fun same => notServer.1 (List.mem_singleton.mp same)
      rw [List.map_cons, shutdownLoop, if_neg other, inductionHypothesis notServer.2,
        List.flatMap_cons]
      rfl

/-- The loop comes to the first entry of a failed fork. -/
theorem kill_zero_mem {clientProcesses : List Nat} {workers : List ℕ+}
    (notServer : group.server ∉ workers) :
    .kill 0 ∈ shutdownLoop group (workers.map PNat.val ++ 0 :: clientProcesses) := by
  induction workers with
  | nil => exact List.mem_cons_self
  | cons pid workers inductionHypothesis =>
      rw [List.mem_cons, not_or] at notServer
      have other : group.server ∉ recipients group.processes pid.val := by
        rw [recipients_pid]
        exact fun same => notServer.1 (List.mem_singleton.mp same)
      rw [List.map_cons, List.cons_append, shutdownLoop, if_neg other]
      exact List.mem_cons_of_mem _ (List.mem_cons_of_mem _ (inductionHypothesis notServer.2))

end Loop

/-! ### Failed forks -/

theorem processTable_workers (workers : List ℕ+) :
    processTable (workers.map some) = workers.map PNat.val := by
  rw [processTable, List.map_map]
  rfl

theorem reduceOption_workers (workers : List ℕ+) : (workers.map some).reduceOption = workers := by
  rw [List.reduceOption, List.filterMap_map]
  exact List.filterMap_some

/-- Without a failed fork the results are the workers. -/
theorem exists_workers {forkResults : List (Option ℕ+)}
    (succeeded : ∀ result ∈ forkResults, result.isSome = true) :
    ∃ workers : List ℕ+, forkResults = workers.map some := by
  induction forkResults with
  | nil => exact ⟨[], rfl⟩
  | cons result forkResults inductionHypothesis =>
      obtain ⟨isSome, others⟩ := List.forall_mem_cons.mp succeeded
      obtain ⟨pid, rfl⟩ := Option.isSome_iff_exists.mp isSome
      obtain ⟨workers, rfl⟩ := inductionHypothesis others
      exact ⟨pid :: workers, rfl⟩

/-- Before the first fork that fails there are workers only. -/
theorem exists_first_failed {forkResults : List (Option ℕ+)} (failed : none ∈ forkResults) :
    ∃ (workers : List ℕ+) (later : List (Option ℕ+)),
      forkResults = workers.map some ++ none :: later := by
  induction forkResults with
  | nil => cases failed
  | cons result forkResults inductionHypothesis =>
      cases result with
      | none => exact ⟨[], forkResults, rfl⟩
      | some pid =>
          have inRest : none ∈ forkResults :=
            (List.mem_cons.mp failed).resolve_left (Option.some_ne_none pid).symm
          obtain ⟨workers, later, rfl⟩ := inductionHypothesis inRest
          exact ⟨pid :: workers, later, rfl⟩

/-- A failed fork makes the loop signal the group of the server. -/
theorem kill_zero_of_failed {group : ServerGroup} (failed : none ∈ group.forkResults) :
    .kill 0 ∈ group.shutdown := by
  obtain ⟨workers, later, results⟩ := exists_first_failed failed
  have notServer : group.server ∉ workers := by
    intro member
    apply server_notMem_forked group
    rw [ServerGroup.forked, results, List.reduceOption_append, reduceOption_workers]
    exact List.mem_append_left _ member
  have table : processTable group.forkResults =
      workers.map PNat.val ++ 0 :: processTable later := by
    rw [results, ← processTable_workers, processTable, List.map_append]
    rfl
  rw [ServerGroup.shutdown, table]
  exact kill_zero_mem notServer

theorem shutsDownForked_of_workers {group : ServerGroup} {workers : List ℕ+}
    (results : group.forkResults = workers.map some) : ShutsDownForked group := by
  have forked : group.forked = workers := by
    rw [ServerGroup.forked, results, reduceOption_workers]
  have calls : group.shutdown = workers.flatMap fun pid => [.kill pid.val, .waitpid pid.val] := by
    rw [ServerGroup.shutdown, results, processTable_workers]
    exact shutdownLoop_of_workers (forked ▸ server_notMem_forked group)
  constructor
  · intro process
    have sent : signalled group.processes group.shutdown = workers := by
      rw [calls, signalled, List.flatMap_assoc]
      simp [recipients_pid]
    rw [sent, forked]
    exact List.Nodup.count (forked ▸ nodup_forked group)
  · rw [calls, forked, waitedFor, List.filterMap_flatMap]
    simp [List.map_eq_flatMap]
  · rw [calls]
    intro signalsGroup
    obtain ⟨pid, -, isPid⟩ := List.mem_flatMap.mp signalsGroup
    simp [pid.pos.ne] at isPid

/-- The shutdown loop signals each worker that was forked once and waits for it, and
signals nothing else, exactly if no fork failed. -/
theorem shuts_down_forked_iff (group : ServerGroup) :
    ShutsDownForked group ↔ ∀ result ∈ group.forkResults, result.isSome = true := by
  constructor
  · intro shutsDown result member
    by_contra failed
    rw [Option.not_isSome_iff_eq_none] at failed
    exact shutsDown.sparesGroup (kill_zero_of_failed (failed ▸ member))
  · intro succeeded
    obtain ⟨workers, results⟩ := exists_workers succeeded
    exact shutsDownForked_of_workers results

/-- The second of two forks fails: the server and its logger are signalled, and the
server does not come to wait for anything else. -/
theorem failed_fork_signals_own_group : ¬∀ group : ServerGroup, ShutsDownForked group := by
  intro claimed
  have shutsDown := claimed
    { server := 600, logger := 601, forkResults := [some 602, none], others := []
      distinct := by decide }
  exact absurd (shutsDown.signals 601) (by decide)

end Ivos.Http
