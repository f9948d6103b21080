/-
Module: Ivos.Http.PidTokens
Purpose: The dispatch of connections by pid seen as the dispatch by the index of the
  worker, when nothing was left in `/available`, and the token of each live worker.
Trusted boundary: none
Main exports: IsPidOf, Represents, NothingLost, dispatch_simulates, live_pids_once
-/
import Ivos.Http.StalePids
import Ivos.Library.ForwardSimulation

namespace Ivos.Http

/-! ### Pids and workers

`run` works with pids and looks them up in its table.  When the queue holds pids of this run
only and no two workers have the same one, the pids stand for the workers.
-/

/-- `fork` returned this pid for the worker. -/
def IsPidOf (launch : Launch) (pid : ℕ+) (worker : Fin launch.maxConnections) : Prop :=
  launch.forkResults.get worker = some pid

/-- The parent stands at the same place, with the worker whose pid it has received. -/
inductive SameParent (launch : Launch) : Dispatching → Parent launch.maxConnections → Prop where
  | accepting : SameParent launch .accepting .accepting
  | accepted : SameParent launch .accepted .accepted
  | received {pid : ℕ+} {worker : Fin launch.maxConnections} (isPid : IsPidOf launch pid worker) :
      SameParent launch (.received pid) (.holding worker)

/-- The state by pids is the state by workers. -/
structure Represents (launch : Launch) (server : Dispatcher)
    (seen : Server launch.maxConnections) : Prop where
  table : server.clientProcesses = processTable launch.forkResults
  parent : SameParent launch server.parent seen.parent
  available : List.Forall₂ (IsPidOf launch) server.available seen.available
  inFlight : ∀ worker : Fin launch.maxConnections,
    server.inFlight worker = seen.inFlight worker
  workers : ∀ worker : Fin launch.maxConnections, server.workers worker = seen.workers worker
  others : ∀ i, launch.maxConnections ≤ i → server.workers i = .gone

/-- No `mq_send` is interrupted, and every dispatch carries its descriptor. -/
def NothingLost (_ : Dispatcher) : DispatchEvent → Prop
  | .sendFdFails requeued => requeued = true
  | .advertise _ queued => queued = true
  | .recvFdNoControl _ => False
  | .accept | .acceptFails | .mqReceive | .mqReceiveFails | .sendFd | .recvFd _ | .recvFdFails _
  | .exit _ => True

/-- The search in the table of distinct pids ends at the worker. -/
theorem idxOf_processTable {forkResults : List (Option ℕ+)}
    (unique : forkResults.reduceOption.Nodup) {pid : ℕ+} {i : Nat}
    (isPid : forkResults[i]? = some (some pid)) :
    (processTable forkResults).idxOf pid.val = i := by
  induction forkResults generalizing i with
  | nil => simp at isPid
  | cons result rounds inductionHypothesis =>
      cases i with
      | zero =>
          cases Option.some.inj isPid
          exact List.idxOf_cons_self
      | succ i =>
          have later : rounds[i]? = some (some pid) := isPid
          have member : pid ∈ rounds.reduceOption :=
            List.reduceOption_mem_iff.mpr (List.mem_of_getElem? later)
          cases result with
          | none =>
              have other : (0 : Nat) ≠ pid.val := pid.pos.ne
              rw [List.reduceOption_cons_of_none] at unique
              show (0 :: processTable rounds).idxOf pid.val = i + 1
              rw [List.idxOf_cons_ne _ other, inductionHypothesis unique later]
          | some first =>
              rw [List.reduceOption_cons_of_some, List.nodup_cons] at unique
              have other : first.val ≠ pid.val :=
                fun same => unique.1 (PNat.eq same ▸ member)
              show (first.val :: processTable rounds).idxOf pid.val = i + 1
              rw [List.idxOf_cons_ne _ other, inductionHypothesis unique.2 later]

section Pids

variable {launch : Launch} {pid other : ℕ+} {worker another : Fin launch.maxConnections}

theorem IsPidOf.getElem? (isPid : IsPidOf launch pid worker) :
    launch.forkResults[worker.val]? = some (some pid) :=
  List.getElem?_eq_some_iff.mpr ⟨worker.isLt, isPid⟩

theorem isPidOf_of_join {i : Nat} (isPid : launch.forkResults[i]?.join = some pid) :
    ∃ worker : Fin launch.maxConnections, worker.val = i ∧ IsPidOf launch pid worker := by
  obtain ⟨inside, found⟩ := List.getElem?_eq_some_iff.mp (Option.join_eq_some_iff.mp isPid)
  exact ⟨⟨i, inside⟩, rfl, found⟩

/-- The pid that is looked up is that of the worker at the index found. -/
theorem IsPidOf.clientIndex (isPid : IsPidOf launch pid worker) (unique : launch.forked.Nodup)
    {server : Dispatcher} (table : server.clientProcesses = processTable launch.forkResults) :
    server.clientIndex pid = worker := by
  rw [Dispatcher.clientIndex, table]
  exact idxOf_processTable unique isPid.getElem?

theorem IsPidOf.eq_iff (isPid : IsPidOf launch pid worker) (unique : launch.forked.Nodup)
    (isOther : IsPidOf launch other another) : pid = other ↔ worker = another := by
  constructor
  · rintro rfl
    have index := idxOf_processTable unique isPid.getElem?
    exact Fin.ext (index.symm.trans (idxOf_processTable unique isOther.getElem?))
  · rintro rfl
    exact Option.some.inj (isPid.symm.trans isOther)

/-- A pid is queued as often as its worker. -/
theorem count_eq {pids : List ℕ+} {workers : List (Fin launch.maxConnections)}
    (same : List.Forall₂ (IsPidOf launch) pids workers) (unique : launch.forked.Nodup)
    (isPid : IsPidOf launch pid worker) : pids.count pid = workers.count worker := by
  induction same with
  | nil => rfl
  | cons isFirst _ inductionHypothesis =>
      simp only [List.count_cons, beq_iff_eq, isFirst.eq_iff unique isPid, inductionHypothesis]

end Pids

/-! ### Steps -/

namespace SameParent

variable {launch : Launch} {there : Parent launch.maxConnections}

theorem eq_accepting (same : SameParent launch .accepting there) : there = .accepting := by
  cases same
  rfl

theorem eq_accepted (same : SameParent launch .accepted there) : there = .accepted := by
  cases same
  rfl

theorem exists_holding {pid : ℕ+} (same : SameParent launch (.received pid) there) :
    ∃ worker, there = .holding worker ∧ IsPidOf launch pid worker := by
  cases same with
  | received isPid => exact ⟨_, rfl, isPid⟩

theorem received_iff {here : Dispatching} (same : SameParent launch here there)
    (unique : launch.forked.Nodup) {pid : ℕ+} {worker : Fin launch.maxConnections}
    (isPid : IsPidOf launch pid worker) : here = .received pid ↔ there = .holding worker := by
  cases same with
  | accepting | accepted => simp
  | received isOther =>
      rw [Dispatching.received.injEq, Parent.holding.injEq]
      exact isOther.eq_iff unique isPid

end SameParent

/-- A change at one worker is the same by its number and by its index. -/
theorem update_agrees {n : Nat} {Value : Type} {here : Nat → Value} {there : Fin n → Value}
    (agree : ∀ worker : Fin n, here worker = there worker) (changed : Fin n) (value : Value)
    (worker : Fin n) :
    Function.update here changed value worker = Function.update there changed value worker := by
  by_cases same : worker = changed
  · subst same
    simp
  · have different : worker.val ≠ changed.val := fun equal => same (Fin.ext equal)
    simp [same, different, agree]

namespace Represents

variable {launch : Launch} {before after : Dispatcher} {seen : Server launch.maxConnections}

/-- The parent moves on. -/
theorem setParent (represents : Represents launch before seen) {here : Dispatching}
    {there : Parent launch.maxConnections} (same : SameParent launch here there) :
    Represents launch { before with parent := here } { seen with parent := there } :=
  ⟨represents.table, same, represents.available, represents.inFlight, represents.workers,
    represents.others⟩

/-- A worker moves on. -/
theorem setWorker (represents : Represents launch before seen)
    (worker : Fin launch.maxConnections) (next : Worker) :
    Represents launch { before with workers := Function.update before.workers worker next }
      { seen with workers := Function.update seen.workers worker next } := by
  refine ⟨represents.table, represents.parent, represents.available, represents.inFlight,
    update_agrees represents.workers worker next, fun i behind => ?_⟩
  have different : i ≠ worker.val := by omega
  simp [different, represents.others i behind]

/-- A dispatch goes into a socket pair or comes out of it. -/
theorem setInFlight (represents : Represents launch before seen)
    (worker : Fin launch.maxConnections) (number : Nat) :
    Represents launch { before with inFlight := Function.update before.inFlight worker number }
      { seen with inFlight := Function.update seen.inFlight worker number } :=
  ⟨represents.table, represents.parent, represents.available,
    update_agrees represents.inFlight worker number, represents.workers, represents.others⟩

/-- The pid and the worker are queued. -/
theorem mqSend (represents : Represents launch before seen) {capacity : Nat} {pid : ℕ+}
    {worker : Fin launch.maxConnections} (isPid : IsPidOf launch pid worker)
    (sent : before.mqSend capacity pid = some after) :
    Represents launch after { seen with available := seen.available ++ [worker] } := by
  unfold Dispatcher.mqSend at sent
  split at sent
  · cases sent
    exact ⟨represents.table, represents.parent,
      List.rel_append represents.available (.cons isPid .nil), represents.inFlight,
      represents.workers, represents.others⟩
  · cases sent

/-- A worker that is not gone is one of those of the launch. -/
theorem exists_worker (represents : Represents launch before seen) {i : Nat}
    (live : before.workers i ≠ .gone) :
    ∃ worker : Fin launch.maxConnections, worker.val = i := by
  by_contra none
  refine live (represents.others i ?_)
  by_contra inside
  exact none ⟨⟨i, by omega⟩, rfl⟩

end Represents

/-- Steps by pids are steps by workers. -/
theorem dispatch_simulates (launch : Launch) (unique : launch.forked.Nodup) :
    Simulates (dispatchMachine launch) NothingLost (serverMachine launch.maxConnections)
      GetsControlMessage (Represents launch) where
  step := by
    intro before after event seen represents allowed stepped
    -- one step of the workers' machine
    have matched {next : Server launch.maxConnections} (step : Event launch.maxConnections)
        (control : ∀ worker, step ≠ .recvFdNoControl worker)
        (answers : serverStep seen step = some next) (kept : Represents launch after next) :
        ∃ next, (serverMachine launch.maxConnections).Reached GetsControlMessage seen next ∧
          Represents launch after next :=
      ⟨next, .step .start control answers, kept⟩
    have parent := represents.parent
    simp only [dispatchMachine, dispatchStep] at stepped
    cases event with
    | accept =>
        dsimp only at stepped
        split at stepped
        · rename_i accepting
          cases stepped
          rw [accepting] at parent
          exact matched .accept (by simp) (if_pos parent.eq_accepting)
            (represents.setParent .accepted)
        · cases stepped
    | acceptFails =>
        dsimp only at stepped
        split at stepped
        · rename_i accepting
          cases stepped
          exact ⟨seen, .start, represents⟩
        · cases stepped
    | mqReceive =>
        dsimp only at stepped
        split at stepped
        · rename_i pid available accepted queued
          cases stepped
          rw [accepted] at parent
          have pids := represents.available
          rw [queued] at pids
          obtain ⟨worker, rest, isPid, others, front⟩ := List.forall₂_cons_left_iff.mp pids
          have kept : Represents launch
              { before with parent := .received pid, available := available }
              { seen with parent := .holding worker, available := rest } :=
            ⟨represents.table, .received isPid, others, represents.inFlight, represents.workers,
              represents.others⟩
          exact matched .mqReceive (by simp)
            (by simp only [serverStep, parent.eq_accepted, front]) kept
        · cases stepped
    | mqReceiveFails =>
        dsimp only at stepped
        split at stepped
        · rename_i accepted
          cases stepped
          rw [accepted] at parent
          exact matched .mqReceiveFails (by simp) (if_pos parent.eq_accepted)
            (represents.setParent .accepting)
        · cases stepped
    | sendFd =>
        dsimp only at stepped
        split at stepped
        · rename_i pid received
          rw [received] at parent
          obtain ⟨worker, holding, isPid⟩ := parent.exists_holding
          rw [isPid.clientIndex unique represents.table, if_pos worker.isLt] at stepped
          cases stepped
          have kept := (represents.setInFlight worker (before.inFlight worker + 1)).setParent
            .accepting
          exact matched .sendFd (by simp)
            (by simp only [serverStep, holding, represents.inFlight worker]) kept
        · cases stepped
    | sendFdFails requeued =>
        cases allowed
        dsimp only at stepped
        split at stepped
        · rename_i pid received
          rw [received] at parent
          obtain ⟨worker, holding, isPid⟩ := parent.exists_holding
          rw [isPid.clientIndex unique represents.table, if_pos worker.isLt] at stepped
          exact matched .sendFdFails (by simp) (by simp only [serverStep, holding])
            ((represents.setParent .accepting).mqSend isPid stepped)
        · cases stepped
    | recvFd i =>
        dsimp only at stepped
        split at stepped
        · rename_i ready
          cases stepped
          obtain ⟨worker, rfl⟩ := represents.exists_worker (i := i) (by simp [ready.1])
          rw [represents.workers, represents.inFlight] at ready
          refine matched (.recvFd worker) (by simp) (if_pos ready) ?_
          rw [represents.inFlight worker]
          exact (represents.setInFlight worker _).setWorker worker .serving
        · cases stepped
    | recvFdFails i =>
        dsimp only at stepped
        split at stepped
        · cases stepped
          exact ⟨seen, .start, represents⟩
        · cases stepped
    | recvFdNoControl i => exact allowed.elim
    | advertise i queued =>
        cases allowed
        dsimp only at stepped
        split at stepped
        · cases stepped
        · rename_i pid forked
          obtain ⟨worker, rfl, isPid⟩ := isPidOf_of_join forked
          split at stepped
          · rename_i serves
            rw [represents.workers] at serves
            exact matched (.advertise worker) (by simp) (if_pos serves)
              ((represents.setWorker worker .waiting).mqSend isPid stepped)
          · cases stepped
    | exit i =>
        cases stepped
        by_cases inside : i < launch.maxConnections
        · exact matched (.exit ⟨i, inside⟩) (by simp) rfl
            (represents.setWorker ⟨i, inside⟩ .gone)
        · refine ⟨seen, .start, represents.table, represents.parent, represents.available,
            represents.inFlight, fun worker => ?_, fun other behind => ?_⟩
          · have different : worker.val ≠ i := by omega
            simp [different, represents.workers]
          · by_cases same : other = i
            · simp [same]
            · simp [same, represents.others other behind]
/-! ### The start and the tokens -/

/-- Beside each pid that was forked stands its worker. -/
theorem forall₂_filterMap {Item Value : Type} (found : Item → Option Value) (items : List Item) :
    List.Forall₂ (fun value item => found item = some value) (items.filterMap found)
      (items.filter fun item => (found item).isSome) := by
  induction items with
  | nil => exact .nil
  | cons item items inductionHypothesis =>
      cases result : found item with
      | none =>
          rw [List.filterMap_cons_none result, List.filter_cons_of_neg (by simp [result])]
          exact inductionHypothesis
      | some value =>
          rw [List.filterMap_cons_some result, List.filter_cons_of_pos (by simp [result])]
          exact .cons result inductionHypothesis

theorem reduceOption_eq_filterMap {Value : Type} (results : List (Option Value)) :
    results.reduceOption = (List.finRange results.length).filterMap results.get := by
  conv_lhs => rw [← List.map_get_finRange results]
  exact List.filterMap_map

/-- The workers that were forked. -/
def Launch.isForked (launch : Launch) (worker : Fin launch.maxConnections) : Bool :=
  (launch.forkResults.get worker).isSome

/-- With nothing left in the queue the server starts with its own workers. -/
theorem startClientProcesses_represents {launch : Launch} (fresh : launch.left = [])
    {start : Dispatcher} (started : launch.startClientProcesses = some start) :
    Represents launch start (startClientProcesses launch.isForked) := by
  obtain ⟨⟨clientProcesses, available⟩, rounds, rfl⟩ := Option.map_eq_some_iff.mp started
  rw [startRounds_eq _ _ _ _ launch.room, fresh] at rounds
  split at rounds
  · cases rounds
    refine ⟨rfl, .accepting, ?_, fun _ => rfl, fun worker => ?_, fun i behind => ?_⟩
    · show List.Forall₂ (IsPidOf launch) ([] ++ launch.forkResults.reduceOption) _
      rw [List.nil_append, reduceOption_eq_filterMap]
      exact forall₂_filterMap launch.forkResults.get _
    · have found : launch.forkResults[worker.val]? = some (launch.forkResults.get worker) :=
        List.getElem?_eq_getElem worker.isLt
      simp only [found, Option.join_some]
      rfl
    · have none : launch.forkResults[i]? = none := List.getElem?_eq_none behind
      simp [none]
  · cases rounds

/-- By its pid, exactly one token stands for every live worker, if nothing was left in
`/available`, the workers have pids of their own, and no message is lost: its pid in the
queue or in the parent's hand, a dispatch in its socket pair, or the connection it serves. -/
theorem live_pids_once {launch : Launch} (fresh : launch.left = [])
    (unique : launch.forked.Nodup) {start server : Dispatcher}
    (started : launch.startClientProcesses = some start)
    (reached : (dispatchMachine launch).Reached NothingLost start server) {i : Nat} {pid : ℕ+}
    (forked : launch.forkResults[i]?.join = some pid) (live : server.workers i ≠ .gone) :
    server.available.count pid + (if server.parent = .received pid then 1 else 0) +
      server.inFlight i + (if server.workers i = .serving then 1 else 0) = 1 := by
  obtain ⟨worker, rfl, isPid⟩ := isPidOf_of_join forked
  obtain ⟨seen, matched, represents⟩ := (dispatch_simulates launch unique).reached
    (startClientProcesses_represents fresh started) reached
  have liveThere : seen.workers worker ≠ .gone := represents.workers worker ▸ live
  have one := (situated_iff liveThere).mp
    (workers_situated launch.isForked seen matched worker liveThere)
  have held : server.parent = .received pid ↔ seen.parent = .holding worker :=
    represents.parent.received_iff unique isPid
  refine Eq.trans ?_ one
  rw [count_eq represents.available unique isPid, represents.inFlight worker,
    represents.workers worker]
  simp only [Server.tokens, Server.held, Server.busy, held]

end Ivos.Http
