/-
Module: Ivos.Http.ConnectionDelivery
Purpose: How many accepted connections are under way, over all interleavings of the
  accepting process and the workers.
Trusted boundary: none
Main exports: Place, Deliveries, deliveryMachine, Agrees, NoWorkerLost,
  outstanding_connections_bounded
-/
import Ivos.Http.Dispatch
import Ivos.Library.Custody
import Mathlib.Data.Finset.Card
import Mathlib.Data.Fintype.Option

namespace Ivos.Http

/-!
`accept` makes a connection, `send_fd` puts its descriptor on the socket pair of a worker,
and `recv_fd` takes it off there.  The connections are numbered in the order of `accept`.
-/

variable {n : Nat}

/-- Where a connection can be. -/
inductive Place (n : Nat) where
  /-- `new_socket` of `run`. -/
  | accepted
  /-- On the socket pair of a worker. -/
  | sent (worker : Fin n)
  /-- `fd` of `handle_communication`. -/
  | served (worker : Fin n)
  /-- The inner loop has ended. -/
  | finished
  /-- Answered with 503 and closed. -/
  | refused
  /-- Closed behind a `send_fd` that failed. -/
  | closed
  /-- With a worker that ended, or taken without its descriptor. -/
  | lost
deriving Repr, DecidableEq

/-- The server, and where the connections are. -/
structure Deliveries (n : Nat) where
  server : Server n
  connections : Custody (Place n)

/-- What a step does to a connection. -/
def transfer (server : Server n) : Event n → Option (Transfer (Place n))
  | .accept => some (.issue .accepted)
  | .mqReceiveFails => some (.move .accepted .refused)
  | .sendFd =>
      match server.parent with
      | .holding pid => some (.move .accepted (.sent pid))
      | _ => none
  | .sendFdFails => some (.move .accepted .closed)
  | .recvFd worker => some (.move (.sent worker) (.served worker))
  | .recvFdNoControl worker => some (.move (.sent worker) .lost)
  | .advertise worker => some (.move (.served worker) .finished)
  | .exit worker => some (.move (.served worker) .lost)
  | .acceptFails | .mqReceive | .recvFdFails _ => none

/-- The server with its connections. -/
def deliveryMachine (n : Nat) : PartialMachine (Deliveries n) (Event n) where
  step deliveries event :=
    (serverStep deliveries.server event).map fun next =>
      { server := next
        connections :=
          (transfer deliveries.server event).elim deliveries.connections
            deliveries.connections.apply }

/-- After `start_client_processes`. -/
def Deliveries.start (forked : Fin n → Bool) : Deliveries n :=
  ⟨startClientProcesses forked, .empty⟩

/-- The state of a process tells how many connections it has. -/
structure Agrees (deliveries : Deliveries n) : Prop where
  accepted : (deliveries.connections.holds .accepted).length =
    if deliveries.server.parent = .accepting then 0 else 1
  sent : ∀ worker, (deliveries.connections.holds (.sent worker)).length =
    deliveries.server.inFlight worker
  served : ∀ worker, (deliveries.connections.holds (.served worker)).length =
    if deliveries.server.workers worker = .serving then 1 else 0

theorem start_agrees (forked : Fin n → Bool) : Agrees (Deliveries.start forked) where
  accepted := rfl
  sent := fun _ => rfl
  served := fun worker => by
    have notServing : (startClientProcesses forked).workers worker ≠ .serving := by
      unfold startClientProcesses
      dsimp only
      split
      · exact Worker.noConfusion
      · exact Worker.noConfusion
    exact (if_neg notServing).symm

/-- One step of a process moves a connection as the state of the process changes. -/
theorem Agrees.step {before after : Deliveries n} {event : Event n} (agrees : Agrees before)
    (stepped : (deliveryMachine n).step before event = some after) : Agrees after := by
  obtain ⟨next, moved, rfl⟩ := Option.map_eq_some_iff.mp stepped
  obtain ⟨accepted, sent, served⟩ := agrees
  unfold serverStep at moved
  cases event with
  | accept =>
      dsimp only at moved
      split at moved
      · rename_i accepting
        cases moved
        rw [accepting] at accepted
        refine ⟨?_, ?_, ?_⟩
        · simp [transfer, Custody.apply, Custody.length_put, accepted]
        · simpa [transfer, Custody.apply, Custody.length_put] using sent
        · simpa [transfer, Custody.apply, Custody.length_put] using served
      · cases moved
  | acceptFails =>
      dsimp only at moved
      split at moved
      · cases moved
        exact ⟨accepted, sent, served⟩
      · cases moved
  | mqReceive =>
      dsimp only at moved
      split at moved
      · rename_i pid available isAccepted queued
        cases moved
        rw [isAccepted] at accepted
        exact ⟨accepted, sent, served⟩
      · cases moved
  | mqReceiveFails =>
      dsimp only at moved
      split at moved
      · rename_i isAccepted
        cases moved
        rw [isAccepted] at accepted
        refine ⟨?_, ?_, ?_⟩
        · simp [transfer, Custody.length_move, accepted]
        · simpa [transfer, Custody.length_move] using sent
        · simpa [transfer, Custody.length_move] using served
      · cases moved
  | sendFd =>
      dsimp only at moved
      split at moved
      · rename_i pid held
        cases moved
        rw [held] at accepted
        refine ⟨?_, ?_, ?_⟩
        · simp [transfer, held, Custody.length_move, accepted]
        · intro worker
          by_cases same : worker = pid
          · subst same
            simp [transfer, held, Custody.length_move, accepted, sent]
          · simp [transfer, held, Custody.length_move, sent, same]
        · simpa [transfer, held, Custody.length_move] using served
      · cases moved
  | sendFdFails =>
      dsimp only at moved
      split at moved
      · rename_i pid held
        cases moved
        rw [held] at accepted
        refine ⟨?_, ?_, ?_⟩
        · simp [transfer, Custody.length_move, accepted]
        · simpa [transfer, Custody.length_move] using sent
        · simpa [transfer, Custody.length_move] using served
      · cases moved
  | recvFd receiver =>
      dsimp only at moved
      split at moved
      · rename_i ready
        cases moved
        obtain ⟨waits, some⟩ := ready
        refine ⟨?_, ?_, ?_⟩
        · have untouched := Custody.length_move before.connections
            (show Place.sent receiver ≠ .served receiver by simp) .accepted
          exact (untouched.trans (by simp)).trans accepted
        · intro worker
          by_cases same : worker = receiver
          · subst same
            simp [transfer, receive, Custody.length_move, sent]
          · simp [transfer, receive, Custody.length_move, sent, same]
        · intro worker
          by_cases same : worker = receiver
          · subst same
            have one : min 1 (before.server.inFlight worker) = 1 := by omega
            simp [transfer, receive, Custody.length_move, sent, served, waits, one]
          · simp [transfer, receive, Custody.length_move, served, same]
      · cases moved
  | recvFdFails receiver =>
      dsimp only at moved
      split at moved
      · cases moved
        exact ⟨accepted, sent, served⟩
      · cases moved
  | recvFdNoControl receiver =>
      dsimp only at moved
      split at moved
      · rename_i ready
        cases moved
        refine ⟨?_, ?_, ?_⟩
        · have untouched := Custody.length_move before.connections
            (show Place.sent receiver ≠ .lost by simp) .accepted
          exact (untouched.trans (by simp)).trans accepted
        · intro worker
          by_cases same : worker = receiver
          · subst same
            simp [transfer, receive, Custody.length_move, sent]
          · simp [transfer, receive, Custody.length_move, sent, same]
        · intro worker
          by_cases same : worker = receiver
          · subst same
            simp [transfer, receive, Custody.length_move, served, ready.1]
          · simp [transfer, receive, Custody.length_move, served, same]
      · cases moved
  | advertise sender =>
      dsimp only at moved
      split at moved
      · rename_i serves
        cases moved
        refine ⟨?_, ?_, ?_⟩
        · simpa [transfer, Custody.length_move] using accepted
        · simpa [transfer, Custody.length_move] using sent
        · intro worker
          by_cases same : worker = sender
          · subst same
            simp [transfer, Custody.length_move, served, serves]
          · simp [transfer, Custody.length_move, served, same]
      · cases moved
  | exit ended =>
      cases moved
      refine ⟨?_, ?_, ?_⟩
      · simpa [transfer, Custody.length_move] using accepted
      · simpa [transfer, Custody.length_move] using sent
      · intro worker
        by_cases same : worker = ended
        · subst same
          have taken : (if before.server.workers worker = .serving then 1 else 0) - 1 = 0 := by
            split <;> rfl
          simp [transfer, Custody.length_move, served, taken]
        · simp [transfer, Custody.length_move, served, same]

/-- One step keeps every connection in one place. -/
theorem kept_step {before after : Deliveries n} {event : Event n}
    (kept : before.connections.Kept)
    (stepped : (deliveryMachine n).step before event = some after) : after.connections.Kept := by
  obtain ⟨next, -, rfl⟩ := Option.map_eq_some_iff.mp stepped
  dsimp only
  cases transfer before.server event with
  | none => exact kept
  | some change => exact kept.apply change

/-- What holds whatever fails. -/
structure Placed (deliveries : Deliveries n) : Prop where
  kept : deliveries.connections.Kept
  agrees : Agrees deliveries

theorem Placed.step {before after : Deliveries n} {event : Event n} (placed : Placed before)
    (stepped : (deliveryMachine n).step before event = some after) : Placed after :=
  ⟨kept_step placed.kept stepped, placed.agrees.step stepped⟩

/-! ### How many connections are under way -/

/-- Every descriptor arrives, and no worker ends. -/
def NoWorkerLost (server : Deliveries n) (event : Event n) : Prop :=
  GetsControlMessage server.server event ∧ ∀ worker, event ≠ .exit worker

instance (deliveries : Deliveries n) (event : Event n) :
    Decidable (NoWorkerLost deliveries event) := by
  unfold NoWorkerLost
  infer_instance

/-- A worker that does not run is not advertised, and nothing is sent to it. -/
def OnlyLiveEngaged (server : Server n) : Prop :=
  ∀ worker, server.workers worker = .gone →
    worker ∉ server.available ∧ server.parent ≠ .holding worker ∧ server.inFlight worker = 0

theorem onlyLiveEngaged_step {before after : Server n} {event : Event n}
    (engaged : OnlyLiveEngaged before) (stays : ∀ worker, event ≠ .exit worker)
    (stepped : serverStep before event = some after) : OnlyLiveEngaged after := by
  unfold serverStep at stepped
  cases event with
  | accept | mqReceiveFails =>
      dsimp only at stepped
      split at stepped
      · cases stepped
        intro worker gone
        obtain ⟨notQueued, -, nothing⟩ := engaged worker gone
        exact ⟨notQueued, (fun held => by cases held), nothing⟩
      · cases stepped
  | acceptFails | recvFdFails _ =>
      dsimp only at stepped
      split at stepped
      · cases stepped
        exact engaged
      · cases stepped
  | mqReceive =>
      dsimp only at stepped
      split at stepped
      · rename_i pid available accepted queued
        cases stepped
        intro worker gone
        obtain ⟨notQueued, -, nothing⟩ := engaged worker gone
        rw [queued, List.mem_cons, not_or] at notQueued
        exact ⟨notQueued.2, fun held => notQueued.1 (Parent.holding.inj held).symm, nothing⟩
      · cases stepped
  | sendFd =>
      dsimp only at stepped
      split at stepped
      · rename_i pid held
        cases stepped
        intro worker gone
        obtain ⟨notQueued, notHeld, nothing⟩ := engaged worker gone
        have different : worker ≠ pid := fun same => notHeld (same ▸ held)
        exact ⟨notQueued, (fun held => by cases held),
          (Function.update_of_ne different ..).trans nothing⟩
      · cases stepped
  | sendFdFails =>
      dsimp only at stepped
      split at stepped
      · rename_i pid held
        cases stepped
        intro worker gone
        obtain ⟨notQueued, notHeld, nothing⟩ := engaged worker gone
        have different : worker ≠ pid := fun same => notHeld (same ▸ held)
        refine ⟨?_, (fun held => by cases held), nothing⟩
        rw [List.mem_append, List.mem_singleton, not_or]
        exact ⟨notQueued, different⟩
      · cases stepped
  | recvFd receiver | recvFdNoControl receiver =>
      dsimp only at stepped
      split at stepped
      · rename_i ready
        cases stepped
        intro worker gone
        have different : worker ≠ receiver := by
          rintro rfl
          simp [receive] at gone
        obtain ⟨notQueued, notHeld, nothing⟩ :=
          engaged worker ((Function.update_of_ne different ..).symm.trans gone)
        exact ⟨notQueued, notHeld, (Function.update_of_ne different ..).trans nothing⟩
      · cases stepped
  | advertise sender =>
      dsimp only at stepped
      split at stepped
      · cases stepped
        intro worker gone
        have different : worker ≠ sender := by
          rintro rfl
          simp at gone
        obtain ⟨notQueued, notHeld, nothing⟩ :=
          engaged worker ((Function.update_of_ne different ..).symm.trans gone)
        refine ⟨?_, notHeld, nothing⟩
        rw [List.mem_append, List.mem_singleton, not_or]
        exact ⟨notQueued, different⟩
      · cases stepped
  | exit ended => exact absurd rfl (stays ended)

theorem start_onlyLiveEngaged (forked : Fin n → Bool) :
    OnlyLiveEngaged (startClientProcesses forked) := by
  intro worker gone
  have notForked : forked worker = false := by
    by_contra isForked
    simp [startClientProcesses, isForked] at gone
  refine ⟨?_, (fun held => by cases held), rfl⟩
  simp [startClientProcesses, notForked]

/-- No worker has more than one connection on its way or in service. -/
theorem engaged_at_most_one {deliveries : Deliveries n} (agrees : Agrees deliveries)
    (situated : AllSituated deliveries.server) (engaged : OnlyLiveEngaged deliveries.server)
    (worker : Fin n) :
    (deliveries.connections.holds (.sent worker)).length +
      (deliveries.connections.holds (.served worker)).length ≤ 1 := by
  rw [agrees.sent, agrees.served]
  by_cases gone : deliveries.server.workers worker = .gone
  · simp [gone, (engaged worker gone).2.2]
  · cases situated worker gone with
    | advertised _ _ nothing waits => simp [nothing, waits]
    | taken _ _ nothing waits => simp [nothing, waits]
    | dispatched _ _ one waits => simp [one, waits]
    | serving _ _ nothing serves => simp [nothing, serves]

/-- Nothing gets lost while no worker is. -/
theorem lost_step {before after : Deliveries n} {event : Event n}
    (nothing : before.connections.holds .lost = []) (permitted : NoWorkerLost before event)
    (stepped : (deliveryMachine n).step before event = some after) :
    after.connections.holds .lost = [] := by
  obtain ⟨next, -, rfl⟩ := Option.map_eq_some_iff.mp stepped
  rw [← List.length_eq_zero_iff] at nothing ⊢
  dsimp only
  cases event with
  | accept => simpa [transfer, Custody.apply, Custody.length_put] using nothing
  | acceptFails | mqReceive | recvFdFails _ => exact nothing
  | mqReceiveFails | sendFdFails | recvFd _ | advertise _ =>
      simpa [transfer, Custody.length_move] using nothing
  | sendFd =>
      unfold transfer
      cases before.server.parent with
      | holding pid => simpa [Custody.length_move] using nothing
      | accepting | accepted => exact nothing
  | recvFdNoControl worker => exact absurd rfl (permitted.1 worker)
  | exit worker => exact absurd rfl (permitted.2 worker)

/-- What the accepting process or a worker has in hand. -/
def underWay (deliveries : Deliveries n) : Option (Fin n) → List Nat
  | none => deliveries.connections.holds .accepted
  | some worker =>
      deliveries.connections.holds (.sent worker) ++ deliveries.connections.holds (.served worker)

theorem eq_of_length_le_one {items : List Nat} (short : items.length ≤ 1) {first second : Nat}
    (inFirst : first ∈ items) (inSecond : second ∈ items) : first = second := by
  match items, short with
  | [], _ => cases inFirst
  | [item], _ => exact (List.mem_singleton.mp inFirst).trans (List.mem_singleton.mp inSecond).symm

/-- A connection that is not done with is in one of the hands. -/
theorem exists_underWay {deliveries : Deliveries n} (kept : deliveries.connections.Kept)
    (nothing : deliveries.connections.holds .lost = []) {connection : Nat}
    (issued : connection < deliveries.connections.issued)
    (notFinished : connection ∉ deliveries.connections.holds .finished)
    (notRefused : connection ∉ deliveries.connections.holds .refused)
    (notClosed : connection ∉ deliveries.connections.holds .closed) :
    ∃ hand, connection ∈ underWay deliveries hand := by
  obtain ⟨place, inside⟩ := kept.somewhere connection issued
  cases place with
  | accepted => exact ⟨none, inside⟩
  | sent worker => exact ⟨some worker, List.mem_append_left _ inside⟩
  | served worker => exact ⟨some worker, List.mem_append_right _ inside⟩
  | finished => exact absurd inside notFinished
  | refused => exact absurd inside notRefused
  | closed => exact absurd inside notClosed
  | lost =>
      rw [nothing] at inside
      cases inside

/-- What holds while no worker is lost. -/
structure Orderly (deliveries : Deliveries n) : Prop extends Placed deliveries where
  tokens : OneToken deliveries.server
  engaged : OnlyLiveEngaged deliveries.server
  nothing : deliveries.connections.holds .lost = []

theorem start_orderly (forked : Fin n → Bool) : Orderly (Deliveries.start forked) where
  kept := Custody.kept_empty
  agrees := start_agrees forked
  tokens := startClientProcesses_oneToken forked
  engaged := start_onlyLiveEngaged forked
  nothing := rfl

theorem Orderly.step {before after : Deliveries n} {event : Event n} (orderly : Orderly before)
    (permitted : NoWorkerLost before event)
    (stepped : (deliveryMachine n).step before event = some after) : Orderly after := by
  obtain ⟨next, moved, isAfter⟩ := Option.map_eq_some_iff.mp stepped
  have isNext : after.server = next := by rw [← isAfter]
  refine ⟨orderly.toPlaced.step stepped, ?_, ?_,
    lost_step orderly.nothing permitted stepped⟩
  · rw [isNext]
    intro worker live
    obtain ⟨wasLive, same⟩ := tokens_step permitted.1 moved live
    rw [same]
    exact orderly.tokens worker wasLive
  · rw [isNext]
    exact onlyLiveEngaged_step orderly.engaged permitted.2 moved

/-- No hand has two connections. -/
theorem Orderly.underWay_short {deliveries : Deliveries n} (orderly : Orderly deliveries)
    (hand : Option (Fin n)) : (underWay deliveries hand).length ≤ 1 := by
  cases hand with
  | none =>
      refine Nat.le_trans (Nat.le_of_eq orderly.agrees.accepted) ?_
      split
      · exact Nat.zero_le 1
      · exact Nat.le_refl 1
  | some worker =>
      have situated : AllSituated deliveries.server := fun worker live =>
        (situated_iff live).mpr (orderly.tokens worker live)
      have bounded := engaged_at_most_one orderly.agrees situated orderly.engaged worker
      rwa [← List.length_append] at bounded

/-- While every descriptor arrives and no worker ends, no worker ever has two connections,
and at most one connection for each worker and one more are neither finished nor refused nor
closed. -/
theorem outstanding_connections_bounded (forked : Fin n → Bool) (deliveries : Deliveries n)
    (reached : (deliveryMachine n).Reached NoWorkerLost (Deliveries.start forked) deliveries) :
    (∀ worker, (deliveries.connections.holds (.sent worker)).length +
        (deliveries.connections.holds (.served worker)).length ≤ 1) ∧
      deliveries.connections.issued ≤ (deliveries.connections.holds .finished).length +
        (deliveries.connections.holds .refused).length +
        (deliveries.connections.holds .closed).length + n + 1 := by
  have orderly : Orderly deliveries :=
    reached.invariant (start_orderly forked) fun _ _ _ holds permitted stepped =>
      holds.step permitted stepped
  let holds := deliveries.connections.holds
  refine ⟨fun worker => ?_, ?_⟩
  · have short := orderly.underWay_short (some worker)
    rwa [← List.length_append]
  · let done := (holds .finished).toFinset ∪ (holds .refused).toFinset ∪ (holds .closed).toFinset
    let pending := Finset.range deliveries.connections.issued \ done
    have inHand : ∀ connection ∈ pending, ∃ hand, connection ∈ underWay deliveries hand := by
      intro connection isPending
      rw [Finset.mem_sdiff, Finset.mem_range] at isPending
      simp only [done, Finset.mem_union, List.mem_toFinset, not_or] at isPending
      exact exists_underWay orderly.kept orderly.nothing isPending.1 isPending.2.1.1
        isPending.2.1.2 isPending.2.2
    choose! hand hasHand using inHand
    have different : Set.InjOn hand pending := by
      intro first isFirst second isSecond sameHand
      have inFirst := hasHand first isFirst
      rw [sameHand] at inFirst
      exact eq_of_length_le_one (orderly.underWay_short _) inFirst (hasHand second isSecond)
    have few : pending.card ≤ n + 1 := by
      have mapped := Finset.card_le_card_of_injOn hand (fun _ _ => Finset.mem_univ _) different
      rwa [Finset.card_univ, Fintype.card_option, Fintype.card_fin] at mapped
    have doneCard : done.card ≤ (holds .finished).length + (holds .refused).length +
        (holds .closed).length :=
      (Finset.card_union_le _ _).trans (Nat.add_le_add
        ((Finset.card_union_le _ _).trans
          (Nat.add_le_add (List.toFinset_card_le _) (List.toFinset_card_le _)))
        (List.toFinset_card_le _))
    calc deliveries.connections.issued
        = (Finset.range deliveries.connections.issued).card := (Finset.card_range _).symm
      _ ≤ pending.card + done.card := Finset.card_le_card_sdiff_add_card
      _ ≤ (n + 1) + ((holds .finished).length + (holds .refused).length +
            (holds .closed).length) := Nat.add_le_add few doneCard
      _ = _ := by
            unfold holds
            omega

/-- A connection served to its end, and one under way. -/
theorem two_connections_delivered : ∃ deliveries : Deliveries 2,
    deliveries.connections.holds .finished = [0] ∧
      (∀ worker, (deliveries.connections.holds (.sent worker)).length +
          (deliveries.connections.holds (.served worker)).length ≤ 1) ∧
      deliveries.connections.issued ≤ (deliveries.connections.holds .finished).length +
        (deliveries.connections.holds .refused).length +
        (deliveries.connections.holds .closed).length + 2 + 1 := by
  obtain ⟨deliveries, reached, finished⟩ := PartialMachine.exists_reached_of_any
    (deliveryMachine 2) NoWorkerLost (Deliveries.start fun _ => true)
    [.accept, .mqReceive, .sendFd, .recvFd 0, .accept, .mqReceive, .sendFd, .advertise 0]
    (fun deliveries : Deliveries 2 => deliveries.connections.holds .finished = [0]) (by decide)
  exact ⟨deliveries, finished,
    outstanding_connections_bounded (fun _ => true) deliveries reached⟩

end Ivos.Http
