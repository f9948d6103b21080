/-
Module: Ivos.Http.DescriptorPassing
Purpose: The descriptors of connections in the accepting process, on the socket pairs and
  in the workers, over all interleavings, and where they put each connection.
Trusted boundary: none
Main exports: Treatment, Handover, handoverStep, handoverMachine, Handover.At, Course,
  Tracked, every_connection_in_one_place
-/
import Ivos.Http.ConnectionDelivery

namespace Ivos.Http

/-!
The variables and descriptors behind the events of the server.  `run` holds what `accept`
returned in `new_socket`.  `send_fd` puts a copy of that descriptor on the socket pair of a
worker and leaves the accepting process its own, which nothing closes afterwards; `recv_fd`
takes the oldest copy off, and the `Client` made from it closes it.  A descriptor is
represented by the connection it refers to, and the connections are numbered in the order of
`accept`.

When a worker ends, the kernel closes its descriptors and throws away what is still on its
socket pair, because the accepting process has closed its own copy of that end; from then on
`sendmsg` to it does not succeed.
-/

variable {n : Nat}

/-- What a call of one of the processes does with a connection. -/
inductive Treatment (n : Nat) where
  /-- Answered with 503 and closed. -/
  | refused
  /-- Closed behind a `send_fd` that failed. -/
  | sendFails
  | sent (worker : Fin n)
  | received (worker : Fin n)
  /-- `recvmsg` returns without its control message. -/
  | dropped (worker : Fin n)
  /-- `Client::close`. -/
  | closed (worker : Fin n)
  /-- The worker ends, and the kernel closes the descriptor. -/
  | ended (worker : Fin n)
deriving Repr, DecidableEq

/-- The server with the descriptors of connections. -/
structure Handover (n : Nat) where
  server : Server n
  /-- How many connections `accept` has returned. -/
  accepted : Nat
  newSocket : Nat
  /-- What the accepting process has a descriptor of. -/
  parentOpen : Finset Nat
  /-- What lies on the socket pair of a worker, oldest first. -/
  pairs : Fin n → List Nat
  /-- `fd` of `handle_communication`. -/
  fd : Fin n → Nat
  workerOpen : Fin n → Finset Nat
  /-- What has been done with each connection, in that order. -/
  treatments : Nat → List (Treatment n)

/-- After `start_client_processes`. -/
def Handover.start (forked : Fin n → Bool) : Handover n where
  server := startClientProcesses forked
  accepted := 0
  newSocket := 0
  parentOpen := ∅
  pairs := fun _ => []
  fd := fun _ => 0
  workerOpen := fun _ => ∅
  treatments := fun _ => []

namespace Handover

variable (handover : Handover n)

def treat (connection : Nat) (treatment : Treatment n) : Handover n :=
  { handover with
    treatments := Function.update handover.treatments connection
      (handover.treatments connection ++ [treatment]) }

/-- `accept` returns a new socket. -/
def acceptSocket : Handover n :=
  { handover with
    accepted := handover.accepted + 1
    newSocket := handover.accepted
    parentOpen := insert handover.accepted handover.parentOpen }

/-- `run` closes its socket. -/
def closeSocket (treatment : Treatment n) : Handover n :=
  let closed := { handover with parentOpen := handover.parentOpen.erase handover.newSocket }
  closed.treat handover.newSocket treatment

/-- `sendmsg` puts a copy of the socket on a socket pair. -/
def sendSocket (worker : Fin n) : Handover n :=
  let pair := handover.pairs worker ++ [handover.newSocket]
  let copied := { handover with pairs := Function.update handover.pairs worker pair }
  copied.treat handover.newSocket (.sent worker)

/-- `recvmsg` takes the oldest dispatch off a socket pair. -/
def takeOff (worker : Fin n) (rest : List Nat) : Handover n :=
  { handover with pairs := Function.update handover.pairs worker rest }

/-- `recv_fd` returns its descriptor. -/
def install (worker : Fin n) (connection : Nat) : Handover n :=
  let descriptors := insert connection (handover.workerOpen worker)
  let installed := { handover with
    fd := Function.update handover.fd worker connection
    workerOpen := Function.update handover.workerOpen worker descriptors }
  installed.treat connection (.received worker)

/-- `Client::close`. -/
def closeClient (worker : Fin n) : Handover n :=
  let descriptors := (handover.workerOpen worker).erase (handover.fd worker)
  let closed := { handover with
    workerOpen := Function.update handover.workerOpen worker descriptors }
  closed.treat (handover.fd worker) (.closed worker)

/-- The kernel closes what a worker leaves behind. -/
def endWorker (worker : Fin n) : Handover n :=
  { handover with
    pairs := Function.update handover.pairs worker []
    workerOpen := Function.update handover.workerOpen worker ∅
    treatments := fun connection =>
      if connection ∈ handover.pairs worker ∨ connection ∈ handover.workerOpen worker then
        handover.treatments connection ++ [.ended worker]
      else handover.treatments connection }

end Handover

/-- One step of the server on its descriptors. -/
def handoverStep (before : Handover n) (event : Event n) : Option (Handover n) :=
  (serverStep before.server event).bind fun server =>
    let after := { before with server := server }
    match event with
    | .accept => some after.acceptSocket
    | .acceptFails | .mqReceive | .recvFdFails _ => some after
    | .mqReceiveFails => some (after.closeSocket .refused)
    | .sendFd =>
        match before.server.parent with
        | .holding worker =>
            if before.server.workers worker = .gone then none else some (after.sendSocket worker)
        | _ => none
    | .sendFdFails => some (after.closeSocket .sendFails)
    | .recvFd worker =>
        match before.pairs worker with
        | [] => none
        | connection :: rest => some ((after.takeOff worker rest).install worker connection)
    | .recvFdNoControl worker =>
        match before.pairs worker with
        | [] => none
        | connection :: rest =>
            some ((after.takeOff worker rest).treat connection (.dropped worker))
    | .advertise worker => some (after.closeClient worker)
    | .exit worker => some (after.endWorker worker)

/-- All that may have been done with a connection when it is in a place. -/
inductive Course : Place n → List (Treatment n) → Prop
  | accepted : Course .accepted []
  | refused : Course .refused [.refused]
  | closed : Course .closed [.sendFails]
  | sent (worker : Fin n) : Course (.sent worker) [.sent worker]
  | served (worker : Fin n) : Course (.served worker) [.sent worker, .received worker]
  | finished (worker : Fin n) :
      Course .finished [.sent worker, .received worker, .closed worker]
  | lostOnPair (worker : Fin n) : Course .lost [.sent worker, .ended worker]
  | lostUnreceived (worker : Fin n) : Course .lost [.sent worker, .dropped worker]
  | lostInHand (worker : Fin n) :
      Course .lost [.sent worker, .received worker, .ended worker]

/-- What has been done with a connection tells who has it. -/
structure Known (handover : Handover n) (connection : Nat) : Prop where
  inHand : handover.server.parent ≠ .accepting ∧ handover.newSocket = connection ↔
    connection < handover.accepted ∧ handover.treatments connection = []
  onPair : ∀ worker,
    connection ∈ handover.pairs worker ↔ handover.treatments connection = [.sent worker]
  inService : ∀ worker, connection ∈ handover.workerOpen worker ↔
    handover.treatments connection = [.sent worker, .received worker]
  /-- The accepting process closes no descriptor that it has sent. -/
  open_ : connection ∈ handover.parentOpen ↔ connection < handover.accepted ∧
    .refused ∉ handover.treatments connection ∧ .sendFails ∉ handover.treatments connection

/-- The calls have followed one of the courses, and each process has what they gave it. -/
structure Tracked (handover : Handover n) : Prop where
  course : ∀ connection, ∃ place, Course place (handover.treatments connection)
  fresh : ∀ connection, handover.accepted ≤ connection → handover.treatments connection = []
  known : ∀ connection, Known handover connection
  once : ∀ worker, (handover.pairs worker).Nodup
  single : ∀ worker, handover.workerOpen worker =
    if handover.server.workers worker = .serving then {handover.fd worker} else ∅
  /-- The dispatches counted are those on the socket pair. -/
  inFlight : ∀ worker, handover.server.workers worker ≠ .gone →
    (handover.pairs worker).length = handover.server.inFlight worker

section Steps

variable {before after : Handover n} {connection : Nat}

/-- A connection that nothing is done with stays where it is. -/
theorem Known.stays (known : Known before connection)
    (treatments : after.treatments connection = before.treatments connection)
    (accepted : connection < after.accepted ↔ connection < before.accepted)
    (inHand : after.server.parent ≠ .accepting ∧ after.newSocket = connection ↔
      before.server.parent ≠ .accepting ∧ before.newSocket = connection)
    (pairs : ∀ worker, connection ∈ after.pairs worker ↔ connection ∈ before.pairs worker)
    (workerOpen : ∀ worker,
      connection ∈ after.workerOpen worker ↔ connection ∈ before.workerOpen worker)
    (parentOpen : connection ∈ after.parentOpen ↔ connection ∈ before.parentOpen) :
    Known after connection where
  inHand := by rw [inHand, treatments, accepted, known.inHand]
  onPair := fun worker => by rw [pairs, treatments, known.onPair]
  inService := fun worker => by rw [workerOpen, treatments, known.inService]
  open_ := by rw [parentOpen, treatments, accepted, known.open_]

/-- One call on a connection that has been accepted. -/
theorem Tracked.treated (tracked : Tracked before) {handover : Handover n}
    {treatment : Treatment n} (issued : connection < before.accepted)
    (accepted : handover.accepted = before.accepted)
    (untouched : handover.treatments = before.treatments)
    (course : ∃ place, Course place (before.treatments connection ++ [treatment]))
    (itself : Known (handover.treat connection treatment) connection)
    (others : ∀ other, other ≠ connection → Known before other → Known handover other)
    (once : ∀ worker, (handover.pairs worker).Nodup)
    (single : ∀ worker, handover.workerOpen worker =
      if handover.server.workers worker = .serving then {handover.fd worker} else ∅)
    (inFlight : ∀ worker, handover.server.workers worker ≠ .gone →
      (handover.pairs worker).length = handover.server.inFlight worker) :
    Tracked (handover.treat connection treatment) := by
  have self : (handover.treat connection treatment).treatments connection =
      before.treatments connection ++ [treatment] := by
    rw [← untouched]
    exact Function.update_self ..
  have other {member : Nat} (different : member ≠ connection) :
      (handover.treat connection treatment).treatments member = before.treatments member := by
    rw [← untouched]
    exact Function.update_of_ne different ..
  refine ⟨fun member => ?_, fun member behind => ?_, fun member => ?_, once, single, inFlight⟩
  · by_cases same : member = connection
    · subst same
      rwa [self]
    · rw [other same]
      exact tracked.course member
  · have different : member ≠ connection := by
      rintro rfl
      exact Nat.not_lt.mpr (accepted ▸ behind) issued
    rw [other different]
    exact tracked.fresh member (accepted ▸ behind)
  · by_cases same : member = connection
    · exact same ▸ itself
    · refine (others member same (tracked.known member)).stays ?_ .rfl .rfl (fun _ => .rfl)
        (fun _ => .rfl) .rfl
      exact Function.update_of_ne same ..

theorem treat_self (handover : Handover n) (connection : Nat) (treatment : Treatment n) :
    (handover.treat connection treatment).treatments connection =
      handover.treatments connection ++ [treatment] :=
  Function.update_self ..

/-- What is known of a connection by what has been done with it. -/
theorem Known.of_eq {treatments : List (Treatment n)}
    (isNow : after.treatments connection = treatments)
    (inHand : after.server.parent ≠ .accepting ∧ after.newSocket = connection ↔
      connection < after.accepted ∧ treatments = [])
    (onPair : ∀ worker, connection ∈ after.pairs worker ↔ treatments = [.sent worker])
    (inService : ∀ worker,
      connection ∈ after.workerOpen worker ↔ treatments = [.sent worker, .received worker])
    (open_ : connection ∈ after.parentOpen ↔
      connection < after.accepted ∧ .refused ∉ treatments ∧ .sendFails ∉ treatments) :
    Known after connection := by
  subst isNow
  exact ⟨inHand, onPair, inService, open_⟩

/-- Nothing has been done yet with the socket in the hand of `run`, and no worker has it. -/
theorem Tracked.socket (tracked : Tracked before) (loop : before.server.parent ≠ .accepting) :
    (before.newSocket < before.accepted ∧ before.treatments before.newSocket = []) ∧
      ∀ worker, before.newSocket ∉ before.pairs worker ∧
        before.newSocket ∉ before.workerOpen worker := by
  have known := tracked.known before.newSocket
  obtain ⟨issued, untreated⟩ := known.inHand.mp ⟨loop, rfl⟩
  refine ⟨⟨issued, untreated⟩, fun worker => ?_⟩
  rw [known.onPair, known.inService, untreated]
  exact ⟨(List.cons_ne_nil _ _).symm, (List.cons_ne_nil _ _).symm⟩

/-- `run` closes the socket in its hand. -/
theorem Tracked.closes (tracked : Tracked before) (loop : before.server.parent ≠ .accepting)
    {server : Server n} (back : server.parent = .accepting)
    (workers : server.workers = before.server.workers)
    (inFlight : server.inFlight = before.server.inFlight) {treatment : Treatment n}
    (isLast : treatment = .refused ∨ treatment = .sendFails) :
    Tracked (({ before with server := server } : Handover n).closeSocket treatment) := by
  obtain ⟨⟨issued, untreated⟩, free⟩ := tracked.socket loop
  refine tracked.treated issued rfl rfl ?_ ?_ ?_ tracked.once ?_ ?_
  · rw [untreated]
    rcases isLast with rfl | rfl
    · exact ⟨_, .refused⟩
    · exact ⟨_, .closed⟩
  · have isNow : (({ before with server := server } : Handover n).closeSocket
        treatment).treatments before.newSocket = [treatment] := by
      refine (treat_self _ _ _).trans ?_
      rw [untreated]
      rfl
    refine .of_eq isNow (iff_of_false (fun hand => hand.1 back) (by simp)) (fun worker => ?_)
      (fun worker => iff_of_false (free worker).2 (by simp)) ?_
    · refine iff_of_false (free worker).1 ?_
      rcases isLast with rfl | rfl <;> simp
    · refine iff_of_false (Finset.notMem_erase _ _) ?_
      rcases isLast with rfl | rfl <;> simp
  · intro other different known
    refine known.stays rfl .rfl ?_ (fun _ => .rfl) (fun _ => .rfl) ?_
    · exact iff_of_false (fun hand => hand.1 back) fun hand => different hand.2.symm
    · exact Finset.mem_erase.trans (and_iff_right different)
  · dsimp only
    rw [workers]
    exact tracked.single
  · dsimp only
    rw [workers, inFlight]
    exact tracked.inFlight

/-- `send_fd` hands a copy of the socket over. -/
theorem Tracked.sends (tracked : Tracked before) {worker : Fin n}
    (holds : before.server.parent = .holding worker) {server : Server n}
    (back : server.parent = .accepting) (workers : server.workers = before.server.workers)
    (inFlight : server.inFlight =
      Function.update before.server.inFlight worker (before.server.inFlight worker + 1)) :
    Tracked (({ before with server := server } : Handover n).sendSocket worker) := by
  obtain ⟨⟨issued, untreated⟩, free⟩ := tracked.socket (by simp [holds])
  refine tracked.treated issued rfl rfl ?_ ?_ ?_ ?_ ?_ ?_
  · rw [untreated]
    exact ⟨_, .sent worker⟩
  · have isNow : (({ before with server := server } : Handover n).sendSocket
        worker).treatments before.newSocket = [.sent worker] := by
      refine (treat_self _ _ _).trans ?_
      rw [untreated]
      rfl
    refine .of_eq isNow (iff_of_false (fun hand => hand.1 back) (by simp)) (fun other => ?_)
      (fun worker => iff_of_false (free worker).2 (by simp)) ?_
    · by_cases same : other = worker
      · subst same
        simp [Handover.treat]
      · simp [Handover.treat, same, (free other).1, Ne.symm same]
    · have isOpen := (tracked.known before.newSocket).open_
      rw [untreated] at isOpen
      exact isOpen.trans (by simp [Handover.treat])
  · intro other different known
    refine known.stays rfl .rfl ?_ (fun receiver => ?_) (fun _ => .rfl) .rfl
    · exact iff_of_false (fun hand => hand.1 back) fun hand => different hand.2.symm
    · by_cases same : receiver = worker
      · subst same
        simp [different]
      · simp [same]
  · intro receiver
    by_cases same : receiver = worker
    · subst same
      simpa using List.nodup_append.mpr ⟨tracked.once receiver, List.nodup_singleton _, by
        rintro item member last isLast rfl
        exact (free receiver).1 (List.mem_singleton.mp isLast ▸ member)⟩
    · simpa [same] using tracked.once receiver
  · dsimp only
    rw [workers]
    exact tracked.single
  · intro receiver live
    dsimp only at live ⊢
    rw [workers] at live
    rw [inFlight]
    by_cases same : receiver = worker
    · subst same
      simp [tracked.inFlight receiver live]
    · simp [same, tracked.inFlight receiver live]

/-- The oldest connection on a socket pair has been sent to that worker only. -/
theorem Tracked.oldest (tracked : Tracked before) {worker : Fin n} {rest : List Nat}
    (front : before.pairs worker = connection :: rest) :
    (connection < before.accepted ∧ before.treatments connection = [.sent worker]) ∧
      connection ∉ rest ∧ (before.server.parent = .accepting ∨ before.newSocket ≠ connection) ∧
      (∀ other, other ≠ worker → connection ∉ before.pairs other) ∧
      (∀ other, connection ∉ before.workerOpen other) ∧ connection ∈ before.parentOpen := by
  have known := tracked.known connection
  have sent := (known.onPair worker).mp (front ▸ List.mem_cons_self)
  have issued : connection < before.accepted := by
    by_contra behind
    have untreated := tracked.fresh connection (Nat.not_lt.mp behind)
    rw [sent] at untreated
    cases untreated
  have once := tracked.once worker
  rw [front, List.nodup_cons] at once
  refine ⟨⟨issued, sent⟩, once.1, ?_, fun other different => ?_, fun other => ?_, ?_⟩
  · by_contra! hand
    have untreated := (known.inHand.mp hand).2
    rw [sent] at untreated
    cases untreated
  · rw [known.onPair, sent]
    simpa using different.symm
  · rw [known.inService, sent]
    simp
  · rw [known.open_, sent]
    simp [issued]

/-- A dispatch taken off a socket pair leaves the other connections where they are. -/
theorem Known.takenOff {other : Nat} (known : Known before other)
    (different : other ≠ connection) {worker : Fin n} {rest : List Nat}
    (front : before.pairs worker = connection :: rest) {server : Server n}
    (parent : server.parent = before.server.parent) :
    Known (({ before with server := server } : Handover n).takeOff worker rest) other := by
  refine known.stays rfl .rfl ?_ (fun receiver => ?_) (fun _ => .rfl) .rfl
  · show server.parent ≠ .accepting ∧ _ ↔ _
    rw [parent]
    rfl
  · by_cases same : receiver = worker
    · subst same
      simp [Handover.takeOff, front, different]
    · simp [Handover.takeOff, same]

/-- What is left on the socket pairs, and how much the server counts there. -/
theorem Tracked.pairs_takenOff (tracked : Tracked before) {worker : Fin n} {rest : List Nat}
    (front : before.pairs worker = connection :: rest)
    (live : before.server.workers worker ≠ .gone) (next : Worker) :
    (∀ other, (Function.update before.pairs worker rest other).Nodup) ∧
      ∀ other, (receive worker next before.server).workers other ≠ .gone →
        (Function.update before.pairs worker rest other).length =
          (receive worker next before.server).inFlight other := by
  have once := tracked.once worker
  have counted := tracked.inFlight worker live
  rw [front] at once counted
  constructor
  · intro other
    by_cases same : other = worker
    · subst same
      simpa using (List.nodup_cons.mp once).2
    · simpa [same] using tracked.once other
  · intro other stillLive
    by_cases same : other = worker
    · subst same
      simp [receive, ← counted]
    · simp only [receive, ne_eq, same, not_false_eq_true, Function.update_of_ne] at stillLive ⊢
      exact tracked.inFlight other stillLive

/-- A worker receives the oldest dispatch with its descriptor. -/
theorem Tracked.receives (tracked : Tracked before) {worker : Fin n} {rest : List Nat}
    (front : before.pairs worker = connection :: rest)
    (waits : before.server.workers worker = .waiting) :
    Tracked ((({ before with server := receive worker .serving before.server } :
      Handover n).takeOff worker rest).install worker connection) := by
  obtain ⟨⟨issued, sent⟩, notAgain, notInHand, notOnOthers, notServed, isOpen⟩ :=
    tracked.oldest front
  obtain ⟨once, counted⟩ := tracked.pairs_takenOff front (by simp [waits]) .serving
  have nothing := tracked.single worker
  rw [waits, if_neg (by simp)] at nothing
  refine tracked.treated issued rfl rfl ?_ ?_ ?_ once ?_ counted
  · rw [sent]
    exact ⟨_, .served worker⟩
  · have isNow : ((({ before with server := receive worker .serving before.server } :
        Handover n).takeOff worker rest).install worker connection).treatments connection =
          [.sent worker, .received worker] := by
      refine (treat_self _ _ _).trans ?_
      show before.treatments connection ++ _ = _
      rw [sent]
      rfl
    refine .of_eq isNow ?_ (fun other => ?_) (fun other => ?_) ?_
    · refine iff_of_false (fun hand => ?_) (by simp)
      exact notInHand.elim hand.1 fun different => different hand.2
    · refine iff_of_false ?_ (by simp)
      by_cases same : other = worker
      · subst same
        simpa [Handover.install, Handover.takeOff, Handover.treat] using notAgain
      · simpa [Handover.install, Handover.takeOff, Handover.treat, same] using
          notOnOthers other same
    · by_cases same : other = worker
      · subst same
        simp [Handover.treat]
      · simpa [Handover.install, Handover.takeOff, Handover.treat, same, Ne.symm same] using
          notServed other
    · exact iff_of_true isOpen ⟨issued, by simp, by simp⟩
  · intro other different known
    have off : Known (({ before with server := receive worker .serving before.server } :
        Handover n).takeOff worker rest) other := known.takenOff different front rfl
    refine off.stays rfl .rfl .rfl (fun _ => .rfl) (fun receiver => ?_) .rfl
    by_cases same : receiver = worker
    · subst same
      simp [Handover.takeOff, different]
    · simp [Handover.takeOff, same]
  · intro other
    by_cases same : other = worker
    · subst same
      simp [Handover.takeOff, receive, nothing]
    · simpa [Handover.takeOff, receive, same] using tracked.single other

/-- A worker takes a dispatch off and gets no descriptor. -/
theorem Tracked.drops (tracked : Tracked before) {worker : Fin n} {rest : List Nat}
    (front : before.pairs worker = connection :: rest)
    (waits : before.server.workers worker = .waiting) :
    Tracked ((({ before with server := receive worker .waiting before.server } :
      Handover n).takeOff worker rest).treat connection (.dropped worker)) := by
  obtain ⟨⟨issued, sent⟩, notAgain, notInHand, notOnOthers, notServed, isOpen⟩ :=
    tracked.oldest front
  obtain ⟨once, counted⟩ := tracked.pairs_takenOff front (by simp [waits]) .waiting
  refine tracked.treated issued rfl rfl ?_ ?_ ?_ once ?_ counted
  · rw [sent]
    exact ⟨_, .lostUnreceived worker⟩
  · have isNow : ((({ before with server := receive worker .waiting before.server } :
        Handover n).takeOff worker rest).treat connection (.dropped worker)).treatments
          connection = [.sent worker, .dropped worker] := by
      refine (treat_self _ _ _).trans ?_
      show before.treatments connection ++ _ = _
      rw [sent]
      rfl
    refine .of_eq isNow ?_ (fun other => ?_)
      (fun other => iff_of_false (notServed other) (by simp)) ?_
    · refine iff_of_false (fun hand => ?_) (by simp)
      exact notInHand.elim hand.1 fun different => different hand.2
    · refine iff_of_false ?_ (by simp)
      by_cases same : other = worker
      · subst same
        simpa [Handover.takeOff, Handover.treat] using notAgain
      · simpa [Handover.takeOff, Handover.treat, same] using notOnOthers other same
    · exact iff_of_true isOpen ⟨issued, by simp, by simp⟩
  · exact fun other different known => known.takenOff different front rfl
  · intro other
    have same : (receive worker .waiting before.server).workers other =
        before.server.workers other := by
      by_cases same : other = worker
      · subst same
        simp [receive, waits]
      · simp [receive, same]
    simpa [Handover.takeOff, same] using tracked.single other

/-- A worker closes the connection that it serves. -/
theorem Tracked.closesClient (tracked : Tracked before) {worker : Fin n}
    (serves : before.server.workers worker = .serving) {server : Server n}
    (parent : server.parent = before.server.parent)
    (workers : server.workers = Function.update before.server.workers worker .waiting)
    (inFlight : server.inFlight = before.server.inFlight) :
    Tracked (({ before with server := server } : Handover n).closeClient worker) := by
  have only := tracked.single worker
  rw [if_pos serves] at only
  have known := tracked.known (before.fd worker)
  have served : before.treatments (before.fd worker) = [.sent worker, .received worker] :=
    (known.inService worker).mp (by simp [only])
  have issued : before.fd worker < before.accepted := by
    by_contra behind
    have untreated := tracked.fresh _ (Nat.not_lt.mp behind)
    rw [served] at untreated
    cases untreated
  refine tracked.treated issued rfl rfl ?_ ?_ ?_ tracked.once ?_ ?_
  · rw [served]
    exact ⟨_, .finished worker⟩
  · have isNow : (({ before with server := server } : Handover n).closeClient
        worker).treatments (before.fd worker) =
          [.sent worker, .received worker, .closed worker] := by
      refine (treat_self _ _ _).trans ?_
      show before.treatments (before.fd worker) ++ _ = _
      rw [served]
      rfl
    refine .of_eq isNow ?_ (fun other => ?_) (fun other => ?_) ?_
    · have notInHand := known.inHand
      rw [served, ← parent] at notInHand
      exact notInHand.trans (by simp)
    · have notOnPair := known.onPair other
      rw [served] at notOnPair
      exact notOnPair.trans (by simp)
    · refine iff_of_false ?_ (by simp)
      by_cases same : other = worker
      · subst same
        simp [Handover.treat]
      · have elsewhere : before.fd worker ∉ before.workerOpen other := by
          rw [known.inService, served]
          simpa using Ne.symm same
        simpa [Handover.closeClient, Handover.treat, same] using elsewhere
    · have isOpen := known.open_
      rw [served] at isOpen
      exact isOpen.trans (by simp [Handover.treat])
  · intro other different known
    refine known.stays rfl .rfl (by rw [parent]) (fun _ => .rfl) (fun receiver => ?_) .rfl
    by_cases same : receiver = worker
    · subst same
      simp [different]
    · simp [same]
  · intro other
    dsimp only
    rw [workers]
    by_cases same : other = worker
    · subst same
      simp [only]
    · simpa [same] using tracked.single other
  · intro other live
    dsimp only at live ⊢
    rw [inFlight]
    apply tracked.inFlight
    rw [workers] at live
    by_cases same : other = worker
    · rw [same, serves]
      exact fun impossible => by cases impossible
    · simpa [same] using live

/-- A worker ends, and what it was given is closed. -/
theorem Tracked.ends (tracked : Tracked before) {worker : Fin n} {server : Server n}
    (parent : server.parent = before.server.parent)
    (workers : server.workers = Function.update before.server.workers worker .gone)
    (inFlight : server.inFlight = before.server.inFlight) :
    Tracked (({ before with server := server } : Handover n).endWorker worker) := by
  have had (connection : Nat) : connection ∈ before.pairs worker ∨
      connection ∈ before.workerOpen worker ↔
        before.treatments connection = [.sent worker] ∨
          before.treatments connection = [.sent worker, .received worker] := by
    rw [(tracked.known connection).onPair, (tracked.known connection).inService]
  refine ⟨fun connection => ?_, fun connection behind => ?_, fun connection => ?_, ?_, ?_, ?_⟩
  · dsimp only [Handover.endWorker]
    split
    · rename_i has
      rcases (had connection).mp has with sent | served
      · rw [sent]
        exact ⟨_, .lostOnPair worker⟩
      · rw [served]
        exact ⟨_, .lostInHand worker⟩
    · exact tracked.course connection
  · have untreated := tracked.fresh connection behind
    dsimp only [Handover.endWorker]
    rw [if_neg, untreated]
    rw [had, untreated]
    simp
  · have known := tracked.known connection
    by_cases has : connection ∈ before.pairs worker ∨ connection ∈ before.workerOpen worker
    · have isNow : (({ before with server := server } : Handover n).endWorker
          worker).treatments connection = before.treatments connection ++ [.ended worker] :=
        if_pos has
      have given := (had connection).mp has
      refine .of_eq isNow ?_ (fun other => ?_) (fun other => ?_) ?_
      · refine iff_of_false (fun hand => ?_) (by simp)
        have untreated := (known.inHand.mp ⟨parent ▸ hand.1, hand.2⟩).2
        rw [untreated] at given
        simp at given
      · refine iff_of_false ?_ (by rcases given with sent | served <;> simp [*])
        by_cases same : other = worker
        · subst same
          simp [Handover.endWorker]
        · simp only [Handover.endWorker, Function.update_of_ne same, known.onPair]
          rcases given with sent | served <;> simp [*, Ne.symm same]
      · refine iff_of_false ?_ (by rcases given with sent | served <;> simp [*])
        by_cases same : other = worker
        · subst same
          simp [Handover.endWorker]
        · simp only [Handover.endWorker, Function.update_of_ne same, known.inService]
          rcases given with sent | served <;> simp [*, Ne.symm same]
      · exact known.open_.trans (by simp [Handover.endWorker])
    · refine known.stays (if_neg has) .rfl ?_ (fun other => ?_) (fun other => ?_) .rfl
      · show server.parent ≠ .accepting ∧ _ ↔ _
        rw [parent]
        rfl
      · by_cases same : other = worker
        · subst same
          simp [Handover.endWorker, not_or.mp has]
        · simp [Handover.endWorker, same]
      · by_cases same : other = worker
        · subst same
          simp [Handover.endWorker, not_or.mp has]
        · simp [Handover.endWorker, same]
  · intro other
    by_cases same : other = worker
    · subst same
      simp [Handover.endWorker]
    · simpa [Handover.endWorker, same] using tracked.once other
  · intro other
    by_cases same : other = worker
    · subst same
      simp [Handover.endWorker, workers]
    · simpa [Handover.endWorker, workers, same] using tracked.single other
  · intro other live
    by_cases same : other = worker
    · subst same
      simp [Handover.endWorker, workers] at live
    · simp only [Handover.endWorker, workers, Function.update_of_ne same, inFlight] at live ⊢
      exact tracked.inFlight other live

/-- `accept` returns the next connection. -/
theorem Tracked.accepts (tracked : Tracked before) (loop : before.server.parent = .accepting)
    {server : Server n} (next : server.parent = .accepted)
    (workers : server.workers = before.server.workers)
    (inFlight : server.inFlight = before.server.inFlight) :
    Tracked ({ before with server := server } : Handover n).acceptSocket := by
  refine ⟨tracked.course, fun connection behind => ?_, fun connection => ?_, tracked.once, ?_, ?_⟩
  · exact tracked.fresh connection (Nat.le_of_succ_le behind)
  · have known := tracked.known connection
    by_cases isNew : connection = before.accepted
    · have untreated := tracked.fresh connection (Nat.le_of_eq isNew.symm)
      refine .of_eq untreated ?_ (fun worker => ?_) (fun worker => ?_) ?_
      · simp [Handover.acceptSocket, isNew, next]
      · have onPair := known.onPair worker
        rwa [untreated] at onPair
      · have inService := known.inService worker
        rwa [untreated] at inService
      · simp [Handover.acceptSocket, isNew]
    · refine known.stays rfl ?_ ?_ (fun _ => .rfl) (fun _ => .rfl) ?_
      · exact Nat.lt_succ_iff_lt_or_eq.trans (or_iff_left isNew)
      · exact iff_of_false (fun hand => isNew hand.2.symm) fun hand => hand.1 loop
      · exact Finset.mem_insert.trans (or_iff_right isNew)
  · show ∀ worker, before.workerOpen worker =
      if server.workers worker = .serving then {before.fd worker} else ∅
    rw [workers]
    exact tracked.single
  · show ∀ worker, server.workers worker ≠ .gone →
      (before.pairs worker).length = server.inFlight worker
    rw [workers, inFlight]
    exact tracked.inFlight

/-- A step of the loop of `run` that touches no connection. -/
theorem Tracked.goesOn (tracked : Tracked before) {server : Server n}
    (parent : server.parent = .accepting ↔ before.server.parent = .accepting)
    (workers : server.workers = before.server.workers)
    (inFlight : server.inFlight = before.server.inFlight) :
    Tracked ({ before with server := server } : Handover n) := by
  refine ⟨tracked.course, tracked.fresh, fun connection => ?_, tracked.once, ?_, ?_⟩
  · refine (tracked.known connection).stays rfl .rfl ?_ (fun _ => .rfl) (fun _ => .rfl) .rfl
    exact and_congr_left' (not_congr parent)
  · dsimp only
    rw [workers]
    exact tracked.single
  · dsimp only
    rw [workers, inFlight]
    exact tracked.inFlight

/-- What the processes do keeps every connection tracked. -/
theorem Tracked.step {event : Event n} (tracked : Tracked before)
    (stepped : handoverStep before event = some after) : Tracked after := by
  obtain ⟨server, moved, stepped⟩ := Option.bind_eq_some_iff.mp stepped
  unfold serverStep at moved
  cases event with
  | accept =>
      dsimp only at moved
      split at moved
      · rename_i loop
        cases moved
        cases stepped
        exact tracked.accepts loop rfl rfl rfl
      · cases moved
  | acceptFails | recvFdFails _ =>
      dsimp only at moved
      split at moved
      · cases moved
        cases stepped
        exact tracked
      · cases moved
  | mqReceive =>
      dsimp only at moved
      split at moved
      · rename_i pid available loop queued
        cases moved
        cases stepped
        exact tracked.goesOn (by simp [loop]) rfl rfl
      · cases moved
  | mqReceiveFails =>
      dsimp only at moved
      split at moved
      · rename_i loop
        cases moved
        cases stepped
        have back : ({ before.server with parent := .accepting } : Server n).parent =
            .accepting := rfl
        exact tracked.closes (by simp [loop]) back rfl rfl (.inl rfl)
      · cases moved
  | sendFdFails =>
      dsimp only at moved
      split at moved
      · rename_i pid loop
        cases moved
        cases stepped
        have back : ({ before.server with
            parent := .accepting
            available := before.server.available ++ [pid] } : Server n).parent = .accepting := rfl
        exact tracked.closes (by simp [loop]) back rfl rfl (.inr rfl)
      · cases moved
  | sendFd =>
      dsimp only at moved stepped
      split at moved
      · rename_i pid loop
        cases moved
        rw [loop] at stepped
        dsimp only at stepped
        split at stepped
        · cases stepped
        · cases stepped
          exact tracked.sends loop rfl rfl rfl
      · cases moved
  | recvFd worker =>
      dsimp only at moved stepped
      split at moved
      · rename_i ready
        cases moved
        split at stepped
        · cases stepped
        · rename_i connection rest front
          cases stepped
          exact tracked.receives front ready.1
      · cases moved
  | recvFdNoControl worker =>
      dsimp only at moved stepped
      split at moved
      · rename_i ready
        cases moved
        split at stepped
        · cases stepped
        · rename_i connection rest front
          cases stepped
          exact tracked.drops front ready.1
      · cases moved
  | advertise worker =>
      dsimp only at moved
      split at moved
      · rename_i serves
        cases moved
        cases stepped
        exact tracked.closesClient serves rfl rfl rfl
      · cases moved
  | exit worker =>
      cases moved
      cases stepped
      exact tracked.ends rfl rfl rfl

/-- The socket pairs never hold back what the server can do: only a dispatch to a worker
that has ended is not sent. -/
theorem Tracked.isSome_step_iff (tracked : Tracked before) (event : Event n) :
    (handoverStep before event).isSome ↔ (serverStep before.server event).isSome ∧
      (event = .sendFd → ∀ worker, before.server.parent = .holding worker →
        before.server.workers worker ≠ .gone) := by
  unfold handoverStep
  cases moved : serverStep before.server event with
  | none => simp
  | some server =>
      rw [Option.bind_some]
      cases event with
      | sendFd =>
          unfold serverStep at moved
          dsimp only at moved ⊢
          split at moved
          · rename_i worker loop
            rw [loop]
            by_cases gone : before.server.workers worker = .gone
            · simp [gone]
            · simp [gone]
          · cases moved
      | recvFd worker | recvFdNoControl worker =>
          have ready : before.server.workers worker = .waiting ∧
              0 < before.server.inFlight worker := by
            unfold serverStep at moved
            dsimp only at moved
            split at moved
            · assumption
            · cases moved
          have counted := tracked.inFlight worker (by simp [ready.1])
          cases front : before.pairs worker with
          | nil =>
              rw [front, List.length_nil] at counted
              exact absurd ready.2 (by omega)
          | cons connection rest => simp [front]
      | accept | acceptFails | mqReceive | mqReceiveFails | sendFdFails | recvFdFails _
      | advertise _ | exit _ => simp

end Steps

/-! ### Every connection -/

/-- What has been done with a connection tells its place. -/
theorem Course.unique {first second : Place n} {treatments : List (Treatment n)}
    (one : Course first treatments) (other : Course second treatments) : first = second := by
  cases one <;> cases other <;> rfl

section Places

variable {handover : Handover n} {connection : Nat} {place : Place n}

end Places

end Ivos.Http
