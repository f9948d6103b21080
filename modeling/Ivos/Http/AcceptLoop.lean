/-
Module: Ivos.Http.AcceptLoop
Purpose: The accept loop of `Server::run` by the system calls of each iteration, and
  the descriptors that are open in the accepting process.
Trusted boundary: the log queue and the shared ends of the socket pairs are open
Main exports: SystemCall, Client, Iteration, acceptLoop, KeepsDescriptors,
  keeps_descriptors_iff, card_descriptors, handed_over_not_closed
-/
import Ivos.Library.PartialMachine
import Mathlib.Data.Finset.Card

namespace Ivos.Http

/-!
Each iteration takes the outcomes of its system calls from outside: what `accept`,
`mq_receive`, `sendmsg`, `SSL_accept` and the opening of a file return.  The log
messages go through a queue that is opened before the loop, and the shared ends of
the socket pairs are too; neither changes which descriptors are open.
-/

/-- The calls of an iteration that open or close a descriptor, or use one. -/
inductive SystemCall where
  /-- `accept`, or the constructor of an `ifstream`, returns this descriptor. -/
  | opened (descriptor : Nat)
  | closed (descriptor : Nat)
  | sslWrite (socket : Nat)
  | sslShutdown (socket : Nat)
  | sslFree
  /-- `sendmsg` with the descriptor as its control message. -/
  | sentFd (pid descriptor : Nat)
  /-- A pid goes back into `/available`. -/
  | mqSend (pid : Nat)
deriving Repr, DecidableEq

/-- The kernel returns a descriptor that is not in use; closing takes it out of use. -/
def SystemCall.apply (descriptors : Finset Nat) (call : SystemCall) : Option (Finset Nat) :=
  match call with
  | .opened descriptor =>
      if descriptor ∈ descriptors then none else some (insert descriptor descriptors)
  | .closed descriptor => some (descriptors.erase descriptor)
  | .sslWrite _ | .sslShutdown _ | .sslFree | .sentFd _ _ | .mqSend _ => some descriptors

def applyCalls : List SystemCall → Finset Nat → Option (Finset Nat)
  | [], descriptors => some descriptors
  | call :: calls, descriptors => (call.apply descriptors).bind (applyCalls calls)

/-! ### Client -/

/-- The members of `Client` that its methods test. -/
structure Client where
  socket : Nat
  isOpen : Bool
  peerDisconnected : Bool
deriving Repr, DecidableEq

/-- `Client::close`. -/
def Client.close (client : Client) : Client × List SystemCall :=
  if !client.isOpen then (client, [])
  else
    ({ client with isOpen := false },
      (if !client.peerDisconnected then [.sslShutdown client.socket] else []) ++
        [.sslFree, .closed client.socket])

/-- The constructor of `Client`. -/
def Client.construct (socket : Nat) (sslAccepted : Bool) : Client × List SystemCall :=
  let client := { socket, isOpen := true, peerDisconnected := false }
  if sslAccepted then (client, []) else client.close

/-- `Client::send`. -/
def Client.send (client : Client) : List SystemCall :=
  if !client.isOpen then [] else [.sslWrite client.socket]

/-- `Response::load_file`: the descriptor of the `ifstream`, if it opens. -/
def loadFile (file : Option Nat) : List SystemCall :=
  match file with
  | none => []
  | some descriptor => [.opened descriptor, .closed descriptor]

/-! ### The loop -/

/-- `Server::send_fd`: what it returns and does. -/
def sendFd (pid socket : Nat) (sent : Bool) : Int × List SystemCall :=
  if sent then (0, [.sentFd pid socket]) else (-1, [])

/-- The outcomes of one iteration. -/
inductive Iteration where
  /-- `accept` returns -1. -/
  | acceptFails
  /-- `mq_receive` returns -1: no worker is available. -/
  | noWorker (socket : Nat) (sslAccepted : Bool) (file : Option Nat)
  /-- `mq_receive` returns a pid; `sendmsg` succeeds or not. -/
  | dispatch (socket pid : Nat) (sent : Bool)
deriving Repr, DecidableEq

/-- The branch of `Server::run` that refuses a connection with 503. -/
def refuse (socket : Nat) (sslAccepted : Bool) (file : Option Nat) : List SystemCall :=
  let (client, constructed) := Client.construct socket sslAccepted
  constructed ++ loadFile file ++ client.send ++ client.close.2

/-- The body of the `while` loop of `Server::run`. -/
def Iteration.calls : Iteration → List SystemCall
  | .acceptFails => []
  | .noWorker socket sslAccepted file => .opened socket :: refuse socket sslAccepted file
  | .dispatch socket pid sent =>
      let (returned, sending) := sendFd pid socket sent
      .opened socket :: sending ++
        if returned = -1 then [.mqSend pid, .closed socket] else []

/-- The descriptors of the accepting process, from iteration to iteration. -/
def acceptLoop : PartialMachine (Finset Nat) Iteration where
  step descriptors iteration := applyCalls iteration.calls descriptors

/-- The connection is handed to a worker. -/
def Iteration.HandsOver : Iteration → Prop
  | .dispatch _ _ sent => sent = true
  | .acceptFails | .noWorker _ _ _ => False

instance : DecidablePred Iteration.HandsOver
  | .dispatch _ _ _ => inferInstanceAs (Decidable (_ = _))
  | .acceptFails | .noWorker _ _ _ => inferInstanceAs (Decidable False)

/-- Each iteration ends with the descriptors it began with. -/
def KeepsDescriptors : Finset Nat → List Iteration → Prop
  | _, [] => True
  | descriptors, iteration :: later =>
      ∃ after, acceptLoop.step descriptors iteration = some after ∧ after = descriptors ∧
        KeepsDescriptors after later

/-! ### One iteration -/

@[simp] theorem applyCalls_append (first second : List SystemCall) (descriptors : Finset Nat) :
    applyCalls (first ++ second) descriptors =
      (applyCalls first descriptors).bind (applyCalls second) := by
  induction first generalizing descriptors with
  | nil => rfl
  | cons call calls inductionHypothesis =>
      rw [List.cons_append, applyCalls, applyCalls, Option.bind_assoc]
      exact congrArg (Option.bind _) (funext inductionHypothesis)

theorem applyCalls_opened {descriptor : Nat} {calls : List SystemCall}
    {descriptors after : Finset Nat}
    (applied : applyCalls (.opened descriptor :: calls) descriptors = some after) :
    descriptor ∉ descriptors ∧ applyCalls calls (insert descriptor descriptors) = some after := by
  obtain ⟨opened, unused, applied⟩ := Option.bind_eq_some_iff.mp applied
  dsimp only [SystemCall.apply] at unused
  split at unused
  · cases unused
  · rename_i absent
    cases unused
    exact ⟨absent, applied⟩

/-- A file that is opened is closed again. -/
theorem applyCalls_loadFile {file : Option Nat} {descriptors after : Finset Nat}
    (applied : applyCalls (loadFile file) descriptors = some after) : after = descriptors := by
  cases file with
  | none => exact (Option.some.inj applied).symm
  | some descriptor =>
      obtain ⟨unused, closed⟩ := applyCalls_opened applied
      cases closed
      exact Finset.erase_insert unused

/-- Whatever the handshake gives, the client is closed once. -/
theorem applyCalls_refuse {socket : Nat} {sslAccepted : Bool} {file : Option Nat}
    {descriptors after : Finset Nat}
    (applied : applyCalls (refuse socket sslAccepted file) descriptors = some after) :
    after = descriptors.erase socket := by
  cases sslAccepted with
  | true =>
      simp only [refuse, Client.construct, if_true, applyCalls_append] at applied
      obtain ⟨sent, applied, closed⟩ := Option.bind_eq_some_iff.mp applied
      obtain ⟨loaded, applied, written⟩ := Option.bind_eq_some_iff.mp applied
      obtain ⟨same, unchanged, loading⟩ := Option.bind_eq_some_iff.mp applied
      cases unchanged
      cases applyCalls_loadFile loading
      cases written
      cases closed
      rfl
  | false =>
      simp only [refuse, Client.construct, Bool.false_eq_true, if_false, applyCalls_append]
        at applied
      obtain ⟨sent, applied, closed⟩ := Option.bind_eq_some_iff.mp applied
      obtain ⟨loaded, applied, written⟩ := Option.bind_eq_some_iff.mp applied
      obtain ⟨same, erased, loading⟩ := Option.bind_eq_some_iff.mp applied
      cases erased
      cases applyCalls_loadFile loading
      cases written
      cases closed
      rfl

/-- What is left of an iteration: the socket it handed over, if it did. -/
theorem step_cases {descriptors after : Finset Nat} {iteration : Iteration}
    (stepped : acceptLoop.step descriptors iteration = some after) :
    (¬ iteration.HandsOver ∧ after = descriptors) ∨
      ∃ socket pid, iteration = .dispatch socket pid true ∧ socket ∉ descriptors ∧
        after = insert socket descriptors := by
  cases iteration with
  | acceptFails =>
      cases stepped
      exact .inl ⟨id, rfl⟩
  | noWorker socket sslAccepted file =>
      obtain ⟨unused, refused⟩ := applyCalls_opened stepped
      rw [applyCalls_refuse refused]
      exact .inl ⟨id, Finset.erase_insert unused⟩
  | dispatch socket pid sent =>
      cases sent with
      | true =>
          obtain ⟨unused, handed⟩ := applyCalls_opened stepped
          cases handed
          exact .inr ⟨socket, pid, rfl, unused, rfl⟩
      | false =>
          obtain ⟨unused, closed⟩ := applyCalls_opened stepped
          cases closed
          exact .inl ⟨Bool.false_ne_true, Finset.erase_insert unused⟩

theorem step_keeps_iff {descriptors after : Finset Nat} {iteration : Iteration}
    (stepped : acceptLoop.step descriptors iteration = some after) :
    after = descriptors ↔ ¬ iteration.HandsOver := by
  rcases step_cases stepped with ⟨notHanded, same⟩ | ⟨socket, pid, rfl, unused, rfl⟩
  · exact ⟨fun _ => notHanded, fun _ => same⟩
  · constructor
    · intro same
      exact absurd (same ▸ Finset.mem_insert_self socket descriptors) unused
    · intro notHanded
      exact absurd rfl notHanded

/-! ### Runs -/

/-- In every run, the accepting process has the same descriptors open at the end of
each iteration as before it, exactly when no connection is handed to a worker. -/
theorem keeps_descriptors_iff (start finish : Finset Nat) (iterations : List Iteration)
    (ran : acceptLoop.runWithin PartialMachine.anyStep start iterations = some finish) :
    KeepsDescriptors start iterations ↔
      ∀ iteration ∈ iterations, ¬ iteration.HandsOver := by
  induction iterations generalizing start with
  | nil => simp [KeepsDescriptors]
  | cons iteration later inductionHypothesis =>
      obtain ⟨next, -, stepped, ran⟩ := PartialMachine.runWithin_cons ran
      rw [List.forall_mem_cons, ← step_keeps_iff stepped, KeepsDescriptors]
      constructor
      · rintro ⟨after, again, same, kept⟩
        cases stepped.symm.trans again
        exact ⟨same, (inductionHypothesis next ran).mp kept⟩
      · rintro ⟨same, refused⟩
        exact ⟨next, stepped, same, (inductionHypothesis next ran).mpr refused⟩

/-- Each connection handed over leaves one more descriptor open. -/
theorem card_descriptors (start finish : Finset Nat) (iterations : List Iteration)
    (ran : acceptLoop.runWithin PartialMachine.anyStep start iterations = some finish) :
    finish.card = start.card + iterations.countP fun iteration => iteration.HandsOver := by
  induction iterations generalizing start with
  | nil =>
      cases ran
      rfl
  | cons iteration later inductionHypothesis =>
      obtain ⟨next, -, stepped, ran⟩ := PartialMachine.runWithin_cons ran
      rw [inductionHypothesis next ran, List.countP_cons]
      rcases step_cases stepped with ⟨notHanded, rfl⟩ | ⟨socket, pid, rfl, unused, rfl⟩
      · simp [notHanded]
      · rw [Finset.card_insert_of_notMem unused]
        simp [Iteration.HandsOver]
        omega

/-- A descriptor open before an iteration is never closed again, be it of a
connection handed over: its peer sees no end of the connection from this process. -/
theorem stays_open {start finish : Finset Nat}
    (reached : acceptLoop.Reached PartialMachine.anyStep start finish) : start ⊆ finish := by
  apply reached.invariant (Finset.Subset.refl start)
  intro before iteration after kept _ stepped
  rcases step_cases stepped with ⟨-, rfl⟩ | ⟨socket, pid, -, -, rfl⟩
  · exact kept
  · exact kept.trans (Finset.subset_insert socket before)

/-- Three connections: one refused, one for which `sendmsg` fails, and none handed
over. -/
theorem keeps_descriptors_refused :
    KeepsDescriptors {0, 3} [.noWorker 4 true (some 5), .acceptFails, .dispatch 4 700 false] ↔
      ∀ iteration ∈ ([.noWorker 4 true (some 5), .acceptFails, .dispatch 4 700 false] :
        List Iteration), ¬ iteration.HandsOver :=
  keeps_descriptors_iff {0, 3} {0, 3} _ (by decide)

/-- A connection handed to a worker stays open in the accepting process. -/
theorem handed_over_not_closed :
    ¬ ∀ (start finish : Finset Nat) (iterations : List Iteration),
      acceptLoop.runWithin PartialMachine.anyStep start iterations = some finish →
        KeepsDescriptors start iterations := by
  intro claimed
  obtain ⟨after, stepped, same, -⟩ :=
    claimed {0, 3} {0, 3, 4} [.dispatch 4 700 true] (by decide)
  have handed := (step_keeps_iff stepped).mp same
  exact handed rfl

end Ivos.Http
