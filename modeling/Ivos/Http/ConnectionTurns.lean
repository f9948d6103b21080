/-
Module: Ivos.Http.ConnectionTurns
Purpose: The turns of the inner loop of `Server::handle_communication` by the bytes that
  are read, beside the answers of `communicate` and the descriptors of the worker.
Trusted boundary: none
Main exports: TurnOutcome, storeOpens, handlePostOpens, turnsOf, Serves,
  turnsOf_serves, innerLoop_turnsOf, card_left_open_of_reads
-/
import Ivos.Http.Connection
import Ivos.Http.ServedPaths
import Ivos.Http.WorkerDescriptors

namespace Ivos.Http

/-! ### From reads to turns

The same reads are followed for their bytes and for their descriptors.  What the system calls
of a turn return is an argument; which turn it is, the bytes decide.
-/

/-- What the system calls of a turn return. -/
structure TurnOutcome where
  /-- An empty read is a 0 of `SSL_read`, not a -1. -/
  peerDisconnected : Bool
  /-- The type of a `Request` that was not parsed; `none` is no value of the enumeration,
  for which `_type_to_string.at` throws. -/
  indeterminate : Option RequestType
  /-- What the first `open` of `handle_post` returns. -/
  first : Option Nat
  /-- What the `open` in a round of its loop returns. -/
  opened : Nat → Option Nat
  pipe : Option (Nat × Nat)
  file : Option Nat
  notFound : Option Nat

/-- The round finds the header of another part. -/
def findsPart (boundary memory : Bytes) : Bool :=
  match breakAt boundary (cString memory) with
  | none => false
  | some (before, _) =>
      let start := before.length + boundary.length + 2
      (breakAt crlfcrlf (cString (memory.drop start))).isSome

/-- The loop of `handle_post`: what its calls of `open` return, and the reads it leaves.
`none` is a crash or an `SSL_read` that has not returned. -/
def storeOpens (boundary : Bytes) (stack : Stack) (contentLength : Int)
    (opened : Nat → Option Nat) :
    Nat → Nat → Bytes → Bytes → List Bytes → Option (List (Option Nat) × List Bytes)
  | _, curlength, _, _, [] => if curlength < contentLength then none else some ([], [])
  | round, curlength, file, filebuf, chunk :: reads =>
      if curlength < contentLength then
        if chunk = [] then some ([], reads)
        else
          let filebuf := overlay chunk filebuf
          let memory := filebuf ++ stack.beyond round
          (storeChunk boundary memory chunk.length file).bind fun (next, _) =>
            (storeOpens boundary stack contentLength opened (round + 1)
              (curlength + chunk.length) next filebuf reads).map fun (later, left) =>
                (if findsPart boundary memory then opened round :: later else later, left)
      else some ([], chunk :: reads)

/-- `handle_post`: what its further calls of `open` return, and the reads it leaves. -/
def handlePostOpens (request : Request) (remainder : Bytes) (stack : Stack)
    (opened : Nat → Option Nat) (reads : List Bytes) :
    Option (List (Option Nat) × List Bytes) :=
  match breakAt crlfcrlf (cString remainder) with
  | none => none
  | some _ =>
      (atoi (request.getField (ascii "Content-Length"))).bind fun contentLength =>
        (attachmentName (cString remainder)).bind fun filename =>
          storeOpens request.boundary stack contentLength opened 0 remainder.length filename
            stack.filebuf reads

/-- The branches for a request that is not a POST. -/
def servedTurn (outcome : TurnOutcome) (request : Request) : Turn :=
  if request.hasPath && request.isScript then .script outcome.pipe request.keepAlive
  else .served outcome.file outcome.notFound request.keepAlive

/-- The inner loop on the reads to come.  `none` is a worker that has crashed, or a loop
that has not ended. -/
def turnsOf (memory : Memory) (outcomes : Nat → TurnOutcome) :
    Nat → Nat → List Bytes → Option (List Turn)
  | 0, _, _ => none
  | _ + 1, _, [] => none
  | fuel + 1, round, chunk :: reads =>
      let outcome := outcomes round
      match receiveHeaders chunk (memory.behind round) with
      | .closed => some [if outcome.peerDisconnected then .readEnds else .readFails]
      | .crashed => none
      | .unparsed =>
          match outcome.indeterminate with
          | none => none
          | some type =>
              -- `_remainder` is zeroed, and `handle_post` crashes on it
              if type = .POST then none else some [.served outcome.file outcome.notFound false]
      | .parsed request remainder =>
          if request.type = .POST then
            (handlePostOpens request remainder (memory.stack round) outcome.opened reads).bind
              fun (further, left) =>
                (if request.keepAlive then turnsOf memory outcomes fuel (round + 1) left
                  else some []).map (.post outcome.first further request.keepAlive :: ·)
          else
            (if request.keepAlive then turnsOf memory outcomes fuel (round + 1) reads
              else some []).map (servedTurn outcome request :: ·)

/-! ### Turns and answers -/

/-- The turn serves the request in the branch of its type. -/
def Serves (obtained : Obtained) (turn : Turn) : Prop :=
  match obtained, turn with
  | .answered request, .post _ _ keepAlive =>
      request.type = .POST ∧ keepAlive = request.keepAlive
  | .answered request, .script _ keepAlive =>
      request.type ≠ .POST ∧ request.isScript = true ∧ keepAlive = request.keepAlive
  | .answered request, .served _ _ keepAlive =>
      request.type ≠ .POST ∧ keepAlive = request.keepAlive
  | .unparsed, .served _ _ keepAlive => keepAlive = false
  | _, _ => False

/-- The turn handles a request. -/
def Turn.handles : Turn → Bool
  | .readFails | .readEnds => false
  | .post _ _ _ | .script _ _ | .served _ _ _ => true

section Turns

variable {memory : Memory} {outcomes : Nat → TurnOutcome} {reads left : List Bytes}

/-- The loop of an upload leaves the same reads, whether its writes are followed or its
calls of `open`. -/
theorem storeReads_of_storeOpens {boundary file filebuf : Bytes} {stack : Stack}
    {contentLength : Int} {opened : Nat → Option Nat} {round curlength : Nat}
    {further : List (Option Nat)}
    (ended : storeOpens boundary stack contentLength opened round curlength file filebuf reads =
      some (further, left)) :
    ∃ writes, storeReads boundary stack contentLength round curlength file filebuf reads =
      some (writes, left) := by
  induction reads generalizing round curlength file filebuf further with
  | nil =>
      simp only [storeOpens] at ended
      split at ended
      · cases ended
      · cases ended
        exact ⟨[], rfl⟩
  | cons chunk reads inductionHypothesis =>
      rw [storeOpens] at ended
      rw [storeReads]
      split at ended
      · rename_i incomplete
        rw [if_pos incomplete]
        split at ended
        · rename_i isEmpty
          cases ended
          exact ⟨[], if_pos isEmpty⟩
        · rename_i nonempty
          obtain ⟨⟨next, now⟩, stored, rest⟩ := Option.bind_eq_some_iff.mp ended
          obtain ⟨⟨later, onward⟩, looped, same⟩ := Option.map_eq_some_iff.mp rest
          cases same
          obtain ⟨writes, read⟩ := inductionHypothesis looped
          refine ⟨now ++ writes, ?_⟩
          simp only [if_neg nonempty, stored, Option.bind_some, read, Option.map_some]
      · rename_i complete
        cases ended
        exact ⟨[], if_neg complete⟩

theorem handlePost_of_handlePostOpens {request : Request} {remainder : Bytes} {stack : Stack}
    {opened : Nat → Option Nat} {further : List (Option Nat)}
    (ended : handlePostOpens request remainder stack opened reads = some (further, left)) :
    ∃ writes, handlePost request remainder stack reads = some (writes, left) := by
  unfold handlePostOpens at ended
  unfold handlePost
  split at ended
  · cases ended
  · rename_i found
    obtain ⟨contentLength, number, ended⟩ := Option.bind_eq_some_iff.mp ended
    obtain ⟨filename, name, ended⟩ := Option.bind_eq_some_iff.mp ended
    obtain ⟨writes, stored⟩ := storeReads_of_storeOpens ended
    simp only [found, number, name, stored, Option.bind_some, Option.map_some]
    exact ⟨_, rfl⟩

theorem servedTurn_serves {request : Request} (notPost : request.type ≠ .POST)
    (outcome : TurnOutcome) : Serves (.answered request) (servedTurn outcome request) ∧
      (servedTurn outcome request).handles = true := by
  unfold servedTurn
  split
  · rename_i isScript
    exact ⟨⟨notPost, (Bool.and_eq_true_iff.mp isScript).2, rfl⟩, rfl⟩
  · exact ⟨⟨notPost, rfl⟩, rfl⟩

theorem servedTurn_run (client : Client) (outcome : TurnOutcome) (request : Request) :
    ((servedTurn outcome request).run client).1 = (client.closeUnless request.keepAlive).1 := by
  unfold servedTurn
  split
  · rfl
  · rfl

/-- Every request that is answered is handled in one turn, in the branch of its type. -/
theorem turnsOf_serves {fuel round : Nat} {turns : List Turn}
    (ended : turnsOf memory outcomes fuel round reads = some turns) :
    List.Forall₂ Serves (communicate memory fuel round reads) (turns.filter Turn.handles) := by
  induction fuel generalizing round reads turns with
  | zero => cases ended
  | succ fuel inductionHypothesis =>
      cases reads with
      | nil => cases ended
      | cons chunk reads =>
          have goesOn {keepAlive : Bool} {left : List Bytes} {later : List Turn}
              (looped : (if keepAlive then turnsOf memory outcomes fuel (round + 1) left
                else some []) = some later) :
              List.Forall₂ Serves
                (if keepAlive then communicate memory fuel (round + 1) left else [])
                (later.filter Turn.handles) := by
            cases keepAlive with
            | true => exact inductionHypothesis looped
            | false =>
                cases looped
                exact .nil
          rw [turnsOf] at ended
          rw [communicate]
          cases received : receiveHeaders chunk (memory.behind round) with
          | closed =>
              simp only [received, Option.some.injEq] at ended ⊢
              subst ended
              cases (outcomes round).peerDisconnected with
              | true => exact .nil
              | false => exact .nil
          | crashed => simp only [received, reduceCtorEq] at ended
          | unparsed =>
              simp only [received] at ended ⊢
              split at ended
              · cases ended
              · split at ended
                · cases ended
                · cases ended
                  exact .cons rfl .nil
          | parsed request remainder =>
              simp only [received] at ended ⊢
              split at ended
              · rename_i isPost
                obtain ⟨⟨further, onward⟩, opens, ended⟩ := Option.bind_eq_some_iff.mp ended
                obtain ⟨writes, stored⟩ := handlePost_of_handlePostOpens opens
                obtain ⟨later, looped, rfl⟩ := Option.map_eq_some_iff.mp ended
                simp only [if_pos isPost, stored]
                exact .cons ⟨isPost, rfl⟩ (goesOn looped)
              · rename_i notPost
                obtain ⟨later, looped, rfl⟩ := Option.map_eq_some_iff.mp ended
                simp only [if_neg notPost]
                obtain ⟨serves, handles⟩ := servedTurn_serves notPost (outcomes round)
                rw [List.filter_cons_of_pos handles]
                exact .cons serves (goesOn looped)

/-- A turn that closes the client is the last one. -/
theorem innerLoop_last {client : Client} (isOpen : client.isOpen = true) {turn : Turn}
    (closed : (turn.run client).1.isOpen = false) : (innerLoop client [turn]).isSome = true := by
  rw [innerLoop_cons isOpen, Option.isSome_map]
  simp only [innerLoop, closed, Bool.false_eq_true, if_false, Option.isSome_some]

/-- Behind a request the loop goes on with the turns that follow, if it is kept alive. -/
theorem innerLoop_request {client : Client} (isOpen : client.isOpen = true) {turn : Turn}
    {keepAlive : Bool} (behind : (turn.run client).1 = (client.closeUnless keepAlive).1)
    {later : List Turn}
    (ends : if keepAlive then (innerLoop client later).isSome = true else later = []) :
    (innerLoop client (turn :: later)).isSome = true := by
  cases keepAlive with
  | true =>
      rw [innerLoop_cons isOpen, Option.isSome_map, behind]
      exact ends
  | false =>
      cases ends
      exact innerLoop_last isOpen (behind ▸ (close_turned ∅ isOpen).1)

/-- A read that fails or is empty closes the client. -/
theorem closedTurn_run {client : Client} (isOpen : client.isOpen = true)
    (peerDisconnected : Bool) :
    ((if peerDisconnected then Turn.readEnds else .readFails).run client).1.isOpen = false := by
  cases peerDisconnected with
  | true =>
      have gone : ({ client with peerDisconnected := true } : Client).isOpen = true := isOpen
      exact (congrArg (·.1.isOpen) (closeTwice_eq gone)).trans (close_turned ∅ gone).1
  | false => exact (congrArg (·.1.isOpen) (closeTwice_eq isOpen)).trans (close_turned ∅ isOpen).1

/-- The turns are those of a loop that has ended. -/
theorem innerLoop_turnsOf {fuel round : Nat} {turns : List Turn} {client : Client}
    (isOpen : client.isOpen = true)
    (ended : turnsOf memory outcomes fuel round reads = some turns) :
    (innerLoop client turns).isSome = true := by
  induction fuel generalizing round reads turns with
  | zero => cases ended
  | succ fuel inductionHypothesis =>
      cases reads with
      | nil => cases ended
      | cons chunk reads =>
          have goesOn {keepAlive : Bool} {left : List Bytes} {later : List Turn}
              (looped : (if keepAlive then turnsOf memory outcomes fuel (round + 1) left
                else some []) = some later) :
              if keepAlive then (innerLoop client later).isSome = true else later = [] := by
            cases keepAlive with
            | true => exact inductionHypothesis looped
            | false =>
                cases looped
                rfl
          rw [turnsOf] at ended
          cases received : receiveHeaders chunk (memory.behind round) with
          | closed =>
              simp only [received, Option.some.injEq] at ended
              subst ended
              exact innerLoop_last isOpen (closedTurn_run isOpen (outcomes round).peerDisconnected)
          | crashed => simp only [received, reduceCtorEq] at ended
          | unparsed =>
              simp only [received] at ended
              split at ended
              · cases ended
              · split at ended
                · cases ended
                · cases ended
                  exact innerLoop_last isOpen (close_turned ∅ isOpen).1
          | parsed request remainder =>
              simp only [received] at ended
              split at ended
              · obtain ⟨⟨further, onward⟩, -, ended⟩ := Option.bind_eq_some_iff.mp ended
                obtain ⟨later, looped, rfl⟩ := Option.map_eq_some_iff.mp ended
                exact innerLoop_request isOpen rfl (goesOn looped)
              · obtain ⟨later, looped, rfl⟩ := Option.map_eq_some_iff.mp ended
                exact innerLoop_request isOpen (servedTurn_run client _ request) (goesOn looped)

/-- The descriptors of the worker by the bytes it reads: when the turns of a connection are
those of its reads, each upload among them whose last `open` succeeds leaves one open. -/
theorem card_left_open_of_reads {fuel : Nat} {turns : List Turn} (socket : Nat)
    (ended : turnsOf memory outcomes fuel 0 reads = some turns) :
    ∃ calls, Connection.calls ⟨socket, true, turns⟩ = some calls ∧
      ∀ start finish, applyCalls calls start = some finish →
        finish.card = start.card + turns.countP Turn.LeavesFile := by
  have isOpen : (Client.construct socket true).1.isOpen = true := rfl
  have looped := innerLoop_turnsOf isOpen ended
  obtain ⟨calls, looped⟩ := Option.isSome_iff_exists.mp looped
  have called : Connection.calls ⟨socket, true, turns⟩ =
      some (.opened socket :: (Client.construct socket true).2 ++ calls) :=
    Option.map_eq_some_iff.mpr ⟨calls, looped, rfl⟩
  exact ⟨_, called, fun _ _ applied => card_left_open called applied⟩

end Turns

end Ivos.Http
