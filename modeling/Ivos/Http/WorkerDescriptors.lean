/-
Module: Ivos.Http.WorkerDescriptors
Purpose: The inner loop of `Server::handle_communication` by the system calls of each
  turn, and the descriptors that are open in the worker when it ends.
Trusted boundary: none
Main exports: Turn, handlePostCalls, executeScriptCalls, innerLoop, Connection,
  Turn.LeavesFile, innerLoop_descriptors, card_left_open, keeps_worker_descriptors_iff,
  upload_leaks_descriptor
-/
import Ivos.Http.AcceptLoop

namespace Ivos.Http

/-!
Each turn takes the outcomes of its system calls from outside: what `SSL_read`, `pipe`,
`open` and the opening of an `ifstream` return.  What is read decides which kind of
turn it is and how many parts an upload has.  A crash ends the worker, not its loop.
The child that `execute_script` forks has its own copy of the descriptors; a `fork`
that fails leaves the parent on the same path.
-/

/-! ### The methods of `Client` -/

/-- `open`, which returns -1 where this is `none`. -/
def openCalls (fd : Option Nat) : List SystemCall := fd.toList.map .opened

/-- `::close`, which does nothing for -1. -/
def closeCalls (fd : Option Nat) : List SystemCall := fd.toList.map .closed

/-- The loop of `handle_post` by what `open` returns in the rounds that find the header
of another part.  The other rounds write, or are the last one. -/
def storeCalls : Option Nat → List (Option Nat) → List SystemCall
  | _, [] => []
  | fd, next :: later => closeCalls fd ++ openCalls next ++ storeCalls next later

/-- `Client::handle_post`, by what its first and its further calls of `open` return. -/
def Client.handlePostCalls (client : Client) (first : Option Nat) (further : List (Option Nat)) :
    List SystemCall :=
  openCalls first ++ storeCalls first further ++ client.send

/-- `Client::execute_script` in the parent, by the two ends that `pipe` returns. -/
def Client.executeScriptCalls (client : Client) (pipe : Option (Nat × Nat)) : List SystemCall :=
  match pipe with
  | none => []
  | some (readEnd, writeEnd) =>
      [.opened readEnd, .opened writeEnd, .closed writeEnd, .closed readEnd] ++ client.send

/-- `Response::create_file_response` and `Client::send`. -/
def Client.fileCalls (client : Client) (file notFound : Option Nat) : List SystemCall :=
  loadFile file ++ (if file.isNone then loadFile notFound else []) ++ client.send

/-! ### The inner loop -/

/-- The outcomes of one turn of the inner loop. -/
inductive Turn where
  /-- `SSL_read` returns -1. -/
  | readFails
  /-- `SSL_read` returns 0. -/
  | readEnds
  | post (first : Option Nat) (further : List (Option Nat)) (keepAlive : Bool)
  | script (pipe : Option (Nat × Nat)) (keepAlive : Bool)
  | served (file notFound : Option Nat) (keepAlive : Bool)
deriving Repr, DecidableEq

/-- `if (!request.keep_alive()) client.close();` -/
def Client.closeUnless (client : Client) (keepAlive : Bool) : Client × List SystemCall :=
  if !keepAlive then client.close else (client, [])

/-- `receive_headers` closes the client, and the loop calls `close` again. -/
def Client.closeTwice (client : Client) : Client × List SystemCall :=
  let (client, first) := client.close
  let (client, second) := client.close
  (client, first ++ second)

/-- The body of the inner loop. -/
def Turn.run (client : Client) : Turn → Client × List SystemCall
  | .readFails => client.closeTwice
  | .readEnds => { client with peerDisconnected := true }.closeTwice
  | .post first further keepAlive =>
      let (after, closing) := client.closeUnless keepAlive
      (after, client.handlePostCalls first further ++ closing)
  | .script pipe keepAlive =>
      let (after, closing) := client.closeUnless keepAlive
      (after, client.executeScriptCalls pipe ++ closing)
  | .served file notFound keepAlive =>
      let (after, closing) := client.closeUnless keepAlive
      (after, client.fileCalls file notFound ++ closing)

/-- `while (client.is_open())`.  `none` is a loop that has not ended, or turns behind its
end. -/
def innerLoop (client : Client) : List Turn → Option (List SystemCall)
  | [] => if client.isOpen then none else some []
  | turn :: later =>
      if client.isOpen then
        let (after, calls) := turn.run client
        (innerLoop after later).map (calls ++ ·)
      else none

/-- A connection that `recv_fd` delivers, with what happens on it. -/
structure Connection where
  socket : Nat
  sslAccepted : Bool
  turns : List Turn
deriving Repr, DecidableEq

/-- `handle_communication` from `recv_fd` to the end of its inner loop. -/
def Connection.calls (connection : Connection) : Option (List SystemCall) :=
  let (client, constructed) := Client.construct connection.socket connection.sslAccepted
  (innerLoop client connection.turns).map fun calls =>
    .opened connection.socket :: constructed ++ calls

/-! ### One turn -/

/-- What the last `open` of `handle_post` returns. -/
def lastOpened : Option Nat → List (Option Nat) → Option Nat
  | fd, [] => fd
  | _, next :: later => lastOpened next later

/-- The file that a turn opens last and does not close. -/
def Turn.leftOpen : Turn → Option Nat
  | .post first further _ => lastOpened first further
  | .readFails | .readEnds | .script _ _ | .served _ _ _ => none

/-- The turn is an upload whose last `open` succeeds. -/
def Turn.LeavesFile (turn : Turn) : Prop := turn.leftOpen.isSome = true

instance : DecidablePred Turn.LeavesFile :=
  fun turn => inferInstanceAs (Decidable (turn.leftOpen.isSome = true))

section Turns

variable {descriptors after : Finset Nat} {client : Client}

/-- The descriptors with one more, if there is one. -/
def withFile (fd : Option Nat) (descriptors : Finset Nat) : Finset Nat :=
  fd.elim descriptors (insert · descriptors)

theorem applyCalls_openCalls {fd : Option Nat}
    (applied : applyCalls (openCalls fd) descriptors = some after) :
    after = withFile fd descriptors ∧ ∀ file ∈ fd, file ∉ descriptors := by
  cases fd with
  | none => exact ⟨(Option.some.inj applied).symm, by simp⟩
  | some file =>
      obtain ⟨unused, rest⟩ := applyCalls_opened applied
      exact ⟨(Option.some.inj rest).symm, by simpa using unused⟩

/-- Closed, a file is gone. -/
theorem applyCalls_closeCalls {fd : Option Nat} (unused : ∀ file ∈ fd, file ∉ descriptors) :
    applyCalls (closeCalls fd) (withFile fd descriptors) = some descriptors := by
  cases fd with
  | none => rfl
  | some file => exact congrArg some (Finset.erase_insert (unused file rfl))

/-- However many files an upload opens, all but the last one are closed. -/
theorem applyCalls_storeCalls {fd : Option Nat} {further : List (Option Nat)}
    (unused : ∀ file ∈ fd, file ∉ descriptors)
    (applied : applyCalls (storeCalls fd further) (withFile fd descriptors) = some after) :
    after = withFile (lastOpened fd further) descriptors ∧
      ∀ file ∈ lastOpened fd further, file ∉ descriptors := by
  induction further generalizing fd with
  | nil => exact ⟨(Option.some.inj applied).symm, unused⟩
  | cons next later inductionHypothesis =>
      rw [storeCalls, applyCalls_append] at applied
      obtain ⟨opened, applied, rest⟩ := Option.bind_eq_some_iff.mp applied
      rw [applyCalls_append, applyCalls_closeCalls unused] at applied
      obtain ⟨rfl, unusedNext⟩ := applyCalls_openCalls applied
      exact inductionHypothesis unusedNext rest

theorem applyCalls_send {calls : List SystemCall} (applied :
    applyCalls (calls ++ client.send) descriptors = some after) :
    applyCalls calls descriptors = some after := by
  rw [applyCalls_append] at applied
  obtain ⟨sent, applied, written⟩ := Option.bind_eq_some_iff.mp applied
  unfold Client.send at written
  split at written
  · cases written
    exact applied
  · cases written
    exact applied

theorem applyCalls_handlePost {first : Option Nat} {further : List (Option Nat)}
    (applied : applyCalls (client.handlePostCalls first further) descriptors = some after) :
    after = withFile (lastOpened first further) descriptors ∧
      ∀ file ∈ lastOpened first further, file ∉ descriptors := by
  have stored := applyCalls_send applied
  rw [applyCalls_append] at stored
  obtain ⟨opened, opens, stored⟩ := Option.bind_eq_some_iff.mp stored
  obtain ⟨rfl, unused⟩ := applyCalls_openCalls opens
  exact applyCalls_storeCalls unused stored

/-- The parent closes both ends of the pipe. -/
theorem applyCalls_executeScript {pipe : Option (Nat × Nat)}
    (applied : applyCalls (client.executeScriptCalls pipe) descriptors = some after) :
    after = descriptors := by
  cases pipe with
  | none => exact (Option.some.inj applied).symm
  | some ends =>
      obtain ⟨unusedRead, applied⟩ := applyCalls_opened (applyCalls_send applied)
      obtain ⟨unusedWrite, closed⟩ := applyCalls_opened applied
      cases closed
      rw [Finset.erase_insert unusedWrite, Finset.erase_insert unusedRead]

theorem applyCalls_file {file notFound : Option Nat}
    (applied : applyCalls (client.fileCalls file notFound) descriptors = some after) :
    after = descriptors := by
  have loaded := applyCalls_send applied
  rw [applyCalls_append] at loaded
  obtain ⟨first, loading, second⟩ := Option.bind_eq_some_iff.mp loaded
  cases applyCalls_loadFile loading
  split at second
  · exact applyCalls_loadFile second
  · exact (Option.some.inj second).symm

/-- What a turn with an open client comes to. -/
inductive Turned (client : Client) (descriptors : Finset Nat) (fd : Option Nat) :
    Client → Finset Nat → Prop where
  | goesOn : Turned client descriptors fd client (withFile fd descriptors)
  | closes {after : Client} (closed : after.isOpen = false) :
      Turned client descriptors fd after ((withFile fd descriptors).erase client.socket)

theorem close_turned (descriptors : Finset Nat) (isOpen : client.isOpen = true) :
    client.close.1.isOpen = false ∧
      applyCalls client.close.2 descriptors = some (descriptors.erase client.socket) := by
  obtain ⟨socket, _, peerDisconnected⟩ := client
  cases isOpen
  cases peerDisconnected with
  | true => exact ⟨rfl, rfl⟩
  | false => exact ⟨rfl, rfl⟩

/-- The second `close` does nothing. -/
theorem closeTwice_eq (isOpen : client.isOpen = true) : client.closeTwice = client.close := by
  obtain ⟨socket, _, peerDisconnected⟩ := client
  cases isOpen
  cases peerDisconnected with
  | true => rfl
  | false => rfl

theorem closeTwice_turned (isOpen : client.isOpen = true)
    (applied : applyCalls client.closeTwice.2 descriptors = some after) :
    client.closeTwice.1.isOpen = false ∧ after = descriptors.erase client.socket := by
  obtain ⟨closed, erased⟩ := close_turned descriptors isOpen
  rw [closeTwice_eq isOpen] at applied ⊢
  exact ⟨closed, Option.some.inj (applied.symm.trans erased)⟩

/-- Behind the calls of a request the client is closed, unless it is kept alive. -/
theorem closeUnless_turned {keepAlive : Bool} {calls : List SystemCall} {fd : Option Nat}
    (isOpen : client.isOpen = true)
    (requested : ∀ middle, applyCalls calls descriptors = some middle →
      middle = withFile fd descriptors)
    (applied : applyCalls (calls ++ (client.closeUnless keepAlive).2) descriptors = some after) :
    Turned client descriptors fd (client.closeUnless keepAlive).1 after := by
  rw [applyCalls_append] at applied
  obtain ⟨middle, called, closing⟩ := Option.bind_eq_some_iff.mp applied
  cases requested middle called
  cases keepAlive with
  | true =>
      cases closing
      exact .goesOn
  | false =>
      obtain ⟨closed, erased⟩ := close_turned (withFile fd descriptors) isOpen
      cases erased.symm.trans closing
      exact .closes closed

/-- A turn leaves the file it has opened last, and closes the client or does not. -/
theorem Turn.run_turned {turn : Turn} (isOpen : client.isOpen = true)
    (applied : applyCalls (turn.run client).2 descriptors = some after) :
    Turned client descriptors turn.leftOpen (turn.run client).1 after ∧
      ∀ file ∈ turn.leftOpen, file ∉ descriptors := by
  cases turn with
  | readFails =>
      obtain ⟨closed, rfl⟩ := closeTwice_turned isOpen applied
      exact ⟨.closes closed, by simp [Turn.leftOpen]⟩
  | readEnds =>
      have gone : ({ client with peerDisconnected := true } : Client).isOpen = true := isOpen
      obtain ⟨closed, rfl⟩ := closeTwice_turned gone applied
      exact ⟨.closes closed, by simp [Turn.leftOpen]⟩
  | post first further keepAlive =>
      have parts := applied
      rw [Turn.run, applyCalls_append] at parts
      obtain ⟨middle, posted, -⟩ := Option.bind_eq_some_iff.mp parts
      refine ⟨closeUnless_turned isOpen ?_ applied, (applyCalls_handlePost posted).2⟩
      exact fun _ called => (applyCalls_handlePost called).1
  | script pipe keepAlive =>
      refine ⟨closeUnless_turned isOpen ?_ applied, by simp [Turn.leftOpen]⟩
      exact fun _ => applyCalls_executeScript
  | served file notFound keepAlive =>
      refine ⟨closeUnless_turned isOpen ?_ applied, by simp [Turn.leftOpen]⟩
      exact fun _ => applyCalls_file

end Turns

/-! ### The loop and the connection -/

theorem innerLoop_closed {client : Client} {turns : List Turn} {calls : List SystemCall}
    (closed : client.isOpen = false) (ended : innerLoop client turns = some calls) :
    turns = [] ∧ calls = [] := by
  cases turns with
  | nil =>
      simp only [innerLoop, closed, Bool.false_eq_true, if_false, Option.some.injEq] at ended
      exact ⟨rfl, ended.symm⟩
  | cons turn later => simp [innerLoop, closed] at ended

theorem innerLoop_cons {client : Client} (isOpen : client.isOpen = true) (turn : Turn)
    (later : List Turn) : innerLoop client (turn :: later) =
      (innerLoop (turn.run client).1 later).map ((turn.run client).2 ++ ·) :=
  if_pos isOpen

/-- The file a turn leaves is one more than those of the turns behind it. -/
theorem exists_left {turn : Turn} (later : List Turn) {descriptors left : Finset Nat}
    (unused : ∀ file ∈ turn.leftOpen, file ∉ descriptors)
    (apart : Disjoint left (withFile turn.leftOpen descriptors))
    (count : left.card = later.countP Turn.LeavesFile) :
    ∃ all : Finset Nat, Disjoint all descriptors ∧
      all.card = (turn :: later).countP Turn.LeavesFile ∧
      descriptors ∪ all = withFile turn.leftOpen descriptors ∪ left := by
  cases last : turn.leftOpen with
  | none =>
      rw [last] at apart
      have leavesNone : ¬turn.LeavesFile := by simp [Turn.LeavesFile, last]
      exact ⟨left, apart, by simpa [leavesNone] using count, rfl⟩
  | some file =>
      rw [last] at apart
      have leavesOne : turn.LeavesFile := by simp [Turn.LeavesFile, last]
      obtain ⟨isNew, others⟩ := Finset.disjoint_insert_right.mp apart
      refine ⟨insert file left, ?_, ?_, ?_⟩
      · exact Finset.disjoint_insert_left.mpr ⟨unused file last, others⟩
      · rw [Finset.card_insert_of_notMem isNew, count]
        simp [leavesOne]
      · exact (Finset.union_insert file descriptors left).trans
          (Finset.insert_union file descriptors left).symm

/-- When the loop ends, the socket is closed and one file is left for every upload whose
last `open` succeeded. -/
theorem innerLoop_descriptors {client : Client} {turns : List Turn} {calls : List SystemCall}
    {descriptors finish : Finset Nat} (isOpen : client.isOpen = true)
    (ended : innerLoop client turns = some calls)
    (applied : applyCalls calls descriptors = some finish) :
    ∃ left : Finset Nat, Disjoint left descriptors ∧ left.card = turns.countP Turn.LeavesFile ∧
      finish = (descriptors ∪ left).erase client.socket := by
  induction turns generalizing client descriptors calls with
  | nil => simp [innerLoop, isOpen] at ended
  | cons turn later inductionHypothesis =>
      rw [innerLoop_cons isOpen] at ended
      obtain ⟨rest, looped, rfl⟩ := Option.map_eq_some_iff.mp ended
      rw [applyCalls_append] at applied
      obtain ⟨middle, turned, onward⟩ := Option.bind_eq_some_iff.mp applied
      obtain ⟨outcome, unused⟩ := Turn.run_turned isOpen turned
      generalize after : (turn.run client).1 = next at outcome looped
      cases outcome with
      | goesOn =>
          obtain ⟨left, apart, count, finished⟩ := inductionHypothesis isOpen looped onward
          obtain ⟨all, free, counted, joined⟩ := exists_left later unused apart count
          exact ⟨all, free, counted, joined ▸ finished⟩
      | closes closed =>
          obtain ⟨rfl, rfl⟩ := innerLoop_closed closed looped
          cases onward
          obtain ⟨all, free, counted, joined⟩ :=
            exists_left [] unused (Finset.disjoint_empty_left _) rfl
          exact ⟨all, free, counted, by rw [joined, Finset.union_empty]⟩

/-- When the inner loop ends, the worker has the descriptors it had before the connection
and one more for every upload whose last `open` succeeded. -/
theorem Connection.descriptors {connection : Connection} {calls : List SystemCall}
    {start finish : Finset Nat} (ended : connection.calls = some calls)
    (applied : applyCalls calls start = some finish) :
    ∃ left : Finset Nat, Disjoint left start ∧
      left.card = connection.turns.countP Turn.LeavesFile ∧ finish = start ∪ left := by
  obtain ⟨socket, sslAccepted, turns⟩ := connection
  obtain ⟨rest, looped, rfl⟩ := Option.map_eq_some_iff.mp ended
  obtain ⟨unused, applied⟩ := applyCalls_opened applied
  cases sslAccepted with
  | true =>
      obtain ⟨left, apart, count, rfl⟩ := innerLoop_descriptors rfl looped applied
      obtain ⟨notLeft, others⟩ := Finset.disjoint_insert_right.mp apart
      refine ⟨left, others, count, ?_⟩
      have notJoined : socket ∉ start ∪ left := by simp [unused, notLeft]
      rw [Finset.insert_union]
      exact Finset.erase_insert notJoined
  | false =>
      obtain ⟨rfl, rfl⟩ := innerLoop_closed rfl looped
      cases applied
      refine ⟨∅, Finset.disjoint_empty_left _, rfl, ?_⟩
      rw [Finset.union_empty]
      exact Finset.erase_insert unused

/-- Each upload whose last `open` succeeds leaves one descriptor open. -/
theorem card_left_open {connection : Connection} {calls : List SystemCall}
    {start finish : Finset Nat} (ended : connection.calls = some calls)
    (applied : applyCalls calls start = some finish) :
    finish.card = start.card + connection.turns.countP Turn.LeavesFile := by
  obtain ⟨left, apart, count, rfl⟩ := connection.descriptors ended applied
  rw [Finset.card_union_of_disjoint apart.symm, count]

/-- When the inner loop ends, the worker has the descriptors open that it had before the
connection was delivered, exactly if no upload on it opened its last file. -/
theorem keeps_worker_descriptors_iff (connection : Connection) (calls : List SystemCall)
    (start finish : Finset Nat) (ended : connection.calls = some calls)
    (applied : applyCalls calls start = some finish) :
    finish = start ↔ ∀ turn ∈ connection.turns, ¬turn.LeavesFile := by
  have size := card_left_open ended applied
  obtain ⟨left, apart, count, rfl⟩ := connection.descriptors ended applied
  have none_left : (∀ turn ∈ connection.turns, ¬turn.LeavesFile) ↔ left = ∅ := by
    rw [← Finset.card_eq_zero, count, List.countP_eq_zero]
    simp
  rw [none_left]
  constructor
  · intro same
    rw [same] at size
    exact Finset.card_eq_zero.mp (by omega)
  · rintro rfl
    exact Finset.union_empty start

/-- A script, a file, and an upload that cannot open its file. -/
def quietConnection : Connection where
  socket := 7
  sslAccepted := true
  turns := [.script (some (8, 9)) true, .served none (some 8) true, .post none [] true, .readEnds]

theorem keeps_worker_descriptors_quiet : ({3, 5} : Finset Nat) = {3, 5} ↔
    ∀ turn ∈ quietConnection.turns, ¬turn.LeavesFile :=
  keeps_worker_descriptors_iff quietConnection _ {3, 5} {3, 5} rfl (by decide)

/-- An upload of two parts: the file of the second part stays open. -/
theorem upload_leaks_descriptor : ¬∀ (connection : Connection) (calls : List SystemCall)
    (start finish : Finset Nat), connection.calls = some calls →
      applyCalls calls start = some finish → finish = start := by
  intro claimed
  have same := claimed ⟨7, true, [.post (some 8) [some 8] false]⟩ _ {3, 5} {3, 5, 8} rfl
    (by decide)
  exact absurd same (by decide)

end Ivos.Http
