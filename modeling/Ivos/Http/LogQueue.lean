/-
Module: Ivos.Http.LogQueue
Purpose: The messages of the server, the `/logger` queue between its processes and the
  logger process, and the lines that every log gets, over all interleavings.
Trusted boundary: writing to a log succeeds
Main exports: LogLevel, LogMessage, createLogMessage, Notice, Notice.FromServer, logLine,
  lineFraming, Logging, logMachine, exists_written, OnlyServerSends, log_reads_back_what_was_sent
-/
import Ivos.Http.ResponseText
import Ivos.Library.Framing
import Ivos.Library.PartialMachine

namespace Ivos.Http

/-! ### Messages

The messages of the server are listed with what each puts into its text.  Some of that comes
from clients and from the operating system; a line of a log stays a line because none of it
can hold a newline.
-/

inductive LogLevel where
  | debug
  | info
  | warning
  | error
  | fatal
deriving Repr, DecidableEq

/-- `Logger::_levelStrings`. -/
def LogLevel.levelString : LogLevel → Bytes
  | .debug => ascii "DEBUG"
  | .info => ascii "INFO"
  | .warning => ascii "WARNING"
  | .error => ascii "ERROR"
  | .fatal => ascii "FATAL"

/-- `messaging::LogMessage`, with the text up to its terminator. -/
structure LogMessage where
  level : LogLevel
  time : Int
  message : Bytes
deriving Repr, DecidableEq

/-- `messaging::createLogMessage`: `strncpy` copies at most 255 characters of the C string. -/
def createLogMessage (level : LogLevel) (now : Int) (msg : Bytes) : LogMessage :=
  ⟨level, now, (cString msg).take 255⟩

/-- The system calls whose errors are logged. -/
inductive FailingCall where
  | sendmsg
  | recvmsg
  | fork
  | accept
  | mqReceive
  | sendFd
deriving Repr, DecidableEq

def FailingCall.name : FailingCall → Bytes
  | .sendmsg => ascii "sendmsg"
  | .recvmsg => ascii "recvmsg"
  | .fork => ascii "fork"
  | .accept => ascii "accept"
  | .mqReceive => ascii "mq_receive"
  | .sendFd => ascii "send_fd"

/-- What the processes of the server log, with what they put into it. -/
inductive Notice where
  | failed (call : FailingCall) (strerror : Bytes)
  | noControlMessage
  | waiting (pid : Int)
  | connected (pid : Int) (ip port : Bytes)
  | requested (ip port : Bytes) (type : RequestType) (path : Bytes)
  | notAccepted (pid code : Int)
  | accepted
  | serverPid (pid : Int)
  | started (port : Nat)
  | waitingForConnection
  | serviceUnavailable
  | serviceUnavailableSent
  | connectionSent (pid : Int)
  | shuttingDown
  | childKilled (pid : Int)
deriving Repr, DecidableEq

def Notice.level : Notice → LogLevel
  | .failed _ _ | .noControlMessage | .notAccepted _ _ => .error
  | .connected _ _ _ | .requested _ _ _ _ | .accepted | .serverPid _ | .started _
  | .shuttingDown => .info
  | .serviceUnavailable => .warning
  | .waiting _ | .waitingForConnection | .serviceUnavailableSent | .connectionSent _
  | .childKilled _ => .debug

def Notice.text : Notice → Bytes
  | .failed call strerror => call.name ++ ascii ": " ++ strerror
  | .noControlMessage => ascii "No control message received"
  | .waiting pid => ascii "PID: " ++ toDecimal pid ++ ascii " waiting for connection"
  | .connected pid ip port =>
      ascii "PID: " ++ toDecimal pid ++ ascii ", IP: " ++ ip ++ ascii ":" ++ port ++
        ascii " connected"
  | .requested ip port type path =>
      ip ++ ascii ":" ++ port ++ ascii " -> [" ++ typeToString type ++ ascii "]: " ++ path
  | .notAccepted pid code =>
      ascii "PID: " ++ toDecimal pid ++ ascii " Failed to accept SSL connection code (" ++
        toDecimal code ++ ascii ")"
  | .accepted => ascii "Accepted SSL connection"
  | .serverPid pid => ascii "Server PID: " ++ toDecimal pid
  | .started port => ascii "Server started on port " ++ toDecimal port
  | .waitingForConnection => ascii "Waiting for connection"
  | .serviceUnavailable => ascii "Service unavailable"
  | .serviceUnavailableSent => ascii "Service unavailable response sent"
  | .connectionSent pid => ascii "Connection sent to PID: " ++ toDecimal pid
  | .shuttingDown => ascii "Server shutting down before killing child processes"
  | .childKilled pid => ascii "Child process with PID: " ++ toDecimal pid ++ ascii " killed"

/-- The message of a notice. -/
def Notice.message (now : Int) (notice : Notice) : LogMessage :=
  createLogMessage notice.level now notice.text

/-- A newline. -/
def newline : UInt8 := 10

/-- What the texts that a notice is given are: the names that the system has for errors and
addresses, and the path that `parse` took from a header block, or none where the read had no
empty line. -/
def Notice.FromServer : Notice → Prop
  | .failed _ strerror => newline ∉ strerror
  | .connected _ ip port => newline ∉ ip ∧ newline ∉ port
  | .requested ip port _ path =>
      newline ∉ ip ∧ newline ∉ port ∧
        (path = [] ∨ ∃ block request, parse block = some request ∧ request.path = path)
  | _ => True

/-- A literal without a newline. -/
theorem newline_not_mem_ascii {characters : List Char}
    (free : characters.all (fun character => character.toNat % 256 != 10) = true) :
    newline ∉ ascii (String.ofList characters) := by
  rw [ascii_ofList]
  intro inside
  obtain ⟨character, member, isNewline⟩ := List.mem_map.mp inside
  have other := List.all_eq_true.mp free character member
  have value := congrArg UInt8.toNat isNewline
  rw [UInt8.toNat_ofNat'] at value
  rw [show character.toNat % 256 = 10 from value] at other
  cases other

theorem newline_not_mem_toDecimal (value : Int) : newline ∉ toDecimal value := by
  have digits : ∀ number : Nat, newline ∉ toDecimal number := by
    intro number inside
    have isDigit := isdigit_toDecimal newline inside
    revert isDigit
    decide
  cases value with
  | ofNat number => exact digits number
  | negSucc number =>
      have shown : toDecimal (.negSucc number) = ascii "-" ++ toDecimal (number + 1 : Nat) := by
        unfold toDecimal ascii
        rw [← List.map_append, ← String.toList_append]
        rfl
      rw [shown, List.mem_append, not_or]
      exact ⟨by decide, digits _⟩

/-- A path that was parsed has no newline. -/
theorem newline_not_mem_path {block : Bytes} {request : Request}
    (parsed : parse block = some request) : newline ∉ request.path := by
  intro inside
  have printable := parse_path_printable parsed newline inside
  revert printable
  decide

theorem newline_not_mem_typeToString (type : RequestType) : newline ∉ typeToString type := by
  cases type <;> decide

/-- No notice has a newline, whatever clients send. -/
theorem Notice.FromServer.one_line {notice : Notice} (fromServer : notice.FromServer) :
    newline ∉ notice.text := by
  cases notice with
  | failed call strerror =>
      simp only [Notice.text, List.mem_append, not_or]
      exact ⟨⟨by cases call <;> decide, newline_not_mem_ascii rfl⟩, fromServer⟩
  | noControlMessage | accepted | waitingForConnection | serviceUnavailable
  | serviceUnavailableSent | shuttingDown => exact newline_not_mem_ascii rfl
  | waiting pid | childKilled pid =>
      simp only [Notice.text, List.mem_append, not_or]
      exact ⟨⟨newline_not_mem_ascii rfl, newline_not_mem_toDecimal pid⟩,
        newline_not_mem_ascii rfl⟩
  | serverPid value | started value | connectionSent value =>
      simp only [Notice.text, List.mem_append, not_or]
      exact ⟨newline_not_mem_ascii rfl, newline_not_mem_toDecimal value⟩
  | connected pid ip port =>
      simp only [Notice.text, List.mem_append, not_or]
      exact ⟨⟨⟨⟨⟨⟨newline_not_mem_ascii rfl, newline_not_mem_toDecimal pid⟩,
        newline_not_mem_ascii rfl⟩, fromServer.1⟩, newline_not_mem_ascii rfl⟩, fromServer.2⟩,
        newline_not_mem_ascii rfl⟩
  | requested ip port type path =>
      have pathFree : newline ∉ path := by
        rcases fromServer.2.2 with rfl | ⟨block, request, parsed, rfl⟩
        · exact List.not_mem_nil
        · exact newline_not_mem_path parsed
      simp only [Notice.text, List.mem_append, not_or]
      exact ⟨⟨⟨⟨⟨⟨fromServer.1, newline_not_mem_ascii rfl⟩, fromServer.2.1⟩,
        newline_not_mem_ascii rfl⟩, newline_not_mem_typeToString type⟩,
        newline_not_mem_ascii rfl⟩, pathFree⟩
  | notAccepted pid code =>
      simp only [Notice.text, List.mem_append, not_or]
      exact ⟨⟨⟨⟨newline_not_mem_ascii rfl, newline_not_mem_toDecimal pid⟩,
        newline_not_mem_ascii rfl⟩, newline_not_mem_toDecimal code⟩, newline_not_mem_ascii rfl⟩

theorem newline_not_mem_message {notice : Notice} (fromServer : notice.FromServer) (now : Int) :
    newline ∉ (notice.message now).message := fun inside =>
  fromServer.one_line ((List.takeWhile_prefix _).subset (List.mem_of_mem_take inside))

/-! ### Lines

A log is read back by taking lines off its front.  What `std::put_time` makes of a time is an
argument, a text without a newline or a closing bracket; writing to a log does not fail.
-/

/-- What a line of a log shows. -/
structure LogEntry where
  stamp : Bytes
  level : LogLevel
  message : Bytes
deriving Repr, DecidableEq

/-- `Logger::log`, behind `std::put_time`. -/
def logLine (entry : LogEntry) : Bytes :=
  ascii "[" ++ entry.stamp ++ ascii "] [" ++ entry.level.levelString ++ ascii "] " ++
    entry.message ++ [newline]

/-- The level with that name. -/
def readLevel (name : Bytes) : Option LogLevel :=
  [LogLevel.debug, .info, .warning, .error, .fatal].find? fun level => level.levelString = name

/-- Take a line off the front of a log. -/
def readLine (log : Bytes) : Option (LogEntry × Bytes) := do
  let (line, rest) ← breakAt [newline] log
  let (_, line) ← breakAt (ascii "[") line
  let (stamp, line) ← breakAt (ascii "] [") line
  let (name, message) ← breakAt (ascii "] ") line
  let level ← readLevel name
  return (⟨stamp, level, message⟩, rest)

/-- A stamp without a closing bracket, and nothing with a newline. -/
structure LogEntry.OneLine (entry : LogEntry) : Prop where
  stampBracket : 93 ∉ entry.stamp
  stamp : newline ∉ entry.stamp
  message : newline ∉ entry.message

theorem readLevel_levelString (level : LogLevel) : readLevel level.levelString = some level := by
  cases level <;> decide

theorem bracket_not_mem_levelString (level : LogLevel) : 93 ∉ level.levelString := by
  cases level <;> decide

theorem newline_not_mem_levelString (level : LogLevel) : newline ∉ level.levelString := by
  cases level <;> decide

/-- A line is read as the entry it was written for. -/
theorem readLine_logLine {entry : LogEntry} (oneLine : entry.OneLine) (rest : Bytes) :
    readLine (logLine entry ++ rest) = some (entry, rest) := by
  let afterStamp := entry.level.levelString ++ ascii "] " ++ entry.message
  let afterOpening := entry.stamp ++ ascii "] [" ++ afterStamp
  have free : newline ∉ ascii "[" ++ afterOpening := by
    simp only [afterOpening, afterStamp, List.mem_append, not_or]
    exact ⟨newline_not_mem_ascii rfl, ⟨oneLine.stamp, newline_not_mem_ascii rfl⟩,
      ⟨newline_not_mem_levelString entry.level, newline_not_mem_ascii rfl⟩, oneLine.message⟩
  have written : logLine entry = ascii "[" ++ afterOpening ++ [newline] := by
    simp only [logLine, afterOpening, afterStamp, List.append_assoc]
  have line : breakAt [newline] (logLine entry ++ rest) =
      some (ascii "[" ++ afterOpening, rest) := by
    rw [written]
    exact breakAt_of_head_not_mem free
  have opening : breakAt (ascii "[") ([] ++ ascii "[" ++ afterOpening) = some ([], afterOpening) :=
    breakAt_of_head_not_mem List.not_mem_nil
  rw [List.nil_append] at opening
  have stamp : breakAt (ascii "] [") afterOpening = some (entry.stamp, afterStamp) :=
    breakAt_of_head_not_mem oneLine.stampBracket
  have level : breakAt (ascii "] ") afterStamp = some (entry.level.levelString, entry.message) :=
    breakAt_of_head_not_mem (bracket_not_mem_levelString entry.level)
  simp only [readLine, line, opening, stamp, level, readLevel_levelString, bind,
    Option.bind_some, pure]

theorem logLine_ne_nil (entry : LogEntry) : logLine entry ≠ [] := by
  simp [logLine]

/-- A log as a stream of lines. -/
def lineFraming : Framing LogEntry UInt8 where
  encode := logLine
  decode := readLine
  Qualifies := LogEntry.OneLine
  nonempty := fun _ => logLine_ne_nil _
  decodes := fun oneLine rest => readLine_logLine oneLine rest

/-! ### The logger process

The queue holds ten messages and keeps their order.  A sender waits while it is full, and any
call on it can be interrupted.  Any process may send between two steps of the logger, and
SIGQUIT may come at any time.
-/

/-- Where `start_logger_process` stands. -/
inductive LoggerPhase where
  /-- Before the test of the loop. -/
  | testing
  /-- At `mq_receive`. -/
  | receiving
  | ended
deriving Repr, DecidableEq

/-- The queue, the logs, and the logger process. -/
structure Logging where
  /-- `/logger`, oldest message first. -/
  queue : List LogMessage
  /-- What each `Logger` of the `CompositeLogger` has written. -/
  logs : List Bytes
  phase : LoggerPhase
  shouldStop : Bool
  /-- The messages that `mq_send` has queued, earliest first. -/
  sent : List LogMessage

/-- `attr.mq_maxmsg` of `/logger`. -/
def maxMessages : Nat := 10

/-- One step of a process of the server, or of the logger process. -/
inductive LogEvent where
  /-- `mq_send`, which waits while the queue is full. -/
  | send (message : LogMessage)
  /-- `mq_send` is interrupted; nobody looks at its result. -/
  | sendFails
  /-- The test of the loop, at this time. -/
  | test (now : Int)
  | receive
  /-- `mq_receive` is interrupted. -/
  | receiveFails
  /-- SIGQUIT. -/
  | quit

/-- The entry of a message, behind the conversion of its time. -/
def LogMessage.entry (putTime : Int → Bytes) (message : LogMessage) : LogEntry :=
  ⟨putTime message.time, message.level, message.message⟩

/-- `CompositeLogger::log`. -/
def logTo (putTime : Int → Bytes) (message : LogMessage) (logs : List Bytes) : List Bytes :=
  logs.map fun log => log ++ logLine (message.entry putTime)

/-- The first message of the logger process. -/
def loggerStarted (now pid : Int) : LogMessage :=
  ⟨.debug, now, ascii "Logger process started with PID: " ++ toDecimal pid⟩

/-- Its last message. -/
def loggerEnded (now : Int) : LogMessage := ⟨.debug, now, ascii "Logger process ended"⟩

/-- One step. -/
def logStep (putTime : Int → Bytes) (state : Logging) : LogEvent → Option Logging
  | .send message =>
      if state.queue.length < maxMessages then
        some { state with queue := state.queue ++ [message], sent := state.sent ++ [message] }
      else none
  | .sendFails => some state
  | .test now =>
      if state.phase = .testing then
        if state.shouldStop then
          some { state with
            logs := logTo putTime (loggerEnded now) state.logs
            phase := .ended }
        else some { state with phase := .receiving }
      else none
  | .receive =>
      match state.phase, state.queue with
      | .receiving, message :: queue =>
          some { state with
            queue := queue
            logs := logTo putTime message state.logs
            phase := .testing }
      | _, _ => none
  | .receiveFails =>
      if state.phase = .receiving then some { state with phase := .testing } else none
  | .quit => some { state with shouldStop := true }

/-- All interleavings of the senders and the logger process. -/
def logMachine (putTime : Int → Bytes) : PartialMachine Logging LogEvent where
  step := logStep putTime

/-- The logger process has started, with what an earlier run of the server left in the
queue. -/
def Logging.start (putTime : Int → Bytes) (loggers : Nat) (now pid : Int)
    (left : List LogMessage) : Logging :=
  { queue := left
    logs := List.replicate loggers (logLine ((loggerStarted now pid).entry putTime))
    phase := .testing
    shouldStop := false
    sent := [] }

/-- The logs of a list of messages behind the first, with the last line if there is one. -/
structure Written (putTime : Int → Bytes) (loggers : Nat) (first : LogMessage)
    (left : List LogMessage) (state : Logging) (received last : List LogMessage) : Prop where
  logs : state.logs = List.replicate loggers (lineFraming.writeAll
    ((first :: received ++ last).map fun message => message.entry putTime))
  inOrder : received ++ state.queue = left ++ state.sent
  running : state.phase ≠ .ended → last = []
  stopped : state.phase = .ended → ∃ now, last = [loggerEnded now]

theorem logTo_replicate (putTime : Int → Bytes) (message : LogMessage) (loggers : Nat)
    (messages : List LogMessage) :
    logTo putTime message (List.replicate loggers (lineFraming.writeAll
        (messages.map fun message => message.entry putTime))) =
      List.replicate loggers (lineFraming.writeAll
        ((messages ++ [message]).map fun message => message.entry putTime)) := by
  unfold logTo
  rw [List.map_replicate, List.map_append, Framing.writeAll_append]
  simp [lineFraming]

theorem Written.step {putTime : Int → Bytes} {loggers : Nat} {first : LogMessage}
    {left received last : List LogMessage} {before after : Logging} {event : LogEvent}
    (written : Written putTime loggers first left before received last)
    (stepped : logStep putTime before event = some after) :
    ∃ received last, Written putTime loggers first left after received last := by
  obtain ⟨logs, inOrder, running, stopped⟩ := written
  cases event with
  | send message =>
      unfold logStep at stepped
      dsimp only at stepped
      split at stepped
      · cases stepped
        refine ⟨received, last, logs, ?_, running, stopped⟩
        dsimp only
        rw [← List.append_assoc, inOrder, List.append_assoc]
      · cases stepped
  | sendFails =>
      cases stepped
      exact ⟨received, last, logs, inOrder, running, stopped⟩
  | test now =>
      unfold logStep at stepped
      dsimp only at stepped
      split at stepped
      · rename_i testing
        have nothingLast : last = [] := running (by simp [testing])
        subst nothingLast
        split at stepped
        · cases stepped
          refine ⟨received, [loggerEnded now], ?_, inOrder, fun goesOn => absurd rfl goesOn,
            fun _ => ⟨now, rfl⟩⟩
          rw [List.append_nil] at logs
          dsimp only
          rw [logs, logTo_replicate]
        · cases stepped
          exact ⟨received, [], logs, inOrder, fun _ => rfl, fun ended => by cases ended⟩
      · cases stepped
  | receive =>
      unfold logStep at stepped
      dsimp only at stepped
      split at stepped
      · rename_i message queue receiving queued
        have nothingLast : last = [] := running (by simp [receiving])
        subst nothingLast
        cases stepped
        refine ⟨received ++ [message], [], ?_, ?_, fun _ => rfl, fun ended => by cases ended⟩
        · rw [List.append_nil] at logs ⊢
          dsimp only
          rw [logs, logTo_replicate, List.cons_append]
        · dsimp only
          rw [← inOrder, queued, List.append_assoc, List.singleton_append]
      · cases stepped
  | receiveFails =>
      unfold logStep at stepped
      dsimp only at stepped
      split at stepped
      · rename_i receiving
        have nothingLast : last = [] := running (by simp [receiving])
        cases stepped
        exact ⟨received, last, logs, inOrder, fun _ => nothingLast, fun ended => by cases ended⟩
      · cases stepped
  | quit =>
      cases stepped
      exact ⟨received, last, logs, inOrder, running, stopped⟩

/-- In every interleaving, every log has the same lines: the first one, one for each message
that the logger process has received, and the last one once it has ended.  What it has
received and what is still queued are the messages left over and the messages sent, in this
order; none is lost, doubled or overtaken. -/
theorem exists_written {putTime : Int → Bytes} {loggers : Nat} {now pid : Int}
    {left : List LogMessage} {state : Logging}
    (reached : (logMachine putTime).Reached PartialMachine.anyStep
      (Logging.start putTime loggers now pid left) state) :
    ∃ received last,
      Written putTime loggers (loggerStarted now pid) left state received last := by
  apply reached.invariant
  · refine ⟨[], [], ?_, ?_, fun _ => rfl, fun ended => by cases ended⟩
    · simp [Logging.start, lineFraming]
    · simp [Logging.start]
  · intro before event after written _ stepped
    obtain ⟨received, last, written⟩ := written
    exact written.step stepped

/-- A message that a process of the server made. -/
def ServerMessage (message : LogMessage) : Prop :=
  ∃ notice : Notice, notice.FromServer ∧ ∃ now, message = notice.message now

/-- Only the processes of the server send. -/
def OnlyServerSends (_ : Logging) : LogEvent → Prop
  | .send message => ServerMessage message
  | _ => True

/-- `%Y-%m-%d %H:%M:%S` has neither a closing bracket nor a newline. -/
def PlainStamps (putTime : Int → Bytes) : Prop :=
  ∀ time, 93 ∉ putTime time ∧ newline ∉ putTime time

/-- What has been sent is what the server made. -/
theorem sent_step {putTime : Int → Bytes} {before after : Logging} {event : LogEvent}
    (fromServer : ∀ message ∈ before.sent, ServerMessage message)
    (permitted : OnlyServerSends before event)
    (stepped : logStep putTime before event = some after) :
    ∀ message ∈ after.sent, ServerMessage message := by
  unfold logStep at stepped
  cases event with
  | send message =>
      dsimp only at stepped
      split at stepped
      · cases stepped
        intro other inSent
        rcases List.mem_append.mp inSent with earlier | isMessage
        · exact fromServer other earlier
        · exact List.mem_singleton.mp isMessage ▸ permitted
      · cases stepped
  | sendFails | quit =>
      cases stepped
      exact fromServer
  | test now =>
      dsimp only at stepped
      split at stepped
      · split at stepped
        · cases stepped
          exact fromServer
        · cases stepped
          exact fromServer
      · cases stepped
  | receive | receiveFails =>
      dsimp only at stepped
      split at stepped
      · cases stepped
        exact fromServer
      · cases stepped

theorem ServerMessage.oneLine {putTime : Int → Bytes} (stamps : PlainStamps putTime)
    {message : LogMessage} (fromServer : ServerMessage message) :
    (message.entry putTime).OneLine := by
  obtain ⟨notice, fromServer, now, rfl⟩ := fromServer
  exact ⟨(stamps _).1, (stamps _).2, newline_not_mem_message fromServer now⟩

theorem loggerStarted_oneLine {putTime : Int → Bytes} (stamps : PlainStamps putTime)
    (now pid : Int) : ((loggerStarted now pid).entry putTime).OneLine := by
  refine ⟨(stamps _).1, (stamps _).2, ?_⟩
  simp only [LogMessage.entry, loggerStarted, List.mem_append, not_or]
  exact ⟨newline_not_mem_ascii rfl, newline_not_mem_toDecimal pid⟩

theorem loggerEnded_oneLine {putTime : Int → Bytes} (stamps : PlainStamps putTime) (now : Int) :
    ((loggerEnded now).entry putTime).OneLine :=
  ⟨(stamps _).1, (stamps _).2, newline_not_mem_ascii rfl⟩

/-- Whatever clients send, and in every interleaving, each log reads back, line by line, as
the first entry, the messages received in the order in which they were queued, and the last
entry once the logger process has ended: no path forges, splits or hides a line. -/
theorem log_reads_back_what_was_sent (putTime : Int → Bytes) (stamps : PlainStamps putTime)
    (loggers : Nat) (now pid : Int) (left : List LogMessage)
    (leftByServer : ∀ message ∈ left, ServerMessage message) (state : Logging)
    (reached : (logMachine putTime).Reached OnlyServerSends
      (Logging.start putTime loggers now pid left) state) :
    ∃ received last, received ++ state.queue = left ++ state.sent ∧
      (state.phase ≠ .ended → last = []) ∧
      (state.phase = .ended → ∃ now, last = [loggerEnded now]) ∧
      ∀ log ∈ state.logs, lineFraming.readAll log.length log =
        ((loggerStarted now pid :: received ++ last).map (LogMessage.entry putTime), []) := by
  have sent : ∀ message ∈ state.sent, ServerMessage message := by
    apply reached.invariant (fun _ member => by cases member)
    exact fun _ _ _ fromServer permitted stepped => sent_step fromServer permitted stepped
  obtain ⟨received, last, written⟩ := exists_written (reached.weaken fun _ _ _ => trivial)
  refine ⟨received, last, written.inOrder, written.running, written.stopped,
    fun log isLog => ?_⟩
  rw [written.logs] at isLog
  have isWritten := List.eq_of_mem_replicate isLog
  have oneLine : ∀ entry ∈ (loggerStarted now pid :: received ++ last).map
      (LogMessage.entry putTime), lineFraming.Qualifies entry := by
    intro entry member
    obtain ⟨message, isShown, rfl⟩ := List.mem_map.mp member
    rcases List.mem_append.mp isShown with notLast | isLast
    · rcases List.mem_cons.mp notLast with rfl | wasReceived
      · exact loggerStarted_oneLine stamps now pid
      · have inBoth : message ∈ left ++ state.sent :=
          written.inOrder ▸ List.mem_append_left _ wasReceived
        rcases List.mem_append.mp inBoth with wasLeft | wasSent
        · exact (leftByServer message wasLeft).oneLine stamps
        · exact (sent message wasSent).oneLine stamps
    · by_cases ended : state.phase = .ended
      · obtain ⟨now, rfl⟩ := written.stopped ended
        obtain rfl := List.mem_singleton.mp isLast
        exact loggerEnded_oneLine stamps now
      · rw [written.running ended] at isLast
        cases isLast
  have nothingLeft : lineFraming.decode [] = none := rfl
  have read := Framing.readAll_writeAll oneLine nothingLeft (Framing.length_le_writeAll oneLine)
  rw [List.append_nil] at read
  rw [isWritten]
  exact read

/-- Every stamp of this function is the one of the start of the epoch. -/
def epochStamp (_ : Int) : Bytes := ascii "1970-01-01 00:00:00"

/-- A request with a control character in its path. -/
def oddRequest : Bytes := ascii "GET /a\tb HTTP/1.1\r\n\r\n"

/-- Its notice. -/
def oddNotice : Notice := .requested (ascii "0.0.0.0") (ascii "8080") .GET (ascii "/ab")

theorem oddNotice_fromServer : oddNotice.FromServer := by
  have isRequest : (parse oddRequest).map Request.path = some (ascii "/ab") := by decide
  obtain ⟨request, parsed, isPath⟩ := Option.map_eq_some_iff.mp isRequest
  exact ⟨by decide, by decide, .inr ⟨oddRequest, request, parsed, isPath⟩⟩

/-- Two messages reach two logs, and the logger process ends. -/
def shortRun : List LogEvent :=
  [.test 0, .send ((Notice.serverPid 6).message 0), .receive, .send (oddNotice.message 0),
    .test 0, .receive, .quit, .test 0]

theorem shortRun_onlyServerSends (event : LogEvent) (inRun : event ∈ shortRun) (state : Logging) :
    OnlyServerSends state event := by
  cases event with
  | send message =>
      have isMessage : message = (Notice.serverPid 6).message 0 ∨
          message = oddNotice.message 0 := by
        simpa [shortRun] using inRun
      rcases isMessage with rfl | rfl
      · exact ⟨.serverPid 6, trivial, 0, rfl⟩
      · exact ⟨oddNotice, oddNotice_fromServer, 0, rfl⟩
  | sendFails | test _ | receive | receiveFails | quit => trivial

theorem short_run_reads_back : ∃ state : Logging, state.phase = .ended ∧ state.queue = [] ∧
    ∃ received last, received ++ state.queue = [] ++ state.sent ∧
      (state.phase ≠ .ended → last = []) ∧
      (state.phase = .ended → ∃ now, last = [loggerEnded now]) ∧
      ∀ log ∈ state.logs, lineFraming.readAll log.length log =
        ((loggerStarted 0 7 :: received ++ last).map (LogMessage.entry epochStamp), []) := by
  have ran : ∃ state, (logMachine epochStamp).runWithin PartialMachine.anyStep
      (Logging.start epochStamp 2 0 7 []) shortRun = some state ∧ state.phase = .ended ∧
        state.queue = [] := ⟨_, rfl, rfl, rfl⟩
  obtain ⟨state, ran, ended, empty⟩ := ran
  have stamps : PlainStamps epochStamp := fun _ =>
    have plain : 93 ∉ ascii "1970-01-01 00:00:00" ∧ newline ∉ ascii "1970-01-01 00:00:00" := by
      decide
    plain
  exact ⟨state, ended, empty, log_reads_back_what_was_sent epochStamp stamps 2 0 7 []
    (fun _ member => by cases member) state
    (PartialMachine.reached_of_permitted_labels shortRun_onlyServerSends ran)⟩

end Ivos.Http
