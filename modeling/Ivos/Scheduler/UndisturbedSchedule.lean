/-
Module: Ivos.Scheduler.UndisturbedSchedule
Purpose: The statements of `gt_schedule`, when nothing comes between them, compute
  what `gt_schedule` computes as one operation.
Trusted boundary: none
Main exports: Chooses, Cursor.Leads, scan_leads, Progress, progress_start,
  progress_statement, progress_switch
-/
import Ivos.Scheduler.Preemption

namespace Ivos.Scheduler

variable {N : Nat} {Loc : Type}

/-! ### The selectors -/

/-- The selector returns this choice on this state, for some value of `rand()`. -/
def Chooses (algorithm : Algorithm) (base : Sched N) (choice : Choice N) : Prop :=
  ∃ draw fuel, getNextThread algorithm base.gtTable base.gtCurrent base.totalTickets draw fuel
    base.gtCurrent = some choice

/-- The selector standing at a statement of its loop goes on to return a choice. -/
def Cursor.Leads (gtCurrent : Fin N) (totalTickets : Int) (gtTable : Table N)
    (choice : Choice N) : Cursor N → Prop
  | .rrTest thread => ∃ fuel, roundRobin gtTable gtCurrent fuel thread = some choice
  | .rrNext thread => ∃ fuel,
      (if (gtTable (nextSlot thread)).state = .blocked then
        roundRobin gtTable gtCurrent fuel (nextSlot thread)
      else if nextSlot thread = gtCurrent then some ⟨true, nextSlot thread, gtTable⟩
      else roundRobin gtTable gtCurrent fuel (nextSlot thread)) = some choice
  | .rrCompare thread => ∃ fuel,
      (if thread = gtCurrent then some ⟨true, thread, gtTable⟩
      else roundRobin gtTable gtCurrent fuel thread) = some choice
  | .prioNext thread => ∃ fuel, roundRobinPrio gtCurrent fuel gtTable thread = some choice
  | .prioTest thread => ∃ fuel,
      (if prioEligible (gtTable thread) then
        some ⟨true, thread, gtTable.modify thread fun gt => { gt with skipCount := 0 }⟩
      else if thread = gtCurrent then
        some ⟨true, thread,
          gtTable.modify thread fun gt => { gt with skipCount := gt.skipCount + 1 }⟩
      else roundRobinPrio gtCurrent fuel
        (gtTable.modify thread fun gt => { gt with skipCount := gt.skipCount + 1 }) thread) =
          some choice
  | .prioReset thread =>
      choice = ⟨true, thread, gtTable.modify thread fun gt => { gt with skipCount := 0 }⟩
  | .prioBump thread => ∃ fuel,
      (if thread = gtCurrent then
        some ⟨true, thread,
          gtTable.modify thread fun gt => { gt with skipCount := gt.skipCount + 1 }⟩
      else roundRobinPrio gtCurrent fuel
        (gtTable.modify thread fun gt => { gt with skipCount := gt.skipCount + 1 }) thread) =
          some choice
  | .prioCompare thread => ∃ fuel,
      (if thread = gtCurrent then some ⟨true, thread, gtTable⟩
      else roundRobinPrio gtCurrent fuel gtTable thread) = some choice
  | .lotDraw thread => ∃ draw fuel,
      lottery gtTable gtCurrent totalTickets draw fuel thread = some choice
  | .lotTest winningTicket p thread => ∃ fuel,
      (match ((List.finRange N).drop p).find? (fun p =>
          (gtTable p).state ≠ .blocked ∧ holdsTicket winningTicket (gtTable p)) with
        | some owner => some ⟨true, owner, gtTable⟩
        | none => roundRobin gtTable gtCurrent fuel thread) = some choice

/-- The first turn of a selector. -/
theorem leads_firstCursor {algorithm : Algorithm} {base : Sched N} {choice : Choice N}
    (leads : (Machine.firstCursor algorithm base.gtCurrent).Leads base.gtCurrent base.totalTickets
      base.gtTable choice) : Chooses algorithm base choice := by
  cases algorithm with
  | roundRobin =>
      obtain ⟨fuel, chosen⟩ := leads
      exact ⟨0, fuel, chosen⟩
  | roundRobinPrio =>
      obtain ⟨fuel, chosen⟩ := leads
      exact ⟨0, fuel, chosen⟩
  | lottery =>
      obtain ⟨draw, fuel, chosen⟩ := leads
      exact ⟨draw, fuel, chosen⟩

/-- One statement of a selector: what it goes on to choose does not change, and
when it settles on a slot, that was its choice. -/
theorem scan_leads (machine : Machine N Loc) (draw : Nat) (cursor : Cursor N) :
    ∃ statement gtTable,
      machine.scan draw cursor = { machine.goto statement with gtTable := gtTable } ∧
      ((∃ next, statement = .select next ∧
          ∀ choice, next.Leads machine.gtCurrent machine.totalTickets gtTable choice →
            cursor.Leads machine.gtCurrent machine.totalTickets machine.gtTable choice) ∨
        ∃ p, statement = .testCurrent p ∧
          cursor.Leads machine.gtCurrent machine.totalTickets machine.gtTable
            ⟨true, p, gtTable⟩) := by
  unfold Machine.scan
  cases cursor with
  | rrTest thread =>
      dsimp only
      split
      · next isReady =>
          exact ⟨_, machine.gtTable, rfl, .inr ⟨thread, rfl, 1, by simp [roundRobin, isReady]⟩⟩
      · next notReady =>
          refine ⟨_, machine.gtTable, rfl, .inl ⟨_, rfl, fun choice leads => ?_⟩⟩
          obtain ⟨fuel, goesOn⟩ := leads
          exact ⟨fuel + 1, by rwa [roundRobin, if_neg notReady]⟩
  | rrNext thread =>
      dsimp only
      split
      · next isBlocked =>
          refine ⟨_, machine.gtTable, rfl, .inl ⟨_, rfl, fun choice leads => ?_⟩⟩
          obtain ⟨fuel, goesOn⟩ := leads
          exact ⟨fuel, by rwa [if_pos isBlocked]⟩
      · next notBlocked =>
          refine ⟨_, machine.gtTable, rfl, .inl ⟨_, rfl, fun choice leads => ?_⟩⟩
          obtain ⟨fuel, goesOn⟩ := leads
          exact ⟨fuel, by rwa [if_neg notBlocked]⟩
  | rrCompare thread =>
      dsimp only
      split
      · next isCurrent =>
          exact ⟨_, machine.gtTable, rfl, .inr ⟨thread, rfl, 0, by rw [if_pos isCurrent]⟩⟩
      · next notCurrent =>
          refine ⟨_, machine.gtTable, rfl, .inl ⟨_, rfl, fun choice leads => ?_⟩⟩
          obtain ⟨fuel, goesOn⟩ := leads
          exact ⟨fuel, by rwa [if_neg notCurrent]⟩
  | prioNext thread =>
      dsimp only
      split
      · next isBlocked =>
          refine ⟨_, machine.gtTable, rfl, .inl ⟨_, rfl, fun choice leads => ?_⟩⟩
          obtain ⟨fuel, goesOn⟩ := leads
          exact ⟨fuel + 1, by simpa [roundRobinPrio, isBlocked] using goesOn⟩
      · next notBlocked =>
          refine ⟨_, machine.gtTable, rfl, .inl ⟨_, rfl, fun choice leads => ?_⟩⟩
          obtain ⟨fuel, goesOn⟩ := leads
          exact ⟨fuel + 1, by simpa [roundRobinPrio, notBlocked, Table.modify] using goesOn⟩
  | prioTest thread =>
      dsimp only
      split
      · next eligible =>
          refine ⟨_, machine.gtTable, rfl, .inl ⟨_, rfl, fun choice leads => ?_⟩⟩
          exact ⟨0, by rw [if_pos eligible, leads]⟩
      · next notEligible =>
          refine ⟨_, machine.gtTable, rfl, .inl ⟨_, rfl, fun choice leads => ?_⟩⟩
          obtain ⟨fuel, goesOn⟩ := leads
          exact ⟨fuel, by rwa [if_neg notEligible]⟩
  | prioReset thread => exact ⟨_, _, rfl, .inr ⟨thread, rfl, rfl⟩⟩
  | prioBump thread => exact ⟨_, _, rfl, .inl ⟨_, rfl, fun choice leads => leads⟩⟩
  | prioCompare thread =>
      dsimp only
      split
      · next isCurrent =>
          exact ⟨_, machine.gtTable, rfl, .inr ⟨thread, rfl, 0, by rw [if_pos isCurrent]⟩⟩
      · next notCurrent =>
          refine ⟨_, machine.gtTable, rfl, .inl ⟨_, rfl, fun choice leads => ?_⟩⟩
          obtain ⟨fuel, goesOn⟩ := leads
          exact ⟨fuel, by rwa [if_neg notCurrent]⟩
  | lotDraw thread =>
      refine ⟨_, machine.gtTable, rfl, .inl ⟨_, rfl, fun choice leads => ?_⟩⟩
      obtain ⟨fuel, goesOn⟩ := leads
      exact ⟨draw, fuel, goesOn⟩
  | lotTest winningTicket p thread =>
      dsimp only
      split
      · next inside =>
          have turn : (List.finRange N).drop p = ⟨p, inside⟩ :: (List.finRange N).drop (p + 1) := by
            rw [List.drop_eq_getElem_cons (by simpa using inside)]
            simp
          split
          · next owns =>
              refine ⟨_, machine.gtTable, rfl, .inr ⟨_, rfl, 0, ?_⟩⟩
              rw [turn, List.find?_cons_of_pos (by simpa using owns)]
          · next notOwner =>
              refine ⟨_, machine.gtTable, rfl, .inl ⟨_, rfl, fun choice leads => ?_⟩⟩
              obtain ⟨fuel, goesOn⟩ := leads
              refine ⟨fuel, ?_⟩
              rwa [turn, List.find?_cons_of_neg (by simpa using notOwner)]
      · next outside =>
          refine ⟨_, machine.gtTable, rfl, .inl ⟨_, rfl, fun choice leads => ?_⟩⟩
          obtain ⟨fuel, goesOn⟩ := leads
          refine ⟨fuel, ?_⟩
          rwa [List.drop_eq_nil_of_le (by simpa using outside)]

/-! ### The rest of gt_schedule -/

/-- The table once the current thread has been taken out of Running. -/
def leftTable (base : Sched N) (choice : Choice N) (now : Timeval) : Table N :=
  if leavesRunning (choice.gtTable base.gtCurrent) then
    choice.gtTable.modify base.gtCurrent (updateThreadState now .ready)
  else choice.gtTable

/-- The table once the chosen thread is Running. -/
def chosenTable (base : Sched N) (choice : Choice N) (now later : Timeval) : Table N :=
  (leftTable base choice now).modify choice.thread (updateThreadState later .running)

/-- How far the operation has got on `base` where its activation stands at a
statement, in terms of the table and of `gt_current`. -/
def Progress (algorithm : Algorithm) (base : Sched N) (gtTable : Table N) (gtCurrent : Fin N) :
    Statement N → Prop
  | .resetSig | .start => gtCurrent = base.gtCurrent ∧ gtTable = base.gtTable
  | .select cursor => gtCurrent = base.gtCurrent ∧
      ∀ choice, cursor.Leads base.gtCurrent base.totalTickets gtTable choice →
        Chooses algorithm base choice
  | .testCurrent p => gtCurrent = base.gtCurrent ∧ Chooses algorithm base ⟨true, p, gtTable⟩
  | .readyTest thread p => gtCurrent = base.gtCurrent ∧ Chooses algorithm base ⟨true, p, gtTable⟩ ∧
      thread = base.gtCurrent ∧ leavesRunning (gtTable base.gtCurrent)
  | .readyWrite thread p => gtCurrent = base.gtCurrent ∧
      Chooses algorithm base ⟨true, p, gtTable⟩ ∧
      thread = base.gtCurrent ∧ leavesRunning (gtTable base.gtCurrent) ∧
      (gtTable base.gtCurrent).state ≠ .ready
  | .runTest p => gtCurrent = base.gtCurrent ∧ ∃ choice now, Chooses algorithm base choice ∧
      p = choice.thread ∧ gtTable = leftTable base choice now
  | .runWrite p => gtCurrent = base.gtCurrent ∧ (gtTable p).state ≠ .running ∧
      ∃ choice now, Chooses algorithm base choice ∧ p = choice.thread ∧
        gtTable = leftTable base choice now
  | .prepare p => gtCurrent = base.gtCurrent ∧ ∃ choice now later, Chooses algorithm base choice ∧
      p = choice.thread ∧ gtTable = chosenTable base choice now later
  | .setCurrent old p => old = base.gtCurrent ∧ ∃ choice now later,
      Chooses algorithm base choice ∧ p = choice.thread ∧
        gtTable = chosenTable base choice now later
  | .switch old new => (old = base.gtCurrent ∧ gtCurrent = new) ∧ ∃ choice now later,
      Chooses algorithm base choice ∧ new = choice.thread ∧
        gtTable = chosenTable base choice now later
  | .finish => False

/-- `update_thread_state` where the test finds another state. -/
theorem modify_updateThreadState {gtTable : Table N} {slot : Fin N} {state : EState} {now : Timeval}
    (different : (gtTable slot).state ≠ state) :
    gtTable.modify slot (updateThreadState now state) =
      gtTable.modify slot (enterState now state) := by
  simp only [Table.modify, updateThreadState, if_neg different]

/-- `update_thread_state` where it finds the same. -/
theorem modify_updateThreadState_same {gtTable : Table N} {slot : Fin N} {state : EState}
    {now : Timeval} (same : (gtTable slot).state = state) :
    gtTable.modify slot (updateThreadState now state) = gtTable := by
  simp only [Table.modify, updateThreadState, if_pos same, Function.update_eq_self]

/-- `gt_schedule` touches neither these globals nor the suspended contexts. -/
structure Untouched (machine after : Machine N Loc) : Prop where
  totalTickets : after.totalTickets = machine.totalTickets
  semaphores : after.semaphores = machine.semaphores
  freed : after.freed = machine.freed
  status : after.status = machine.status
  saved : after.saved = machine.saved

/-- A statement up to the switch takes the operation on to the next one. -/
theorem progress_statement {algorithm : Algorithm} {base : Sched N} {machine : Machine N Loc}
    {inputs : StatementInputs} {statement : Statement N} {outer : List (Statement N)}
    (standing : machine.cpu.activations = statement :: outer)
    (tickets : machine.totalTickets = base.totalTickets)
    (progress : Progress algorithm base machine.gtTable machine.gtCurrent statement)
    (stays : ∀ old new, statement ≠ .switch old new) :
    ∃ next,
      (machine.scheduleStatement algorithm inputs statement).cpu =
        { machine.cpu with activations := next :: outer } ∧
      Progress algorithm base (machine.scheduleStatement algorithm inputs statement).gtTable
        (machine.scheduleStatement algorithm inputs statement).gtCurrent next ∧
      Untouched machine (machine.scheduleStatement algorithm inputs statement) := by
  have moved (next : Statement N) :
      (machine.goto next).cpu = { machine.cpu with activations := next :: outer } := by
    simp only [Machine.goto, standing, List.tail_cons]
  have untouched : Untouched machine machine := ⟨rfl, rfl, rfl, rfl, rfl⟩
  cases statement with
  | resetSig => exact ⟨.start, moved .start, progress, ⟨rfl, rfl, rfl, rfl, rfl⟩⟩
  | start =>
      obtain ⟨current, table⟩ := progress
      refine ⟨_, moved _, ⟨current, fun choice leads => ?_⟩, ⟨rfl, rfl, rfl, rfl, rfl⟩⟩
      change (Machine.firstCursor algorithm machine.gtCurrent).Leads _ _ machine.gtTable _ at leads
      rw [current, table] at leads
      exact leads_firstCursor leads
  | select cursor =>
      obtain ⟨current, chooses⟩ := progress
      obtain ⟨next, gtTable, scanned, outcome⟩ := scan_leads machine inputs.draw cursor
      simp only [Machine.scheduleStatement, scanned]
      rw [current, tickets] at outcome
      refine ⟨next, moved next, ?_, ⟨rfl, rfl, rfl, rfl, rfl⟩⟩
      obtain ⟨later, rfl, leads⟩ | ⟨p, rfl, settled⟩ := outcome
      · exact ⟨current, fun choice led => chooses choice (leads choice led)⟩
      · exact ⟨current, chooses _ settled⟩
  | testCurrent p =>
      obtain ⟨current, chosen⟩ := progress
      simp only [Machine.scheduleStatement]
      split
      · next leaves =>
          rw [current] at leaves
          exact ⟨_, moved _, ⟨current, chosen, current, leaves⟩, ⟨rfl, rfl, rfl, rfl, rfl⟩⟩
      · next stays =>
          rw [current] at stays
          refine ⟨_, moved _, ⟨current, _, initTimeval, chosen, rfl, ?_⟩,
            ⟨rfl, rfl, rfl, rfl, rfl⟩⟩
          exact (if_neg stays).symm
  | readyTest thread p =>
      obtain ⟨current, chosen, rfl, leaves⟩ := progress
      simp only [Machine.scheduleStatement]
      split
      · next isReady =>
          refine ⟨_, moved _, ⟨current, _, initTimeval, chosen, rfl, ?_⟩,
            ⟨rfl, rfl, rfl, rfl, rfl⟩⟩
          rw [leftTable, if_pos leaves]
          exact (modify_updateThreadState_same isReady).symm
      · next notReady =>
          exact ⟨_, moved _, ⟨current, chosen, rfl, leaves, notReady⟩,
            ⟨rfl, rfl, rfl, rfl, rfl⟩⟩
  | readyWrite thread p =>
      obtain ⟨current, chosen, rfl, leaves, notReady⟩ := progress
      refine ⟨_, moved _, ⟨current, _, inputs.clock 0, chosen, rfl, ?_⟩,
        ⟨rfl, rfl, rfl, rfl, rfl⟩⟩
      rw [leftTable, if_pos leaves]
      exact (modify_updateThreadState notReady).symm
  | runTest p =>
      obtain ⟨current, choice, now, chosen, rfl, table⟩ := progress
      simp only [Machine.scheduleStatement]
      split
      · next isRunning =>
          refine ⟨_, moved _, ⟨current, choice, now, initTimeval, chosen, rfl, ?_⟩,
            ⟨rfl, rfl, rfl, rfl, rfl⟩⟩
          rw [chosenTable, ← table]
          exact (modify_updateThreadState_same isRunning).symm
      · next notRunning =>
          exact ⟨_, moved _, ⟨current, notRunning, choice, now, chosen, rfl, table⟩,
            ⟨rfl, rfl, rfl, rfl, rfl⟩⟩
  | runWrite p =>
      obtain ⟨current, notRunning, choice, now, chosen, rfl, table⟩ := progress
      refine ⟨_, moved _, ⟨current, choice, now, inputs.clock 0, chosen, rfl, ?_⟩,
        ⟨rfl, rfl, rfl, rfl, rfl⟩⟩
      rw [chosenTable, ← table]
      exact (modify_updateThreadState notRunning).symm
  | prepare p =>
      obtain ⟨current, choice, now, later, chosen, rfl, table⟩ := progress
      exact ⟨_, moved _, ⟨current, choice, now, later, chosen, rfl, table⟩,
        ⟨rfl, rfl, rfl, rfl, rfl⟩⟩
  | setCurrent old p =>
      obtain ⟨isOld, choice, now, later, chosen, rfl, table⟩ := progress
      exact ⟨_, moved _, ⟨⟨isOld, rfl⟩, choice, now, later, chosen, rfl, table⟩,
        ⟨rfl, rfl, rfl, rfl, rfl⟩⟩
  | switch old new => exact absurd rfl (stays old new)
  | finish => exact progress.elim

/-- The switch completes the operation. -/
theorem progress_switch [NeZero N] {algorithm : Algorithm} {base : Sched N} {gtTable : Table N}
    {gtCurrent old new : Fin N}
    (progress : Progress algorithm base gtTable gtCurrent (.switch old new)) (rsp : Nat) :
    ∃ inputs, reschedule algorithm inputs base =
      some (true, resume { base with gtTable := gtSwitch rsp old gtTable, gtCurrent := new }) := by
  obtain ⟨⟨rfl, rfl⟩, choice, now, later, ⟨draw, fuel, chosen⟩, rfl, rfl⟩ := progress
  have found := (getNextThread_sound chosen).found
  refine ⟨⟨fun reading => if reading = 0 then now else later, draw, rsp, fuel⟩, ?_⟩
  simp only [reschedule, gtSchedule, chosen, found, Option.bind_eq_bind, Option.bind_some,
    Bool.not_true, Bool.false_eq_true, if_false, Option.pure_def, Option.map_some]
  rfl

end Ivos.Scheduler
