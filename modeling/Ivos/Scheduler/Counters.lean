/-
Module: Ivos.Scheduler.Counters
Purpose: The range of the scheduler's integer counters over whole runs, and what
  one scan of `round_robin_prio` does to the skip counts.
Trusted boundary: none
Main exports: CountersInRange, PrioLap, roundRobinPrio_lap, RoomToPass,
  HasRoom, Performed.inRange_iff, RunFits, FitsFrom, counters_in_range, idle_reached
-/
import Ivos.Scheduler.InitialThread
import Ivos.Scheduler.Tickets
import Mathlib.Algebra.Order.BigOperators.Group.List
import Mathlib.Tactic.NormNum

namespace Ivos.Scheduler

variable {N : Nat}

/-! ### The counters -/

/-- `INT_MAX`. -/
def intMax : Int := 2147483647

/-- The value is one of a 32-bit `int`. -/
def InInt (value : Int) : Prop := -intMax - 1 ≤ value ∧ value ≤ intMax

instance (value : Int) : Decidable (InInt value) := inferInstanceAs (Decidable (_ ∧ _))

/-- No counter of the scheduler has left the `int` range, of which the model's
integers know nothing, and `rand() % total_tickets` is defined. -/
structure CountersInRange (sched : Sched N) : Prop where
  totalTickets : InInt sched.totalTickets
  positive : 0 < sched.totalTickets
  ticketsLo : ∀ slot, InInt (sched.gtTable slot).ticketsLo
  ticketsHi : ∀ slot, InInt (sched.gtTable slot).ticketsHi
  skipCount : ∀ slot, InInt (sched.gtTable slot).skipCount
  /-- What `round_robin_prio` compares with `MaxPriority`. -/
  difference : ∀ slot, InInt ((sched.gtTable slot).priority - (sched.gtTable slot).skipCount)

/-- The operations of the runs: `gt_create`, `gt_schedule` and the exit of a thread. -/
def CounterOperation : Operation → Prop
  | .gtCreate .. | .schedule | .gtReturn => True
  | .semInit .. | .semWait .. | .semPost .. => False

instance : DecidablePred CounterOperation
  | .gtCreate .. | .schedule | .gtReturn => inferInstanceAs (Decidable True)
  | .semInit .. | .semWait .. | .semPost .. => inferInstanceAs (Decidable False)

/-! ### One scan of `round_robin_prio` -/

/-- What the scan does to a slot it passes over. -/
def passOver (thread : Gt) : Gt := { thread with skipCount := thread.skipCount + 1 }

/-- What the scan does to a slot it takes. -/
def takeUp (thread : Gt) : Gt := { thread with skipCount := 0 }

/-- The scan behind `thread` meets `count` slots that it passes over and one more
on which it settles, and writes their skip counts only. -/
structure PrioLap (gtTable : Table N) (gtCurrent thread : Fin N) (choice : Choice N)
    (count : Nat) : Prop where
  chosen : choice.thread = nextSlot^[count + 1] thread
  notTaken : ∀ earlier < count, ¬ prioEligible (gtTable (nextSlot^[earlier + 1] thread))
  passed : ∀ earlier < count,
    choice.gtTable (nextSlot^[earlier + 1] thread) =
      passOver (gtTable (nextSlot^[earlier + 1] thread))
  settled : choice.gtTable choice.thread =
    if prioEligible (gtTable choice.thread) then takeUp (gtTable choice.thread)
    else passOver (gtTable choice.thread)
  stops : ¬ prioEligible (gtTable choice.thread) → choice.thread = gtCurrent
  unseen : ∀ slot, (∀ earlier ≤ count, slot ≠ nextSlot^[earlier + 1] thread) →
    choice.gtTable slot = gtTable slot

/-- The scan settles on the next slot. -/
theorem PrioLap.single {gtTable : Table N} {gtCurrent thread : Fin N} (update : Gt → Gt)
    (written : update (gtTable (nextSlot thread)) =
      if prioEligible (gtTable (nextSlot thread)) then takeUp (gtTable (nextSlot thread))
      else passOver (gtTable (nextSlot thread)))
    (stops : ¬ prioEligible (gtTable (nextSlot thread)) → nextSlot thread = gtCurrent) :
    PrioLap gtTable gtCurrent thread
      ⟨true, nextSlot thread, gtTable.modify (nextSlot thread) update⟩ 0 := by
  constructor
  · rfl
  · intro earlier below
    cases below
  · intro earlier below
    cases below
  · exact (Table.modify_self ..).trans written
  · exact stops
  · exact fun slot elsewhere => Table.modify_of_ne _ (elsewhere 0 (le_refl _)) _

/-- One slot passed over, then the scan behind it. -/
theorem PrioLap.cons {gtTable : Table N} {gtCurrent thread : Fin N} {choice : Choice N}
    {count : Nat} (short : count + 1 < N)
    (notEligible : ¬ prioEligible (gtTable (nextSlot thread)))
    (lap : PrioLap (gtTable.modify (nextSlot thread) passOver) gtCurrent (nextSlot thread) choice
      count) : PrioLap gtTable gtCurrent thread choice (count + 1) := by
  -- Within one lap the slots further on are not the one passed over.
  have ahead {position : Nat} (positive : 0 < position) (below : position < N) :
      nextSlot^[position] (nextSlot thread) ≠ nextSlot thread := fun back =>
    absurd (lap_of_iterate_eq_self positive back) (by omega)
  have untouched {position : Nat} (positive : 0 < position) (below : position < N) :
      gtTable.modify (nextSlot thread) passOver (nextSlot^[position] (nextSlot thread)) =
        gtTable (nextSlot^[position] (nextSlot thread)) :=
    Table.modify_of_ne _ (ahead positive below) _
  have sameChoice : gtTable.modify (nextSlot thread) passOver choice.thread =
      gtTable choice.thread := by
    rw [lap.chosen]
    exact untouched (by omega) short
  constructor
  · exact lap.chosen
  · intro earlier below
    cases earlier with
    | zero => exact notEligible
    | succ earlier =>
        have later := lap.notTaken earlier (by omega)
        rwa [untouched (by omega) (by omega)] at later
  · intro earlier below
    cases earlier with
    | zero =>
        have first := lap.unseen (nextSlot thread) fun earlier within =>
          (ahead (by omega) (by omega)).symm
        rwa [Table.modify_self] at first
    | succ earlier =>
        have later := lap.passed earlier (by omega)
        rwa [untouched (by omega) (by omega)] at later
  · have settled := lap.settled
    rwa [sameChoice] at settled
  · have stops := lap.stops
    rwa [sameChoice] at stops
  · intro slot elsewhere
    rw [lap.unseen slot fun earlier within => elsewhere (earlier + 1) (by omega)]
    exact Table.modify_of_ne _ (elsewhere 0 (by omega)) _

/-- With no slot Blocked the scan ends within one lap. -/
theorem roundRobinPrio_lap {gtTable : Table N} {gtCurrent thread : Fin N} {fuel remaining : Nat}
    {choice : Choice N} (awake : ∀ slot, (gtTable slot).state ≠ .blocked)
    (positive : 0 < remaining) (oneLap : remaining ≤ N)
    (back : nextSlot^[remaining] thread = gtCurrent)
    (chosen : roundRobinPrio gtCurrent fuel gtTable thread = some choice) :
    ∃ count < remaining, PrioLap gtTable gtCurrent thread choice count := by
  induction fuel generalizing gtTable thread remaining with
  | zero => cases chosen
  | succ fuel inductionHypothesis =>
      unfold roundRobinPrio at chosen
      dsimp only at chosen
      rw [if_neg (awake (nextSlot thread))] at chosen
      split at chosen
      · rename_i eligible
        cases chosen
        exact ⟨0, positive, .single takeUp (if_pos eligible).symm fun refused =>
          absurd eligible refused⟩
      · rename_i notEligible
        split at chosen
        · rename_i isCurrent
          cases chosen
          exact ⟨0, positive, .single passOver (if_neg notEligible).symm fun _ => isCurrent⟩
        · rename_i other
          obtain ⟨remaining, rfl⟩ := Nat.exists_eq_add_of_lt positive
          rw [Nat.zero_add, Function.iterate_succ_apply] at back
          have stillPositive : 0 < remaining := by
            apply Nat.pos_of_ne_zero
            rintro rfl
            exact other back
          have stillAwake (slot : Fin N) :
              (gtTable.modify (nextSlot thread) passOver slot).state ≠ .blocked := by
            rw [show (gtTable.modify (nextSlot thread) passOver slot).state =
              (gtTable slot).state from update_skipCount_state ..]
            exact awake slot
          obtain ⟨count, below, lap⟩ :=
            inductionHypothesis stillAwake stillPositive (by omega) back chosen
          exact ⟨count + 1, by omega, .cons (by omega) notEligible lap⟩

/-! ### Room in the counters -/

/-- A scan that starts behind `gtCurrent` passes over the slot at this position:
neither that slot nor one before it can be taken. -/
def PassedOver (gtTable : Table N) (gtCurrent : Fin N) (position : Nat) : Prop :=
  ∀ earlier ≤ position, ¬ prioEligible (gtTable (nextSlot^[earlier + 1] gtCurrent))

instance (gtTable : Table N) (gtCurrent : Fin N) (position : Nat) :
    Decidable (PassedOver gtTable gtCurrent position) :=
  inferInstanceAs (Decidable (∀ earlier, earlier ≤ position → ¬ _))

/-- No slot that the scan passes over has the largest skip count. -/
def RoomToPass (gtTable : Table N) (gtCurrent : Fin N) : Prop :=
  ∀ position < N, PassedOver gtTable gtCurrent position →
    (gtTable (nextSlot^[position + 1] gtCurrent)).skipCount < intMax

instance (gtTable : Table N) (gtCurrent : Fin N) : Decidable (RoomToPass gtTable gtCurrent) :=
  inferInstanceAs (Decidable (∀ position, position < N → (_ → _)))

/-- The slots that can be passed over are. -/
theorem PrioLap.passedOver {gtTable : Table N} {gtCurrent : Fin N} {choice : Choice N}
    {count position : Nat} (lap : PrioLap gtTable gtCurrent gtCurrent choice count)
    (inside : position < N) (passedOver : PassedOver gtTable gtCurrent position) :
    choice.gtTable (nextSlot^[position + 1] gtCurrent) =
      passOver (gtTable (nextSlot^[position + 1] gtCurrent)) := by
  have reachesChoice (within : count ≤ position) : ¬ prioEligible (gtTable choice.thread) := by
    rw [lap.chosen]
    exact passedOver count within
  rcases Nat.lt_trichotomy position count with before | same | behind
  · exact lap.passed position before
  · have settled := lap.settled
    rw [if_neg (reachesChoice same.ge), lap.chosen, ← same] at settled
    exact settled
  · -- The scan would have come back to the current slot before the position.
    have isCurrent := lap.stops (reachesChoice behind.le)
    have wholeLap := lap_of_iterate_eq_self (Nat.succ_pos count) (lap.chosen.symm.trans isCurrent)
    omega

/-- Every slot is left alone, taken, or one that can be passed over. -/
theorem PrioLap.written {gtTable : Table N} {gtCurrent : Fin N} {choice : Choice N}
    {count : Nat} (lap : PrioLap gtTable gtCurrent gtCurrent choice count) (short : count < N)
    (slot : Fin N) :
    choice.gtTable slot = gtTable slot ∨ choice.gtTable slot = takeUp (gtTable slot) ∨
      ∃ position < N, nextSlot^[position + 1] gtCurrent = slot ∧
        PassedOver gtTable gtCurrent position := by
  by_cases elsewhere : ∀ earlier ≤ count, slot ≠ nextSlot^[earlier + 1] gtCurrent
  · exact .inl (lap.unseen slot elsewhere)
  · push Not at elsewhere
    obtain ⟨position, within, rfl⟩ := elsewhere
    rcases Nat.lt_or_eq_of_le within with before | rfl
    · exact .inr (.inr ⟨position, by omega, rfl, fun earlier below =>
        lap.notTaken earlier (by omega)⟩)
    · have settled := lap.settled
      rw [lap.chosen] at settled
      by_cases eligible : prioEligible (gtTable (nextSlot^[position + 1] gtCurrent))
      · rw [if_pos eligible] at settled
        exact .inr (.inl settled)
      · refine .inr (.inr ⟨position, short, rfl, fun earlier below => ?_⟩)
        rcases Nat.lt_or_eq_of_le below with before | rfl
        · exact lap.notTaken earlier before
        · exact eligible

/-- The skip counts a selector leaves stay in range exactly with room for them. -/
theorem getNextThread_skipCounts {algorithm : Algorithm} {gtTable : Table N}
    {gtCurrent : Fin N} {totalTickets : Int} {draw fuel : Nat} {choice : Choice N}
    (awake : ∀ slot, (gtTable slot).state ≠ .blocked)
    (counted : ∀ slot, 0 ≤ (gtTable slot).skipCount ∧ (gtTable slot).skipCount ≤ intMax)
    (chosen : getNextThread algorithm gtTable gtCurrent totalTickets draw fuel gtCurrent =
      some choice) :
    (∀ slot, 0 ≤ (choice.gtTable slot).skipCount) ∧
      ((∀ slot, (choice.gtTable slot).skipCount ≤ intMax) ↔
        (algorithm = .roundRobinPrio → RoomToPass gtTable gtCurrent)) := by
  have untouched (same : choice.gtTable = gtTable) (notPrio : algorithm ≠ .roundRobinPrio) :
      (∀ slot, 0 ≤ (choice.gtTable slot).skipCount) ∧
        ((∀ slot, (choice.gtTable slot).skipCount ≤ intMax) ↔
          (algorithm = .roundRobinPrio → RoomToPass gtTable gtCurrent)) := by
    rw [same]
    exact ⟨fun slot => (counted slot).1,
      iff_of_true (fun slot => (counted slot).2) fun isPrio => absurd isPrio notPrio⟩
  cases algorithm with
  | roundRobin => exact untouched (roundRobin_gtTable chosen) (by decide)
  | lottery => exact untouched (lottery_gtTable chosen) (by decide)
  | roundRobinPrio =>
      obtain ⟨remaining, positive, oneLap, back⟩ := exists_iterate_eq gtCurrent gtCurrent
      obtain ⟨count, below, lap⟩ := roundRobinPrio_lap awake positive oneLap back chosen
      have passed {position : Nat} (inside : position < N)
          (passedOver : PassedOver gtTable gtCurrent position) :
          (choice.gtTable (nextSlot^[position + 1] gtCurrent)).skipCount =
            (gtTable (nextSlot^[position + 1] gtCurrent)).skipCount + 1 :=
        congrArg Gt.skipCount (lap.passedOver inside passedOver)
      have written := lap.written (below.trans_le oneLap)
      refine ⟨fun slot => ?_, fun kept _ position inside passedOver => ?_, fun room slot => ?_⟩
      · rcases written slot with same | taken | ⟨position, inside, rfl, passedOver⟩
        · exact same ▸ (counted slot).1
        · exact (congrArg Gt.skipCount taken).ge
        · rw [passed inside passedOver]
          have := (counted (nextSlot^[position + 1] gtCurrent)).1
          omega
      · have bound := kept (nextSlot^[position + 1] gtCurrent)
        rw [passed inside passedOver] at bound
        omega
      · rcases written slot with same | taken | ⟨position, inside, rfl, passedOver⟩
        · exact same ▸ (counted slot).2
        · exact (congrArg Gt.skipCount taken).trans_le (show (0 : Int) ≤ intMax by decide)
        · rw [passed inside passedOver]
          exact room rfl position inside passedOver

/-- A scan raises no skip count by more than one. -/
theorem getNextThread_rise {algorithm : Algorithm} {gtTable : Table N} {gtCurrent : Fin N}
    {totalTickets : Int} {draw fuel : Nat} {choice : Choice N}
    (awake : ∀ slot, (gtTable slot).state ≠ .blocked)
    (counted : ∀ slot, 0 ≤ (gtTable slot).skipCount)
    (chosen : getNextThread algorithm gtTable gtCurrent totalTickets draw fuel gtCurrent =
      some choice) (slot : Fin N) :
    (choice.gtTable slot).skipCount ≤ (gtTable slot).skipCount + 1 := by
  have untouched (same : choice.gtTable = gtTable) :
      (choice.gtTable slot).skipCount ≤ (gtTable slot).skipCount + 1 := by
    rw [same]
    omega
  cases algorithm with
  | roundRobin => exact untouched (roundRobin_gtTable chosen)
  | lottery => exact untouched (lottery_gtTable chosen)
  | roundRobinPrio =>
      obtain ⟨remaining, positive, oneLap, back⟩ := exists_iterate_eq gtCurrent gtCurrent
      obtain ⟨count, below, lap⟩ := roundRobinPrio_lap awake positive oneLap back chosen
      rcases lap.written (below.trans_le oneLap) slot with
        same | taken | ⟨position, inside, rfl, passedOver⟩
      · rw [same]
        omega
      · rw [taken]
        exact add_nonneg (counted slot) zero_le_one
      · exact (congrArg Gt.skipCount (lap.passedOver inside passedOver)).le

/-! ### What one operation does to the counters -/

/-- Writing fields other than the skip count. -/
theorem Table.modify_skipCount {gtTable : Table N} {slot : Fin N} {update : Gt → Gt}
    (same : (update (gtTable slot)).skipCount = (gtTable slot).skipCount) (other : Fin N) :
    (gtTable.modify slot update other).skipCount = (gtTable other).skipCount := by
  by_cases isSlot : other = slot
  · rw [isSlot, Table.modify_self, same]
  · rw [Table.modify_of_ne _ isSlot]

@[simp] theorem updateThreadState_skipCount (now : Timeval) (newState : EState) (thread : Gt) :
    (updateThreadState now newState thread).skipCount = thread.skipCount :=
  (updateThreadState_frame now newState thread).2.2.1

theorem switchTo_skipCount (inputs : Inputs) (choice : Choice N) (sched : Sched N)
    (slot : Fin N) :
    ((switchTo inputs choice sched).gtTable slot).skipCount =
      (choice.gtTable slot).skipCount := by
  unfold switchTo gtSwitch
  dsimp only
  rw [Table.modify_skipCount rfl, Table.modify_skipCount (updateThreadState_skipCount ..)]
  split
  · exact Table.modify_skipCount (updateThreadState_skipCount ..) slot
  · rfl

/-- A slot with a priority `gt_create` accepts and counters between 0 and `INT_MAX`. -/
structure CountedSlot (thread : Gt) : Prop where
  priority : maxPriority ≤ thread.priority ∧ thread.priority ≤ minPriority
  ticketsLo : 0 ≤ thread.ticketsLo ∧ thread.ticketsLo ≤ intMax
  ticketsHi : 0 ≤ thread.ticketsHi ∧ thread.ticketsHi ≤ intMax
  skipCount : 0 ≤ thread.skipCount ∧ thread.skipCount ≤ intMax

/-- The invariant of the runs: without semaphores no slot is ever Blocked. -/
structure CountersKept (sched : Sched N) : Prop where
  awake : ∀ slot, (sched.gtTable slot).state ≠ .blocked
  issued : 0 < sched.totalTickets ∧ sched.totalTickets ≤ intMax
  slots : ∀ slot, CountedSlot (sched.gtTable slot)

theorem CountedSlot.congr {first second : Gt} (counted : CountedSlot first)
    (parameters : second.parameters = first.parameters)
    (skipCount : 0 ≤ second.skipCount ∧ second.skipCount ≤ intMax) : CountedSlot second := by
  obtain ⟨priority, ticketsLo, ticketsHi⟩ := Parameters.mk.inj parameters
  constructor
  · rw [priority]
    exact counted.priority
  · rw [ticketsLo]
    exact counted.ticketsLo
  · rw [ticketsHi]
    exact counted.ticketsHi
  · exact skipCount

variable [NeZero N]

/-- The table that `get_next_thread` scans in the operation. -/
def scannedTable (sched : Sched N) : Operation → Table N
  | .gtReturn => if sched.gtCurrent ≠ 0 then (retire sched).gtTable else sched.gtTable
  | _ => sched.gtTable

/-- The operation finds room in the counters it raises. -/
def HasRoom (algorithm : Algorithm) (sched : Sched N) (operation : Operation) : Prop :=
  match operation with
  | .gtCreate priority stack =>
      (findUnused sched.gtTable).isSome → stack.isSome →
        sched.totalTickets + (minPriority - clampPriority priority + 1) ≤ intMax
  | _ => algorithm = .roundRobinPrio →
      RoomToPass (scannedTable sched operation) sched.gtCurrent

instance (algorithm : Algorithm) (sched : Sched N) :
    (operation : Operation) → Decidable (HasRoom algorithm sched operation)
  | .gtCreate .. => inferInstanceAs (Decidable (_ → _ → _))
  | .schedule | .gtReturn | .semInit .. | .semWait .. | .semPost .. =>
      inferInstanceAs (Decidable (_ → _))

namespace CountersKept

theorem gtInit (clock : Nat → Timeval) : CountersKept (gtInit clock : Sched N) := by
  have initial : CountedSlot ((Scheduler.gtInit clock : Sched N).gtTable 0) := by
    unfold Scheduler.gtInit
    dsimp only
    rw [Table.modify_self]
    have none : (0 : Int) ≤ 0 ∧ 0 ≤ intMax := by decide
    have first : (0 : Int) ≤ minPriority ∧ minPriority ≤ intMax := by decide
    exact ⟨⟨le_refl _, first.1⟩, none, first, none⟩
  have zero : CountedSlot Gt.zero := ⟨by decide, by decide, by decide, by decide⟩
  constructor
  · intro slot
    by_cases isInitial : slot = 0
    · rw [isInitial, gtInit_initial]
      decide
    · rw [gtInit_other clock isInitial]
      decide
  · exact (by decide : (0 : Int) < 0 + (minPriority + 1) ∧ 0 + (minPriority + 1) ≤ intMax)
  · intro slot
    by_cases isInitial : slot = 0
    · exact isInitial ▸ initial
    · exact gtInit_other clock isInitial ▸ zero

omit [NeZero N] in
/-- Counters that are not negative leave every difference in range. -/
theorem inRange {sched : Sched N} (kept : CountersKept sched) : CountersInRange sched := by
  have within {value : Int} (bounds : 0 ≤ value ∧ value ≤ intMax) : InInt value := by
    unfold InInt intMax at *
    omega
  constructor
  · exact within ⟨kept.issued.1.le, kept.issued.2⟩
  · exact kept.issued.1
  · exact fun slot => within (kept.slots slot).ticketsLo
  · exact fun slot => within (kept.slots slot).ticketsHi
  · exact fun slot => within (kept.slots slot).skipCount
  · intro slot
    have priority := (kept.slots slot).priority
    have skipCount := (kept.slots slot).skipCount
    unfold InInt intMax maxPriority minPriority at *
    omega

omit [NeZero N] in
theorem retire {before : Sched N} (kept : CountersKept before) :
    CountersKept (retire before) := by
  constructor
  · intro slot
    by_cases isCurrent : slot = before.gtCurrent
    · rw [isCurrent]
      simp [Scheduler.retire]
    · simpa [Scheduler.retire, isCurrent] using kept.awake slot
  · exact kept.issued
  · intro slot
    have sameSkips : ((Scheduler.retire before).gtTable slot).skipCount =
        (before.gtTable slot).skipCount := Table.modify_skipCount rfl slot
    have sameParameters : SameParameters before.gtTable (Scheduler.retire before).gtTable :=
      .modify rfl
    exact (kept.slots slot).congr (sameParameters slot) (sameSkips ▸ (kept.slots slot).skipCount)

theorem awake_reschedule {algorithm : Algorithm} {inputs : Inputs} {before after : Sched N}
    {result : Bool} (kept : CountersKept before)
    (ran : reschedule algorithm inputs before = some (result, after)) (slot : Fin N) :
    (after.gtTable slot).state ≠ .blocked := by
  obtain ⟨choice, rescheduled⟩ := reschedule_spec ran
  by_cases isChosen : slot = choice.thread
  · rw [isChosen, rescheduled.chosenState]
    decide
  · by_cases isCurrent : slot = before.gtCurrent
    · subst isCurrent
      rw [rescheduled.currentState isChosen]
      split
      · decide
      · exact kept.awake _
    · rw [rescheduled.otherState slot isChosen isCurrent]
      exact kept.awake slot

/-- A reschedule keeps the counters in range exactly with room for the scan. -/
theorem reschedule {algorithm : Algorithm} {inputs : Inputs} {before after : Sched N}
    {result : Bool} (kept : CountersKept before)
    (ran : Scheduler.reschedule algorithm inputs before = some (result, after)) :
    ((∀ slot, (after.gtTable slot).skipCount ≤ intMax) ↔
      (algorithm = .roundRobinPrio → RoomToPass before.gtTable before.gtCurrent)) ∧
    ((∀ slot, (after.gtTable slot).skipCount ≤ intMax) → CountersKept after) := by
  have awake := kept.awake_reschedule ran
  obtain ⟨sameParameters, total⟩ := reschedule_parameters ran
  obtain ⟨-, choice, chosen, -, rfl⟩ := reschedule_eq_some ran
  have sameSkips (slot : Fin N) :
      ((resume (switchTo inputs choice before)).gtTable slot).skipCount =
        (choice.gtTable slot).skipCount := by
    rw [resume_gtTable, switchTo_skipCount]
  obtain ⟨nonneg, room⟩ :=
    getNextThread_skipCounts kept.awake (fun slot => (kept.slots slot).skipCount) chosen
  simp only [sameSkips]
  refine ⟨room, fun bounded => ?_⟩
  constructor
  · exact awake
  · rw [total]
    exact kept.issued
  · intro slot
    apply (kept.slots slot).congr (sameParameters slot)
    rw [sameSkips]
    exact ⟨nonneg slot, bounded slot⟩

end CountersKept

omit [NeZero N] in
/-- A new slot keeps the counters in range if the tickets fit. -/
theorem CountersKept.create {before after : Sched N} {slot : Fin N} {priority : Int}
    (kept : CountersKept before) (created : SlotCreated before after slot priority)
    (fits : after.totalTickets ≤ intMax) : CountersKept after := by
  have range := clampPriority_range priority
  have issued := kept.issued
  have total := created.totalTickets
  constructor
  · intro other
    by_cases isCreated : other = slot
    · rw [isCreated, created.isReady]
      decide
    · rw [created.others other isCreated]
      exact kept.awake other
  · omega
  · intro other
    by_cases isCreated : other = slot
    · rw [isCreated]
      constructor
      · rw [created.clamped]
        exact range
      · rw [created.ticketsLo]
        omega
      · rw [created.ticketsHi]
        omega
      · rw [created.skipCount]
        decide
    · rw [created.others other isCreated]
      exact kept.slots other

/-- `gt_create` keeps the counters in range exactly with room for the tickets. -/
theorem CountersKept.gtCreate (algorithm : Algorithm) {before : Sched N}
    (kept : CountersKept before) (priority : Int) (stack : Option ℕ+) (clock : Nat → Timeval) :
    ((gtCreate priority stack clock before).2.totalTickets ≤ intMax ↔
      HasRoom algorithm before (.gtCreate priority stack)) ∧
    ((gtCreate priority stack clock before).2.totalTickets ≤ intMax →
      CountersKept (gtCreate priority stack clock before).2) := by
  unfold HasRoom
  dsimp only
  cases found : findUnused before.gtTable with
  | none =>
      have same : (Scheduler.gtCreate priority stack clock before).2 = before := by
        simp [Scheduler.gtCreate, found]
      rw [same]
      exact ⟨iff_of_true kept.issued.2 fun isSome => (by cases isSome), fun _ => kept⟩
  | some p =>
      cases stack with
      | none =>
          rw [gtCreate_none]
          exact ⟨iff_of_true kept.issued.2 fun _ isSome => (by cases isSome), fun _ => kept⟩
      | some base =>
          have created := gtCreate_created found priority base clock
          constructor
          · rw [created.totalTickets]
            exact ⟨fun fits _ _ => fits, fun fits => fits rfl rfl⟩
          · exact kept.create created

/-- The operations leave the counters in range exactly when they find room. -/
theorem Performed.inRange_iff {algorithm : Algorithm} {operation : Operation} {inputs : Inputs}
    {before after : Sched N} (performed : Performed algorithm inputs before operation after)
    (counts : CounterOperation operation) (kept : CountersKept before) :
    (CountersInRange after ↔ HasRoom algorithm before operation) ∧
      (HasRoom algorithm before operation → CountersKept after) := by
  -- Either way one upper bound decides: that of the skip counts or that of the tickets.
  have bySkips (room : (∀ slot, (after.gtTable slot).skipCount ≤ intMax) ↔
        HasRoom algorithm before operation)
      (keeps : (∀ slot, (after.gtTable slot).skipCount ≤ intMax) → CountersKept after) :
      (CountersInRange after ↔ HasRoom algorithm before operation) ∧
        (HasRoom algorithm before operation → CountersKept after) :=
    ⟨⟨fun inRange => room.mp fun slot => (inRange.skipCount slot).2,
      fun hasRoom => (keeps (room.mpr hasRoom)).inRange⟩,
      fun hasRoom => keeps (room.mpr hasRoom)⟩
  cases performed with
  | created priority stack =>
      obtain ⟨room, keeps⟩ := kept.gtCreate algorithm priority stack inputs.clock
      exact ⟨⟨fun inRange => room.mp inRange.totalTickets.2,
        fun hasRoom => (keeps (room.mpr hasRoom)).inRange⟩,
        fun hasRoom => keeps (room.mpr hasRoom)⟩
  | scheduled ran =>
      obtain ⟨room, keeps⟩ := kept.reschedule ran
      exact bySkips room keeps
  | returned notInitial ran =>
      obtain ⟨room, keeps⟩ := kept.retire.reschedule ran
      refine bySkips ?_ keeps
      unfold HasRoom scannedTable
      simp only [if_pos notInitial]
      exact room
  | awaited isInitial ran =>
      have marked : CountersKept
          { before with returned := Function.update before.returned 0 true } :=
        ⟨kept.awake, kept.issued, kept.slots⟩
      obtain ⟨room, keeps⟩ := marked.reschedule ran
      refine bySkips ?_ keeps
      unfold HasRoom scannedTable
      simp only [if_neg (not_not.mpr isInitial)]
      exact room
  | reset | added | passed | queued | raised | woke => cases counts

/-! ### Whole runs

The condition under which a run stays in range is one on its labels: how many calls of
`gt_schedule` it makes and how many tickets its calls of `gt_create` ask for.  It grows with
the run, so that every earlier state of a run that meets it is the end of one that does.
-/

/-- The calls of `gt_schedule` in a run, those inside `gt_return` included. -/
def countOfScheduleCalls (labels : List (Operation × Inputs)) : Nat :=
  labels.countP fun label => callsSchedule label.1

/-- The tickets that `gt_create` issues when it has a slot and a stack. -/
def ticketsAsked : Operation → Int
  | .gtCreate priority (some _) => minPriority - clampPriority priority + 1
  | _ => 0

/-- The run is one of `gt_create`, `gt_schedule` and exits; under `round_robin_prio` its calls
of `gt_schedule` fit an `int`, and so do the tickets of `gt_init` and of its `gt_create`s. -/
structure RunFits (algorithm : Algorithm) (labels : List (Operation × Inputs)) : Prop where
  operations : ∀ label ∈ labels, CounterOperation label.1
  calls : algorithm = .roundRobinPrio → (countOfScheduleCalls labels : Int) ≤ intMax
  tickets : minPriority + 1 + (labels.map fun label => ticketsAsked label.1).sum ≤ intMax

theorem ticketsAsked_nonneg (operation : Operation) : 0 ≤ ticketsAsked operation := by
  unfold ticketsAsked
  split
  · rename_i priority base
    have range := clampPriority_range priority
    omega
  · exact le_refl 0

/-- A reschedule raises no skip count by more than one and issues no tickets. -/
theorem CountersKept.rise_reschedule {algorithm : Algorithm} {inputs : Inputs}
    {before after : Sched N} {result : Bool} (kept : CountersKept before)
    (ran : Scheduler.reschedule algorithm inputs before = some (result, after)) :
    (∀ slot, (after.gtTable slot).skipCount ≤ (before.gtTable slot).skipCount + 1) ∧
      after.totalTickets = before.totalTickets := by
  obtain ⟨-, total⟩ := reschedule_parameters ran
  obtain ⟨-, choice, chosen, -, rfl⟩ := reschedule_eq_some ran
  refine ⟨fun slot => ?_, total⟩
  rw [resume_gtTable, switchTo_skipCount]
  exact getNextThread_rise kept.awake (fun slot => (kept.slots slot).skipCount.1) chosen slot

/-- An operation raises the skip counts by its call of `gt_schedule` at most and issues at
most the tickets it asks for. -/
theorem Performed.rise {algorithm : Algorithm} {operation : Operation} {inputs : Inputs}
    {before after : Sched N} (performed : Performed algorithm inputs before operation after)
    (counts : CounterOperation operation) (kept : CountersKept before) :
    (∀ slot, (after.gtTable slot).skipCount ≤
      (before.gtTable slot).skipCount + if callsSchedule operation then 1 else 0) ∧
    after.totalTickets ≤ before.totalTickets + ticketsAsked operation := by
  cases performed with
  | created priority stack =>
      have unchanged (same : (gtCreate priority stack inputs.clock before).2 = before) :
          (∀ slot, ((gtCreate priority stack inputs.clock before).2.gtTable slot).skipCount ≤
            (before.gtTable slot).skipCount + 0) ∧
          (gtCreate priority stack inputs.clock before).2.totalTickets ≤
            before.totalTickets + ticketsAsked (.gtCreate priority stack) := by
        have asked := ticketsAsked_nonneg (.gtCreate priority stack)
        rw [same]
        exact ⟨fun slot => (add_zero _).ge, by omega⟩
      cases stack with
      | none => exact unchanged (gtCreate_none ..)
      | some base =>
          rcases gtCreate_spec priority (some base) inputs.clock before with
            same | ⟨slot, created⟩
          · exact unchanged same
          · refine ⟨fun other => ?_, created.totalTickets.le⟩
            by_cases isCreated : other = slot
            · rw [isCreated, created.skipCount]
              exact add_nonneg (kept.slots slot).skipCount.1 le_rfl
            · rw [created.others other isCreated]
              exact (add_zero _).ge
  | scheduled ran =>
      obtain ⟨skips, total⟩ := kept.rise_reschedule ran
      exact ⟨skips, by rw [total]; exact (add_zero _).ge⟩
  | returned notInitial ran =>
      obtain ⟨skips, total⟩ := kept.retire.rise_reschedule ran
      refine ⟨fun slot => (skips slot).trans_eq ?_, by rw [total]; exact (add_zero _).ge⟩
      exact congrArg (· + 1) (Table.modify_skipCount rfl slot)
  | awaited isInitial ran =>
      have marked : CountersKept
          { before with returned := Function.update before.returned 0 true } :=
        ⟨kept.awake, kept.issued, kept.slots⟩
      obtain ⟨skips, total⟩ := marked.rise_reschedule ran
      exact ⟨skips, by rw [total]; exact (add_zero _).ge⟩
  | reset | added | passed | queued | raised | woke => cases counts

theorem countOfScheduleCalls_cons (label : Operation × Inputs)
    (labels : List (Operation × Inputs)) :
    countOfScheduleCalls (label :: labels) =
      countOfScheduleCalls labels + if callsSchedule label.1 then 1 else 0 :=
  List.countP_cons

/-- The counters are kept and the labels still to come fit into the room they leave. -/
structure FitsFrom (algorithm : Algorithm) (sched : Sched N)
    (labels : List (Operation × Inputs)) : Prop where
  kept : CountersKept sched
  operations : ∀ label ∈ labels, CounterOperation label.1
  calls : algorithm = .roundRobinPrio → ∀ slot,
    (sched.gtTable slot).skipCount + countOfScheduleCalls labels ≤ intMax
  tickets : sched.totalTickets + (labels.map fun label => ticketsAsked label.1).sum ≤ intMax

/-- A run that fits does so from `gt_init` on. -/
theorem RunFits.fromInit {algorithm : Algorithm} {labels : List (Operation × Inputs)}
    (fits : RunFits algorithm labels) (clock : Nat → Timeval) :
    FitsFrom algorithm (gtInit clock : Sched N) labels := by
  refine ⟨.gtInit clock, fits.operations, fun isPrio slot => ?_, ?_⟩
  · have zero : ((gtInit clock : Sched N).gtTable slot).skipCount = 0 :=
      Table.modify_skipCount rfl slot
    rw [zero, zero_add]
    exact fits.calls isPrio
  · have initial : (gtInit clock : Sched N).totalTickets = minPriority + 1 := zero_add _
    rw [initial]
    exact fits.tickets

namespace FitsFrom

variable {algorithm : Algorithm} {before after : Sched N} {label : Operation × Inputs}
  {labels : List (Operation × Inputs)}

omit [NeZero N] in
/-- The labels behind the first never take tickets back. -/
theorem nextTickets (fits : FitsFrom algorithm before (label :: labels)) :
    before.totalTickets + ticketsAsked label.1 ≤ intMax := by
  have tickets := fits.tickets
  rw [List.map_cons, List.sum_cons] at tickets
  have later : 0 ≤ (labels.map fun label => ticketsAsked label.1).sum := by
    apply List.sum_nonneg
    intro asked member
    obtain ⟨label, -, rfl⟩ := List.mem_map.mp member
    exact ticketsAsked_nonneg label.1
  omega

/-- The next operation finds room in the counters. -/
theorem hasRoom (fits : FitsFrom algorithm before (label :: labels)) :
    HasRoom algorithm before label.1 := by
  have tickets := fits.nextTickets
  have roomToPass (called : callsSchedule label.1) (isPrio : algorithm = .roundRobinPrio)
      (gtTable : Table N)
      (same : ∀ slot, (gtTable slot).skipCount = (before.gtTable slot).skipCount) :
      RoomToPass gtTable before.gtCurrent := by
    intro position _ _
    have calls := fits.calls isPrio (nextSlot^[position + 1] before.gtCurrent)
    rw [countOfScheduleCalls_cons, if_pos called] at calls
    rw [same]
    push_cast at calls
    omega
  have counts := fits.operations label List.mem_cons_self
  obtain ⟨operation, inputs⟩ := label
  cases operation with
  | gtCreate priority stack =>
      intro _ hasStack
      obtain ⟨base, rfl⟩ := Option.isSome_iff_exists.mp hasStack
      exact tickets
  | schedule => exact fun isPrio => roomToPass rfl isPrio _ fun _ => rfl
  | gtReturn =>
      refine fun isPrio => roomToPass rfl isPrio _ fun slot => ?_
      unfold scannedTable
      dsimp only
      split
      · exact Table.modify_skipCount rfl slot
      · rfl
  | semInit | semWait | semPost => cases counts

/-- What one operation uses up is taken off the labels to come. -/
theorem step (fits : FitsFrom algorithm before (label :: labels))
    (performed : Performed algorithm label.2 before label.1 after) :
    FitsFrom algorithm after labels := by
  have counts := fits.operations label List.mem_cons_self
  have kept := (performed.inRange_iff counts fits.kept).2 fits.hasRoom
  have operations : ∀ later ∈ labels, CounterOperation later.1 := fun later member =>
    fits.operations later (.tail _ member)
  obtain ⟨skips, total⟩ := performed.rise counts fits.kept
  refine ⟨kept, operations, fun isPrio slot => ?_, ?_⟩
  · have calls := fits.calls isPrio slot
    rw [countOfScheduleCalls_cons] at calls
    have rise := skips slot
    push_cast at calls
    omega
  · have tickets := fits.tickets
    rw [List.map_cons, List.sum_cons] at tickets
    omega

/-- At the end of the labels the counters are still kept. -/
theorem run (fits : FitsFrom algorithm before labels)
    (ran : (scheduler algorithm).runWithin PartialMachine.anyStep before labels = some after) :
    CountersKept after := by
  induction labels generalizing before with
  | nil =>
      cases ran
      exact fits.kept
  | cons label labels inductionHypothesis =>
      obtain ⟨next, -, stepped, ran⟩ := PartialMachine.runWithin_cons ran
      exact inductionHypothesis (fits.step (scheduler_step stepped).1) ran

end FitsFrom

/-- Over runs of any length that fit, no counter leaves the `int` range and there are tickets
to draw from. -/
theorem counters_in_range (algorithm : Algorithm) (clock : Nat → Timeval) (sched : Sched N)
    (labels : List (Operation × Inputs)) (fits : RunFits algorithm labels)
    (ran : (scheduler algorithm).runWithin PartialMachine.anyStep (gtInit clock) labels =
      some sched) : CountersInRange sched :=
  ((fits.fromInit clock).run ran).inRange

/-- A created thread is passed over until it has aged, runs and returns; the
slots that stay Unused keep their skip counts. -/
def agedRun : List (Operation × Inputs) :=
  [(.gtCreate 2 (some stackAddress), stoppedClock 0), (.schedule, stoppedClock 0),
    (.schedule, stoppedClock 0), (.schedule, stoppedClock 0), (.gtReturn, stoppedClock 0)]

theorem counters_in_range_aged : ∃ sched : Sched maxGThreads,
    ((sched.gtTable 1).state = .unused ∧ (sched.gtTable 4).skipCount = 3 ∧
      sched.totalTickets = 20) ∧ CountersInRange sched := by
  have fits : RunFits .roundRobinPrio agedRun := by
    constructor <;> decide
  obtain ⟨sched, ran, aged⟩ := PartialMachine.exists_run_of_any (scheduler .roundRobinPrio)
    PartialMachine.anyStep (gtInit fun _ => initTimeval) agedRun
    (fun sched : Sched maxGThreads => (sched.gtTable 1).state = .unused ∧
      (sched.gtTable 4).skipCount = 3 ∧ sched.totalTickets = 20)
    (by decide +kernel)
  exact ⟨sched, aged, counters_in_range .roundRobinPrio _ sched agedRun fits ran⟩

/-! ### Where the skip counts go without end -/

/-- The initial thread is the only one, it has scheduled `calls` times under
`round_robin_prio`, and every scan has passed over every slot. -/
structure Idle (calls : Nat) (sched : Sched N) : Prop where
  left : OnlyInitialLeft sched
  running : sched.status = .running
  notReturned : sched.returned = fun _ => false
  skipCount : ∀ slot, (sched.gtTable slot).skipCount = calls

theorem Idle.gtInit (clock : Nat → Timeval) : Idle 0 (gtInit clock : Sched N) := by
  refine ⟨⟨⟨rfl, gtInit_initial clock⟩, fun slot other => ?_⟩, rfl, rfl, fun slot => ?_⟩
  · exact congrArg Gt.state (gtInit_other clock other)
  · exact Table.modify_skipCount rfl slot

/-- One more call of `gt_schedule` raises every skip count. -/
theorem Idle.schedule {calls : Nat} {sched : Sched N} (idle : Idle calls sched) {inputs : Inputs}
    (enough : N ≤ inputs.fuel) : ∃ after,
      (scheduler .roundRobinPrio).step sched (.schedule, inputs) = some after ∧
        Idle (calls + 1) after := by
  obtain ⟨switched, ran, left⟩ := idle.left.gtSchedule .roundRobinPrio enough
  obtain ⟨-, choice, chosen, -, rfl⟩ := gtSchedule_eq_some ran
  have notRunnable (slot : Fin N) :
      (sched.gtTable slot).state ≠ .ready ∧ (sched.gtTable slot).state ≠ .blocked := by
    by_cases isInitial : slot = 0
    · subst isInitial
      simp [idle.left.1.2]
    · simp [idle.left.2 slot isInitial]
  -- The switch comes back to the caller, who is not inside `gt_return`.
  have resumed : resume (switchTo inputs choice sched) = switchTo inputs choice sched := by
    unfold resume
    rw [if_neg fun inside => inside.1 left.1.1]
  refine ⟨switchTo inputs choice sched, ?_, left, idle.running, idle.notReturned, ?_⟩
  · simp [scheduler, perform, reschedule, ran, resumed, idle.running, idle.notReturned]
  · intro slot
    obtain ⟨remaining, positive, oneLap, back⟩ :=
      exists_iterate_eq sched.gtCurrent sched.gtCurrent
    obtain ⟨count, -, lap⟩ := roundRobinPrio_lap (fun slot => (notRunnable slot).2) positive
      oneLap back chosen
    obtain ⟨position, afterStart, inside, rfl⟩ := exists_iterate_eq sched.gtCurrent slot
    obtain ⟨position, rfl⟩ := Nat.exists_eq_add_of_lt afterStart
    rw [Nat.zero_add] at inside ⊢
    rw [switchTo_skipCount, lap.passedOver inside fun earlier _ eligible =>
      (notRunnable _).1 eligible.1]
    have before := idle.skipCount (nextSlot^[position + 1] sched.gtCurrent)
    simp only [passOver, before]
    norm_num

/-- Without another thread the skip counts count the calls. -/
theorem idle_reached (clock : Nat → Timeval) (calls : Nat) : ∃ sched : Sched N,
    (scheduler .roundRobinPrio).Reached (fun _ label => CounterOperation label.1) (gtInit clock)
      sched ∧ Idle calls sched := by
  induction calls with
  | zero => exact ⟨_, .start, .gtInit clock⟩
  | succ calls inductionHypothesis =>
      obtain ⟨sched, reached, idle⟩ := inductionHypothesis
      have enough : N ≤ (⟨clock, 0, 0, N⟩ : Inputs).fuel := le_refl N
      obtain ⟨after, stepped, idle⟩ := idle.schedule enough
      exact ⟨after, .step reached (show CounterOperation .schedule from trivial) stepped, idle⟩

/-- After 2^31 calls of `gt_schedule` by the only thread the skip count of the
Unused slot 1 is no `int` any more. -/
theorem skip_count_overflows :
    ¬ ∀ (algorithm : Algorithm) (sched : Sched maxGThreads),
      (scheduler algorithm).Reached (fun _ label => CounterOperation label.1)
          (gtInit fun _ => initTimeval) sched →
        CountersInRange sched := by
  intro claimed
  obtain ⟨sched, reached, idle⟩ :=
    idle_reached (N := maxGThreads) (fun _ => initTimeval) 2147483648
  have inRange := (claimed .roundRobinPrio sched reached).skipCount 1
  rw [idle.skipCount 1] at inRange
  exact absurd inRange.2 (by decide)

end Ivos.Scheduler
