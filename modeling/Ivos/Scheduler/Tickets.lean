/-
Module: Ivos.Scheduler.Tickets
Purpose: Who owns which tickets over whole runs, and what `lottery` makes of a draw.
Trusted boundary: none
Main exports: Parameters, Gt.parameters, Performed.parameters, Claimed,
  TicketsOwned, Performed.ticketsOwned, OwnsTicket, ticket_ownership
-/
import Ivos.Library.Allotment
import Ivos.Scheduler.QueueAgreement
import Mathlib.Data.Int.ConditionallyCompleteOrder
import Mathlib.Order.ConditionallyCompleteLattice.Basic

namespace Ivos.Scheduler

variable {N : Nat}

/-! ### What stays as `gt_create` set it

A thread keeps its priority and its interval of tickets for life.  A slot keeps them even
beyond it, until `gt_create` uses the slot again.
-/

/-- The fields that `gt_init` and `gt_create` set and nothing else changes. -/
structure Parameters where
  priority : Int
  ticketsLo : Int
  ticketsHi : Int
deriving Repr, DecidableEq

def Gt.parameters (thread : Gt) : Parameters :=
  ⟨thread.priority, thread.ticketsLo, thread.ticketsHi⟩

@[simp] theorem parameters_updateThreadState (now : Timeval) (newState : EState) (thread : Gt) :
    (updateThreadState now newState thread).parameters = thread.parameters := by
  obtain ⟨-, priority, -, ticketsLo, ticketsHi⟩ := updateThreadState_frame now newState thread
  unfold Gt.parameters
  rw [priority, ticketsLo, ticketsHi]

/-- No slot has other parameters. -/
def SameParameters (before after : Table N) : Prop :=
  ∀ slot, (after slot).parameters = (before slot).parameters

theorem SameParameters.trans {first second third : Table N}
    (one : SameParameters first second) (two : SameParameters second third) :
    SameParameters first third :=
  fun slot => (two slot).trans (one slot)

theorem SameParameters.update {gtTable : Table N} {slot : Fin N} {thread : Gt}
    (same : thread.parameters = (gtTable slot).parameters) :
    SameParameters gtTable (Function.update gtTable slot thread) := by
  intro other
  by_cases isSlot : other = slot
  · subst isSlot
    simpa using same
  · simp [isSlot]

theorem SameParameters.modify {gtTable : Table N} {slot : Fin N} {update : Gt → Gt}
    (same : (update (gtTable slot)).parameters = (gtTable slot).parameters) :
    SameParameters gtTable (gtTable.modify slot update) :=
  .update same

theorem getNextThread_parameters {algorithm : Algorithm} {gtTable : Table N} {gtCurrent : Fin N}
    {totalTickets : Int} {draw fuel : Nat} {thread : Fin N} {choice : Choice N}
    (chosen : getNextThread algorithm gtTable gtCurrent totalTickets draw fuel thread =
      some choice) : SameParameters gtTable choice.gtTable := by
  intro slot
  obtain ⟨skipCount, written⟩ := getNextThread_onlySkips chosen slot
  rw [written]
  rfl

theorem switchTo_parameters (inputs : Inputs) (choice : Choice N) (sched : Sched N) :
    SameParameters choice.gtTable (switchTo inputs choice sched).gtTable := by
  have leaves : SameParameters choice.gtTable
      (if leavesRunning (choice.gtTable sched.gtCurrent) then
        choice.gtTable.modify sched.gtCurrent (updateThreadState (inputs.clock 0) .ready)
      else choice.gtTable) := by
    split
    · exact .modify (parameters_updateThreadState ..)
    · exact fun _ => rfl
  have runs (gtTable : Table N) : SameParameters gtTable
      (gtTable.modify choice.thread (updateThreadState (inputs.clock 1) .running)) :=
    .modify (parameters_updateThreadState ..)
  have saves (gtTable : Table N) :
      SameParameters gtTable (gtSwitch inputs.rsp sched.gtCurrent gtTable) := .modify rfl
  exact (leaves.trans (runs _)).trans (saves _)

variable [NeZero N]

theorem reschedule_parameters {algorithm : Algorithm} {inputs : Inputs} {before after : Sched N}
    {result : Bool} (ran : reschedule algorithm inputs before = some (result, after)) :
    SameParameters before.gtTable after.gtTable ∧ after.totalTickets = before.totalTickets := by
  obtain ⟨-, choice, chosen, -, rfl⟩ := reschedule_eq_some ran
  rw [resume_gtTable, resume_totalTickets]
  exact ⟨(getNextThread_parameters chosen).trans (switchTo_parameters inputs choice before), rfl⟩

/-- Apart from `gt_create`, no operation issues tickets or changes a priority. -/
theorem Performed.parameters {algorithm : Algorithm} {operation : Operation} {inputs : Inputs}
    {before after : Sched N} (performed : Performed algorithm inputs before operation after)
    (notCreate : ∀ priority stack, operation ≠ .gtCreate priority stack) :
    SameParameters before.gtTable after.gtTable ∧ after.totalTickets = before.totalTickets := by
  cases performed with
  | created priority stack => exact absurd rfl (notCreate priority stack)
  | scheduled ran => exact reschedule_parameters ran
  | returned notInitial ran =>
      obtain ⟨same, total⟩ := reschedule_parameters ran
      have retired : SameParameters before.gtTable (retire before).gtTable := .modify rfl
      exact ⟨retired.trans same, total⟩
  | awaited isInitial ran =>
      obtain ⟨same, total⟩ := reschedule_parameters ran
      exact ⟨same, total⟩
  | reset | added | passed | raised => exact ⟨fun _ => rfl, rfl⟩
  | queued | woke => exact ⟨.modify (parameters_updateThreadState ..), rfl⟩

/-! ### Issuing tickets

Tickets are issued from `total_tickets` upwards and never taken back, so that the intervals
of two live threads do not meet.  The counter is unbounded here.
-/

theorem clampPriority_range (priority : Int) :
    maxPriority ≤ clampPriority priority ∧ clampPriority priority ≤ minPriority := by
  unfold clampPriority
  split
  · exact ⟨le_refl _, by decide⟩
  · split
    · exact ⟨by decide, le_refl _⟩
    · rename_i notLess notGreater
      exact ⟨not_lt.mp notLess, not_lt.mp notGreater⟩

omit [NeZero N] in
theorem SlotCreated.parameters {before after : Sched N} {slot : Fin N} {priority : Int}
    (created : SlotCreated before after slot priority) :
    (after.gtTable slot).parameters = ⟨clampPriority priority, before.totalTickets,
      before.totalTickets + (minPriority - clampPriority priority)⟩ := by
  unfold Gt.parameters
  rw [created.clamped, created.ticketsLo, created.ticketsHi]

/-- The slot has been claimed, by `gt_init` or `gt_create`, at some time. -/
def Claimed (sched : Sched N) (slot : Fin N) : Prop :=
  (sched.gtTable slot).state ≠ .unused ∨ sched.returned slot

omit [NeZero N] in
/-- `gt_create` claims one slot. -/
theorem SlotCreated.claimed_of_ne {before after : Sched N} {slot other : Fin N} {priority : Int}
    (created : SlotCreated before after slot priority) (different : other ≠ slot) :
    Claimed after other ↔ Claimed before other := by
  unfold Claimed
  rw [created.others other different, created.returned, Function.update_of_ne different]

/-- The tickets of the slots claimed so far. -/
structure TicketsOwned (sched : Sched N) : Prop where
  allotted : Allotted (Claimed sched) (fun slot => (sched.gtTable slot).parameters.ticketsLo)
    (fun slot => (sched.gtTable slot).parameters.ticketsHi) sched.totalTickets
  nonneg : ∀ slot, Claimed sched slot → 0 ≤ (sched.gtTable slot).parameters.ticketsLo
  width : ∀ slot, Claimed sched slot →
    (sched.gtTable slot).parameters.ticketsHi - (sched.gtTable slot).parameters.ticketsLo =
      minPriority - (sched.gtTable slot).parameters.priority
  queued : ∀ slot ∈ sched.queued, Claimed sched slot
  current : Claimed sched sched.gtCurrent
  positive : 0 < sched.totalTickets

namespace TicketsOwned

theorem gtInit (clock : Nat → Timeval) : TicketsOwned (gtInit clock : Sched N) := by
  have onlyInitial (slot : Fin N) (claimed : Claimed (Scheduler.gtInit clock) slot) : slot = 0 := by
    by_contra other
    rcases claimed with used | returned
    · exact used (congrArg Gt.state (gtInit_other clock other))
    · cases returned
  have initial : ((Scheduler.gtInit clock : Sched N).gtTable 0).parameters =
      ⟨maxPriority, maxPriority, minPriority⟩ :=
    congrArg Gt.parameters (Table.modify_self ..)
  have isClaimed : Claimed (Scheduler.gtInit clock : Sched N) 0 := by
    refine .inl ?_
    rw [gtInit_initial]
    exact fun unused => by cases unused
  have total : (Scheduler.gtInit clock : Sched N).totalTickets = 11 := rfl
  constructor
  · constructor
    · intro slot claimed
      rw [onlyInitial slot claimed, initial]
      decide
    · intro slot claimed
      rw [onlyInitial slot claimed, initial, total]
      decide
    · intro first second different claimedFirst claimedSecond
      exact absurd ((onlyInitial first claimedFirst).trans (onlyInitial second claimedSecond).symm)
        different
  · intro slot claimed
    rw [onlyInitial slot claimed, initial]
    decide
  · intro slot claimed
    rw [onlyInitial slot claimed, initial]
  · intro slot member
    cases member
  · exact isClaimed
  · rw [total]
    decide

omit [NeZero N] in
/-- A step that issues no tickets and claims no slot. -/
theorem keep {before after : Sched N} (owned : TicketsOwned before)
    (same : SameParameters before.gtTable after.gtTable)
    (total : after.totalTickets = before.totalTickets)
    (claimed : ∀ slot, Claimed after slot ↔ Claimed before slot)
    (queued : ∀ slot ∈ after.queued, Claimed before slot)
    (current : Claimed before after.gtCurrent) : TicketsOwned after where
  allotted := by
    refine owned.allotted.keep (fun slot => (claimed slot).mp) (fun slot _ => ?_)
      (le_of_eq total.symm)
    rw [same slot]
    exact ⟨rfl, rfl⟩
  nonneg slot isClaimed := by
    rw [same slot]
    exact owned.nonneg slot ((claimed slot).mp isClaimed)
  width slot isClaimed := by
    rw [same slot]
    exact owned.width slot ((claimed slot).mp isClaimed)
  queued slot member := (claimed slot).mpr (queued slot member)
  current := (claimed _).mpr current
  positive := total ▸ owned.positive

omit [NeZero N] in
theorem gtCreate {before : Sched N} (owned : TicketsOwned before) (priority : Int)
    (stack : Option ℕ+) (clock : Nat → Timeval) :
    TicketsOwned (gtCreate priority stack clock before).2 := by
  rcases gtCreate_spec priority stack clock before with same | ⟨slot, created⟩
  · rw [same]
    exact owned
  · generalize (Scheduler.gtCreate priority stack clock before).2 = after at *
    have issued := created.parameters
    have others := created.others
    have total := created.totalTickets
    obtain ⟨-, atMost⟩ := clampPriority_range priority
    have claimedBefore (other : Fin N) (different : other ≠ slot) :
        Claimed after other ↔ Claimed before other := created.claimed_of_ne different
    have keepsClaimed (other : Fin N) (isClaimed : Claimed before other)
        (claimedSlot : Claimed after slot) : Claimed after other := by
      by_cases isSlot : other = slot
      · exact isSlot ▸ claimedSlot
      · exact (claimedBefore other isSlot).mpr isClaimed
    have newlyClaimed : Claimed after slot := by
      refine .inl ?_
      rw [created.isReady]
      exact fun unused => by cases unused
    constructor
    · apply owned.allotted.grant
      · intro other different isClaimed
        rw [others other different]
        exact ⟨(claimedBefore other different).mp isClaimed, rfl, rfl⟩
      · rw [issued]
      · rw [issued]
        dsimp only
        omega
      · rw [issued, total]
        dsimp only
        omega
    · intro other isClaimed
      by_cases isSlot : other = slot
      · rw [isSlot, issued]
        exact owned.positive.le
      · rw [others other isSlot]
        exact owned.nonneg other ((claimedBefore other isSlot).mp isClaimed)
    · intro other isClaimed
      by_cases isSlot : other = slot
      · rw [isSlot, issued]
        dsimp only
        omega
      · rw [others other isSlot]
        exact owned.width other ((claimedBefore other isSlot).mp isClaimed)
    · intro other member
      unfold Sched.queued at member
      rw [created.semaphores] at member
      exact keepsClaimed other (owned.queued other member) newlyClaimed
    · rw [created.gtCurrent]
      exact keepsClaimed _ owned.current newlyClaimed
    · have := owned.positive
      omega

/-- A reschedule claims no slot: what it makes Running was Ready, Running or
current. -/
theorem claimed_reschedule {algorithm : Algorithm} {inputs : Inputs} {before after : Sched N}
    {result : Bool} (current : Claimed before before.gtCurrent)
    (ran : Scheduler.reschedule algorithm inputs before = some (result, after)) (slot : Fin N) :
    Claimed after slot ↔ Claimed before slot := by
  obtain ⟨choice, rescheduled⟩ := reschedule_spec ran
  have chosenBefore : Claimed before choice.thread := by
    rcases rescheduled.sound.readyOrCurrent with ready | running | isCurrent
    · exact .inl (by simp [ready])
    · exact .inl (by simp [running])
    · exact isCurrent ▸ current
  by_cases isChosen : slot = choice.thread
  · subst isChosen
    exact iff_of_true (.inl (by simp [rescheduled.chosenState])) chosenBefore
  · unfold Claimed
    rw [rescheduled.returned]
    refine or_congr_left' fun _ => not_congr ?_
    by_cases isCurrent : slot = before.gtCurrent
    · subst isCurrent
      rw [rescheduled.currentState isChosen]
      split
      · rename_i leaves
        simp [leaves.1]
      · rfl
    · rw [rescheduled.otherState slot isChosen isCurrent]

theorem reschedule {algorithm : Algorithm} {inputs : Inputs} {before after : Sched N}
    {result : Bool} (owned : TicketsOwned before)
    (ran : Scheduler.reschedule algorithm inputs before = some (result, after)) :
    TicketsOwned after := by
  obtain ⟨same, total⟩ := reschedule_parameters ran
  obtain ⟨choice, rescheduled⟩ := reschedule_spec ran
  have claimed := claimed_reschedule owned.current ran
  have running : Claimed after after.gtCurrent := by
    refine .inl ?_
    rw [rescheduled.gtCurrent, rescheduled.chosenState]
    exact fun unused => by cases unused
  apply owned.keep same total claimed
  · intro slot member
    unfold Sched.queued at member
    rw [rescheduled.semaphores] at member
    exact owned.queued slot member
  · exact (claimed _).mp running

omit [NeZero N] in
/-- A claimed slot stays claimed when its thread returns. -/
theorem claimed_retire {before : Sched N} (current : Claimed before before.gtCurrent)
    (slot : Fin N) : Claimed (Scheduler.retire before) slot ↔ Claimed before slot := by
  by_cases isCurrent : slot = before.gtCurrent
  · subst isCurrent
    exact iff_of_true (.inr (by simp [Scheduler.retire])) current
  · simp [Claimed, Scheduler.retire, isCurrent]

omit [NeZero N] in
theorem retire {before : Sched N} (owned : TicketsOwned before) :
    TicketsOwned (retire before) :=
  owned.keep (.modify rfl) rfl (claimed_retire owned.current) owned.queued owned.current

/-- So does the slot of the initial thread when it starts to wait for the others. -/
theorem claimed_await {before : Sched N} (initial : Claimed before 0) (slot : Fin N) :
    Claimed { before with returned := Function.update before.returned 0 true } slot ↔
      Claimed before slot := by
  by_cases isInitial : slot = 0
  · subst isInitial
    exact iff_of_true (.inr (by simp)) initial
  · simp [Claimed, isInitial]

omit [NeZero N] in
/-- New semaphores that queue claimed slots. -/
theorem requeue {before : Sched N} (owned : TicketsOwned before)
    {semaphores : List (Semaphore N)}
    (queued : ∀ slot ∈ semaphores.flatMap Semaphore.queue, Claimed before slot) :
    TicketsOwned { before with semaphores := semaphores } :=
  owned.keep (fun _ => rfl) rfl (fun _ => Iff.rfl) queued owned.current

omit [NeZero N] in
/-- Changing the state of a claimed slot. -/
theorem claimed_enter {before : Sched N} {slot : Fin N} (isClaimed : Claimed before slot)
    (now : Timeval) {newState : EState} (used : newState ≠ .unused) (other : Fin N) :
    Claimed { before with
      gtTable := before.gtTable.modify slot (updateThreadState now newState) } other ↔
      Claimed before other := by
  by_cases isSlot : other = slot
  · subst isSlot
    exact iff_of_true (.inl (by simpa using used)) isClaimed
  · simp [Claimed, isSlot]

omit [NeZero N] in
theorem enter {before : Sched N} (owned : TicketsOwned before) {slot : Fin N}
    (isClaimed : Claimed before slot) (now : Timeval) {newState : EState}
    (used : newState ≠ .unused) :
    TicketsOwned { before with
      gtTable := before.gtTable.modify slot (updateThreadState now newState) } :=
  owned.keep (.modify (parameters_updateThreadState ..)) rfl (claimed_enter isClaimed now used)
    owned.queued owned.current

end TicketsOwned

/-- Every operation keeps the tickets of the claimed slots. -/
theorem Performed.ticketsOwned {algorithm : Algorithm} {operation : Operation} {inputs : Inputs}
    {before after : Sched N} (performed : Performed algorithm inputs before operation after)
    (owned : TicketsOwned before) : TicketsOwned after := by
  have blockedUsed : EState.blocked ≠ .unused := fun same => by cases same
  have readyUsed : EState.ready ≠ .unused := fun same => by cases same
  cases performed with
  | created priority stack => exact owned.gtCreate priority stack inputs.clock
  | scheduled ran => exact owned.reschedule ran
  | returned notInitial ran => exact owned.retire.reschedule ran
  | awaited isInitial ran =>
      refine TicketsOwned.reschedule ?_ ran
      exact owned.keep (fun _ => rfl) rfl
        (TicketsOwned.claimed_await (isInitial ▸ owned.current)) owned.queued owned.current
  | reset inside =>
      apply owned.requeue
      intro slot member
      rcases mem_queued_set member with inNew | old
      · cases inNew
      · exact owned.queued slot old
  | added next =>
      apply owned.requeue
      intro slot member
      exact owned.queued slot (by simpa [Sched.queued] using member)
  | passed found positive =>
      apply owned.requeue
      intro slot member
      rcases mem_queued_set member with inNew | old
      · exact owned.queued slot (mem_queued_of_found found inNew)
      · exact owned.queued slot old
  | queued found noPermit =>
      have blocked := owned.enter owned.current (inputs.clock 0) blockedUsed
      apply blocked.requeue
      intro slot member
      rcases mem_queued_set member with inNew | old
      · rcases List.mem_append.mp inNew with before | isCurrent
        · exact blocked.queued slot (mem_queued_of_found found before)
        · obtain rfl := List.mem_singleton.mp isCurrent
          exact blocked.current
      · exact blocked.queued slot old
  | raised found noWaiter =>
      apply owned.requeue
      intro slot member
      rcases mem_queued_set member with inNew | old
      · exact owned.queued slot (mem_queued_of_found found inNew)
      · exact owned.queued slot old
  | woke found waiter =>
      have inQueue : _ ∈ before.queued := mem_queued_of_found found (waiter ▸ List.mem_cons_self)
      have woken := owned.enter (owned.queued _ inQueue) (inputs.clock 0) readyUsed
      apply woken.requeue
      intro slot member
      rcases mem_queued_set member with inNew | old
      · exact woken.queued slot (mem_queued_of_found found (waiter ▸ List.mem_cons_of_mem _ inNew))
      · exact woken.queued slot old

/-- Apart from `gt_create`, no operation claims a slot. -/
theorem Performed.claimed {algorithm : Algorithm} {operation : Operation} {inputs : Inputs}
    {before after : Sched N} (performed : Performed algorithm inputs before operation after)
    (owned : TicketsOwned before)
    (notCreate : ∀ priority stack, operation ≠ .gtCreate priority stack)
    (slot : Fin N) : Claimed after slot ↔ Claimed before slot := by
  have blockedUsed : EState.blocked ≠ .unused := fun same => by cases same
  have readyUsed : EState.ready ≠ .unused := fun same => by cases same
  cases performed with
  | created priority stack => exact absurd rfl (notCreate priority stack)
  | scheduled ran => exact TicketsOwned.claimed_reschedule owned.current ran slot
  | returned notInitial ran =>
      have retired := TicketsOwned.claimed_retire owned.current
      exact (TicketsOwned.claimed_reschedule ((retired _).mpr owned.current) ran slot).trans
        (retired slot)
  | awaited isInitial ran =>
      have marked := TicketsOwned.claimed_await (isInitial ▸ owned.current)
      exact (TicketsOwned.claimed_reschedule ((marked _).mpr owned.current) ran slot).trans
        (marked slot)
  | reset | added | passed | raised => exact Iff.rfl
  | queued => exact TicketsOwned.claimed_enter owned.current (inputs.clock 0) blockedUsed slot
  | woke found waiter =>
      have inQueue : _ ∈ before.queued := mem_queued_of_found found (waiter ▸ List.mem_cons_self)
      exact TicketsOwned.claimed_enter (owned.queued _ inQueue) (inputs.clock 0) readyUsed slot

/-- In every run the tickets of the claimed slots are in order. -/
theorem ticketsOwned_of_reached {algorithm : Algorithm} {clock : Nat → Timeval} {sched : Sched N}
    (reached : (scheduler algorithm).Reached PartialMachine.anyStep (gtInit clock) sched) :
    TicketsOwned sched := by
  apply reached.invariant (TicketsOwned.gtInit clock)
  intro before label after owned _ stepped
  obtain ⟨performed, -, -⟩ := scheduler_step stepped
  exact performed.ticketsOwned owned

/-! ### What a draw selects -/

/-- The slot is not Unused and the ticket is in its interval. -/
def OwnsTicket (ticket : Int) (thread : Gt) : Prop :=
  thread.state ≠ .unused ∧ thread.ticketsLo ≤ ticket ∧ ticket ≤ thread.ticketsHi

instance (ticket : Int) (thread : Gt) : Decidable (OwnsTicket ticket thread) :=
  inferInstanceAs (Decidable (_ ∧ _))

theorem holdsTicket_iff (ticket : Int) (thread : Gt) :
    holdsTicket ticket thread ↔
      OwnsTicket ticket thread ∧ (thread.state = .ready ∨ thread.state = .running) := by
  constructor
  · intro ⟨runnable, atLeast, atMost⟩
    refine ⟨⟨?_, atLeast, atMost⟩, runnable⟩
    rcases runnable with ready | running
    · simp [ready]
    · simp [running]
  · intro ⟨⟨_, atLeast, atMost⟩, runnable⟩
    exact ⟨runnable, atLeast, atMost⟩

omit [NeZero N] in
/-- The scan of `lottery` finds the only slot that can win, wherever it stands in
the table. -/
theorem ticketOwner_eq {gtTable : Table N} {ticket : Int} {owner : Fin N}
    (owns : OwnsTicket ticket (gtTable owner))
    (runnable : (gtTable owner).state = .ready ∨ (gtTable owner).state = .running)
    (unique : ∀ slot, OwnsTicket ticket (gtTable slot) → slot = owner) :
    ticketOwner gtTable ticket = some owner := by
  cases drawn : ticketOwner gtTable ticket with
  | some slot =>
      obtain ⟨-, holds⟩ := ticketOwner_holds drawn
      rw [unique slot ((holdsTicket_iff ..).mp holds).1]
  | none =>
      have missed := List.find?_eq_none.mp drawn owner (List.mem_finRange owner)
      have notBlocked : (gtTable owner).state ≠ .blocked := by
        rcases runnable with ready | running
        · simp [ready]
        · simp [running]
      have holds := (holdsTicket_iff ..).mpr ⟨owns, runnable⟩
      exact absurd (decide_eq_true ⟨notBlocked, holds⟩) missed

omit [NeZero N] in
theorem ticketOwner_eq_none {gtTable : Table N} {ticket : Int}
    (noWinner : ∀ slot, OwnsTicket ticket (gtTable slot) →
      (gtTable slot).state ≠ .ready ∧ (gtTable slot).state ≠ .running) :
    ticketOwner gtTable ticket = none := by
  cases drawn : ticketOwner gtTable ticket with
  | none => rfl
  | some slot =>
      obtain ⟨-, holds⟩ := ticketOwner_holds drawn
      obtain ⟨owns, runnable⟩ := (holdsTicket_iff ..).mp holds
      obtain ⟨notReady, notRunning⟩ := noWinner slot owns
      exact (runnable.elim notReady notRunning).elim

/-- The tickets of the slots that are not Unused. -/
structure LiveTickets (sched : Sched N) : Prop where
  inRange : ∀ slot, (sched.gtTable slot).state ≠ .unused →
    0 ≤ (sched.gtTable slot).ticketsLo ∧
    (sched.gtTable slot).ticketsLo ≤ (sched.gtTable slot).ticketsHi ∧
    (sched.gtTable slot).ticketsHi < sched.totalTickets
  width : ∀ slot, (sched.gtTable slot).state ≠ .unused →
    (sched.gtTable slot).ticketsHi - (sched.gtTable slot).ticketsLo + 1 =
      minPriority - (sched.gtTable slot).priority + 1 ∧
    1 ≤ minPriority - (sched.gtTable slot).priority + 1
  disjoint : ∀ first second, first ≠ second → (sched.gtTable first).state ≠ .unused →
    (sched.gtTable second).state ≠ .unused →
    (sched.gtTable first).ticketsHi < (sched.gtTable second).ticketsLo ∨
      (sched.gtTable second).ticketsHi < (sched.gtTable first).ticketsLo

/-- What `lottery` selects when `rand()` leaves `ticket`: the one live owner if it
can run, and the choice of `round_robin` if no live owner can. -/
structure FollowsOwner (sched : Sched N) (ticket : Int)
    (select : Nat → Fin N → Option (Choice N)) : Prop where
  inRange : 0 ≤ ticket ∧ ticket < sched.totalTickets
  unique : ∀ first second, OwnsTicket ticket (sched.gtTable first) →
    OwnsTicket ticket (sched.gtTable second) → first = second
  owner : ∀ slot, OwnsTicket ticket (sched.gtTable slot) →
    (sched.gtTable slot).state = .ready ∨ (sched.gtTable slot).state = .running →
    ∀ fuel thread, select fuel thread = some ⟨true, slot, sched.gtTable⟩
  fallback : (∀ slot, OwnsTicket ticket (sched.gtTable slot) →
      (sched.gtTable slot).state ≠ .ready ∧ (sched.gtTable slot).state ≠ .running) →
    ∀ fuel thread, select fuel thread = roundRobin sched.gtTable sched.gtCurrent fuel thread

omit [NeZero N] in
theorem TicketsOwned.liveTickets {sched : Sched N} (owned : TicketsOwned sched) :
    LiveTickets sched where
  inRange slot live :=
    ⟨owned.nonneg slot (.inl live), owned.allotted.ordered slot (.inl live),
      owned.allotted.below slot (.inl live)⟩
  width slot live := by
    have width := owned.width slot (.inl live)
    have ordered := owned.allotted.ordered slot (.inl live)
    simp only [Gt.parameters] at width ordered
    omega
  disjoint first second different firstLive secondLive :=
    owned.allotted.apart first second different (.inl firstLive) (.inl secondLive)

omit [NeZero N] in
theorem TicketsOwned.followsOwner {sched : Sched N} (owned : TicketsOwned sched) (draw : Nat) :
    FollowsOwner sched ((draw : Int).tmod sched.totalTickets)
      (lottery sched.gtTable sched.gtCurrent sched.totalTickets draw) := by
  have unique (first second : Fin N)
      (ownsFirst : OwnsTicket ((draw : Int).tmod sched.totalTickets) (sched.gtTable first))
      (ownsSecond : OwnsTicket ((draw : Int).tmod sched.totalTickets) (sched.gtTable second)) :
      first = second :=
    owned.allotted.owner_unique (.inl ownsFirst.1) (.inl ownsSecond.1) ownsFirst.2 ownsSecond.2
  constructor
  · exact ⟨Int.tmod_nonneg _ (Int.natCast_nonneg draw), Int.tmod_lt_of_pos _ owned.positive⟩
  · exact unique
  · intro slot owns runnable fuel thread
    simp only [lottery, ticketOwner_eq owns runnable fun other ownsOther =>
      unique other slot ownsOther owns]
  · intro noWinner fuel thread
    simp only [lottery, ticketOwner_eq_none noWinner]

/-- Over every run the live slots own disjoint tickets of the right number below
the counter, and every draw selects its live owner if that one can run and what
`round_robin` selects if not. -/
theorem ticket_ownership (algorithm : Algorithm) (clock : Nat → Timeval) (sched : Sched N)
    (reached : (scheduler algorithm).Reached PartialMachine.anyStep (gtInit clock) sched) :
    LiveTickets sched ∧ ∀ draw : Nat,
      FollowsOwner sched ((draw : Int).tmod sched.totalTickets)
        (lottery sched.gtTable sched.gtCurrent sched.totalTickets draw) := by
  have owned := ticketsOwned_of_reached reached
  exact ⟨owned.liveTickets, owned.followsOwner⟩

/-- A slot is created with priority 3, given up and created again with priority
-1: it then owns the eleven tickets behind those of its first life. -/
theorem ticket_ownership_reused : ∃ sched : Sched maxGThreads,
    ((sched.gtTable 1).state = .ready ∧ (sched.gtTable 1).ticketsLo = 19 ∧
      (sched.gtTable 1).ticketsHi = 29) ∧
    LiveTickets sched ∧ ∀ draw : Nat,
      FollowsOwner sched ((draw : Int).tmod sched.totalTickets)
        (lottery sched.gtTable sched.gtCurrent sched.totalTickets draw) := by
  obtain ⟨sched, reached, reused⟩ := PartialMachine.exists_reached_of_any
    (scheduler .lottery) PartialMachine.anyStep (gtInit fun _ => initTimeval)
    [(.gtCreate 3 (some 0x1000), stoppedClock 0), (.schedule, stoppedClock 11),
      (.gtReturn, stoppedClock 0), (.gtCreate (-1) (some 0x500000), stoppedClock 0)]
    (fun sched : Sched maxGThreads => (sched.gtTable 1).state = .ready ∧
      (sched.gtTable 1).ticketsLo = 19 ∧ (sched.gtTable 1).ticketsHi = 29)
    (by decide)
  exact ⟨sched, reused, ticket_ownership .lottery _ sched reached⟩

end Ivos.Scheduler
